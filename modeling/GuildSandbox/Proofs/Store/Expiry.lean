import GuildSandbox.Proofs.Store.Agreement
import GuildSandbox.Proofs.Store.Lookup

/-!
Dropping expired entries cannot be observed.

An archive never drops an entry because it has expired. Each of its operations looks at the clock
instead, and what has expired does not exist for it. A keyspace drops expired entries whenever it is
written to, whether that succeeds or not. Both answer every history in the order of time alike, since
they show the same entries at each instant.
-/

set_option autoImplicit false
set_option relaxedAutoImplicit false

namespace GuildSandbox

open Time (Instant)

/-- What an operation answers on the keyspace of its guild, and what it leaves of it. -/
def StoreOperation.onKeyspace (space : Keyspace) (now : Instant) :
    StoreOperation → Except StoreError StoreReply × Keyspace
  | .set entry maxKeys =>
    ((space.set entry maxKeys now).1.map fun _ => .written, (space.set entry maxKeys now).2)
  | .update guild key maxKeys next =>
    ((space.update guild key maxKeys next now).1.map .updated,
      (space.update guild key maxKeys next now).2)
  | .get _ key => (.ok (.found (space.get? key now)), space)
  | .delete _ key => (.ok (.found (space.delete key now).1), (space.delete key now).2)
  | .count _ => (.ok (.counted (space.count now)), space)
  | .search _ pattern => (.ok (.matched (space.search pattern now)), space)

def Keyspace.replies (space : Keyspace) :
    List (Instant × StoreOperation) → List (Except StoreError StoreReply)
  | [] => []
  | (now, o) :: rest =>
    (o.onKeyspace space now).1 :: Keyspace.replies (o.onKeyspace space now).2 rest

/-- Entries by key, in key order, of which some may have expired. -/
abbrev Archive := Dict Entry

namespace Archive

/-- The entry under a key, if there is one that exists at the instant. -/
def existing? (archive : Archive) (key : String) (now : Instant) : Option Entry :=
  match Dict.find? key archive with
  | some entry => if entry.isExpired now then none else some entry
  | none => none

def existing (archive : Archive) (now : Instant) : List Entry :=
  (archive.map Prod.snd).filter fun entry => !entry.isExpired now

/-- What an operation answers on an archive, and what it leaves of it. -/
def answer (archive : Archive) (now : Instant) :
    StoreOperation → Except StoreError StoreReply × Archive
  | .set entry maxKeys =>
    match archive.existing? entry.key now with
    | some old =>
      (.ok .written, Dict.insert entry.key { entry with createdAt := old.createdAt } archive)
    | none =>
      if maxKeys ≤ (archive.existing now).length then (.error (.quotaExceeded maxKeys), archive)
      else (.ok .written, Dict.insert entry.key entry archive)
  | .update guild key maxKeys next =>
    match archive.existing? key now with
    | some old =>
      match next (some old) with
      | .ok value =>
        let entry := { old with value := value, updatedAt := now }
        (.ok (.updated entry), Dict.insert key entry archive)
      | .error e => (.error e, archive)
    | none =>
      if maxKeys ≤ (archive.existing now).length then (.error (.quotaExceeded maxKeys), archive)
      else match next none with
        | .ok value =>
          let entry : Entry :=
            { guild := guild, key := key, value := value, createdAt := now, updatedAt := now }
          (.ok (.updated entry), Dict.insert key entry archive)
        | .error e => (.error e, archive)
  | .get _ key => (.ok (.found (archive.existing? key now)), archive)
  | .delete _ key =>
    match archive.existing? key now with
    | some entry => (.ok (.found (some entry)), Dict.erase key archive)
    | none => (.ok (.found none), archive)
  | .count _ => (.ok (.counted (archive.existing now).length), archive)
  | .search _ pattern =>
    (.ok (.matched ((archive.existing now).filter fun entry => Pattern.isMatch pattern entry.key)),
      archive)

def replies (archive : Archive) :
    List (Instant × StoreOperation) → List (Except StoreError StoreReply)
  | [] => []
  | (now, o) :: rest => (archive.answer now o).1 :: replies (archive.answer now o).2 rest

private theorem existing?_eq_get? (archive : Archive) (key : String) (now : Instant) :
    archive.existing? key now = Keyspace.get? archive key now := by
  rw [existing?, Keyspace.get?]
  cases Dict.find? key archive with
  | none => rfl
  | some entry =>
    cases expired : entry.isExpired now <;> simp [Option.filter, Entry.isLive, expired]

private theorem existing_eq_entries (archive : Archive) (now : Instant) :
    archive.existing now = (Keyspace.purge archive now).entries := by
  rw [existing, Keyspace.entries, Keyspace.purge, List.filter_map]
  rfl

private theorem length_existing (archive : Archive) (now : Instant) :
    (archive.existing now).length = Keyspace.count archive now := by
  rw [existing_eq_entries, Keyspace.entries, List.length_map, Keyspace.count]

end Archive

structure LiveAlike (now : Instant) (space : Keyspace) (archive : Archive) : Prop where
  left : Dict.Ordered space
  right : Dict.Ordered archive
  live : space.purge now = Keyspace.purge archive now

namespace LiveAlike

variable {now : Instant} {space : Keyspace} {archive : Archive}

private theorem later (alike : LiveAlike now space archive) {t : Instant} (order : now ≤ t) :
    LiveAlike t space archive := by
  refine ⟨alike.left, alike.right, ?_⟩
  rw [← Keyspace.purge_purge order, alike.live, Keyspace.purge_purge order]

private theorem get?_eq_existing? (alike : LiveAlike now space archive) (key : String) :
    space.get? key now = archive.existing? key now := by
  rw [Archive.existing?_eq_get?]
  exact (Keyspace.purge_eq_iff alike.left alike.right).1 alike.live key

private theorem count_eq (alike : LiveAlike now space archive) :
    space.count now = (archive.existing now).length := by
  rw [Archive.length_existing, Keyspace.count, Keyspace.count, alike.live]

private theorem search_eq (alike : LiveAlike now space archive) (pattern : String) :
    space.search pattern now =
      (archive.existing now).filter fun entry => Pattern.isMatch pattern entry.key := by
  rw [Keyspace.search, alike.live, Archive.existing_eq_entries]

private theorem purge (alike : LiveAlike now space archive) :
    LiveAlike now (space.purge now) archive :=
  ⟨Keyspace.ordered_purge alike.left now, alike.right,
    (Keyspace.purge_self space now).trans alike.live⟩

private theorem insert (alike : LiveAlike now space archive) (key : String) (entry : Entry) :
    LiveAlike now (Dict.insert key entry space) (Dict.insert key entry archive) := by
  refine ⟨Dict.ordered_insert alike.left, Dict.ordered_insert alike.right, ?_⟩
  refine (Keyspace.purge_eq_iff (Dict.ordered_insert alike.left)
    (Dict.ordered_insert alike.right)).2 fun other => ?_
  by_cases same : other = key
  · subst same
    rw [Keyspace.get?_insert_self, Keyspace.get?_insert_self]
  · rw [Keyspace.get?_insert_of_ne same, Keyspace.get?_insert_of_ne same,
      alike.get?_eq_existing?, Archive.existing?_eq_get?]

private theorem erase (alike : LiveAlike now space archive) (key : String) :
    LiveAlike now (Dict.erase key space) (Dict.erase key archive) := by
  refine ⟨Dict.ordered_erase alike.left, Dict.ordered_erase alike.right, ?_⟩
  refine (Keyspace.purge_eq_iff (Dict.ordered_erase alike.left)
    (Dict.ordered_erase alike.right)).2 fun other => ?_
  by_cases same : other = key
  · subst same
    rw [Keyspace.get?_erase_self alike.left, Keyspace.get?_erase_self alike.right]
  · rw [Keyspace.get?_erase_of_ne alike.left same, Keyspace.get?_erase_of_ne alike.right same,
      alike.get?_eq_existing?, Archive.existing?_eq_get?]

private theorem erase_absent (alike : LiveAlike now space archive) {key : String}
    (absent : archive.existing? key now = none) :
    LiveAlike now (Dict.erase key (space.purge now)) archive := by
  have gone : Dict.find? key (space.purge now) = none := by
    rw [Keyspace.find?_purge_eq_get? alike.left, alike.get?_eq_existing?, absent]
  rw [Dict.erase_of_find?_eq_none (Keyspace.ordered_purge alike.left now) gone]
  exact alike.purge

private theorem isFull_eq (alike : LiveAlike now space archive) (key : String) (maxKeys : Nat) :
    space.isFull key maxKeys now =
      ((archive.existing? key now).isNone && decide (maxKeys ≤ (archive.existing now).length)) := by
  rw [Keyspace.isFull, alike.get?_eq_existing?, alike.count_eq]

private theorem answer (alike : LiveAlike now space archive) (o : StoreOperation) :
    (o.onKeyspace space now).1 = (archive.answer now o).1 ∧
      LiveAlike now (o.onKeyspace space now).2 (archive.answer now o).2 := by
  cases o with
  | get guild key =>
    refine ⟨?_, alike⟩
    simp only [StoreOperation.onKeyspace, Archive.answer, alike.get?_eq_existing?]
  | count guild =>
    refine ⟨?_, alike⟩
    simp only [StoreOperation.onKeyspace, Archive.answer, alike.count_eq]
  | search guild pattern =>
    refine ⟨?_, alike⟩
    simp only [StoreOperation.onKeyspace, Archive.answer, alike.search_eq]
  | delete guild key =>
    -- The keyspace is written even when nothing exists under the key, the archive is not.
    simp only [StoreOperation.onKeyspace, Archive.answer, Keyspace.delete_eq alike.left,
      alike.get?_eq_existing?]
    cases found : archive.existing? key now with
    | some entry => exact ⟨rfl, alike.purge.erase key⟩
    | none => exact ⟨rfl, alike.erase_absent found⟩
  | set entry maxKeys =>
    simp only [StoreOperation.onKeyspace, Archive.answer, Keyspace.set_eq alike.left,
      alike.isFull_eq, alike.get?_eq_existing?]
    cases archive.existing? entry.key now with
    | some old => exact ⟨rfl, alike.purge.insert _ _⟩
    | none =>
      by_cases full : maxKeys ≤ (archive.existing now).length
      · simp only [full, decide_true, Option.isNone_none, Bool.and_self, if_true]
        exact ⟨rfl, alike.purge⟩
      · simp only [full, decide_false, Bool.and_false, if_false]
        exact ⟨rfl, alike.purge.insert _ _⟩
  | update guild key maxKeys next =>
    simp only [StoreOperation.onKeyspace, Archive.answer, Keyspace.update_eq alike.left,
      alike.isFull_eq, alike.get?_eq_existing?]
    cases archive.existing? key now with
    | some old =>
      cases made : next (some old) with
      | ok value => simpa [made] using ⟨rfl, alike.purge.insert _ _⟩
      | error e => simpa [made] using ⟨rfl, alike.purge⟩
    | none =>
      by_cases full : maxKeys ≤ (archive.existing now).length
      · simp only [full, decide_true, Option.isNone_none, Bool.and_self, if_true]
        exact ⟨rfl, alike.purge⟩
      · cases made : next none with
        | ok value => simpa [full, made] using ⟨rfl, alike.purge.insert _ _⟩
        | error e => simpa [full, made] using ⟨rfl, alike.purge⟩

end LiveAlike

private theorem replies_eq_of_alike {history : List (Instant × StoreOperation)}
    (order : (history.map Prod.fst).Pairwise (· ≤ ·)) {space : Keyspace} {archive : Archive}
    (alike : ∀ now ∈ history.map Prod.fst, LiveAlike now space archive) :
    space.replies history = archive.replies history := by
  induction history generalizing space archive with
  | nil => rfl
  | cons event rest ih =>
    obtain ⟨now, o⟩ := event
    obtain ⟨first, orderRest⟩ := List.pairwise_cons.1 order
    obtain ⟨same, after⟩ := (alike now List.mem_cons_self).answer o
    rw [Keyspace.replies, Archive.replies, same,
      ih orderRest fun later member => after.later (first later member)]

/-- A keyspace and an archive of the same entries, expired or not, give the same answers to every
history of operations in the order of time. -/
theorem Keyspace.replies_eq_archive {space : Keyspace} (ordered : Dict.Ordered space)
    {history : List (Instant × StoreOperation)}
    (order : (history.map Prod.fst).Pairwise (· ≤ ·)) :
    space.replies history = Archive.replies space history :=
  replies_eq_of_alike order fun _ _ => ⟨ordered, ordered, rfl⟩

/-- An entry that expired at second 5, one that expires at second 10, and one for good. -/
def mixedKeyspace : Keyspace :=
  [("gone", { guild := "1", key := "gone", value := "1", expiresAt := some ⟨5, 0⟩
              createdAt := ⟨0, 0⟩, updatedAt := ⟨0, 0⟩ }),
    ("stays", { guild := "1", key := "stays", value := "2", createdAt := ⟨0, 0⟩
                updatedAt := ⟨0, 0⟩ }),
    ("temp", { guild := "1", key := "temp", value := "3", expiresAt := some ⟨10, 0⟩
               createdAt := ⟨0, 0⟩, updatedAt := ⟨0, 0⟩ })]

/-- The entry that expires is revised at that instant, one is refused, and another one is written
that has already expired. -/
def mixedHistory : List (Instant × StoreOperation) :=
  let late : Entry :=
    { guild := "1", key := "late", value := "4", expiresAt := some ⟨10, 0⟩, createdAt := ⟨10, 0⟩
      updatedAt := ⟨10, 0⟩ }
  [(⟨9, 999999999⟩, .count "1"), (⟨10, 0⟩, .update "1" "temp" 2 fun _ => .ok "5"),
    (⟨10, 0⟩, .set late 2), (⟨10, 0⟩, .set late 3), (⟨10, 0⟩, .delete "1" "late"),
    (⟨11, 0⟩, .search "1" "%")]

theorem mixedKeyspace_replies :
    Dict.Ordered mixedKeyspace ∧ (mixedHistory.map Prod.fst).Pairwise (· ≤ ·) ∧
      mixedKeyspace.replies mixedHistory = Archive.replies mixedKeyspace mixedHistory := by
  have ordered : Dict.Ordered mixedKeyspace := by
    rw [Dict.ordered_iff_keys]
    decide +kernel
  have order : (mixedHistory.map Prod.fst).Pairwise (· ≤ ·) := by decide
  exact ⟨ordered, order, Keyspace.replies_eq_archive ordered order⟩

end GuildSandbox
