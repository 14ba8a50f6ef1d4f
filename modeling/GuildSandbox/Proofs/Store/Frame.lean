import GuildSandbox.Proofs.Store.Commands
import GuildSandbox.Proofs.Store.Labels

set_option autoImplicit false
set_option relaxedAutoImplicit false

namespace GuildSandbox

open Time (Instant)

private theorem Dict.erase_insert {α : Type} (key : String) (value : α) (d : Dict α) :
    erase key (insert key value d) = erase key d := by
  induction d with
  | nil => simp [insert, erase]
  | cons p rest ih =>
    obtain ⟨k, v⟩ := p
    simp only [insert]
    split
    next => simp [erase]
    next =>
      split
      next here => simp [erase, here]
      next other =>
        have kept (d : Dict α) : erase key ((k, v) :: d) = (k, v) :: erase key d := by
          simp [erase, other]
        rw [kept, kept, ih]

namespace Keyspace

variable {key : String} {now : Instant} {space left : Keyspace}

theorem erase_purge (key : String) (space : Keyspace) (now : Instant) :
    purge (Dict.erase key space) now = Dict.erase key (space.purge now) :=
  List.filter_comm ..

def ReworkedAt (key : String) (now : Instant) (space left : Keyspace) : Prop :=
  left = space.purge now ∨ left = Dict.erase key (space.purge now) ∨
    ∃ entry, left = Dict.insert key entry (space.purge now) ∧ (space.WellFormed → entry.key = key)

private theorem ReworkedAt.erase_eq (reworked : ReworkedAt key now space left) :
    Dict.erase key left = Dict.erase key (space.purge now) := by
  obtain rfl | rfl | ⟨entry, rfl, -⟩ := reworked
  · rfl
  · simp [Dict.erase, List.filter_filter]
  · exact Dict.erase_insert key entry _

private theorem ReworkedAt.ordered (reworked : ReworkedAt key now space left)
    (formed : space.WellFormed) :
    Dict.Ordered left := by
  have live := formed.filter fun p => p.2.isLive now
  obtain rfl | rfl | ⟨entry, rfl, -⟩ := reworked
  · exact live.ordered
  · exact Dict.ordered_erase live.ordered
  · exact Dict.ordered_insert live.ordered

private theorem ReworkedAt.keyed (reworked : ReworkedAt key now space left)
    (formed : space.WellFormed) :
    ∀ p ∈ left, p.2.key = p.1 := by
  have live := formed.filter fun p => p.2.isLive now
  obtain rfl | rfl | ⟨entry, rfl, named⟩ := reworked
  · exact live.keyed
  · exact (live.filter _).keyed
  · intro p member
    rcases Dict.mem_insert member with rfl | member
    · exact named formed
    · exact live.keyed p member

private theorem reworkedAt_set (entry : Entry) (maxKeys : Nat) (now : Instant) (space : Keyspace) :
    ReworkedAt entry.key now space (space.set entry maxKeys now).2 := by
  simp only [set]
  split
  next old found => exact .inr (.inr ⟨_, rfl, fun _ => rfl⟩)
  next absent =>
    split
    · exact .inl rfl
    · exact .inr (.inr ⟨_, rfl, fun _ => rfl⟩)

private theorem reworkedAt_update (guild key : String) (maxKeys : Nat)
    (next : Option Entry → Except StoreError String) (now : Instant) (space : Keyspace) :
    ReworkedAt key now space (space.update guild key maxKeys next now).2 := by
  simp only [update]
  split
  next entry written =>
    refine .inr (.inr ⟨entry, rfl, fun formed => ?_⟩)
    have live := formed.filter fun p => p.2.isLive now
    obtain ⟨old, value, found, -, rfl⟩ | ⟨value, -, -, -, rfl⟩ := updated_cases written
    · exact (live.find? found).1
    · rfl
  next => exact .inl rfl

private theorem reworkedAt_delete (key : String) (now : Instant) (space : Keyspace) :
    ReworkedAt key now space (space.delete key now).2 := .inr (.inl rfl)

/-- The keyspace as it comes back from a file: an entry whose instants do not survive is lost. -/
def reread (space : Keyspace) : Keyspace :=
  space.filterMap fun p => (Entry.ofJson? p.2.toJson).map fun e => (p.1, e)

private theorem ordered_reread (ordered : Dict.Ordered space) : Dict.Ordered space.reread := by
  refine List.Pairwise.filterMap _ (fun p q before a read b readThere => ?_) ordered
  obtain ⟨_, -, rfl⟩ := Option.map_eq_some_iff.1 read
  obtain ⟨_, -, rfl⟩ := Option.map_eq_some_iff.1 readThere
  exact before

private theorem reread_of_valid (valid : ∀ p ∈ space, p.2.Valid) : space.reread = space := by
  have reads : ∀ p ∈ space, (Entry.ofJson? p.2.toJson).map (fun e => (p.1, e)) = some p := by
    intro p member
    rw [Entry.ofJson?_toJson (valid p member)]
    rfl
  rw [reread, List.filterMap_congr reads, List.filterMap_some]

private theorem erase_reread (key : String) (space : Keyspace) :
    Dict.erase key space.reread = reread (Dict.erase key space) := by
  rw [Dict.erase, Dict.erase, reread, reread, List.filter_filterMap, List.filterMap_filter]
  refine List.filterMap_congr fun p _ => ?_
  by_cases same : p.1 = key
  · cases Entry.ofJson? p.2.toJson <;> simp [same]
  · cases Entry.ofJson? p.2.toJson <;> simp [same]

end Keyspace

private theorem GuildFile.load_textOfEntries {space : Keyspace} (ordered : Dict.Ordered space)
    (keyed : ∀ p ∈ space, p.2.key = p.1) :
    (GuildFile.text (textOfEntries space.entries)).load = .ok space.reread := by
  have named : ∀ p ∈ space, (entryOfLine? (Json.render p.2.toJson)).map (fun e => (e.key, e)) =
      (Entry.ofJson? p.2.toJson).map fun e => (p.1, e) := by
    intro p member
    rw [entryOfLine?_render_eq]
    cases back : Entry.ofJson? p.2.toJson with
    | none => rfl
    | some e =>
      have same := (Entry.names_of_ofJson? back).2.trans (keyed p member)
      exact congrArg (fun k => some (k, e)) same
  have pairs : (entriesOfText (textOfEntries space.entries)).map (fun e => (e.key, e)) =
      space.reread := by
    rw [entriesOfText, lines_textOfEntries, Keyspace.entries, List.map_map, List.filterMap_map,
      List.map_filterMap]
    exact List.filterMap_congr named
  rw [load, Keyspace.ofEntries, pairs,
    Dict.ofPairs_of_ordered (Keyspace.ordered_reread ordered)]

namespace Store

variable {s kept : Store} {guild key : String} {space left : Keyspace} {now : Instant}
  {changed : Bool} {α β : Type}

/-- The stores hold the same for all other guilds, and from an instant on they show the same entries
under all other keys. -/
structure AgreeBeyond (guild key : String) (now : Instant) (s left : Store) : Prop where
  guilds : ∀ other, other ≠ guild → left.load other = s.load other
  entries : ∀ t, now ≤ t → (left.live guild t).map (Dict.erase key) =
    (s.live guild t).map (Dict.erase key)

theorem AgreeBeyond.refl (guild key : String) (now : Instant) (s : Store) :
    s.AgreeBeyond guild key now s :=
  ⟨fun _ _ => rfl, fun _ _ => rfl⟩

/-- A keyspace that was reworked at a key is kept with its other entries, or a file stays as it was. -/
private theorem exists_load_of_keep (loaded : s.load guild = .ok space)
    (keeps : s.keep guild left changed = .ok kept)
    (reworked : Keyspace.ReworkedAt key now space left) :
    ∃ after, kept.load guild = .ok after ∧ (Dict.erase key after = Dict.erase key space ∨
      Dict.erase key after = Dict.erase key (space.purge now)) := by
  match s with
  | .memory m =>
    cases keeps
    refine ⟨left, ?_, .inr reworked.erase_eq⟩
    simp only [load, MemoryStore.keyspace_withKeyspace_self]
  | .files f =>
    obtain ⟨-, rfl⟩ | ⟨-, -, rfl⟩ := keep_files_cases keeps
    · exact ⟨space, loaded, .inl rfl⟩
    · obtain ⟨named, reads⟩ := load_files_eq_ok.1 loaded
      have formed := GuildFile.wellFormed_of_load reads
      have others : Keyspace.WellFormed (Dict.erase key (space.purge now)) :=
        (formed.filter _).filter _
      refine ⟨left.reread, load_files_eq_ok.2 ⟨named, ?_⟩, .inr ?_⟩
      · rw [LineFileStore.file_withFile_self]
        exact GuildFile.load_textOfEntries (reworked.ordered formed) (reworked.keyed formed)
      · -- The entries under other keys were read from a file, so they can be read again.
        rw [Keyspace.erase_reread, reworked.erase_eq, Keyspace.reread_of_valid others.valid]

private theorem agreeBeyond_change (s : Store) (counts : α → Bool)
    {operation : Keyspace → Instant → Except StoreError α × Keyspace}
    (reworks : ∀ space, Keyspace.ReworkedAt key now space (operation space now).2) :
    s.AgreeBeyond guild key now (s.run now (change guild counts operation)).2 := by
  obtain ⟨e, unchanged⟩ | ⟨space, kept, loaded, keeps, ran⟩ :=
    change_cases s guild now counts operation
  · rw [unchanged]
    exact .refl guild key now s
  · rw [ran]
    refine ⟨fun other different => load_of_keep_of_ne keeps different, fun t order => ?_⟩
    obtain ⟨after, reads, same⟩ := exists_load_of_keep loaded keeps (reworks space)
    rw [live_of_load reads, live_of_load loaded]
    refine congrArg Except.ok ?_
    rw [← Keyspace.erase_purge, ← Keyspace.erase_purge]
    obtain same | same := same
    · rw [same]
    · rw [same, Keyspace.erase_purge, Keyspace.erase_purge, Keyspace.purge_purge order]

def WritesOnly (guild key : String) (action : StoreAction α) : Prop :=
  ∀ (s : Store) (now : Instant), s.AgreeBeyond guild key now (s.run now action).2

def Looks (action : StoreAction α) : Prop := ∀ (s : Store) (now : Instant), (s.run now action).2 = s

theorem WritesOnly.bind_liftM {action : StoreAction α}
    (writes : WritesOnly guild key action)
    (f : α → Except StoreError β) : WritesOnly guild key (action >>= fun a => liftM (f a)) := by
  intro s now
  rw [run_bind_liftM_snd]
  exact writes s now

private theorem looks_bind_liftM (ask : Keyspace → Instant → α) (f : α → Except StoreError β) :
    Looks (look guild ask >>= fun a => liftM (f a)) := by
  intro s now
  rw [run_bind_liftM_snd, run_look_snd]

end Store

namespace StoreHandle

open Store (WritesOnly Looks)

variable {h : StoreHandle} {key : String}

theorem writesOnly_set {value : Value} {lifetime : Option Nat} {written : Instant}
    {action : StoreAction Unit} (made : h.set key value lifetime written = .ok action) :
    WritesOnly h.guild key action := by
  obtain ⟨e, refused⟩ | ⟨text, -, -, -, accepted⟩ := h.set_cases key value lifetime written
  · cases refused.symm.trans made
  · cases accepted.symm.trans made
    exact fun s now => s.agreeBeyond_change _ fun space =>
      Keyspace.reworkedAt_set (h.entryOf key text lifetime written) h.limits.maxKeys now space

theorem writesOnly_delete {action : StoreAction Value} (made : h.delete key = .ok action) :
    WritesOnly h.guild key action := by
  cases made
  refine WritesOnly.bind_liftM (fun s now => ?_) valueOf?
  exact s.agreeBeyond_change _ (Keyspace.reworkedAt_delete key now)

theorem writesOnly_increase {delta : Int64} {action : StoreAction Value}
    (made : h.increase key delta = .ok action) : WritesOnly h.guild key action := by
  by_cases admits : key.utf8ByteSize ≤ h.limits.maxKeyLength
  · rw [increase_of_admits admits] at made
    cases made
    refine WritesOnly.bind_liftM (fun s now => ?_) valueOf
    exact s.agreeBeyond_change _
      (Keyspace.reworkedAt_update h.guild key h.limits.maxKeys (sumText key delta) now)
  · rw [increase_of_refused (by omega)] at made
    cases made

theorem looks_get {action : StoreAction Value} (made : h.get key = .ok action) : Looks action := by
  cases made
  exact Store.looks_bind_liftM _ valueOf?

theorem looks_search {pattern : String} {action : StoreAction (List (String × Value))}
    (made : h.search pattern = .ok action) : Looks action := by
  cases made
  exact Store.looks_bind_liftM _ valuesOf

end StoreHandle

end GuildSandbox
