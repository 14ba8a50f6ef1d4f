import Mathlib.Data.List.Nodup
import Mathlib.Data.List.Sort
import GuildSandbox.Proofs.Store.Keyspace

set_option autoImplicit false
set_option relaxedAutoImplicit false

namespace GuildSandbox

open Time (Instant)

namespace Dict

universe u

variable {α : Type u} {d e : Dict α}

theorem mem_of_find? {key : String} {value : α} (found : find? key d = some value) :
    (key, value) ∈ d := by
  induction d with
  | nil => cases found
  | cons p rest ih =>
    obtain ⟨k, v⟩ := p
    rw [find?] at found
    split at found
    next here =>
      cases found
      exact here ▸ List.mem_cons_self
    next => exact List.mem_cons_of_mem _ (ih found)

theorem ext_find? (left : Ordered d) (right : Ordered e)
    (same : ∀ key, find? key d = find? key e) : d = e := by
  -- Strictly ordered lists are the same as soon as they have the same members.
  have members : ∀ p : String × α, p ∈ d ↔ p ∈ e := by
    intro p
    rw [← find?_eq_some_iff left, ← find?_eq_some_iff right, same]
  have distinct {c : Dict α} (ordered : Ordered c) : c.Nodup := by
    refine List.Pairwise.imp (fun {a b} before => ?_) ordered
    rintro rfl
    exact String.lt_irrefl a.1 before
  have perm : d.Perm e :=
    (List.perm_ext_iff_of_nodup (distinct left) (distinct right)).2 members
  exact perm.eq_of_pairwise (fun a b _ _ below above => absurd above (String.lt_asymm below))
    left right

private theorem find?_erase_self (ordered : Ordered d) (key : String) :
    find? key (erase key d) = none := by
  rw [erase, find?_filter ordered]
  simp

private theorem find?_erase_of_ne (ordered : Ordered d) {key other : String}
    (different : other ≠ key) :
    find? other (erase key d) = find? other d := by
  rw [erase, find?_filter ordered]
  cases find? other d <;> simp [different]

end Dict

namespace Keyspace

variable {space other : Keyspace} {now later : Instant} {key : String} {entry : Entry}

theorem ordered_purge (ordered : Dict.Ordered space) (now : Instant) :
    Dict.Ordered (space.purge now) :=
  List.Pairwise.filter _ ordered

theorem find?_purge_eq_get? (ordered : Dict.Ordered space) (key : String) (now : Instant) :
    Dict.find? key (space.purge now) = space.get? key now :=
  Dict.find?_filter ordered key _

/-- What the expired entries are dropped from shows the entries that are live at both instants. -/
theorem get?_purge (ordered : Dict.Ordered space) (key : String) (now later : Instant) :
    (space.purge now).get? key later = (space.get? key now).filter fun e => e.isLive later := by
  rw [get?, find?_purge_eq_get? ordered]

theorem get?_filter_of_le (order : now ≤ later) (space : Keyspace) (key : String) :
    (space.get? key now).filter (fun e => e.isLive later) = space.get? key later := by
  rw [get?, get?]
  cases Dict.find? key space with
  | none => rfl
  | some e =>
    cases live : e.isLive later with
    | false => cases h : e.isLive now <;> simp [Option.filter, live, h]
    | true => simp [Option.filter, live, Entry.isLive_of_le order live]

theorem get?_insert_self (key : String) (entry : Entry) (space : Keyspace) (now : Instant) :
    get? (Dict.insert key entry space) key now = (some entry).filter fun e => e.isLive now := by
  rw [get?, Dict.find?_insert_self]

theorem get?_insert_of_ne {written : String} (different : key ≠ written) (entry : Entry)
    (space : Keyspace) (now : Instant) :
    get? (Dict.insert written entry space) key now = space.get? key now := by
  rw [get?, get?, Dict.find?_insert_of_ne different]

theorem get?_erase_self (ordered : Dict.Ordered space) (key : String) (now : Instant) :
    get? (Dict.erase key space) key now = none := by
  rw [get?, Dict.find?_erase_self ordered, Option.filter_none]

theorem get?_erase_of_ne (ordered : Dict.Ordered space) {erased : String} (different : key ≠ erased)
    (now : Instant) : get? (Dict.erase erased space) key now = space.get? key now := by
  rw [get?, get?, Dict.find?_erase_of_ne ordered different]

theorem purge_eq_iff (left : Dict.Ordered space) (right : Dict.Ordered other) :
    space.purge now = other.purge now ↔ ∀ key, space.get? key now = other.get? key now := by
  refine ⟨fun same key => ?_, fun same => ?_⟩
  · rw [← find?_purge_eq_get? left, same, find?_purge_eq_get? right]
  · refine Dict.ext_find? (ordered_purge left now) (ordered_purge right now) fun key => ?_
    rw [find?_purge_eq_get? left, same, find?_purge_eq_get? right]

/-- The entry as it is written in the place of the one found there. -/
def succeeding (entry : Entry) : Option Entry → Entry
  | some old => { entry with createdAt := old.createdAt }
  | none => entry

/-- The entry found with a new value, or else a new entry that never expires. -/
def revised (guild key value : String) (now : Instant) : Option Entry → Entry
  | some old => { old with value := value, updatedAt := now }
  | none => { guild := guild, key := key, value := value, createdAt := now, updatedAt := now }

def isFull (space : Keyspace) (key : String) (maxKeys : Nat) (now : Instant) : Bool :=
  (space.get? key now).isNone && decide (maxKeys ≤ space.count now)

theorem set_eq (ordered : Dict.Ordered space) (entry : Entry) (maxKeys : Nat) (now : Instant) :
    space.set entry maxKeys now =
      if space.isFull entry.key maxKeys now then (.error (.quotaExceeded maxKeys), space.purge now)
      else (.ok (), Dict.insert entry.key (succeeding entry (space.get? entry.key now))
        (space.purge now)) := by
  cases found : space.get? entry.key now with
  | some old => simp [set, isFull, find?_purge_eq_get? ordered, found, succeeding]
  | none =>
    simp only [set, isFull, count, find?_purge_eq_get? ordered, found]
    by_cases full : maxKeys ≤ (space.purge now).length <;> simp [full, succeeding]

theorem update_eq (ordered : Dict.Ordered space) (guild key : String) (maxKeys : Nat)
    (next : Option Entry → Except StoreError String) (now : Instant) :
    space.update guild key maxKeys next now =
      if space.isFull key maxKeys now then (.error (.quotaExceeded maxKeys), space.purge now)
      else match next (space.get? key now) with
        | .ok value =>
          (.ok (revised guild key value now (space.get? key now)),
            Dict.insert key (revised guild key value now (space.get? key now)) (space.purge now))
        | .error e => (.error e, space.purge now) := by
  cases found : space.get? key now with
  | some old =>
    simp only [update, updated, isFull, find?_purge_eq_get? ordered, found]
    cases next (some old) <;> rfl
  | none =>
    simp only [update, updated, isFull, count, find?_purge_eq_get? ordered, found]
    by_cases full : maxKeys ≤ (space.purge now).length
    · simp [full]
    · simp only [full, decide_false, Bool.and_false, if_false]
      cases next none <;> rfl

theorem delete_eq (ordered : Dict.Ordered space) (key : String) (now : Instant) :
    space.delete key now = (space.get? key now, Dict.erase key (space.purge now)) := by
  simp only [delete, find?_purge_eq_get? ordered]

end Keyspace

end GuildSandbox
