import GuildSandbox.Proofs.Store.Counter

set_option autoImplicit false
set_option relaxedAutoImplicit false

namespace GuildSandbox

open Time (Instant)

inductive StoreCall where
  | operation (o : StoreOperation)
  | request (h : StoreHandle) (c : StoreCommand)

namespace StoreCall

def guild : StoreCall → String
  | .operation o => o.guild
  | .request h _ => h.guild

/-- Whether the call succeeds, whatever its answer is, and the store after it. -/
def run (call : StoreCall) (s : Store) (now : Instant) : Except StoreError Unit × Store :=
  match call with
  | .operation o => s.run now ((fun _ => ()) <$> o.perform)
  | .request h c => s.run now ((fun _ => ()) <$> c.action h now)

/-- The key that the call writes, if it writes one, and how many keys it allows. -/
def target? : StoreCall → Option (String × Nat)
  | .operation (.set entry maxKeys) => some (entry.key, maxKeys)
  | .operation (.update _ key maxKeys _) => some (key, maxKeys)
  | .request h (.set key _ _) => some (key, h.limits.maxKeys)
  | .request h (.increase key _) => some (key, h.limits.maxKeys)
  | _ => none

/-- All checks of the call but the quota pass, given what is found under its key. A function that makes
a new value does not itself answer that there are too many keys. -/
def Passes (current : Option Entry) : StoreCall → Prop
  | .operation (.update _ _ _ next) => ∀ n, next current ≠ .error (.quotaExceeded n)
  | .request h (.set key value _) => key.utf8ByteSize ≤ h.limits.maxKeyLength ∧
      ∃ text, value.toJsonText = .ok text ∧ text.utf8ByteSize ≤ h.limits.maxValueLength
  | .request h (.increase key _) => key.utf8ByteSize ≤ h.limits.maxKeyLength
  | _ => True

/-- What the call is to write has expired by the time it is written. -/
def lapses (now : Instant) : StoreCall → Bool
  | .operation (.set entry _) => entry.isExpired now
  | .request h (.set key _ lifetime) => (h.entryOf key "" lifetime now).isExpired now
  | _ => false

structure Valid (call : StoreCall) (now : Instant) : Prop where
  instant : now.Valid
  writes : ∀ o, call = .operation o → o.WritesValid

end StoreCall

def Store.afterCalls (s : Store) (calls : List (Instant × StoreCall)) : Store :=
  calls.foldl (fun s event => (event.2.run s event.1).2) s

namespace StoreHandle

private theorem set_of_admits (h : StoreHandle) {key text : String} {value : Value}
    (admits : key.utf8ByteSize ≤ h.limits.maxKeyLength) (written : value.toJsonText = .ok text)
    (fits : text.utf8ByteSize ≤ h.limits.maxValueLength) (lifetime : Option Nat) (now : Instant) :
    h.set key value lifetime now =
      .ok (Store.set (h.entryOf key text lifetime now) h.limits.maxKeys) := by
  have short : ¬ h.limits.maxValueLength < text.utf8ByteSize := by omega
  have checked : h.checkKey key = .ok () := if_neg (by omega)
  have encoded : valueText value = .ok text := by rw [valueText, written]; rfl
  rw [set, checked, encoded]
  exact if_neg short

private theorem mapError_value_ne_quotaExceeded {α : Type} (result : Except ValueError α) (n : Nat) :
    result.mapError StoreError.value ≠ .error (.quotaExceeded n) := by
  cases result <;> simp [Except.mapError]

private theorem valueOf_ne_quotaExceeded (entry : Entry) (n : Nat) :
    valueOf entry ≠ .error (.quotaExceeded n) :=
  mapError_value_ne_quotaExceeded _ n

private theorem ne_quotaExceeded_of_sumText {key : String} {delta : Int64} {current : Option Entry}
    {e : StoreError} (failed : sumText key delta current = .error e) (n : Nat) :
    e ≠ .quotaExceeded n := by
  rintro rfl
  rw [sumText] at failed
  cases made : increased key delta current with
  | ok sum =>
    rw [made] at failed
    exact mapError_value_ne_quotaExceeded sum.toJsonText n failed
  | error e =>
    rw [made] at failed
    cases failed
    cases current with
    | none => cases made
    | some entry =>
      cases read : valueOf entry with
      | error e =>
        rw [increased, read] at made
        cases made
        exact valueOf_ne_quotaExceeded entry n read
      | ok value =>
        rw [increased_some read] at made
        unfold added at made
        split at made
        · split at made <;> cases made
        · cases made
        · cases made

end StoreHandle

namespace StoreCall

variable {s : Store} {guild : String} {space : Keyspace} {now : Instant} {call : StoreCall}

theorem run_operation (o : StoreOperation) (s : Store) (now : Instant) :
    (operation o).run s now =
      ((s.run now o.perform).1.map fun _ => (), (s.run now o.perform).2) :=
  s.run_map now _ _

theorem run_request (h : StoreHandle) (c : StoreCommand) (s : Store) (now : Instant) :
    (request h c).run s now =
      ((s.run now (c.action h now)).1.map fun _ => (), (s.run now (c.action h now)).2) :=
  s.run_map now _ _

/-- A call leaves the store as it is, or as one change of the keyspace of its guild leaves it. -/
theorem run_snd_cases (call : StoreCall) (s : Store) (now : Instant) :
    (call.run s now).2 = s ∨
      ∃ (α : Type) (counts : α → Bool)
        (operation : Keyspace → Instant → Except StoreError α × Keyspace),
        (call.run s now).2 = (s.run now (Store.change call.guild counts operation)).2 := by
  cases call with
  | request h c =>
    rw [run_request]
    exact c.run_snd_cases s h now
  | operation o =>
    rw [run_operation]
    have ran {α : Type} (f : α → StoreReply) (action : StoreAction α) :
        (s.run now (f <$> action)).2 = (s.run now action).2 :=
      congrArg Prod.snd (s.run_map now f action)
    cases o with
    | get guild key => exact .inl ((ran _ _).trans (s.run_look_snd guild now _))
    | count guild => exact .inl ((ran _ _).trans (s.run_look_snd guild now _))
    | search guild pattern => exact .inl ((ran _ _).trans (s.run_look_snd guild now _))
    | set entry maxKeys => exact .inr ⟨Unit, _, _, ran _ (Store.set entry maxKeys)⟩
    | update guild key maxKeys next =>
      exact .inr ⟨Entry, _, _, ran _ (Store.update guild key maxKeys next)⟩
    | delete guild key => exact .inr ⟨Option Entry, _, _, ran _ (Store.delete guild key)⟩

theorem holds_of_ne (holds : s.Holds guild space) (other : guild ≠ call.guild) :
    (call.run s now).2.Holds guild space := by
  obtain same | ⟨α, counts, operation, same⟩ := call.run_snd_cases s now
  · rw [same]
    exact holds
  · rw [same]
    exact holds.run_change_of_ne other counts operation

open Keyspace

/-- How a call that writes can end on the keyspace of its guild: it is refused over the quota, or for
another reason, or the entry is written. -/
inductive Ends (call : StoreCall) (space : Keyspace) (now : Instant) (key : String) (maxKeys : Nat) :
    Except StoreError Unit → Keyspace → Prop
  | full {left : Keyspace} (full : space.isFull key maxKeys now = true)
      (untouched : Untouched now space left) :
      Ends call space now key maxKeys (.error (.quotaExceeded maxKeys)) left
  | refused {left : Keyspace} {e : StoreError}
      (other : call.Passes (space.get? key now) →
        space.isFull key maxKeys now = false ∧ ∀ n, e ≠ .quotaExceeded n)
      (untouched : Untouched now space left) : Ends call space now key maxKeys (.error e) left
  | written {entry : Entry} (room : space.isFull key maxKeys now = false)
      (live : entry.isLive now = !call.lapses now) :
      Ends call space now key maxKeys (.ok ()) (Dict.insert key entry (space.purge now))

theorem isLive_succeeding (entry : Entry) (found : Option Entry) (now : Instant) :
    (succeeding entry found).isLive now = !entry.isExpired now := by
  cases found <;> rfl

private theorem run_map_set {α : Type} (s : Store) (now : Instant) (f : Unit → α) (entry : Entry)
    (maxKeys : Nat) : s.run now ((fun _ => ()) <$> f <$> Store.set entry maxKeys) =
      s.run now (Store.set entry maxKeys) := by
  rw [Store.run_map, Store.run_map]
  rcases s.run now (Store.set entry maxKeys) with ⟨_ | _, left⟩ <;> rfl

private theorem ends_of_set {entry : Entry} {maxKeys : Nat} (holds : s.Holds entry.guild space)
    (valid : entry.Valid) (ran : call.run s now = s.run now (Store.set entry maxKeys))
    (lapses : call.lapses now = entry.isExpired now) :
    ∃ left, (call.run s now).2.Holds entry.guild left ∧
      call.Ends space now entry.key maxKeys (call.run s now).1 left := by
  obtain ⟨after, left, sets, holdsAfter, which⟩ :=
    @Store.Holds.run_set s space now entry holds valid maxKeys
  rw [ran, sets]
  rw [set_eq holds.formed.ordered] at which ⊢
  cases full : space.isFull entry.key maxKeys now with
  | true =>
    rw [full] at which
    exact ⟨left, holdsAfter, .full full (which.symm.imp And.right id)⟩
  | false =>
    rw [full] at which
    obtain rfl := which.resolve_right fun stays => Bool.noConfusion stays.1
    exact ⟨_, holdsAfter, .written full (by rw [isLive_succeeding, lapses])⟩

private theorem ends_update {key : String} {maxKeys : Nat}
    {next : Option Entry → Except StoreError String}
    (holds : s.Holds guild space) (instant : now.Valid) :
    ∃ left, ((operation (.update guild key maxKeys next)).run s now).2.Holds guild left ∧
      (operation (.update guild key maxKeys next)).Ends space now key maxKeys
        ((operation (.update guild key maxKeys next)).run s now).1 left := by
  obtain ⟨after, left, ran, holdsAfter, which⟩ := holds.run_update instant key maxKeys next
  rw [run_operation, StoreOperation.perform, Store.run_map, ran]
  rw [update_eq holds.formed.ordered] at which ⊢
  cases full : space.isFull key maxKeys now with
  | true =>
    rw [full] at which
    exact ⟨left, holdsAfter, .full full (which.symm.imp And.right id)⟩
  | false =>
    rw [full] at which
    cases made : next (space.get? key now) with
    | error e =>
      rw [made] at which
      refine ⟨left, holdsAfter, .refused (fun passes => ⟨full, fun n same => ?_⟩)
        (which.symm.imp And.right id)⟩
      exact passes n (same ▸ made)
    | ok text =>
      rw [made] at which
      obtain rfl := which.resolve_right fun stays => Bool.noConfusion stays.1
      exact ⟨_, holdsAfter, .written full (isLive_revised rfl)⟩

private theorem ends_store {h : StoreHandle} {key : String} {value : Value} {lifetime : Option Nat}
    (holds : s.Holds h.guild space) (instant : now.Valid) :
    ∃ left, ((request h (.set key value lifetime)).run s now).2.Holds h.guild left ∧
      (request h (.set key value lifetime)).Ends space now key h.limits.maxKeys
        ((request h (.set key value lifetime)).run s now).1 left := by
  rcases h.set_cases key value lifetime now with ⟨e, refused⟩ | ⟨text, -, -, -, made⟩
  · have ran : (request h (.set key value lifetime)).run s now = (.error e, s) := by
      rw [run, StoreCommand.action, refused, Store.run_map, Store.run_map]
      rfl
    rw [ran]
    refine ⟨space, holds, .refused (fun passes => ?_) (.inl rfl)⟩
    obtain ⟨admits, text, written, fits⟩ := passes
    cases refused.symm.trans (h.set_of_admits admits written fits lifetime now)
  · have ran : (request h (.set key value lifetime)).run s now =
        s.run now (Store.set (h.entryOf key text lifetime now) h.limits.maxKeys) := by
      rw [run, StoreCommand.action, made]
      exact run_map_set s now _ _ _
    have own : s.Holds (h.entryOf key text lifetime now).guild space := holds
    exact ends_of_set own (h.valid_entryOf key text lifetime instant) ran rfl

private theorem ends_increase {h : StoreHandle} {key : String} {delta : Int64}
    (holds : s.Holds h.guild space) (instant : now.Valid) :
    ∃ left, ((request h (.increase key delta)).run s now).2.Holds h.guild left ∧
      (request h (.increase key delta)).Ends space now key h.limits.maxKeys
        ((request h (.increase key delta)).run s now).1 left := by
  rw [run_request]
  by_cases admits : key.utf8ByteSize ≤ h.limits.maxKeyLength
  · obtain ⟨result, after, left, ran, holdsAfter, outcome⟩ :=
      StoreCommand.run_increase holds instant admits delta
    rw [ran]
    refine ⟨left, holdsAfter, ?_⟩
    rcases outcome with ⟨full, rfl, untouched⟩ | ⟨room, ⟨e, made, rfl, untouched⟩ |
      ⟨sum, text, entry, -, -, -, which, rfl, rfl⟩⟩
    · exact .full full untouched
    · exact .refused (fun _ => ⟨room, StoreHandle.ne_quotaExceeded_of_sumText made⟩) untouched
    · exact .written room (which ▸ isLive_revised rfl)
  · rw [StoreCommand.run_increase_of_refused s now delta (Nat.lt_of_not_le admits)]
    exact ⟨space, holds, .refused (fun passes => absurd passes admits) (.inl rfl)⟩

/-- A call that writes ends in one of the ways there are, and the store still holds a keyspace. -/
theorem exists_ends {key : String} {maxKeys : Nat} (holds : s.Holds call.guild space)
    (valid : call.Valid now) (writes : call.target? = some (key, maxKeys)) :
    ∃ left, (call.run s now).2.Holds call.guild left ∧
      call.Ends space now key maxKeys (call.run s now).1 left := by
  cases call with
  | operation o =>
    cases o with
    | set entry n =>
      cases writes
      exact ends_of_set holds (valid.writes _ rfl) (run_map_set s now _ entry maxKeys) rfl
    | update guild k n next =>
      cases writes
      exact ends_update holds valid.instant
    | get _ _ | delete _ _ | count _ | search _ _ => cases writes
  | request h c =>
    cases c with
    | set k value lifetime =>
      cases writes
      exact ends_store holds valid.instant
    | increase k delta =>
      cases writes
      exact ends_increase holds valid.instant
    | get _ | delete _ | search _ => cases writes

private theorem sublist_of_target?_eq_none (holds : s.Holds call.guild space)
    (valid : call.Valid now)
    (quiet : call.target? = none) :
    ∃ left, (call.run s now).2.Holds call.guild left ∧ left.Sublist space := by
  have erased (key : String) : (Dict.erase key (space.purge now)).Sublist space :=
    List.filter_sublist.trans List.filter_sublist
  cases call with
  | operation o =>
    have writes := valid.writes o rfl
    cases o with
    | set _ _ | update _ _ _ _ => cases quiet
    | delete guild key =>
      obtain ⟨after, left, ran, holdsAfter, which⟩ := holds.run_perform valid.instant writes
      rw [run_operation, ran]
      refine ⟨left, holdsAfter, ?_⟩
      obtain rfl | rfl := which
      · exact erased key
      · exact List.Sublist.refl left
    | get _ _ | count _ | search _ _ =>
      obtain ⟨after, left, ran, holdsAfter, which⟩ := holds.run_perform valid.instant writes
      rw [run_operation, ran]
      refine ⟨left, holdsAfter, ?_⟩
      obtain rfl | rfl := which <;> exact List.Sublist.refl _
  | request h c =>
    rw [run_request]
    cases c with
    | set _ _ _ | increase _ _ => cases quiet
    | get key =>
      exact ⟨space, (StoreCommand.run_get_snd s h now key).symm ▸ holds, .refl space⟩
    | search pattern =>
      exact ⟨space, (StoreCommand.run_search_snd s h now pattern).symm ▸ holds, .refl space⟩
    | delete key =>
      obtain ⟨after, left, ran, holdsAfter, which⟩ := StoreCommand.run_delete holds now key
      rw [ran]
      refine ⟨left, holdsAfter, ?_⟩
      obtain rfl | ⟨-, rfl⟩ := which
      · exact erased key
      · exact List.Sublist.refl left

private theorem sublist_of_untouched {left : Keyspace} (untouched : Untouched now space left) :
    left.Sublist space := by
  rcases untouched with rfl | rfl
  · exact .refl left
  · exact List.filter_sublist

end StoreCall

namespace Store

variable {s : Store} {guild : String} {space : Keyspace}

/-- A call leaves a guild a part of what was there, or the live part with one entry written for which
there was room. -/
theorem Holds.run_call (holds : s.Holds guild space) {call : StoreCall} {now : Instant}
    (valid : call.Valid now) :
    ∃ left, (call.run s now).2.Holds guild left ∧ (left.Sublist space ∨
      ∃ key maxKeys entry, call.guild = guild ∧ call.target? = some (key, maxKeys) ∧
        space.isFull key maxKeys now = false ∧ left = Dict.insert key entry (space.purge now)) := by
  by_cases own : guild = call.guild
  · subst own
    cases writes : call.target? with
    | none =>
      obtain ⟨left, holdsAfter, part⟩ := call.sublist_of_target?_eq_none holds valid writes
      exact ⟨left, holdsAfter, .inl part⟩
    | some target =>
      obtain ⟨key, maxKeys⟩ := target
      obtain ⟨left, holdsAfter, ends⟩ := call.exists_ends holds valid writes
      refine ⟨left, holdsAfter, ?_⟩
      generalize (call.run s now).1 = result at ends
      cases ends with
      | full _ untouched | refused _ untouched =>
        exact .inl (StoreCall.sublist_of_untouched untouched)
      | written room _ => exact .inr ⟨key, maxKeys, _, rfl, rfl, room, rfl⟩
  · exact ⟨space, call.holds_of_ne holds own, .inl (.refl space)⟩

theorem Holds.afterCalls (holds : s.Holds guild space) {calls : List (Instant × StoreCall)}
    (valid : ∀ event ∈ calls, event.2.Valid event.1) :
    ∃ left, (s.afterCalls calls).Holds guild left := by
  induction calls generalizing s space with
  | nil => exact ⟨space, holds⟩
  | cons event rest ih =>
    obtain ⟨validHere, validRest⟩ := List.forall_mem_cons.1 valid
    obtain ⟨left, holdsAfter, -⟩ := holds.run_call validHere
    exact ih holdsAfter validRest

end Store

end GuildSandbox
