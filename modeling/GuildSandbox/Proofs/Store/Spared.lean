import GuildSandbox.Proofs.Store.Search
import GuildSandbox.Proofs.Store.Standing

set_option autoImplicit false
set_option relaxedAutoImplicit false

namespace GuildSandbox

open Time (Instant)

namespace StoreCall

/-- The call is not made to write or delete under the key of the guild. -/
def Avoids (guild key : String) : StoreCall → Prop
  | .operation o => o.Avoids guild key
  | .request h c => h.guild = guild → c.changedKey? ≠ some key

/-- The call writes nothing under the key of the guild: it is not made to, or leaves what it finds
there. -/
def SparesEntry (call : StoreCall) (s : Store) (now : Instant) (guild key : String) : Prop :=
  call.Avoids guild key ∨
    ((call.run s now).2.run now (Store.get guild key)).1 = (s.run now (Store.get guild key)).1

end StoreCall

/-- None of the calls writes anything under the key of the guild. -/
def Store.EntrySpared (s : Store) (guild key : String) : List (Instant × StoreCall) → Prop
  | [] => True
  | (now, call) :: rest =>
    call.SparesEntry s now guild key ∧ (call.run s now).2.EntrySpared guild key rest

namespace Keyspace

variable {space left : Keyspace} {key : String} {now t : Instant}

private theorem get?_eq_of_le (same : left.get? key now = space.get? key now) (order : now ≤ t) :
    left.get? key t = space.get? key t := by
  rw [← get?_filter_of_le order left, same, get?_filter_of_le order]

end Keyspace

namespace Store

open Keyspace

variable {s : Store} {guild key : String} {space : Keyspace} {now : Instant} {h : StoreHandle}
  {c : StoreCommand} {call : StoreCall}

private theorem Holds.request_of_ne (holds : s.Holds h.guild space) (instant : now.Valid)
    (other : c.changedKey? ≠ some key) :
    ∃ left, (s.run now (c.action h now)).2.Holds h.guild left ∧
      left.get? key now = space.get? key now := by
  have ordered := holds.formed.ordered
  have purged : (space.purge now).get? key now = space.get? key now :=
    get?_purge_of_same ordered rfl
  have untouched {left : Keyspace} (untouched : Untouched now space left) :
      left.get? key now = space.get? key now :=
    untouched.get?_of_le ordered (Instant.le_refl now) key
  have written {k : String} (different : some k ≠ some key) (entry : Entry) :
      get? (Dict.insert k entry (space.purge now)) key now = space.get? key now := by
    rw [get?_insert_of_ne (fun same => different (congrArg some same.symm)), purged]
  cases c with
  | get k => exact ⟨space, (StoreCommand.run_get_snd s h now k).symm ▸ holds, rfl⟩
  | search pattern => exact ⟨space, (StoreCommand.run_search_snd s h now pattern).symm ▸ holds, rfl⟩
  | delete k =>
    obtain ⟨after, left, ran, holdsAfter, which⟩ := StoreCommand.run_delete holds now k
    rw [ran]
    refine ⟨left, holdsAfter, ?_⟩
    obtain rfl | ⟨-, rfl⟩ := which
    · rw [get?_erase_of_ne (ordered_purge ordered now) fun same => other (congrArg some same.symm),
        purged]
    · rfl
  | set k value lifetime =>
    obtain ⟨result, after, left, ran, holdsAfter, which⟩ :=
      StoreCommand.run_set holds instant k value lifetime
    rw [ran]
    refine ⟨left, holdsAfter, ?_⟩
    obtain ⟨-, same⟩ | ⟨text, -, -, -, -, rfl⟩ := which
    · exact untouched same
    · exact written other _
  | increase k delta =>
    by_cases admits : k.utf8ByteSize ≤ h.limits.maxKeyLength
    · obtain ⟨result, after, left, ran, holdsAfter, which⟩ :=
        StoreCommand.run_increase holds instant admits delta
      rw [ran]
      refine ⟨left, holdsAfter, ?_⟩
      obtain ⟨-, -, same⟩ | ⟨-, ⟨-, -, -, same⟩ | ⟨-, -, entry, -, -, -, -, -, rfl⟩⟩ := which
      · exact untouched same
      · exact untouched same
      · exact written other entry
    · rw [StoreCommand.run_increase_of_refused s now delta (Nat.lt_of_not_le admits)]
      exact ⟨space, holds, rfl⟩

private theorem Holds.call_of_avoids (holds : s.Holds guild space) (valid : call.Valid now)
    (avoids : call.Avoids guild key) :
    ∃ left, (call.run s now).2.Holds guild left ∧ left.get? key now = space.get? key now := by
  cases call with
  | operation o =>
    obtain ⟨left, holdsAfter, same⟩ :=
      holds.perform_of_avoids valid.instant (valid.writes o rfl) avoids
    exact ⟨left, (StoreCall.run_operation o s now).symm ▸ holdsAfter, same now rfl⟩
  | request h c =>
    by_cases own : guild = h.guild
    · subst own
      obtain ⟨left, holdsAfter, same⟩ := holds.request_of_ne valid.instant (avoids rfl)
      exact ⟨left, (StoreCall.run_request h c s now).symm ▸ holdsAfter, same⟩
    · exact ⟨space, StoreCall.holds_of_ne holds own, rfl⟩

private theorem Holds.call_of_spares (holds : s.Holds guild space) (valid : call.Valid now)
    (spares : call.SparesEntry s now guild key) :
    ∃ left, (call.run s now).2.Holds guild left ∧
      ∀ t, now ≤ t → left.get? key t = space.get? key t := by
  suffices same : ∃ left, (call.run s now).2.Holds guild left ∧
      left.get? key now = space.get? key now by
    obtain ⟨left, holdsAfter, same⟩ := same
    exact ⟨left, holdsAfter, fun t order => get?_eq_of_le same order⟩
  obtain avoids | same := spares
  · exact holds.call_of_avoids valid avoids
  · obtain ⟨left, holdsAfter, -⟩ := holds.run_call valid
    rw [holdsAfter.run_get, holds.run_get] at same
    exact ⟨left, holdsAfter, Except.ok.inj same⟩

/-- After calls that leave an entry alone it is found as before them, at any instant that none of them
is later than. -/
theorem Holds.afterCalls_of_spared (holds : s.Holds guild space) {calls : List (Instant × StoreCall)}
    (valid : ∀ event ∈ calls, event.2.Valid event.1) (spared : s.EntrySpared guild key calls) :
    ∃ left, (s.afterCalls calls).Holds guild left ∧
      ∀ t, (∀ event ∈ calls, event.1 ≤ t) → left.get? key t = space.get? key t := by
  induction calls generalizing s space with
  | nil => exact ⟨space, holds, fun _ _ => rfl⟩
  | cons event rest ih =>
    obtain ⟨validHere, validRest⟩ := List.forall_mem_cons.1 valid
    obtain ⟨next, holdsNext, here⟩ := holds.call_of_spares validHere spared.1
    obtain ⟨left, holdsAfter, there⟩ := ih holdsNext validRest spared.2
    refine ⟨left, holdsAfter, fun t order => ?_⟩
    obtain ⟨first, later⟩ := List.forall_mem_cons.1 order
    rw [there t later, here t first]

private theorem exists_holds_of_run_set {entry : Entry} {maxKeys : Nat}
    (formed : ∀ space, s.load entry.guild = .ok space → space.WellFormed)
    (ok : (s.run now (Store.set entry maxKeys)).1 = .ok ()) : ∃ space, s.Holds entry.guild space := by
  obtain ⟨e, failed⟩ | ⟨space, kept, loaded, keeps, ran⟩ := change_cases s entry.guild now
    (fun _ => true) fun space now => space.set entry maxKeys now
  · cases (congrArg Prod.fst failed).symm.trans ok
  · have succeeds : (space.set entry maxKeys now).1 = .ok () := (congrArg Prod.fst ran).symm.trans ok
    refine ⟨space, formed space loaded, ?_⟩
    match s, loaded, keeps with
    | .memory m, loaded, _ => exact Except.ok.inj loaded
    | .files f, loaded, keeps =>
      obtain ⟨named, reads⟩ := load_files_eq_ok.1 loaded
      refine ⟨named, reads, fun blocked => ?_⟩
      rw [succeeds] at keeps
      obtain ⟨unchanged, -⟩ | ⟨-, ⟨file, saved⟩, -⟩ := keep_files_cases keeps
      · cases unchanged
      · rw [blocked] at saved
        cases saved

theorem exists_found_of_run_set {entry : Entry} {maxKeys : Nat} {after : Store}
    (formed : ∀ space, s.load entry.guild = .ok space → space.WellFormed) (valid : entry.Valid)
    (ran : s.run now (Store.set entry maxKeys) = (.ok (), after)) :
    ∃ left written, after.Holds entry.guild left ∧ written.value = entry.value ∧
      ∀ t, left.get? entry.key t = if entry.isExpired t then none else some written := by
  obtain ⟨space, holds⟩ := exists_holds_of_run_set formed (congrArg Prod.fst ran)
  obtain ⟨kept, left, sets, holdsAfter, which⟩ :=
    @Store.Holds.run_set s space now entry holds valid maxKeys
  obtain ⟨succeeds, rfl⟩ := Prod.mk.inj (ran.symm.trans sets)
  rw [← succeeds] at which
  obtain rfl := which.resolve_right fun stays => Bool.noConfusion stays.1
  rw [set_eq holds.formed.ordered] at succeeds holdsAfter
  split at succeeds
  next => cases succeeds
  next room =>
    rw [if_neg room] at holdsAfter
    refine ⟨_, succeeding entry (space.get? entry.key now), holdsAfter, value_succeeding entry _,
      fun t => ?_⟩
    rw [get?_insert_self, Option.filter_some, StoreCall.isLive_succeeding]
    cases entry.isExpired t <;> rfl

private theorem map_keep (s : Store) (guild : String) (left other : Keyspace) (changed : Bool) :
    (s.keep guild left changed).map (fun _ => ()) = (s.keep guild other changed).map fun _ => () := by
  match s with
  | .memory m => rfl
  | .files f =>
    cases changed with
    | false => rfl
    | true =>
      rw [keep, keep, if_pos rfl, if_pos rfl, LineFileStore.save, LineFileStore.save]
      cases f.file guild <;> rfl

/-- The result of an action that changes a keyspace, in the order in which its parts can fail. -/
private theorem run_change_fst {α : Type} (s : Store) (guild : String) (now : Instant)
    (counts : α → Bool)
    (operation : Keyspace → Instant → Except StoreError α × Keyspace) :
    (s.run now (change guild counts operation)).1 = s.load guild >>= fun space =>
      (s.keep guild (operation space now).2 (isChange counts (operation space now).1)).map
        (fun _ => ()) >>= fun _ => (operation space now).1 := by
  cases loaded : s.load guild with
  | error e => rw [run_change_of_error loaded]; rfl
  | ok space =>
    cases keeps : s.keep guild (operation space now).2 (isChange counts (operation space now).1) with
    | error e => rw [run_change_of_unkept loaded keeps]; simp [bind, Except.bind, keeps, Except.map]
    | ok kept => rw [run_change loaded rfl keeps]; simp [bind, Except.bind, keeps, Except.map]

theorem run_set_fst (s : Store) (now : Instant) (entry other : Entry)
    (guild : other.guild = entry.guild) (key : other.key = entry.key) (maxKeys : Nat) :
    (s.run now (Store.set other maxKeys)).1 = (s.run now (Store.set entry maxKeys)).1 := by
  have answers (space : Keyspace) :
      (space.set other maxKeys now).1 = (space.set entry maxKeys now).1 := by
    simp only [Keyspace.set, key]
    cases Dict.find? entry.key (space.purge now) with
    | some old => rfl
    | none => by_cases full : maxKeys ≤ (space.purge now).length <;> simp [full]
  rw [Store.set, Store.set, run_change_fst, run_change_fst, guild]
  refine bind_congr fun space => ?_
  rw [answers space, map_keep s entry.guild (space.set other maxKeys now).2]

end Store

theorem StoreHandle.set_alike (h : StoreHandle) (key : String) (value : Value) :
    (∃ e, ∀ lifetime now, h.set key value lifetime now = .error e) ∨
      ∃ text, value.toJsonText = .ok text ∧ ∀ lifetime now, h.set key value lifetime now =
        .ok (Store.set (h.entryOf key text lifetime now) h.limits.maxKeys) := by
  cases checked : h.checkKey key with
  | error e =>
    refine .inl ⟨e, fun lifetime now => ?_⟩
    rw [set, checked]
    rfl
  | ok admitted =>
    cases encoded : valueText value with
    | error e =>
      refine .inl ⟨e, fun lifetime now => ?_⟩
      rw [set, checked, encoded]
      rfl
    | ok text =>
      by_cases long : h.limits.maxValueLength < text.utf8ByteSize
      · refine .inl ⟨.valueTooLong h.limits.maxValueLength, fun lifetime now => ?_⟩
        rw [set, checked, encoded]
        exact if_pos long
      · refine .inr ⟨text, eq_ok_of_mapError encoded, fun lifetime now => ?_⟩
        rw [set, checked, encoded]
        exact if_neg long

end GuildSandbox
