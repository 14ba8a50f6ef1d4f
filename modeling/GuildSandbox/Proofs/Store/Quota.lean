import GuildSandbox.Proofs.Store.Calls
import GuildSandbox.Proofs.Store.Frame

/-!
The quota of keys is exact.

A keyspace drops its expired entries before it counts the rest, so the number that is held against the
quota is the number of live entries, whatever has expired, been overwritten or been deleted before. A
call that writes is refused over the quota when its key is new and there are as many live entries as it
allows, and only then.
-/

set_option autoImplicit false
set_option relaxedAutoImplicit false

namespace GuildSandbox

open Time (Instant)

private theorem Dict.erase_cons_of_ne {α : Type} {key k : String} (different : k ≠ key) (value : α)
    (rest : Dict α) : erase key ((k, value) :: rest) = (k, value) :: erase key rest := by
  simp [erase, different]

private theorem Dict.insert_perm {α : Type} {d : Dict α} (ordered : Ordered d) (key : String)
    (value : α) :
    (insert key value d).Perm ((key, value) :: erase key d) := by
  induction d with
  | nil => exact .refl _
  | cons p rest ih =>
    obtain ⟨k, v⟩ := p
    obtain ⟨above, orderedRest⟩ := List.pairwise_cons.1 ordered
    rw [insert]
    split
    next before =>
      -- The key lies below all others, so there is nothing to take out.
      have others : ∀ q ∈ (k, v) :: rest, q.1 ≠ key := by
        refine List.forall_mem_cons.2 ⟨fun same => ?_, fun q member same => ?_⟩
        · exact String.lt_irrefl key (same ▸ before)
        · exact String.lt_irrefl key (String.lt_trans before (same ▸ above q member))
      rw [erase, List.filter_eq_self.2 fun q member => decide_eq_true (others q member)]
    next =>
      split
      next here =>
        subst here
        have others : ∀ q ∈ rest, q.1 ≠ k := fun q member same =>
          String.lt_irrefl k (same ▸ above q member)
        have gone : erase k ((k, v) :: rest) = rest := by
          rw [erase, List.filter_cons_of_neg (by simp)]
          exact List.filter_eq_self.2 fun q member => decide_eq_true (others q member)
        rw [gone]
      next other =>
        rw [erase_cons_of_ne other]
        exact ((ih orderedRest).cons (k, v)).trans (List.Perm.swap ..)

namespace Keyspace

variable {space left : Keyspace} {now : Instant} {key : String} {entry : Entry}

private theorem length_erase_purge (ordered : Dict.Ordered space) (key : String) (now : Instant) :
    (Dict.erase key (space.purge now)).length + (if (space.get? key now).isSome then 1 else 0) =
      space.count now := by
  have orderedLive := ordered_purge ordered now
  rw [← find?_purge_eq_get? ordered, count]
  cases found : Dict.find? key (space.purge now) with
  | none => rw [Dict.erase_of_find?_eq_none orderedLive found]; rfl
  | some old =>
    -- Writing the entry again where it stands changes nothing.
    have same : Dict.insert key old (space.purge now) = space.purge now :=
      Dict.ext_find? (Dict.ordered_insert orderedLive) orderedLive fun other => by
        by_cases here : other = key
        · rw [here, Dict.find?_insert_self, found]
        · rw [Dict.find?_insert_of_ne here]
    have perm := (Dict.insert_perm orderedLive key old).length_eq
    rw [same, List.length_cons] at perm
    exact perm.symm

private theorem count_insert (ordered : Dict.Ordered space) (key : String) (entry : Entry)
    (now : Instant) :
    count (Dict.insert key entry (space.purge now)) now +
        (if (space.get? key now).isSome then 1 else 0) =
      space.count now + (if entry.isLive now then 1 else 0) := by
  have perm := ((Dict.insert_perm (ordered_purge ordered now) key entry).filter
    fun p => p.2.isLive now).length_eq
  have others : List.filter (fun p => p.2.isLive now) (Dict.erase key (space.purge now)) =
      Dict.erase key (space.purge now) :=
    (erase_purge key (space.purge now) now).trans (congrArg _ (purge_self space now))
  have erased := length_erase_purge ordered key now
  rw [List.filter_cons, others] at perm
  rw [count, purge, perm]
  cases entry.isLive now with
  | true => simp only [if_true, List.length_cons]; omega
  | false => simp only [Bool.false_eq_true, if_false]; omega

private theorem isFull_eq_true_iff {maxKeys : Nat} : space.isFull key maxKeys now = true ↔
    space.get? key now = none ∧ maxKeys ≤ space.count now := by
  simp [isFull]

private theorem length_insert_le (ordered : Dict.Ordered space) {n : Nat}
    (room : space.isFull key n now = false) (within : space.length ≤ n) (entry : Entry) :
    (Dict.insert key entry (space.purge now)).length ≤ n := by
  have perm := (Dict.insert_perm (ordered_purge ordered now) key entry).length_eq
  have erased := length_erase_purge ordered key now
  have live : space.count now ≤ space.length := List.length_filter_le ..
  rw [List.length_cons] at perm
  cases found : space.get? key now with
  | some old =>
    rw [found] at erased
    simp only [Option.isSome_some, if_true] at erased
    omega
  | none =>
    rw [found] at erased
    simp only [Option.isSome_none, Bool.false_eq_true, if_false] at erased
    have below : ¬ n ≤ space.count now := fun full => by
      rw [isFull_eq_true_iff.2 ⟨found, full⟩] at room
      cases room
    omega

end Keyspace

namespace StoreCall

open Keyspace

variable {call : StoreCall} {s : Store} {space left : Keyspace} {now : Instant} {key : String}
  {maxKeys : Nat} {result : Except StoreError Unit}

/-- A call whose other checks pass is refused over the quota when there is no room for its key, and only
then. -/
private theorem Ends.refused_iff (ends : call.Ends space now key maxKeys result left)
    (passes : call.Passes (space.get? key now)) (n : Nat) :
    result = .error (.quotaExceeded n) ↔ n = maxKeys ∧ space.isFull key maxKeys now = true := by
  cases ends with
  | full full _ =>
    simp only [Except.error.injEq, StoreError.quotaExceeded.injEq, full, and_true]
    exact eq_comm
  | refused other _ =>
    obtain ⟨room, ne⟩ := other passes
    simp [room, ne n]
  | written room _ => simp [room]

/-- The number of live entries after a call: one more where a key is new, none more where it is not,
and what has expired by then does not count. -/
private theorem Ends.count_eq (ends : call.Ends space now key maxKeys result left)
    (ordered : Dict.Ordered space) :
    left.count now = space.count now ∧ (∃ e, result = .error e) ∨
      left.count now + (if (space.get? key now).isSome then 1 else 0) =
        space.count now + (if call.lapses now then 0 else 1) := by
  cases ends with
  | full _ untouched | refused _ untouched =>
    refine .inl ⟨?_, _, rfl⟩
    rcases untouched with rfl | rfl
    · rfl
    · rw [count, purge_self, count]
  | written _ live =>
    right
    rw [count_insert ordered, live]
    cases call.lapses now <;> rfl

private theorem Ends.live_of_error (ends : call.Ends space now key maxKeys result left)
    (holds : s.Holds call.guild space) {after : Store} (holdsAfter : after.Holds call.guild left)
    {e : StoreError} (failed : result = .error e) :
    ∀ t, now ≤ t → after.live call.guild t = s.live call.guild t := by
  cases ends with
  | full _ untouched | refused _ untouched =>
    intro t order
    rw [Store.live_of_load holds.load, Store.live_of_load holdsAfter.load]
    rcases untouched with rfl | rfl
    · rfl
    · rw [purge_purge order]
  | written _ _ => cases failed

end StoreCall

namespace Store

variable {s : Store} {guild : String} {calls : List (Instant × StoreCall)}

/-- While all calls for a guild allow the same number of keys, it has no more than that, the expired
ones included. -/
private theorem length_le_afterCalls {space : Keyspace} {n : Nat} (holds : s.Holds guild space)
    (valid : ∀ event ∈ calls, event.2.Valid event.1) (within : space.length ≤ n)
    (same : ∀ event ∈ calls, event.2.guild = guild →
      ∀ key maxKeys, event.2.target? = some (key, maxKeys) → maxKeys = n) :
    ∃ left, (s.afterCalls calls).Holds guild left ∧ left.length ≤ n := by
  induction calls generalizing s space with
  | nil => exact ⟨space, holds, within⟩
  | cons event rest ih =>
    obtain ⟨validHere, validRest⟩ := List.forall_mem_cons.1 valid
    obtain ⟨sameHere, sameRest⟩ := List.forall_mem_cons.1 same
    obtain ⟨left, holdsAfter, which⟩ := holds.run_call validHere
    refine ih holdsAfter validRest ?_ sameRest
    obtain part | ⟨key, maxKeys, entry, own, writes, room, rfl⟩ := which
    · exact Nat.le_trans part.length_le within
    · obtain rfl := sameHere own key maxKeys writes
      exact Keyspace.length_insert_le holds.formed.ordered room within entry

/-- After any calls, a call that writes under a key of a guild, and whose other checks pass, is refused
over the quota exactly when no entry is live under the key and as many entries are live as it allows.
A new key makes one live entry more, and an old one none, and what is written expired makes one less
than that. A call that fails leaves the live entries as they are. When all calls for a guild that starts
empty allow the same number of keys, there are never more live entries. -/
theorem quota_exact (start : ∃ space, s.Holds guild space)
    (valid : ∀ event ∈ calls, event.2.Valid event.1) :
    (∀ (call : StoreCall) (now : Instant) (key : String) (maxKeys : Nat), call.Valid now →
      call.guild = guild → call.target? = some (key, maxKeys) →
      ∃ before after,
        (s.afterCalls calls).live guild now = .ok before ∧
        (call.run (s.afterCalls calls) now).2.live guild now = .ok after ∧
        (call.Passes (Dict.find? key before) → ∀ n,
          (call.run (s.afterCalls calls) now).1 = .error (.quotaExceeded n) ↔
            n = maxKeys ∧ Dict.find? key before = none ∧ maxKeys ≤ before.length) ∧
        ((call.run (s.afterCalls calls) now).1 = .ok () →
          after.length + (if (Dict.find? key before).isSome then 1 else 0) =
            before.length + (if call.lapses now then 0 else 1)) ∧
        ((Dict.find? key before).isSome → call.lapses now = false →
          after.length = before.length) ∧
        ∀ e, (call.run (s.afterCalls calls) now).1 = .error e →
          ∀ t, now ≤ t → (call.run (s.afterCalls calls) now).2.live guild t =
            (s.afterCalls calls).live guild t) ∧
    (s.IsEmptyFor guild → ∀ n,
      (∀ event ∈ calls, event.2.guild = guild →
        ∀ key maxKeys, event.2.target? = some (key, maxKeys) → maxKeys = n) →
      ∀ t, ∃ live, (s.afterCalls calls).live guild t = .ok live ∧ live.length ≤ n) := by
  constructor
  · rintro call now key maxKeys validCall rfl writes
    obtain ⟨space, holds⟩ := start
    obtain ⟨space, holds⟩ := holds.afterCalls valid
    obtain ⟨left, holdsAfter, ends⟩ := call.exists_ends holds validCall writes
    have ordered := holds.formed.ordered
    have found := Keyspace.find?_purge_eq_get? ordered key now
    refine ⟨space.purge now, left.purge now, live_of_load holds.load, live_of_load holdsAfter.load,
      fun passes n => ?_, fun succeeded => ?_, fun present lasting => ?_,
      fun e failed => ends.live_of_error holds holdsAfter failed⟩
    · rw [found] at passes ⊢
      rw [ends.refused_iff passes, Keyspace.isFull_eq_true_iff]
      rfl
    · rw [found]
      obtain ⟨-, e, failed⟩ | counted := ends.count_eq ordered
      · cases succeeded.symm.trans failed
      · exact counted
    · rw [found] at present
      obtain ⟨same, -⟩ | counted := ends.count_eq ordered
      · exact same
      · simp only [present, lasting, if_true, Bool.false_eq_true, if_false] at counted
        exact Nat.add_right_cancel counted
  · intro empty n same t
    obtain ⟨left, holds, within⟩ := length_le_afterCalls empty.holds valid (Nat.zero_le n) same
    exact ⟨left.purge t, live_of_load holds.load,
      Nat.le_trans (List.length_filter_le ..) within⟩

end Store

/-- A key for good, a counter, and the first key again for half a second, where two keys are allowed. -/
def twoKeyCalls : List (Instant × StoreCall) :=
  let h : StoreHandle := { guild := "1", limits := .withMaxKeys 2 }
  [(⟨0, 0⟩, .request h (.set "a" (.int 1) none)), (⟨0, 0⟩, .request h (.increase "b" 1)),
    (⟨1, 0⟩, .operation (.delete "1" "a")), (⟨2, 0⟩, .request h (.set "a" (.int 2) (some 500)))]

private theorem valid_of_mem_twoKeyCalls : ∀ event ∈ twoKeyCalls, event.2.Valid event.1 := by
  simp only [twoKeyCalls, List.forall_mem_cons]
  exact ⟨⟨by decide, nofun⟩, ⟨by decide, nofun⟩,
    ⟨by decide, fun o same => by cases same; trivial⟩, ⟨by decide, nofun⟩, nofun⟩

theorem twoKeyCalls_third :
    let s := (Store.memory {}).afterCalls twoKeyCalls
    let third : StoreCall := .operation (.update "1" "c" 2 fun _ => .ok "")
    (third.run s ⟨2, 499999999⟩).1 = .error (.quotaExceeded 2) ∧
      (∀ n, (third.run s ⟨2, 500000000⟩).1 ≠ .error (.quotaExceeded n)) ∧
      ∀ t, ∃ live, s.live "1" t = .ok live ∧ live.length ≤ 2 := by
  intro s third
  have empty : (Store.memory {}).IsEmptyFor "1" := .inl rfl
  have exact := Store.quota_exact ⟨_, empty.holds⟩ valid_of_mem_twoKeyCalls
  have writes (o : StoreOperation) (same : third = .operation o) : o.WritesValid := by
    obtain rfl := StoreCall.operation.inj same
    trivial
  have room (now : Instant) (b : Bool) (counted : (s.live "1" now).map
      (fun d => (Dict.find? "c" d).isNone && decide (2 ≤ d.length)) = .ok b) {before : Keyspace}
      (live : s.live "1" now = .ok before) :
      (Dict.find? "c" before = none ∧ 2 ≤ before.length) ↔ b = true := by
    rw [live] at counted
    cases counted
    simp
  refine ⟨?_, fun n refused => ?_, exact.2 empty 2 ?_⟩
  · obtain ⟨before, -, live, -, refusal, -⟩ :=
      exact.1 third ⟨2, 499999999⟩ "c" 2 ⟨by decide, writes⟩ rfl rfl
    have full := (room _ true (by decide +kernel) live).2 rfl
    exact (refusal (fun _ => nofun) 2).2 ⟨rfl, full⟩
  · obtain ⟨before, -, live, -, refusal, -⟩ :=
      exact.1 third ⟨2, 500000000⟩ "c" 2 ⟨by decide, writes⟩ rfl rfl
    have full := ((refusal (fun _ => nofun) n).1 refused).2
    exact Bool.noConfusion ((room _ false (by decide +kernel) live).1 full)
  · simp [twoKeyCalls, StoreCall.target?, StoreLimits.withMaxKeys]

/-- A lifetime of zero ends when it begins: writing over a live entry can leave one live entry less. -/
theorem lapsed_write_lowers_count : ¬ ∀ (calls : List (Instant × StoreCall)) (call : StoreCall)
    (now : Instant) (key : String) (maxKeys : Nat) (before after : Keyspace),
    (∀ event ∈ calls, event.2.Valid event.1) → call.Valid now →
      call.target? = some (key, maxKeys) →
      ((Store.memory {}).afterCalls calls).live call.guild now = .ok before →
      (Dict.find? key before).isSome →
      (call.run ((Store.memory {}).afterCalls calls) now).2.live call.guild now = .ok after →
      after.length = before.length := by
  intro claim
  let h : StoreHandle := { guild := "1", limits := .withMaxKeys 2 }
  let old : Entry :=
    { guild := "1", key := "a", value := "\x7b\"type\":\"int\",\"data\":1\x7d"
      createdAt := ⟨0, 0⟩, updatedAt := ⟨0, 0⟩ }
  have valid : ∀ event ∈ [((⟨0, 0⟩ : Instant), StoreCall.request h (.set "a" (.int 1) none))],
      event.2.Valid event.1 := by
    simp only [List.forall_mem_cons]
    exact ⟨⟨by decide, nofun⟩, nofun⟩
  have fewer := claim _ (.request h (.set "a" (.int 2) (some 0))) ⟨0, 0⟩ "a" 2 [("a", old)] [] valid
    ⟨by decide, nofun⟩ rfl (by decide +kernel) rfl (by decide +kernel)
  cases fewer

end GuildSandbox
