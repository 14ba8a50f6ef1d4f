import GuildSandbox.Capability.Call
import GuildSandbox.Proofs.Host.Answers
import GuildSandbox.Proofs.Value.Views

set_option autoImplicit false
set_option relaxedAutoImplicit false

namespace GuildSandbox

/-- The run is active, and the store answers before the deadline. -/
def World.StoreAnswers (w : World) : Prop :=
  w.account.cancelled = none ∧
    ∃ nanos ∈ Host.answerTime? w.storeMode, w.reachesDeadline nanos = false

namespace Host

variable {α : Type} {w left : World} {a : α}

private theorem settle_immediate (effect : Host α) (w : World) :
    (HostCall.immediate effect).settle.run w =
      (.finished (effect.run (w.elapse 0)).1, (effect.run (w.elapse 0)).2) := by
  rw [run_settle]
  rfl

private theorem exists_effect_of_immediate {effect : Host α}
    (ok : (call (.immediate effect)).run w = (.ok a, left)) :
    ∃ mid, effect.run (w.idled.elapse 0) = (.ok a, mid) ∧ left = w.resumed mid := by
  rw [run_call, settle_immediate] at ok
  split at ok
  · cases ok
  · simp only at ok
    split at ok
    · cases ok
    · obtain ⟨succeeds, rfl⟩ := Prod.mk.inj ok
      exact ⟨_, Prod.ext succeeds rfl, rfl⟩

private theorem call_immediate_fst {effect other : Host α}
    (same : ∀ w, (other.run w).1 = (effect.run w).1 ∧
      (other.run w).2.account = (effect.run w).2.account) (w : World) :
    ((call (.immediate other)).run w).1 = ((call (.immediate effect)).run w).1 := by
  obtain ⟨result, account⟩ := same (w.idled.elapse 0)
  rw [run_call, run_call, settle_immediate, settle_immediate]
  simp only [World.cancelled_resumed, result, account]
  cases w.account.cancelled with
  | some reason => rfl
  | none =>
    simp only
    cases (effect.run (w.idled.elapse 0)).2.account.cancelled <;> rfl

private theorem now_idled_elapse (w : World) : (w.idled.elapse 0).now = w.now := by
  rw [World.elapse]
  split
  · rfl
  · rfl

/-- A request that succeeds has been carried out on the store at the instant at which it returns. -/
theorem exists_action_of_request {r : World → StoreRequest α}
    (ok : (request r).run w = (.ok a, left)) :
    ∃ v action, v.now = w.now ∧ r v = .ok action ∧
      w.store.run left.now action = (.ok a, left.store) := by
  have ignores : IgnoresTime World.store := fun _ _ _ => rfl
  obtain ⟨mid, ran, rfl⟩ := exists_effect_of_immediate ok
  obtain ⟨v, here⟩ : ∃ v, v = w.idled.elapse 0 := ⟨_, rfl⟩
  rw [← here, run_bind, run_getThe] at ran
  simp only at ran
  refine ⟨v, ?_⟩
  cases made : r v with
  | error e =>
    rw [made] at ran
    cases ran
  | ok action =>
    simp only [made, run_onStore] at ran
    refine ⟨action, here ▸ now_idled_elapse w, rfl, ?_⟩
    have kept := keeps_contact ignores v.storeMode
      (fun messages => RunError.store (.backend (RunError.chain messages))) v
    rw [contactStore] at ran
    split at ran
    next reached contacted =>
      rw [contacted] at kept
      have stored : v.store = w.store := here ▸ (ignores.elapse w.idled 0)
      obtain ⟨succeeds, rfl⟩ := Prod.mk.inj ran
      refine Prod.ext ?_ ?_
      · change (w.store.run reached.now action).1 = .ok a
        rw [← stored, ← kept]
        exact eq_ok_of_mapError succeeds
      · change (w.store.run reached.now action).2 = (reached.store.run reached.now action).2
        rw [← stored, ← kept]
    next => cases ran

/-- While the run is active and the store answers in time, a request comes to what its action does at
the instant at which the store has answered. -/
theorem run_request_of_answers (answers : w.StoreAnswers) {r : World → StoreRequest α}
    {action : StoreAction α} (made : ∀ v, v.now = w.now → r v = .ok action) :
    ∃ left, (request r).run w = ((w.store.run left.now action).1.mapError .store, left) := by
  obtain ⟨active, nanos, answers, inTime⟩ := answers
  have inTimeNow : w.reachesDeadline 0 = false := Bool.eq_false_iff.2 fun late =>
    Bool.eq_false_iff.1 inTime (World.reachesDeadline_mono (Nat.zero_le nanos) late)
  have contacted : (contactStore w.storeMode).run w.idled =
      (.ok (), { w.idled with clock := w.clock + nanos }) :=
    contact_of_answer answers inTime
  let left : World := { w.idled with
    clock := w.clock + nanos
    store := (w.store.run (w.epoch.addNanos (w.clock + nanos)) action).2 }
  have answered : (onStore action).run w.idled =
      ((w.store.run left.now action).1.mapError .store, left) := by
    rw [run_onStore, show w.idled.storeMode = w.storeMode from rfl, contacted]
    rfl
  refine ⟨w.resumed left, ?_⟩
  unfold request
  refine call_of_inTime (c := .immediate _) active inTimeNow ?_ (w.cancelled_idled.trans active)
  change run (getThe World >>= _) w.idled = _
  rw [run_bind, run_getThe]
  simp only [made w.idled rfl]
  exact answered

/-- Requests that differ in what they write have the same result if their actions have. -/
theorem request_fst {r other : World → StoreRequest α}
    (same : ∀ v, (∃ e, other v = .error e ∧ r v = .error e) ∨
      ∃ actionOther action, other v = .ok actionOther ∧ r v = .ok action ∧
        ∀ (s : Store) now, (s.run now actionOther).1 = (s.run now action).1) (w : World) :
    ((request other).run w).1 = ((request r).run w).1 := by
  refine call_immediate_fst (fun v => ?_) w
  simp only [run_bind, run_getThe]
  obtain ⟨e, refusedOther, refused⟩ | ⟨actionOther, action, madeOther, made, answers⟩ := same v
  · rw [refusedOther, refused]
    exact ⟨rfl, rfl⟩
  · simp only [madeOther, made, run_onStore]
    rcases (contactStore v.storeMode).run v with ⟨_ | _, left⟩
    · exact ⟨rfl, rfl⟩
    · exact ⟨congrArg (Except.mapError RunError.store) (answers left.store left.now), rfl⟩

end Host

end GuildSandbox
