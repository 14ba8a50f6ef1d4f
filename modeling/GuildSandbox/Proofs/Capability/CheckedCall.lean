import GuildSandbox.Proofs.Capability.Cancelled

set_option autoImplicit false
set_option relaxedAutoImplicit false

namespace GuildSandbox

variable {w : World} {inv : Invocation} {r : Requirement} {rest : RestCall}

namespace World

/-- The run is active, and still is when a checked call would arrive at the service: the cache
answers, and the deadline does not come first. -/
def Serves (w : World) : Prop :=
  w.account.cancelled = none ∧
    ∃ nanos ∈ Host.answerTime? w.cacheMode, w.reachesDeadline (nanos + w.rest.delay) = false

private theorem Serves.exists_answer (serves : w.Serves) :
    ∃ nanos ∈ Host.answerTime? w.cacheMode, w.reachesDeadline nanos = false := by
  obtain ⟨-, nanos, answers, inTime⟩ := serves
  refine ⟨nanos, answers, Bool.eq_false_iff.2 fun late => ?_⟩
  rw [reachesDeadline_mono (Nat.le_add_right nanos w.rest.delay) late] at inTime
  cases inTime

instance (w : World) : Decidable w.Serves :=
  inferInstanceAs (Decidable (_ ∧ ∃ nanos ∈ Host.answerTime? w.cacheMode, _))

end World

namespace Host

private theorem send_of_inTime (active : w.account.cancelled = none)
    (inTime : w.reachesDeadline w.rest.delay = false) (c : RestCall) :
    ((send c).run w).2.rest.calls = w.rest.calls ++ [c] ∧
      ((send c).run w).1 = match w.rest.failure with
        | some message => .error (.host message)
        | none => .ok () := by
  obtain ⟨left, hleft⟩ : ∃ left : World, left = { w.idled with
      clock := w.clock + w.rest.delay
      rest := { w.rest with calls := w.rest.calls ++ [c] } } := ⟨_, rfl⟩
  have effect : (record c).run { w.idled with clock := w.clock + w.rest.delay } =
      (match w.rest.failure with
        | some message => .error (.host message)
        | none => .ok (), left) := by
    have failure : w.idled.rest.failure = w.rest.failure := rfl
    rw [record, run_bind, run_getThe, hleft]
    simp only [failure]
    cases w.rest.failure with
    | none => rfl
    | some message => rfl
  have still : left.account.cancelled = none := by
    rw [hleft]
    exact w.cancelled_idled.trans active
  have outcome := call_of_inTime (c := .service (record c)) active inTime effect still
  have recorded : (w.resumed left).rest.calls = w.rest.calls ++ [c] := by
    rw [hleft]
    rfl
  rw [send, outcome]
  exact ⟨recorded, rfl⟩

private theorem send_of_late (active : w.account.cancelled = none) (waits : 0 < w.rest.delay)
    (late : w.reachesDeadline w.rest.delay = true) (c : RestCall) :
    ((send c).run w).2.rest = w.rest := by
  have dropped : (HostCall.service (record c)).settle.run w.idled =
      (.dropped ((w.idled.elapseToDeadline 0).account.signal.getD .totalDurationLimit),
        w.idled.elapseToDeadline 0) := by
    have condition : (decide (0 < w.rest.delay) && w.idled.reachesDeadline w.rest.delay) = true := by
      rw [decide_eq_true waits, show w.idled.reachesDeadline w.rest.delay = true from late]
      rfl
    rw [run_settle]
    exact if_pos condition
  have same : (w.idled.elapseToDeadline 0).rest = w.rest := by
    unfold World.elapseToDeadline World.elapse
    split <;> rfl
  rw [send, run_call, active]
  simp only [dropped]
  exact same

end Host

namespace Invocation

theorem checkedSend_of_admits (serves : w.Serves) (admits : inv.gate.Admits w.cache r)
    (rest : RestCall) :
    ((inv.checkedSend r rest).run w).2.rest.calls = w.rest.calls ++ [rest] ∧
      ((inv.checkedSend r rest).run w).1 = match w.rest.failure with
        | some message => .error (.host message)
        | none => .ok .unit := by
  obtain ⟨active, nanos, answers, inTime⟩ := serves
  have answersInTime : w.reachesDeadline nanos = false := Bool.eq_false_iff.2 fun late =>
    Bool.eq_false_iff.1 inTime (World.reachesDeadline_mono (Nat.le_add_right _ _) late)
  obtain ⟨account, still, checked⟩ := Gate.check_of_admits active answers answersInTime admits
  obtain ⟨passed, hpassed⟩ : ∃ passed : World,
      passed = { w with clock := w.clock + nanos, account := account } := ⟨_, rfl⟩
  have arrives : passed.reachesDeadline passed.rest.delay = false := by
    rw [← inTime, hpassed]
    simp only [World.reachesDeadline, Nat.add_assoc]
  have activeStill : passed.account.cancelled = none := by
    rw [hpassed]
    exact still
  obtain ⟨recorded, sent⟩ := Host.send_of_inTime activeStill arrives rest
  have sameRest : passed.rest = w.rest := by rw [hpassed]
  rw [sameRest] at recorded sent
  rw [checkedSend, Host.run_bind, checked, ← hpassed]
  simp only [Host.run_bind]
  rcases outcome : (Host.send rest).run passed with ⟨result, left⟩
  rw [outcome] at recorded sent
  cases failure : w.rest.failure with
  | none =>
    rw [failure] at sent
    obtain rfl : result = .ok () := sent
    exact ⟨recorded, rfl⟩
  | some message =>
    rw [failure] at sent
    obtain rfl : result = .error (.host message) := sent
    exact ⟨recorded, rfl⟩

private theorem checkedSend_of_unchecked {e : RunError}
    (unchecked : ((inv.gate.check r).run w).1 = .error e) :
    ((inv.checkedSend r rest).run w).2.rest = w.rest ∧
      ((inv.checkedSend r rest).run w).1 = .error e := by
  have kept : ((inv.gate.check r).run w).2.rest = w.rest :=
    Gate.keeps_check (γ := RestLog) (fun _ _ _ => rfl) inv.gate r w
  rcases outcome : (inv.gate.check r).run w with ⟨result, left⟩
  rw [outcome] at kept unchecked
  obtain rfl : result = .error e := unchecked
  rw [checkedSend, Host.run_bind_of_error outcome]
  exact ⟨kept, rfl⟩

theorem checkedSend_of_denied (serves : w.Serves) (denied : ¬ inv.gate.Admits w.cache r)
    (rest : RestCall) :
    ((inv.checkedSend r rest).run w).2.rest = w.rest ∧
      ((inv.checkedSend r rest).run w).1 = .error (.permissionDenied r.describe) := by
  obtain ⟨nanos, answers, inTime⟩ := serves.exists_answer
  exact checkedSend_of_unchecked (Gate.check_of_denied serves.1 answers inTime denied)

/-- A run that is cancelled, or would be before the call arrives, puts nothing on record. -/
theorem checkedSend_of_unserved (unserved : ¬ w.Serves) :
    ((inv.checkedSend r rest).run w).2.rest = w.rest := by
  cases cancelled : w.account.cancelled with
  | some reason => rw [inv.checkedSend_of_cancelled cancelled]
  | none =>
    by_cases answered :
      ∃ nanos ∈ Host.answerTime? w.cacheMode, w.reachesDeadline nanos = false
    · obtain ⟨nanos, answers, inTime⟩ := answered
      have late : w.reachesDeadline (nanos + w.rest.delay) = true := by
        cases arrival : w.reachesDeadline (nanos + w.rest.delay) with
        | true => rfl
        | false => exact absurd ⟨cancelled, nanos, answers, arrival⟩ unserved
      by_cases admits : inv.gate.Admits w.cache r
      · -- The deadline falls between the check and the arrival of the call.
        have waits : 0 < w.rest.delay := by
          refine Nat.pos_of_ne_zero fun none => ?_
          rw [none, Nat.add_zero, inTime] at late
          cases late
        obtain ⟨account, still, checked⟩ := Gate.check_of_admits cancelled answers inTime admits
        have lateThen : World.reachesDeadline
            { w with clock := w.clock + nanos, account := account } w.rest.delay = true := by
          rw [← late]
          simp only [World.reachesDeadline, Nat.add_assoc]
        have unsent := Host.send_of_late
          (w := { w with clock := w.clock + nanos, account := account }) still waits lateThen rest
        rw [checkedSend, Host.run_bind, checked]
        simp only [Host.run_bind]
        rcases sent : (Host.send rest).run
          { w with clock := w.clock + nanos, account := account } with ⟨_ | _, left⟩
        all_goals
          rw [sent] at unsent
          exact unsent
      · exact (checkedSend_of_unchecked
          (Gate.check_of_denied cancelled answers inTime admits)).1
    · have silent : ∀ n ∈ Host.answerTime? w.cacheMode, w.reachesDeadline n = true := by
        intro n answers
        cases late : w.reachesDeadline n with
        | true => rfl
        | false => exact absurd ⟨n, answers, late⟩ answered
      obtain ⟨e, unchecked⟩ := inv.gate.check_of_silence silent r
      exact (checkedSend_of_unchecked unchecked).1

end Invocation

end GuildSandbox
