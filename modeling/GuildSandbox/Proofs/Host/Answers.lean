import GuildSandbox.Proofs.Host.Actions

set_option autoImplicit false
set_option relaxedAutoImplicit false

namespace GuildSandbox

variable {w : World} {reason : CancelReason}

namespace Account

theorem cancelled_enterIdle (a : Account) (now : Nat) :
    (a.enterIdle now).2.cancelled = a.cancelled := by
  simp only [enterIdle, markIdle]
  split <;> rfl

theorem cancelled_leaveIdle (a : Account) (guard : IdleGuard) (now : Nat) :
    (a.leaveIdle guard now).cancelled = a.cancelled := by
  unfold leaveIdle markActive
  split
  · split <;> rfl
  · rfl

theorem cancelled_cancel (a : Account) (reason : CancelReason) :
    (a.cancel reason).2.cancelled = some (a.cancelled.getD reason) := by
  unfold cancel record announce
  cases h : a.cancelled with
  | none => rfl
  | some first => exact h

theorem cancelled_onStep {a : Account} (cancelled : a.cancelled = some reason) (n now : Nat) :
    (a.onStep n now).2.cancelled = some reason := by
  simp [onStep, addSteps, cancelled]

end Account

namespace World

theorem cancelled_idled (w : World) : w.idled.account.cancelled = w.account.cancelled := by
  rw [idled, Account.cancelled_enterIdle]

theorem cancelled_resumed (w left : World) :
    (w.resumed left).account.cancelled = left.account.cancelled := by
  rw [resumed, Account.cancelled_leaveIdle]

theorem cancelled_elapse (cancelled : w.account.cancelled = some reason) (nanos : Nat) :
    (w.elapse nanos).account.cancelled = some reason := by
  unfold elapse
  split
  · simp [cancel, Account.cancelled_cancel, cancelled]
  · exact cancelled

private theorem elapse_of_inTime {nanos : Nat} (inTime : w.reachesDeadline nanos = false) :
    w.elapse nanos = { w with clock := w.clock + nanos } := by
  simp [elapse, inTime]

theorem exists_cancelled_elapse {nanos : Nat} (late : w.reachesDeadline nanos = true) :
    ∃ reason, (w.elapse nanos).account.cancelled = some reason := by
  refine ⟨w.account.cancelled.getD .totalDurationLimit, ?_⟩
  simp [elapse, late, cancel, Account.cancelled_cancel]

theorem reachesDeadline_mono {m n : Nat} (le : m ≤ n) (late : w.reachesDeadline m = true) :
    w.reachesDeadline n = true := by
  unfold reachesDeadline at late ⊢
  cases deadline : w.deadline with
  | none =>
    rw [deadline] at late
    cases late
  | some t =>
    simp only [deadline, decide_eq_true_eq] at late ⊢
    omega

end World

namespace Host

variable {α : Type}

private theorem settle_of_inTime {c : HostCall α} (inTime : w.reachesDeadline (c.wait w) = false) :
    c.settle.run w =
      (.finished (c.effect.run { w with clock := w.clock + c.wait w }).1,
        (c.effect.run { w with clock := w.clock + c.wait w }).2) := by
  rw [run_settle, inTime, Bool.and_false, World.elapse_of_inTime inTime]
  rfl

/-- The outcome of a call that takes effect in time, given what the effect does while the run is
idle. -/
theorem call_of_inTime {c : HostCall α} (active : w.account.cancelled = none)
    (inTime : w.idled.reachesDeadline (c.wait w.idled) = false) {result : Except RunError α}
    {left : World} (effect :
      c.effect.run { w.idled with clock := w.clock + c.wait w.idled } = (result, left))
    (stillActive : left.account.cancelled = none) :
    (call c).run w = (result, w.resumed left) := by
  have settled := settle_of_inTime inTime
  rw [show w.idled.clock = w.clock from rfl, effect] at settled
  have resumed := (w.cancelled_resumed left).trans stillActive
  rw [run_call, active]
  simp only [settled, resumed]

private theorem call_immediate_of_failure {effect : Host α}
    (fails : (∃ e, (effect.run (w.idled.elapse 0)).1 = .error e) ∨
      ∃ reason, (effect.run (w.idled.elapse 0)).2.account.cancelled = some reason) :
    ∃ e, ((call (.immediate effect)).run w).1 = .error e := by
  have settled : (HostCall.immediate effect).settle.run w.idled =
      (.finished (effect.run (w.idled.elapse 0)).1, (effect.run (w.idled.elapse 0)).2) := by
    rw [run_settle]
    rfl
  rcases outcome : effect.run (w.idled.elapse 0) with ⟨result, left⟩
  rw [outcome] at settled fails
  have resumed := w.cancelled_resumed left
  rw [run_call]
  cases w.account.cancelled with
  | some reason => exact ⟨_, rfl⟩
  | none =>
    simp only [settled, resumed]
    cases cancelled : left.account.cancelled with
    | some reason => exact ⟨_, rfl⟩
    | none =>
      rcases fails with ⟨e, failed⟩ | ⟨reason, late⟩
      · exact ⟨e, failed⟩
      · rw [cancelled] at late
        cases late

def answerTime? : Mode → Option Nat
  | .pass => some 0
  | .block nanos => some nanos
  | .fail _ | .cancel _ => none

variable {mode : Mode} {failure : List String → RunError} {nanos : Nat}

theorem contact_of_answer (answers : nanos ∈ answerTime? mode)
    (inTime : w.reachesDeadline nanos = false) :
    (contact mode failure).run w = (.ok (), { w with clock := w.clock + nanos }) := by
  cases mode with
  | pass =>
    obtain rfl : 0 = nanos := Option.some.inj answers
    rfl
  | block n =>
    obtain rfl : n = nanos := Option.some.inj answers
    have stays : w.outstays n = false := by
      unfold World.reachesDeadline at inTime
      unfold World.outstays
      cases deadline : w.deadline with
      | none => rfl
      | some t =>
        simp only [deadline, decide_eq_false_iff_not] at inTime ⊢
        omega
    have elapsed := World.elapse_of_inTime inTime
    rw [contact, block, run_bind, run_getThe]
    simp only [stays]
    exact congrArg (fun left => (Except.ok (), left)) elapsed
  | fail messages => cases answers
  | cancel reason => cases answers

private theorem contact_of_silence (inTime : w.reachesDeadline 0 = false)
    (silent : ∀ n ∈ answerTime? mode, w.reachesDeadline n = true) :
    (∃ e, ((contact mode failure).run w).1 = .error e) ∨
      ∃ reason, ((contact mode failure).run w).2.account.cancelled = some reason := by
  cases mode with
  | pass =>
    rw [silent 0 rfl] at inTime
    cases inTime
  | fail messages => exact .inl ⟨_, rfl⟩
  | cancel reason => exact .inr ⟨_, w.account.cancelled_cancel reason⟩
  | block n =>
    obtain ⟨reason, cancelled⟩ := World.exists_cancelled_elapse (silent n rfl)
    rw [contact, block, run_bind, run_getThe]
    simp only
    split
    · exact .inl ⟨_, rfl⟩
    · exact .inr ⟨reason, cancelled⟩

private theorem contact_of_cancelled (cancelled : w.account.cancelled = some reason) :
    ((contact mode failure).run w).2.account.cancelled = some reason := by
  cases mode with
  | pass => exact cancelled
  | fail messages => exact cancelled
  | cancel other =>
    refine (w.account.cancelled_cancel other).trans ?_
    rw [cancelled]
    rfl
  | block n =>
    rw [contact, block, run_bind, run_getThe]
    simp only
    split
    · exact World.cancelled_elapse cancelled _
    · exact World.cancelled_elapse cancelled _

def contactCache (mode : Mode) : Host Unit :=
  contact mode fun messages => .host (RunError.chain messages)

private theorem run_lookup (w : World) (query : Cache → α) :
    (lookup query).run w = match (contactCache w.cacheMode).run w with
      | (.ok _, left) => (.ok (query left.cache), left)
      | (.error e, left) => (.error e, left) := by
  rw [lookup, run_bind, run_getThe]
  simp only [run_bind, run_getThe, contactCache]
  rcases (contact w.cacheMode _).run w with ⟨_ | _, left⟩
  · rfl
  · rfl

theorem lookup_of_answer (active : w.account.cancelled = none)
    (answers : nanos ∈ answerTime? w.cacheMode) (inTime : w.reachesDeadline nanos = false)
    (query : Cache → α) : ∃ account : Account, account.cancelled = none ∧
      (call (.immediate (lookup query))).run w =
        (.ok (query w.cache), { w with clock := w.clock + nanos, account := account }) := by
  have inTimeNow : w.reachesDeadline 0 = false := Bool.eq_false_iff.2 fun late =>
    Bool.eq_false_iff.1 inTime (World.reachesDeadline_mono (Nat.zero_le nanos) late)
  have effect : (lookup query).run w.idled =
      (.ok (query w.cache), { w.idled with clock := w.clock + nanos }) := by
    have contacted : (contactCache w.idled.cacheMode).run w.idled =
        (.ok (), { w.idled with clock := w.idled.clock + nanos }) :=
      contact_of_answer answers inTime
    rw [run_lookup, contacted]
    rfl
  have still : w.idled.account.cancelled = none := (w.cancelled_idled).trans active
  have outcome := call_of_inTime (c := .immediate (lookup query)) active inTimeNow effect still
  exact ⟨(w.resumed { w.idled with clock := w.clock + nanos }).account,
    (w.cancelled_resumed _).trans still, outcome⟩

theorem lookup_of_silence (silent : ∀ n ∈ answerTime? w.cacheMode, w.reachesDeadline n = true)
    (query : Cache → α) : ∃ e, ((call (.immediate (lookup query))).run w).1 = .error e := by
  refine call_immediate_of_failure ?_
  have sameMode : (w.idled.elapse 0).cacheMode = w.cacheMode := by
    unfold World.elapse
    split <;> rfl
  have contacted : (∃ e, ((contactCache w.cacheMode).run (w.idled.elapse 0)).1 = .error e) ∨
      ∃ reason, ((contactCache w.cacheMode).run (w.idled.elapse 0)).2.account.cancelled =
        some reason := by
    cases late : w.idled.reachesDeadline 0 with
    | true =>
      obtain ⟨reason, cancelled⟩ := World.exists_cancelled_elapse late
      exact .inr ⟨reason, contact_of_cancelled cancelled⟩
    | false =>
      rw [World.elapse_of_inTime late]
      exact contact_of_silence late silent
  rw [run_lookup, sameMode]
  rcases outcome : (contactCache w.cacheMode).run (w.idled.elapse 0) with ⟨_ | _, left⟩
  · exact .inl ⟨_, rfl⟩
  · rw [outcome] at contacted
    rcases contacted with ⟨e, failed⟩ | cancelled
    · cases failed
    · exact .inr cancelled

end Host

end GuildSandbox
