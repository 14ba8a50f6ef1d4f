import GuildSandbox.Proofs.Run.Turns
import Mathlib.Algebra.Ring.Nat

/-!
Steps and the cancellation of a shared account.

A cancellation has three stages: there is none, one is recorded that its thread is still to
announce, or one is announced. Every turn moves a shared account as it moves its stage, so what
holds of the stages holds of the account after any turns of any threads.
-/

set_option autoImplicit false
set_option relaxedAutoImplicit false

namespace GuildSandbox

namespace AccountTurn

def steps : AccountTurn → Nat
  | .onStep n | .addSteps n => n
  | _ => 0

/-- The reason to cancel that a turn gives: its own, or the limit that is reached once its steps
are counted, with the duration before the steps. -/
def cause? (a : Account) (now : Nat) : AccountTurn → Option CancelReason
  | .cancel _ reason => some reason
  | .onStep n =>
    if a.budget.maxExecution ≤ a.executionDuration now then some .durationLimit
    else if a.budget.maxSteps ≤ min Account.stepCeiling (a.totalSteps + n) then some .stepLimit
    else none
  | _ => none

end AccountTurn

inductive CancelStage where
  | active
  /-- Recorded by a thread that is still to announce it. -/
  | recorded (thread : Nat) (reason : CancelReason)
  | announced (reason : CancelReason)
  deriving DecidableEq, Repr

namespace CancelStage

def reason? : CancelStage → Option CancelReason
  | .active => none
  | .recorded _ reason | .announced reason => some reason

def signal? : CancelStage → Option CancelReason
  | .active | .recorded _ _ => none
  | .announced reason => some reason

def announcing : CancelStage → List (Nat × CancelReason)
  | .active | .announced _ => []
  | .recorded thread reason => [(thread, reason)]

def next (p : CancelStage) (cause : Option CancelReason) (turn : AccountTurn) : CancelStage :=
  match p, cause, turn with
  | .active, some reason, .cancel thread _ => .recorded thread reason
  | .active, some reason, _ => .announced reason
  | .recorded thread reason, _, .announce caller =>
    if thread = caller then .announced reason else .recorded thread reason
  | p, _, _ => p

private theorem reason?_next (p : CancelStage) (cause : Option CancelReason) (turn : AccountTurn) :
    (p.next cause turn).reason? = p.reason?.or cause := by
  cases p with
  | active => cases cause <;> cases turn <;> rfl
  | announced reason => rfl
  | recorded thread reason =>
    cases turn with
    | announce caller =>
      simp only [next]
      split <;> rfl
    | _ => rfl

private theorem next_recorded (thread : Nat) (reason : CancelReason) (cause : Option CancelReason)
    (turn : AccountTurn) :
    (recorded thread reason).next cause turn = recorded thread reason ∨
      (recorded thread reason).next cause turn = announced reason := by
  cases turn with
  | announce caller =>
    simp only [next]
    split
    · exact .inr rfl
    · exact .inl rfl
  | _ => exact .inl rfl

end CancelStage

namespace Account

variable {a : Account} {n now : Nat}

theorem onStep_eq : a.onStep n now =
    match a.cancelled, (AccountTurn.onStep n).cause? a now with
    | some reason, _ => (some reason, a.addSteps n)
    | none, some reason =>
      (some reason, { a.addSteps n with cancelled := some reason, signal := some reason })
    | none, none => (none, a.addSteps n) := by
  have limit : (a.addSteps n).exceeded now = (AccountTurn.onStep n).cause? a now := rfl
  have kept : (a.addSteps n).cancelled = a.cancelled := rfl
  simp only [onStep, limit, kept]
  cases active : a.cancelled with
  | some reason => rfl
  | none =>
    cases (AccountTurn.onStep n).cause? a now with
    | none => rfl
    | some reason => simp only [cancel, record, announce, kept, active]

private theorem lt_of_cause?_eq_none (unreached : (AccountTurn.onStep n).cause? a now = none) :
    a.executionDuration now < a.budget.maxExecution ∧
      min stepCeiling (a.totalSteps + n) < a.budget.maxSteps := by
  simp only [AccountTurn.cause?] at unreached
  split at unreached
  next => cases unreached
  next inTime =>
    split at unreached
    next => cases unreached
    next within => exact ⟨Nat.lt_of_not_le inTime, Nat.lt_of_not_le within⟩

end Account

namespace SharedAccount

variable {s : SharedAccount} {now : Nat} {turn : AccountTurn} {p : CancelStage}

structure AtStage (s : SharedAccount) (p : CancelStage) : Prop where
  cancelled : s.account.cancelled = p.reason?
  signal : s.account.signal = p.signal?
  announcing : s.announcing = p.announcing

theorem atStage_new (budget : Budget) (begun : Nat) : (new budget begun).AtStage .active :=
  ⟨rfl, rfl, rfl⟩

/-- A turn about clocks and guards leaves the steps and the cancellation as they are. -/
theorem kept_of_keepsTime (s : SharedAccount) (now : Nat) {turn : AccountTurn}
    (timing : turn.keepsTime = true) :
    (s.take now turn).2.account.budget = s.account.budget ∧
      (s.take now turn).2.account.totalSteps = s.account.totalSteps ∧
      (s.take now turn).2.account.cancelled = s.account.cancelled ∧
      (s.take now turn).2.account.signal = s.account.signal ∧
      (s.take now turn).2.announcing = s.announcing := by
  obtain ⟨guards, taken | ⟨-, taken⟩ | ⟨-, taken⟩ | ⟨first, -, taken⟩⟩ :=
    s.take_of_keepsTime now timing
  all_goals rw [taken]; exact ⟨rfl, rfl, rfl, rfl, rfl⟩

private theorem atStage_onStep (now n : Nat) (h : s.AtStage p) :
    (s.take now (.onStep n)).2.AtStage
      (p.next ((AccountTurn.onStep n).cause? s.account now) (.onStep n)) := by
  obtain ⟨cancelled, signal, announcing⟩ := h
  cases p with
  | active =>
    cases cause : (AccountTurn.onStep n).cause? s.account now with
    | none =>
      simp only [take, Account.onStep_eq, cancelled, CancelStage.reason?, cause]
      exact ⟨cancelled, signal, announcing⟩
    | some reason =>
      simp only [take, Account.onStep_eq, cancelled, CancelStage.reason?, cause]
      exact ⟨rfl, rfl, announcing⟩
  | recorded thread reason | announced reason =>
    simp only [take, Account.onStep_eq, cancelled, CancelStage.reason?]
    exact ⟨cancelled, signal, announcing⟩

private theorem atStage_cancel (now thread : Nat) (reason : CancelReason) (h : s.AtStage p) :
    (s.take now (.cancel thread reason)).2.AtStage
      (p.next (some reason) (.cancel thread reason)) := by
  obtain ⟨cancelled, signal, announcing⟩ := h
  cases p with
  | active =>
    simp only [take, Account.record, cancelled, CancelStage.reason?, announcing]
    exact ⟨rfl, signal, rfl⟩
  | recorded first reason | announced reason =>
    simp only [take, Account.record, cancelled, CancelStage.reason?]
    exact ⟨cancelled, signal, announcing⟩

private theorem atStage_announce (now thread : Nat) (h : s.AtStage p) :
    (s.take now (.announce thread)).2.AtStage (p.next none (.announce thread)) := by
  obtain ⟨cancelled, signal, announcing⟩ := h
  cases p with
  | active | announced reason =>
    simp only [take, announcing, CancelStage.announcing, List.find?_nil]
    exact ⟨cancelled, signal, announcing⟩
  | recorded first reason =>
    simp only [CancelStage.announcing] at announcing
    by_cases mine : first = thread
    · have found : s.announcing.find? (fun p => p.1 = thread) = some (first, reason) := by
        simp [announcing, mine]
      simp only [take, found, CancelStage.next, if_pos mine]
      exact ⟨cancelled, rfl, by simp [announcing, mine, CancelStage.announcing]⟩
    · have unfound : s.announcing.find? (fun p => p.1 = thread) = none := by
        simp [announcing, mine]
      simp only [take, unfound, CancelStage.next, if_neg mine]
      exact ⟨cancelled, signal, announcing⟩

theorem atStage_take (now : Nat) (turn : AccountTurn) (h : s.AtStage p) :
    (s.take now turn).2.AtStage (p.next (turn.cause? s.account now) turn) := by
  cases timing : turn.keepsTime with
  | true =>
    obtain ⟨-, -, kept, told, waiting⟩ := s.kept_of_keepsTime now timing
    have same : p.next (turn.cause? s.account now) turn = p := by
      cases turn <;> cases p <;> first | rfl | cases timing
    rw [same]
    exact ⟨kept.trans h.cancelled, told.trans h.signal, waiting.trans h.announcing⟩
  | false =>
    cases turn with
    | begin | markIdle | markActive | enterIdle | leaveIdle place => cases timing
    | onStep n => exact atStage_onStep now n h
    | cancel thread reason => exact atStage_cancel now thread reason h
    | announce thread => exact atStage_announce now thread h
    | addSteps n =>
      cases p <;> exact ⟨h.cancelled, h.signal, h.announcing⟩

/-- The reasons to cancel that turns give, also those that come too late. -/
def causes (s : SharedAccount) : List (Nat × AccountTurn) → List CancelReason
  | [] => []
  | (now, turn) :: turns => (turn.cause? s.account now).toList ++ (s.take now turn).2.causes turns

theorem exists_atStage_after (h : s.AtStage p) (turns : List (Nat × AccountTurn)) :
    ∃ q : CancelStage, (s.after turns).AtStage q ∧
      q.reason? = p.reason?.or (s.causes turns).head? := by
  induction turns generalizing s p with
  | nil => exact ⟨p, h, by simp [causes]⟩
  | cons head turns ih =>
    obtain ⟨now, turn⟩ := head
    obtain ⟨q, stage, reason⟩ := ih (atStage_take now turn h)
    refine ⟨q, stage, reason.trans ?_⟩
    rw [CancelStage.reason?_next, causes, Option.or_assoc]
    cases turn.cause? s.account now <;> rfl

private theorem recorded_after {thread : Nat} {reason : CancelReason}
    (h : s.AtStage (.recorded thread reason) ∨ s.AtStage (.announced reason))
    (turns : List (Nat × AccountTurn)) :
    (s.after turns).AtStage (.recorded thread reason) ∨
      (s.after turns).AtStage (.announced reason) := by
  induction turns generalizing s with
  | nil => exact h
  | cons head turns ih =>
    obtain ⟨now, turn⟩ := head
    refine ih ?_
    obtain waiting | told := h
    · have moved := atStage_take now turn waiting
      obtain same | done := CancelStage.next_recorded thread reason
        (turn.cause? s.account now) turn
      · exact .inl (same ▸ moved)
      · exact .inr (done ▸ moved)
    · exact .inr (atStage_take now turn told)

private theorem signal_of_announce {thread : Nat} {reason : CancelReason}
    (h : s.AtStage (.recorded thread reason) ∨ s.AtStage (.announced reason)) (now : Nat) :
    (s.take now (.announce thread)).2.account.signal = some reason := by
  obtain waiting | told := h
  · have moved := atStage_announce now thread waiting
    rw [moved.signal, CancelStage.next, if_pos rfl, CancelStage.signal?]
  · exact (atStage_announce now thread told).signal

theorem counts_take (s : SharedAccount) (now : Nat) (turn : AccountTurn) :
    (s.take now turn).2.account.budget = s.account.budget ∧
      ((s.take now turn).2.account.totalSteps =
          min Account.stepCeiling (s.account.totalSteps + turn.steps) ∨
        turn.steps = 0 ∧ (s.take now turn).2.account.totalSteps = s.account.totalSteps) := by
  cases timing : turn.keepsTime with
  | true =>
    have idle : turn.steps = 0 := by
      cases turn <;> first | rfl | cases timing
    obtain ⟨budget, steps, -⟩ := s.kept_of_keepsTime now timing
    exact ⟨budget, .inr ⟨idle, steps⟩⟩
  | false =>
    cases turn with
    | begin | markIdle | markActive | enterIdle | leaveIdle place => cases timing
    | addSteps n => exact ⟨rfl, .inl rfl⟩
    | onStep n =>
      simp only [take, Account.onStep_eq]
      split <;> exact ⟨rfl, .inl rfl⟩
    | cancel thread reason =>
      simp only [take, Account.record]
      cases s.account.cancelled <;> exact ⟨rfl, .inr ⟨rfl, rfl⟩⟩
    | announce thread =>
      simp only [take]
      split <;> exact ⟨rfl, .inr ⟨rfl, rfl⟩⟩

theorem budget_after (s : SharedAccount) (turns : List (Nat × AccountTurn)) :
    (s.after turns).account.budget = s.account.budget := by
  induction turns generalizing s with
  | nil => rfl
  | cons head turns ih => exact (ih _).trans (s.counts_take head.1 head.2).1

private theorem totalSteps_after (counted : s.account.totalSteps ≤ Account.stepCeiling)
    (turns : List (Nat × AccountTurn)) :
    (s.after turns).account.totalSteps =
      min Account.stepCeiling
        (s.account.totalSteps + (turns.map fun turn => turn.2.steps).sum) := by
  induction turns generalizing s with
  | nil => simp [after, Nat.min_eq_right counted]
  | cons head turns ih =>
    have step : (s.take head.1 head.2).2.account.totalSteps =
        min Account.stepCeiling (s.account.totalSteps + head.2.steps) := by
      obtain counts | ⟨none, same⟩ := (s.counts_take head.1 head.2).2
      · exact counts
      · rw [same, none, Nat.add_zero, Nat.min_eq_right counted]
    have rest := ih (s := (s.take head.1 head.2).2) (by omega)
    rw [List.map_cons, List.sum_cons]
    exact rest.trans (by omega)

theorem cancelled_after {reason : CancelReason} (h : s.AtStage p)
    (cancelled : s.account.cancelled = some reason) (turns : List (Nat × AccountTurn)) :
    (s.after turns).account.cancelled = some reason := by
  obtain ⟨q, stage, first⟩ := exists_atStage_after h turns
  rw [stage.cancelled, first, ← h.cancelled, cancelled, Option.some_or]

private theorem reply_cancel (s : SharedAccount) (now thread : Nat) (reason : CancelReason) :
    (s.take now (.cancel thread reason)).1 = .cancelled s.account.cancelled.isNone := by
  simp only [take, Account.record]
  cases s.account.cancelled <;> rfl

private theorem signal_of_first {reason : CancelReason} {thread : Nat} (h : s.AtStage p)
    (first : (s.take now (.cancel thread reason)).1 = .cancelled true)
    (between : List (Nat × AccountTurn)) (later : Nat) :
    (((s.take now (.cancel thread reason)).2.after between).take later
      (.announce thread)).2.account.signal = some reason := by
  have active : p = .active := by
    rw [reply_cancel, h.cancelled] at first
    cases p with
    | active => rfl
    | recorded | announced => cases first
  subst active
  exact signal_of_announce
    (recorded_after (.inl (atStage_cancel now thread reason h)) between) later

theorem reply_onStep_of_cancelled {reason : CancelReason}
    (cancelled : s.account.cancelled = some reason) (now n : Nat) :
    (s.take now (.onStep n)).1 = .checked (some reason) := by
  simp only [take, Account.onStep_eq, cancelled]

theorem reply_onStep_of_active (active : s.account.cancelled = none) (now n : Nat) :
    (s.take now (.onStep n)).1 = .checked ((AccountTurn.onStep n).cause? s.account now) := by
  simp only [take, Account.onStep_eq, active]
  cases (AccountTurn.onStep n).cause? s.account now <;> rfl

private theorem signal_of_checked {n : Nat} {reason : CancelReason} (h : s.AtStage p)
    (active : s.account.cancelled = none)
    (reply : (s.take now (.onStep n)).1 = .checked (some reason)) :
    (s.take now (.onStep n)).2.account.signal = some reason := by
  have moved := atStage_onStep now n h
  rw [reply_onStep_of_active active, TurnReply.checked.injEq] at reply
  rw [h.cancelled] at active
  cases p with
  | active => rw [moved.signal, reply]; rfl
  | recorded | announced => cases active

private theorem within_of_passed {n : Nat} (reply : (s.take now (.onStep n)).1 = .checked none) :
    (s.take now (.onStep n)).2.account.executionDuration now < s.account.budget.maxExecution ∧
      (s.take now (.onStep n)).2.account.totalSteps < s.account.budget.maxSteps := by
  cases active : s.account.cancelled with
  | some reason =>
    rw [reply_onStep_of_cancelled active] at reply
    cases reply
  | none =>
    rw [reply_onStep_of_active active, TurnReply.checked.injEq] at reply
    have left : (s.take now (.onStep n)).2.account = s.account.addSteps n := by
      simp only [take, Account.onStep_eq, active, reply]
    rw [left]
    exact Account.lt_of_cause?_eq_none reply

/-- An account with a budget, on which turns counted steps and gave reasons to cancel. -/
structure CancelsOnce (s : SharedAccount) (budget : Budget) (steps : Nat)
    (causes : List CancelReason) : Prop where
  counted : s.account.totalSteps = min Account.stepCeiling steps
  never_fewer : ∀ later, s.account.totalSteps ≤ (s.after later).account.totalSteps
  /-- The first reason to cancel is recorded. -/
  first : s.account.cancelled = causes.head?
  /-- A recorded reason stays, and everyone who asks is given it. -/
  stands : ∀ reason, s.account.cancelled = some reason → ∀ later,
    (s.after later).account.cancelled = some reason ∧
      (s.after later).account.ensureActive = .error (.cancelled reason) ∧
      ∀ now n, ((s.after later).take now (.onStep n)).1 = .checked (some reason)
  /-- Nobody is told another reason. -/
  told : ∀ reason, s.account.signal = some reason → s.account.cancelled = some reason
  /-- A call to cancel answers whether its reason is the first. -/
  called : ∀ now thread reason,
    (s.take now (.cancel thread reason)).1 = .cancelled causes.isEmpty
  /-- The call that cancels has told its reason when it returns, whoever came between. -/
  returned : ∀ now thread reason, (s.take now (.cancel thread reason)).1 = .cancelled true →
    ∀ between later, (((s.take now (.cancel thread reason)).2.after between).take later
      (.announce thread)).2.account.signal = some reason
  /-- The check that cancels has told its reason when it returns. -/
  checked : ∀ now n reason, s.account.cancelled = none →
    (s.take now (.onStep n)).1 = .checked (some reason) →
    (s.take now (.onStep n)).2.account.signal = some reason
  /-- A check that answers no reason finds both limits unreached. -/
  passed : ∀ now n, (s.take now (.onStep n)).1 = .checked none →
    (s.take now (.onStep n)).2.account.executionDuration now < budget.maxExecution ∧
      (s.take now (.onStep n)).2.account.totalSteps < budget.maxSteps

/-- Whatever threads do to a new account, it counts all their steps and is cancelled for the first
reason that one of them gives. -/
theorem cancelsOnce_after (budget : Budget) (begun : Nat) (past : List (Nat × AccountTurn)) :
    ((new budget begun).after past).CancelsOnce budget (past.map fun turn => turn.2.steps).sum
      ((new budget begun).causes past) := by
  have counted : ∀ turns, ((new budget begun).after turns).account.totalSteps =
      min Account.stepCeiling (turns.map fun turn => turn.2.steps).sum := fun turns => by
    rw [totalSteps_after (Nat.zero_le _)]
    exact congrArg _ (Nat.zero_add _)
  have spent : ((new budget begun).after past).account.budget = budget := budget_after _ past
  obtain ⟨p, stage, first⟩ := exists_atStage_after (atStage_new budget begun) past
  have head : ((new budget begun).after past).account.cancelled =
      ((new budget begun).causes past).head? := stage.cancelled.trans first
  refine
    { counted := counted past
      never_fewer := fun later => ?_
      first := head
      stands := fun reason recorded later => ?_
      told := fun reason told => ?_
      called := fun now thread reason => ?_
      returned := fun now thread reason reply => signal_of_first stage reply
      checked := fun now n reason => signal_of_checked stage
      passed := fun now n reply => by simpa only [spent] using within_of_passed reply }
  · have more := counted (past ++ later)
    rw [after_append, List.map_append, List.sum_append] at more
    have here := counted past
    omega
  · have stays := cancelled_after stage recorded later
    exact ⟨stays, by rw [Account.ensureActive, stays], reply_onStep_of_cancelled stays⟩
  · rw [stage.signal] at told
    rw [stage.cancelled]
    cases p with
    | announced => exact told
    | active | recorded => cases told
  · rw [reply_cancel, head]
    cases (new budget begun).causes past <;> rfl

/-- One thread records a cancellation, a check of another one finds the step limit reached before
it is announced, and the clocks start again. -/
def racedTurns : List (Nat × AccountTurn) :=
  [(10, .addSteps 8), (20, .cancel 1 .totalDurationLimit), (30, .onStep 10), (40, .begin),
    (50, .cancel 2 .stepLimit)]

theorem racedTurns_cancelled :
    ((new { maxSteps := 10 } 0).after racedTurns).account.cancelled = some .totalDurationLimit ∧
      ((new { maxSteps := 10 } 0).after racedTurns).account.signal = none ∧
      (new { maxSteps := 10 } 0).causes racedTurns =
        [.totalDurationLimit, .stepLimit, .stepLimit] ∧
      (((new { maxSteps := 10 } 0).after racedTurns).after
        [(60, .announce 1), (70, .onStep 1)]).account.cancelled = some .totalDurationLimit := by
  have recorded : ((new { maxSteps := 10 } 0).after racedTurns).account.cancelled =
      some .totalDurationLimit := by decide
  exact ⟨recorded, by decide, by decide,
    ((cancelsOnce_after { maxSteps := 10 } 0 racedTurns).stands _ recorded _).1⟩

end SharedAccount

end GuildSandbox
