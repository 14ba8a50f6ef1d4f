import GuildSandbox.Proofs.Run.Cancellation
import GuildSandbox.Run.StepMeter
import Mathlib.Order.Bounds.Basic

/-!
Metered runs.

A run does its operations one after the other, and other threads have turns on its account in between.
What the account has counted and what the meter still holds back add up to the operations done, so that
the rest handed over at the end makes the count exact. Limits can only be noticed when the account is
told, at every tenth operation: a run that nothing else stops is stopped at the first of these that is
not below its limit.
-/

set_option autoImplicit false
set_option relaxedAutoImplicit false

namespace GuildSandbox

namespace Account

variable {a : Account} {n now : Nat}

private theorem totalSteps_onStep (a : Account) (n now : Nat) :
    (a.onStep n now).2.totalSteps = min stepCeiling (a.totalSteps + n) := by
  rw [onStep_eq]
  split <;> rfl

private theorem budget_onStep (a : Account) (n now : Nat) :
    (a.onStep n now).2.budget = a.budget := by
  rw [onStep_eq]
  split <;> rfl

private theorem cancelled_onStep_eq (a : Account) (n now : Nat) :
    (a.onStep n now).2.cancelled = a.cancelled.or ((AccountTurn.onStep n).cause? a now) ∧
      (a.onStep n now).1 = a.cancelled.or ((AccountTurn.onStep n).cause? a now) := by
  rw [onStep_eq]
  cases cancelled : a.cancelled with
  | some reason => exact ⟨cancelled, rfl⟩
  | none =>
    cases (AccountTurn.onStep n).cause? a now with
    | some reason => exact ⟨rfl, rfl⟩
    | none => exact ⟨cancelled, rfl⟩

end Account

namespace StepMeter

/-- The operation at which a run with a limit is stopped: the least positive multiple of the interval
that is not below the limit. -/
def stop (limit : Nat) : Nat := max interval ((limit + 9) / interval * interval)

private theorem isLeast_stop (limit : Nat) :
    IsLeast {k | 0 < k ∧ interval ∣ k ∧ limit ≤ k} (stop limit) := by
  constructor
  · simp only [Set.mem_ofPred_eq, stop, interval]
    omega
  · rintro k ⟨positive, ⟨count, rfl⟩, reached⟩
    simp only [stop, interval] at *
    omega

private theorem stop_lt (limit : Nat) (positive : 0 < limit) : stop limit < limit + interval := by
  simp only [stop, interval]
  omega

private theorem stop_le_succ_iff {limit n : Nat} (between : (n + 1) % interval ≠ 0) :
    stop limit ≤ n + 1 ↔ stop limit ≤ n := by
  simp only [stop, interval] at *
  omega

private theorem stop_le_iff {limit n : Nat} (check : (n + 1) % interval = 0) :
    stop limit ≤ n + 1 ↔ limit ≤ n + 1 := by
  simp only [stop, interval] at *
  omega

end StepMeter

inductive MeterEvent where
  /-- The script does one more operation. -/
  | operation
  /-- A thread has a turn on the account. -/
  | turn (turn : AccountTurn)
  deriving DecidableEq, Repr

def operationsIn (events : List (Nat × MeterEvent)) : Nat :=
  events.countP fun event => event.2 = .operation

private theorem operationsIn_cons_operation (now : Nat) (rest : List (Nat × MeterEvent)) :
    operationsIn ((now, .operation) :: rest) = operationsIn rest + 1 :=
  List.countP_cons_of_pos (by simp)

private theorem operationsIn_cons_turn (now : Nat) (turn : AccountTurn)
    (rest : List (Nat × MeterEvent)) :
    operationsIn ((now, .turn turn) :: rest) = operationsIn rest :=
  List.countP_cons_of_neg (by simp)

structure MeteredRun where
  meter : StepMeter := {}
  shared : SharedAccount

namespace MeteredRun

def start (budget : Budget) (begun : Nat) : MeteredRun := { shared := .new budget begun }

/-- The reason to stop that an event gives the script, and what the event leaves. The operations are
numbered from one. -/
def take (r : MeteredRun) (now : Nat) : MeterEvent → Option CancelReason × MeteredRun
  | .operation =>
    let (reason, meter, account) := r.meter.onOperation (r.meter.seen + 1) r.shared.account now
    (reason, { meter := meter, shared := { r.shared with account := account } })
  | .turn turn => (none, { r with shared := (r.shared.take now turn).2 })

def after (r : MeteredRun) (events : List (Nat × MeterEvent)) : MeteredRun :=
  events.foldl (fun r event => (r.take event.1 event.2).2) r

/-- The account when the rest of the steps has been handed over. -/
def finished (r : MeteredRun) : Account := (r.meter.finish r.shared.account).2

/-- The operations at which the script is given a reason to stop. -/
def stops (r : MeteredRun) : List (Nat × MeterEvent) → List (Nat × CancelReason)
  | [] => []
  | (now, event) :: rest =>
    (r.take now event).1.toList.map (fun reason => (r.meter.seen + 1, reason)) ++
      (r.take now event).2.stops rest

variable {r : MeteredRun} {n now limit : Nat} {turn : AccountTurn}
  {events : List (Nat × MeterEvent)}

private theorem take_between (between : (r.meter.seen + 1) % StepMeter.interval ≠ 0) :
    r.take now .operation =
      (none, { r with meter := { r.meter with seen := r.meter.seen + 1 } }) := by
  rw [take, StepMeter.onOperation, if_neg between]

private theorem take_check (check : (r.meter.seen + 1) % StepMeter.interval = 0) :
    r.take now .operation =
      ((r.shared.account.onStep (r.meter.seen + 1 - r.meter.reported) now).1,
        { meter := { seen := r.meter.seen + 1, reported := r.meter.seen + 1 }
          shared := { r.shared with
            account := (r.shared.account.onStep (r.meter.seen + 1 - r.meter.reported) now).2 } }) := by
  rw [take, StepMeter.onOperation, if_pos check]
  rfl

/-- So many operations are done, and the account has counted those that it was told of. -/
structure Counts (r : MeteredRun) (n : Nat) : Prop where
  seen : r.meter.seen = n
  reported : r.meter.reported ≤ n
  counted : r.shared.account.totalSteps = min Account.stepCeiling r.meter.reported

private theorem counts_start (budget : Budget) (begun : Nat) : (start budget begun).Counts 0 :=
  ⟨rfl, Nat.le_refl _, rfl⟩

private theorem counts_operation (counts : r.Counts n) (now : Nat) :
    (r.take now .operation).2.Counts (n + 1) := by
  obtain ⟨rfl, reported, counted⟩ := counts
  by_cases check : (r.meter.seen + 1) % StepMeter.interval = 0
  · rw [take_check check]
    refine ⟨rfl, Nat.le_refl _, ?_⟩
    simp only [Account.totalSteps_onStep, counted]
    omega
  · rw [take_between check]
    exact ⟨rfl, reported.trans (Nat.le_succ _), counted⟩

private theorem counts_turn (counts : r.Counts n) (now : Nat) (silent : turn.steps = 0) :
    (r.take now (.turn turn)).2.Counts n := by
  obtain ⟨seen, reported, counted⟩ := counts
  refine ⟨seen, reported, ?_⟩
  change (r.shared.take now turn).2.account.totalSteps = min Account.stepCeiling r.meter.reported
  obtain told | ⟨-, same⟩ := (r.shared.counts_take now turn).2
  · rw [told, silent, counted]
    omega
  · exact same.trans counted

private theorem counts_after (counts : r.Counts n)
    (others : ∀ now turn, (now, .turn turn) ∈ events → turn.steps = 0) :
    (r.after events).Counts (n + operationsIn events) := by
  induction events generalizing r n with
  | nil => exact counts
  | cons event rest ih =>
    obtain ⟨now, event⟩ := event
    have othersRest : ∀ now turn, (now, .turn turn) ∈ rest → turn.steps = 0 :=
      fun now turn member => others now turn (List.mem_cons_of_mem _ member)
    cases event with
    | operation =>
      rw [operationsIn_cons_operation, Nat.add_comm (operationsIn rest), ← Nat.add_assoc]
      exact ih (counts_operation counts now) othersRest
    | turn turn =>
      have silent := others now turn List.mem_cons_self
      rw [operationsIn_cons_turn]
      exact ih (counts_turn counts now silent) othersRest

private theorem Counts.totalSteps_finished (counts : r.Counts n) :
    r.finished.totalSteps = min Account.stepCeiling n := by
  obtain ⟨rfl, reported, counted⟩ := counts
  have handed : r.finished.totalSteps =
      min Account.stepCeiling (r.shared.account.totalSteps + (r.meter.seen - r.meter.reported)) :=
    rfl
  rw [handed, counted]
  omega

/-- So many operations are done, and the run is cancelled for its steps alone, when they are due. -/
structure Undisturbed (r : MeteredRun) (limit n : Nat) : Prop extends r.Counts n where
  limited : r.shared.account.budget.maxSteps = limit
  cancelled : r.shared.account.cancelled =
    if StepMeter.stop limit ≤ n then some .stepLimit else none

def due (limit ops : Nat) : Option CancelReason :=
  if StepMeter.interval ∣ ops ∧ StepMeter.stop limit ≤ ops then some .stepLimit else none

private theorem undisturbed_operation (undisturbed : r.Undisturbed limit n)
    (countable : limit ≤ Account.stepCeiling)
    (inTime : (r.take now .operation).1 ≠ some .durationLimit) :
    (r.take now .operation).1 = due limit (n + 1) ∧
      (r.take now .operation).2.Undisturbed limit (n + 1) := by
  have counts := counts_operation undisturbed.toCounts now
  obtain ⟨⟨rfl, reported, counted⟩, rfl, cancelled⟩ := undisturbed
  by_cases check : (r.meter.seen + 1) % StepMeter.interval = 0
  · rw [take_check check] at inTime counts ⊢
    obtain ⟨left, answer⟩ := r.shared.account.cancelled_onStep_eq
      (r.meter.seen + 1 - r.meter.reported) now
    simp only [answer] at inTime ⊢
    have told : min Account.stepCeiling
        (r.shared.account.totalSteps + (r.meter.seen + 1 - r.meter.reported)) =
        min Account.stepCeiling (r.meter.seen + 1) := by
      rw [counted]
      omega
    have reason : r.shared.account.cancelled.or
        ((AccountTurn.onStep (r.meter.seen + 1 - r.meter.reported)).cause? r.shared.account now) =
        if StepMeter.stop r.shared.account.budget.maxSteps ≤ r.meter.seen + 1
          then some .stepLimit else none := by
      simp only [AccountTurn.cause?, told, cancelled] at inTime ⊢
      by_cases early : StepMeter.stop r.shared.account.budget.maxSteps ≤ r.meter.seen
      · rw [if_pos early, if_pos (early.trans (Nat.le_succ _))]
        rfl
      · rw [if_neg early, Option.none_or] at inTime ⊢
        split at inTime
        next => exact absurd rfl inTime
        next within =>
          have reached : r.shared.account.budget.maxSteps ≤
              min Account.stepCeiling (r.meter.seen + 1) ↔
              r.shared.account.budget.maxSteps ≤ r.meter.seen + 1 := by omega
          simp only [if_neg within, StepMeter.stop_le_iff check, reached]
    refine ⟨?_, counts, congrArg Budget.maxSteps (Account.budget_onStep _ _ _), left.trans reason⟩
    rw [reason, due]
    simp only [Nat.dvd_of_mod_eq_zero check, true_and]
  · rw [take_between check] at counts ⊢
    have between : ¬ StepMeter.interval ∣ r.meter.seen + 1 :=
      fun divides => check (Nat.mod_eq_zero_of_dvd divides)
    refine ⟨?_, counts, rfl, ?_⟩
    · rw [due, if_neg (fun whole => between whole.1)]
    · simpa only [StepMeter.stop_le_succ_iff check] using cancelled

private theorem undisturbed_turn (undisturbed : r.Undisturbed limit n) (now : Nat)
    (timing : turn.keepsTime = true) : (r.take now (.turn turn)).2.Undisturbed limit n := by
  obtain ⟨budget, steps, cancelled, -⟩ := r.shared.kept_of_keepsTime now timing
  obtain ⟨⟨seen, reported, counted⟩, limited, due⟩ := undisturbed
  exact ⟨⟨seen, reported, steps.trans counted⟩,
    (congrArg Budget.maxSteps budget).trans limited, cancelled.trans due⟩

/-- A run that nothing but its steps can stop is given the first reason to stop where it is due. -/
private theorem undisturbed_after (undisturbed : r.Undisturbed limit n)
    (countable : limit ≤ Account.stepCeiling)
    (timing : ∀ now turn, (now, .turn turn) ∈ events → turn.keepsTime = true)
    (inTime : ∀ k, (k, .durationLimit) ∉ r.stops events) :
    (r.after events).Undisturbed limit (n + operationsIn events) ∧
      (n < StepMeter.stop limit → (r.stops events).head? =
        if StepMeter.stop limit ≤ n + operationsIn events
          then some (StepMeter.stop limit, .stepLimit) else none) := by
  induction events generalizing r n with
  | nil =>
    refine ⟨undisturbed, fun before => ?_⟩
    rw [if_neg (by simpa [operationsIn] using before)]
    rfl
  | cons event rest ih =>
    obtain ⟨now, event⟩ := event
    have timingRest : ∀ now turn, (now, .turn turn) ∈ rest → turn.keepsTime = true :=
      fun now turn member => timing now turn (List.mem_cons_of_mem _ member)
    have inTimeRest : ∀ k, (k, .durationLimit) ∉ (r.take now event).2.stops rest :=
      fun k member => inTime k (List.mem_append_right _ member)
    cases event with
    | turn turn =>
      rw [operationsIn_cons_turn]
      exact ih (undisturbed_turn undisturbed now (timing now turn List.mem_cons_self)) timingRest
        inTimeRest
    | operation =>
      have inTimeHere : (r.take now .operation).1 ≠ some .durationLimit := by
        intro late
        refine inTime (r.meter.seen + 1) (List.mem_append_left _ ?_)
        rw [late]
        exact List.mem_cons_self
      obtain ⟨answer, next⟩ := undisturbed_operation undisturbed countable inTimeHere
      obtain ⟨left, later⟩ := ih next timingRest inTimeRest
      rw [operationsIn_cons_operation, Nat.add_comm (operationsIn rest), ← Nat.add_assoc]
      refine ⟨left, fun before => ?_⟩
      rw [stops, answer, undisturbed.seen]
      by_cases here : StepMeter.stop limit ≤ n + 1
      · -- The operation is the one at which the run is due to stop.
        have reached : n + 1 = StepMeter.stop limit := by omega
        have whole : StepMeter.interval ∣ n + 1 := reached ▸ (StepMeter.isLeast_stop limit).1.2.1
        rw [due, if_pos ⟨whole, here⟩, if_pos (here.trans (Nat.le_add_right _ _)), reached]
        rfl
      · rw [due, if_neg (fun reached => here reached.2)]
        exact later (by omega)

/-- A new run counts every operation once, whatever other threads do to its account. Its limit is
noticed at one operation only, and a run that nothing else stops is stopped there if it comes so far. -/
theorem counted_once (budget : Budget) (begun : Nat)
    (others : ∀ now turn, (now, .turn turn) ∈ events → turn.steps = 0) :
    let run := start budget begun
    let limit := StepMeter.stop budget.maxSteps
    (run.after events).finished.totalSteps = min Account.stepCeiling (operationsIn events) ∧
      IsLeast {k | 0 < k ∧ StepMeter.interval ∣ k ∧ budget.maxSteps ≤ k} limit ∧
      (0 < budget.maxSteps → limit < budget.maxSteps + StepMeter.interval) ∧
      (budget.maxSteps ≤ Account.stepCeiling →
        (∀ now turn, (now, .turn turn) ∈ events → turn.keepsTime = true) →
        (∀ k, (k, .durationLimit) ∉ run.stops events) →
        (run.stops events).head? =
            (if limit ≤ operationsIn events then some (limit, .stepLimit) else none) ∧
          (run.after events).finished.cancelled =
            if limit ≤ operationsIn events then some .stepLimit else none) := by
  intro run limit
  have counts := counts_after (counts_start budget begun) others
  rw [Nat.zero_add] at counts
  refine ⟨counts.totalSteps_finished, StepMeter.isLeast_stop _, StepMeter.stop_lt _, ?_⟩
  intro countable timing inTime
  have positive : 0 < limit := (StepMeter.isLeast_stop budget.maxSteps).1.1
  have undisturbed : run.Undisturbed budget.maxSteps 0 :=
    ⟨counts_start budget begun, rfl, (if_neg (Nat.not_le.mpr positive)).symm⟩
  obtain ⟨left, stopped⟩ := undisturbed_after undisturbed countable timing inTime
  rw [Nat.zero_add] at left stopped
  exact ⟨stopped positive, left.cancelled⟩

/-- Twenty-three operations with a limit of fifteen, and some time idle between them. -/
def pausedEvents : List (Nat × MeterEvent) :=
  List.replicate 12 (10, .operation) ++ [(10, .turn .enterIdle), (50, .turn (.leaveIdle 0))] ++
    List.replicate 11 (60, .operation)

theorem pausedEvents_stopped :
    (∀ now turn, (now, .turn turn) ∈ pausedEvents → turn.steps = 0) ∧
      ((start { maxSteps := 15 } 0).after pausedEvents).finished.totalSteps = 23 ∧
      ((start { maxSteps := 15 } 0).stops pausedEvents).head? = some (20, .stepLimit) := by
  have timing : ∀ now turn, (now, .turn turn) ∈ pausedEvents →
      turn.keepsTime = true ∧ turn.steps = 0 := by
    intro now turn member
    simp only [pausedEvents, List.mem_append, List.mem_replicate, List.mem_cons, Prod.mk.injEq,
      reduceCtorEq, and_false, List.not_mem_nil, or_false, false_or,
      MeterEvent.turn.injEq] at member
    rcases member with ⟨-, rfl⟩ | ⟨-, rfl⟩
    all_goals exact ⟨rfl, rfl⟩
  have others := fun now turn member => (timing now turn member).2
  have inTime : ∀ k, (k, .durationLimit) ∉ (start { maxSteps := 15 } 0).stops pausedEvents := by
    have met : (start { maxSteps := 15 } 0).stops pausedEvents = [(20, .stepLimit)] := by decide
    intro k
    rw [met]
    simp
  obtain ⟨counted, -, -, stopped⟩ := counted_once { maxSteps := 15 } 0 others
  have first := stopped (by decide) (fun now turn member => (timing now turn member).1) inTime
  exact ⟨others, counted.trans (by decide), first.1.trans (by decide)⟩

end MeteredRun

end GuildSandbox
