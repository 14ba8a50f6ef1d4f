import GuildSandbox.Proofs.Run.Turns
import Mathlib.Data.List.Chain

/-!
The clocks of a shared account.

Idle and execution time add up to the time since the start because the idle time lies within it:
the closed idle intervals fit between the start and the open one. Every turn preserves that, and a
turn that does not start the clocks again leaves both durations as they are at its own reading.
-/

set_option autoImplicit false
set_option relaxedAutoImplicit false

namespace GuildSandbox

structure AccountSnapshot where
  totalSteps : Nat
  execution : Nat
  idle : Nat
  total : Nat
  cancelled : Option CancelReason
  deriving DecidableEq, Repr

namespace Account

def snapshot (a : Account) (now : Nat) : AccountSnapshot where
  totalSteps := a.totalSteps
  execution := a.executionDuration now
  idle := a.idleDuration now
  total := a.totalDuration now
  cancelled := a.cancelled

/-- The closed idle intervals fit between the start and the open one, and that one has begun. -/
structure InStep (a : Account) (now : Nat) : Prop where
  opened : a.idleStart.getD now ≤ now
  within : a.start + a.idleClosed ≤ a.idleStart.getD now

variable {a : Account} {now later : Nat}

theorem InStep.mono (h : a.InStep now) (order : now ≤ later) : a.InStep later := by
  obtain ⟨opened, within⟩ := h
  cases found : a.idleStart with
  | none => exact ⟨by simp [found], by simp [found] at within ⊢; omega⟩
  | some start => exact ⟨by simp [found] at opened ⊢; omega, by simpa [found] using within⟩

private theorem InStep.exact (h : a.InStep now) :
    a.start ≤ now ∧ (∀ opened ∈ a.idleStart, opened ≤ now) ∧
      a.idleDuration now ≤ a.totalDuration now := by
  obtain ⟨opened, within⟩ := h
  unfold idleDuration totalDuration
  cases found : a.idleStart with
  | none =>
    simp only [found, Option.getD_none] at within
    exact ⟨by omega, by simp, by simp only; omega⟩
  | some start =>
    simp only [found, Option.getD_some] at opened within
    exact ⟨by omega, by simpa using opened, by simp only; omega⟩

theorem InStep.idle_add_execution (h : a.InStep now) :
    a.idleDuration now + a.executionDuration now = a.totalDuration now :=
  Nat.add_sub_cancel' h.exact.2.2

private theorem inStep_new (budget : Budget) (begun : Nat) : (new budget begun).InStep begun :=
  ⟨Nat.le_refl _, Nat.le_refl _⟩

private theorem InStep.durations_mono (h : a.InStep now) (order : now ≤ later) :
    a.idleDuration now ≤ a.idleDuration later ∧
      a.executionDuration now ≤ a.executionDuration later := by
  have here := h.exact
  obtain ⟨opened, within⟩ := h
  unfold executionDuration idleDuration totalDuration at *
  cases found : a.idleStart with
  | none => simp only [found] at *; omega
  | some start => simp only [found, Option.getD_some] at *; omega

end Account

namespace SharedAccount

variable {turn : AccountTurn}

theorem take_of_not_keepsTime (s : SharedAccount) (now : Nat) (other : turn.keepsTime = false) :
    (s.take now turn).2.account.start = s.account.start ∧
      (s.take now turn).2.account.idleStart = s.account.idleStart ∧
      (s.take now turn).2.account.idleClosed = s.account.idleClosed := by
  cases turn with
  | begin | markIdle | markActive | enterIdle | leaveIdle place => cases other
  | onStep n =>
    simp only [take, Account.onStep, Account.addSteps]
    cases s.account.cancelled with
    | some reason => exact ⟨rfl, rfl, rfl⟩
    | none =>
      simp only [Account.cancel, Account.record]
      split <;> exact ⟨rfl, rfl, rfl⟩
  | addSteps n => exact ⟨rfl, rfl, rfl⟩
  | cancel thread reason =>
    simp only [take, Account.record]
    cases s.account.cancelled <;> exact ⟨rfl, rfl, rfl⟩
  | announce thread =>
    simp only [take]
    split <;> exact ⟨rfl, rfl, rfl⟩

theorem inStep_take {s : SharedAccount} {now : Nat} (turn : AccountTurn)
    (h : s.account.InStep now) : (s.take now turn).2.account.InStep now := by
  cases timing : turn.keepsTime with
  | false =>
    obtain ⟨start, idleStart, idleClosed⟩ := s.take_of_not_keepsTime now timing
    exact ⟨by rw [idleStart]; exact h.opened, by rw [start, idleStart, idleClosed]; exact h.within⟩
  | true =>
    have bounds := h.exact
    obtain ⟨opened, within⟩ := h
    obtain ⟨guards, same | ⟨-, begun⟩ | ⟨closed, taken⟩ | ⟨first, found, taken⟩⟩ :=
      s.take_of_keepsTime now timing
    · rw [same]; exact ⟨opened, within⟩
    · rw [begun]; exact ⟨Nat.le_refl _, Nat.le_refl _⟩
    · rw [taken]
      simp only [closed, Option.getD_none] at within
      exact ⟨Nat.le_refl _, within⟩
    · rw [taken]
      simp only [found, Option.getD_some] at opened within
      exact ⟨Nat.le_refl _, by simp only [Option.getD_none]; omega⟩

theorem durations_take (s : SharedAccount) (now : Nat) (running : turn ≠ .begin) :
    (s.take now turn).2.account.idleDuration now = s.account.idleDuration now ∧
      (s.take now turn).2.account.executionDuration now = s.account.executionDuration now := by
  have unmoved : (s.take now turn).2.account.idleDuration now = s.account.idleDuration now ∧
      (s.take now turn).2.account.start = s.account.start := by
    cases timing : turn.keepsTime with
    | false =>
      obtain ⟨start, idleStart, idleClosed⟩ := s.take_of_not_keepsTime now timing
      exact ⟨by simp only [Account.idleDuration, idleStart, idleClosed], start⟩
    | true =>
      obtain ⟨guards, same | ⟨begin, -⟩ | ⟨closed, taken⟩ | ⟨first, found, taken⟩⟩ :=
        s.take_of_keepsTime now timing
      · rw [same]; exact ⟨rfl, rfl⟩
      · exact absurd begin running
      · rw [taken]; exact ⟨by simp [Account.idleDuration, closed], rfl⟩
      · rw [taken]; exact ⟨by simp [Account.idleDuration, found], rfl⟩
  exact ⟨unmoved.1, by simp only [Account.executionDuration, Account.totalDuration, unmoved]⟩

/-- No turn is taken before the one it follows, the first one not before a reading of the clock and
the last one not after another. -/
def Ordered (first : Nat) (turns : List (Nat × AccountTurn)) (last : Nat) : Prop :=
  (first :: turns.map Prod.fst ++ [last]).IsChain (· ≤ ·)

instance (first : Nat) (turns : List (Nat × AccountTurn)) (last : Nat) :
    Decidable (Ordered first turns last) :=
  inferInstanceAs (Decidable (List.IsChain _ _))

variable {s : SharedAccount} {first now last : Nat} {turns : List (Nat × AccountTurn)}

theorem ordered_nil : Ordered first [] last ↔ first ≤ last := by
  simp [Ordered]

theorem ordered_cons : Ordered first ((now, turn) :: turns) last ↔
    first ≤ now ∧ Ordered now turns last := by
  simp [Ordered]

theorem inStep_after (h : s.account.InStep first) (order : Ordered first turns last) :
    (s.after turns).account.InStep last := by
  induction turns generalizing s first with
  | nil => exact h.mono (ordered_nil.mp order)
  | cons head turns ih =>
    obtain ⟨now, turn⟩ := head
    obtain ⟨waited, order⟩ := ordered_cons.mp order
    exact ih (inStep_take turn (h.mono waited)) order

private theorem durations_after (h : s.account.InStep first) (order : Ordered first turns last)
    (running : ∀ turn ∈ turns, turn.2 ≠ .begin) :
    s.account.idleDuration first ≤ (s.after turns).account.idleDuration last ∧
      s.account.executionDuration first ≤ (s.after turns).account.executionDuration last := by
  induction turns generalizing s first with
  | nil => exact h.durations_mono (ordered_nil.mp order)
  | cons head turns ih =>
    obtain ⟨now, turn⟩ := head
    obtain ⟨waited, order⟩ := ordered_cons.mp order
    obtain ⟨ahead, running⟩ := List.forall_mem_cons.mp running
    have before := h.durations_mono waited
    have here := s.durations_take now ahead
    have after := ih (inStep_take turn (h.mono waited)) order running
    rw [here.1, here.2] at after
    exact ⟨before.1.trans after.1, before.2.trans after.2⟩

/-- The time since the start is split between idle and execution time, and both only grow until the
clocks start again. -/
theorem idle_and_execution (budget : Budget) {begun : Nat} {past : List (Nat × AccountTurn)}
    {now : Nat} (order : Ordered begun past now) :
    let s := (new budget begun).after past
    ((s.account.snapshot now).idle + (s.account.snapshot now).execution =
        (s.account.snapshot now).total ∧
      s.account.start ≤ now ∧ (∀ opened ∈ s.account.idleStart, opened ≤ now) ∧
      (s.account.snapshot now).idle ≤ (s.account.snapshot now).total) ∧
    ∀ later last, Ordered now later last → (∀ turn ∈ later, turn.2 ≠ .begin) →
      (s.account.snapshot now).idle ≤ ((s.after later).account.snapshot last).idle ∧
      (s.account.snapshot now).execution ≤
        ((s.after later).account.snapshot last).execution := by
  intro s
  have inStep : s.account.InStep now := inStep_after (Account.inStep_new budget begun) order
  refine ⟨⟨inStep.idle_add_execution, inStep.exact⟩, ?_⟩
  intro later last order running
  exact durations_after inStep order running

/-- A guard that was taken before a start of the clocks closes the interval that a mark opened
after it, and the guard that did not open it closes nothing. -/
def heldTurns : List (Nat × AccountTurn) :=
  [(10, .enterIdle), (20, .enterIdle), (30, .begin), (40, .markIdle), (45, .markIdle),
    (50, .leaveIdle 1), (60, .leaveIdle 0), (80, .cancel 1 .totalDurationLimit), (80, .onStep 10),
    (90, .markActive)]

theorem heldTurns_durations :
    Ordered 0 heldTurns 100 ∧
      ((((new {} 0).after heldTurns).account.snapshot 100).idle,
        (((new {} 0).after heldTurns).account.snapshot 100).execution,
        (((new {} 0).after heldTurns).account.snapshot 100).total) = (20, 50, 70) ∧
      (((new {} 0).after heldTurns).account.snapshot 100).idle +
        (((new {} 0).after heldTurns).account.snapshot 100).execution =
          (((new {} 0).after heldTurns).account.snapshot 100).total := by
  have order : Ordered 0 heldTurns 100 := by decide
  exact ⟨order, by decide, (idle_and_execution {} order).1.1⟩

end SharedAccount

end GuildSandbox
