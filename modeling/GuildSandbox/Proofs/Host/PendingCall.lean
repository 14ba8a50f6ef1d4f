import GuildSandbox.Proofs.Host.Answers
import GuildSandbox.Proofs.Run.Cancellation
import GuildSandbox.Proofs.Run.Clocks

set_option autoImplicit false
set_option relaxedAutoImplicit false

namespace GuildSandbox

/-- What the polls of a call answer in turn: nothing while it is pending, then its result. -/
abbrev Future (α : Type) := Nat → Option (Except RunError α)

inductive CallStage (α : Type) where
  | starting
  /-- The run was found active. -/
  | admitted
  /-- The call waits and is about to look for a cancellation. -/
  | watching (guard : IdleGuard)
  /-- No cancellation was announced, and the call is about to be polled. -/
  | polling (guard : IdleGuard)
  | settled (guard : IdleGuard) (how : Settled α)
  /-- The call has finished, and the run is about to be checked once more. -/
  | checking (result : Except RunError α)
  | returned (result : Except RunError α)

def CallStage.result? {α : Type} : CallStage α → Option (Except RunError α)
  | .returned result => some result
  | _ => none

inductive CallTurn where
  | own
  | other (turn : AccountTurn)
  deriving DecidableEq, Repr

def CallTurn.keepsTime : CallTurn → Bool
  | .own => false
  | .other turn => turn.keepsTime

structure PendingCall (α : Type) where
  shared : SharedAccount
  stage : CallStage α := .starting
  polls : Nat := 0

namespace Account

private theorem signal_enterIdle (a : Account) (now : Nat) :
    (a.enterIdle now).2.signal = a.signal := by
  simp only [enterIdle, markIdle]
  split <;> rfl

private theorem signal_leaveIdle (a : Account) (guard : IdleGuard) (now : Nat) :
    (a.leaveIdle guard now).signal = a.signal := by
  unfold leaveIdle markActive
  split
  · split <;> rfl
  · rfl

end Account

namespace SharedAccount

variable {s : SharedAccount} {p : CancelStage} {reason : CancelReason}

private theorem AtStage.eq_announced (h : s.AtStage p) (told : s.account.signal = some reason) :
    p = .announced reason := by
  rw [h.signal] at told
  cases p with
  | active | recorded thread reason => cases told
  | announced reason => cases told; rfl

theorem AtStage.eq_active (h : s.AtStage p) (active : s.account.cancelled = none) :
    p = .active := by
  rw [h.cancelled] at active
  cases p with
  | active => rfl
  | recorded thread reason | announced reason => cases active

private theorem AtStage.cancelled_of_signal (h : s.AtStage p)
    (told : s.account.signal = some reason) :
    s.account.cancelled = some reason := by
  obtain rfl := h.eq_announced told
  exact h.cancelled

end SharedAccount

namespace PendingCall

variable {α : Type} {future : Future α} {r : PendingCall α} {now : Nat}

def withAccount (r : PendingCall α) (account : Account) : PendingCall α :=
  { r with shared := { r.shared with account := account } }

def advance (future : Future α) (r : PendingCall α) (now : Nat) : PendingCall α :=
  match r.stage with
  | .starting => match r.shared.account.ensureActive with
    | .error e => { r with stage := .returned (.error e) }
    | .ok () => { r with stage := .admitted }
  | .admitted =>
    let (guard, account) := r.shared.account.enterIdle now
    { r.withAccount account with stage := .watching guard }
  | .watching guard => match r.shared.account.signal with
    | some reason => { r with stage := .settled guard (.dropped reason) }
    | none => { r with stage := .polling guard }
  | .polling guard => match future r.polls with
    | some result =>
      { r with stage := .settled guard (.finished result), polls := r.polls + 1 }
    | none => { r with stage := .watching guard, polls := r.polls + 1 }
  | .settled guard how =>
    { r.withAccount (r.shared.account.leaveIdle guard now) with
      stage := match how with
        | .dropped reason => .returned (.error (.cancelled reason))
        | .finished result => .checking result }
  | .checking result => match r.shared.account.ensureActive with
    | .error e => { r with stage := .returned (.error e) }
    | .ok () => { r with stage := .returned result }
  | .returned _ => r

def take (future : Future α) (r : PendingCall α) (now : Nat) : CallTurn → PendingCall α
  | .own => r.advance future now
  | .other turn => { r with shared := (r.shared.take now turn).2 }

def after (future : Future α) (r : PendingCall α) (turns : List (Nat × CallTurn)) : PendingCall α :=
  turns.foldl (fun r turn => r.take future turn.1 turn.2) r

theorem after_cons (r : PendingCall α) (turn : Nat × CallTurn) (turns : List (Nat × CallTurn)) :
    r.after future (turn :: turns) = (r.take future turn.1 turn.2).after future turns := rfl

theorem after_append (r : PendingCall α) (earlier later : List (Nat × CallTurn)) :
    r.after future (earlier ++ later) = (r.after future earlier).after future later :=
  List.foldl_append

theorem after_induction {P : PendingCall α → Prop} {turns : List (Nat × CallTurn)}
    (step : ∀ r, P r → ∀ turn ∈ turns, P (r.take future turn.1 turn.2)) (h : P r) :
    P (r.after future turns) := by
  induction turns generalizing r with
  | nil => exact h
  | cons head turns ih =>
    refine ih (fun r hr turn there => step r hr turn (List.mem_cons_of_mem _ there)) ?_
    exact step r h head List.mem_cons_self

/-- All that a turn of the call can do. The account is touched only where the guard is taken and
where it is given back. -/
inductive OwnTurn (future : Future α) (now : Nat) : PendingCall α → PendingCall α → Prop where
  | refuse {shared polls} (first : CancelReason) (late : shared.account.cancelled = some first) :
    OwnTurn future now ⟨shared, .starting, polls⟩
      ⟨shared, .returned (.error (.cancelled first)), polls⟩
  | pass {shared polls} (active : shared.account.cancelled = none) :
    OwnTurn future now ⟨shared, .starting, polls⟩ ⟨shared, .admitted, polls⟩
  | enter {shared polls} :
    OwnTurn future now ⟨shared, .admitted, polls⟩
      ⟨{ shared with account := (shared.account.enterIdle now).2 },
        .watching (shared.account.enterIdle now).1, polls⟩
  | abandon {shared guard polls} (reason : CancelReason)
      (told : shared.account.signal = some reason) :
    OwnTurn future now ⟨shared, .watching guard, polls⟩
      ⟨shared, .settled guard (.dropped reason), polls⟩
  | look {shared guard polls} (untold : shared.account.signal = none) :
    OwnTurn future now ⟨shared, .watching guard, polls⟩ ⟨shared, .polling guard, polls⟩
  | finish {shared guard polls} (result : Except RunError α) (ready : future polls = some result) :
    OwnTurn future now ⟨shared, .polling guard, polls⟩
      ⟨shared, .settled guard (.finished result), polls + 1⟩
  | pend {shared guard polls} (unready : future polls = none) :
    OwnTurn future now ⟨shared, .polling guard, polls⟩ ⟨shared, .watching guard, polls + 1⟩
  | drop {shared guard polls} (reason : CancelReason) :
    OwnTurn future now ⟨shared, .settled guard (.dropped reason), polls⟩
      ⟨{ shared with account := shared.account.leaveIdle guard now },
        .returned (.error (.cancelled reason)), polls⟩
  | resume {shared guard polls} (result : Except RunError α) :
    OwnTurn future now ⟨shared, .settled guard (.finished result), polls⟩
      ⟨{ shared with account := shared.account.leaveIdle guard now }, .checking result, polls⟩
  | fail {shared result polls} (first : CancelReason)
      (late : shared.account.cancelled = some first) :
    OwnTurn future now ⟨shared, .checking result, polls⟩
      ⟨shared, .returned (.error (.cancelled first)), polls⟩
  | deliver {shared result polls} (active : shared.account.cancelled = none) :
    OwnTurn future now ⟨shared, .checking result, polls⟩ ⟨shared, .returned result, polls⟩
  | stay {shared result polls} :
    OwnTurn future now ⟨shared, .returned result, polls⟩ ⟨shared, .returned result, polls⟩

private theorem ownTurn_advance (future : Future α) (r : PendingCall α) (now : Nat) :
    OwnTurn future now r (r.advance future now) := by
  obtain ⟨shared, stage, polls⟩ := r
  cases stage with
  | starting =>
    simp only [advance, Account.ensureActive]
    cases found : shared.account.cancelled with
    | some first => exact .refuse first found
    | none => exact .pass found
  | admitted => exact .enter
  | watching guard =>
    simp only [advance]
    cases found : shared.account.signal with
    | some reason => exact .abandon reason found
    | none => exact .look found
  | polling guard =>
    simp only [advance]
    cases found : future polls with
    | some result => exact .finish result found
    | none => exact .pend found
  | settled guard how =>
    cases how with
    | dropped reason => exact .drop reason
    | finished result => exact .resume result
  | checking result =>
    simp only [advance, Account.ensureActive]
    cases found : shared.account.cancelled with
    | some first => exact .fail first found
    | none => exact .deliver found
  | returned result => exact .stay

variable {p : CancelStage} {first : CancelReason}

theorem atStage_ownTurn {next : PendingCall α} (turn : OwnTurn future now r next)
    (h : r.shared.AtStage p) : next.shared.AtStage p := by
  obtain ⟨cancelled, signal, announcing⟩ := h
  cases turn with
  | enter =>
    refine ⟨(Account.cancelled_enterIdle _ now).trans cancelled, ?_, announcing⟩
    exact (Account.signal_enterIdle _ now).trans signal
  | drop | resume =>
    refine ⟨(Account.cancelled_leaveIdle _ _ now).trans cancelled, ?_, announcing⟩
    exact (Account.signal_leaveIdle _ _ now).trans signal
  | _ => exact ⟨cancelled, signal, announcing⟩

theorem exists_atStage_take (h : ∃ p, r.shared.AtStage p) (turn : CallTurn) :
    ∃ p, (r.take future now turn).shared.AtStage p := by
  obtain ⟨p, stage⟩ := h
  cases turn with
  | own => exact ⟨p, atStage_ownTurn (ownTurn_advance future r now) stage⟩
  | other turn => exact ⟨_, SharedAccount.atStage_take now turn stage⟩

theorem cancelled_take (h : ∃ p, r.shared.AtStage p) (late : r.shared.account.cancelled = some first)
    (turn : CallTurn) : (r.take future now turn).shared.account.cancelled = some first := by
  obtain ⟨p, stage⟩ := h
  cases turn with
  | own =>
    have same := atStage_ownTurn (ownTurn_advance future r now) stage
    exact (same.cancelled.trans stage.cancelled.symm).trans late
  | other turn => exact SharedAccount.cancelled_after stage late [(now, turn)]

private theorem signal_take (h : ∃ p, r.shared.AtStage p)
    (told : r.shared.account.signal = some first)
    (turn : CallTurn) : (r.take future now turn).shared.account.signal = some first := by
  obtain ⟨p, stage⟩ := h
  cases turn with
  | own =>
    have same := atStage_ownTurn (ownTurn_advance future r now) stage
    exact (same.signal.trans stage.signal.symm).trans told
  | other turn =>
    obtain rfl := stage.eq_announced told
    exact (SharedAccount.atStage_take now turn stage).signal

/-- A call that has settled has something to show for it: the reason that the run is cancelled for,
or a poll that gave the result. -/
def Backed (future : Future α) (r : PendingCall α) : Prop :=
  match r.stage with
  | .settled _ (.dropped reason) => r.shared.account.cancelled = some reason
  | .settled _ (.finished result) | .checking result => ∃ k < r.polls, future k = some result
  | .starting | .admitted | .watching _ | .polling _ | .returned _ => True

structure Sound (future : Future α) (r : PendingCall α) : Prop where
  stage : ∃ p, r.shared.AtStage p
  backed : r.Backed future

private theorem Sound.take (h : Sound future r) (turn : CallTurn) :
    Sound future (r.take future now turn) := by
  refine ⟨exists_atStage_take h.stage turn, ?_⟩
  obtain ⟨⟨p, stage⟩, backed⟩ := h
  cases turn with
  | other turn =>
    obtain ⟨shared, at_, polls⟩ := r
    cases at_ with
    | settled guard how =>
      cases how with
      | dropped reason => exact SharedAccount.cancelled_after stage backed [(now, turn)]
      | finished result => exact backed
    | _ => exact backed
  | own =>
    change Backed future (r.advance future now)
    have step := ownTurn_advance future r now
    generalize r.advance future now = next at step
    cases step with
    | abandon reason told => exact stage.cancelled_of_signal told
    | @finish shared guard polls result ready => exact ⟨polls, Nat.lt_succ_self polls, ready⟩
    | resume result => exact backed
    | _ => trivial

theorem Sound.after (h : Sound future r) (turns : List (Nat × CallTurn)) :
    Sound future (r.after future turns) :=
  after_induction (P := Sound future) (fun _ sound turn _ => sound.take turn.2) h

/-- What the account and the polls say of a call at its last check. -/
def Verdict (future : Future α) (r : PendingCall α) (result : Except RunError α) : Prop :=
  match r.shared.account.cancelled with
  | some first => result = .error (.cancelled first)
  | none => ∃ k < r.polls, future k = some result

theorem Sound.verdict (h : Sound future r) (pending : r.stage.result? = none)
    {result : Except RunError α} (returns : (r.advance future now).stage.result? = some result) :
    Verdict future r result := by
  obtain ⟨-, backed⟩ := h
  have step := ownTurn_advance future r now
  generalize r.advance future now = next at step returns
  unfold Verdict
  cases step with
  | refuse first late | fail first late =>
    cases returns
    simp only [late]
  | @drop shared guard polls reason =>
    have late : shared.account.cancelled = some reason := backed
    cases returns
    simp only [late]
  | deliver active =>
    cases returns
    simp only [active]
    exact backed
  | stay => cases pending
  | _ => cases returns

private theorem result?_take {result : Except RunError α} (returned : r.stage.result? = some result)
    (turn : CallTurn) : (r.take future now turn).stage.result? = some result := by
  cases turn with
  | other turn => exact returned
  | own =>
    change (r.advance future now).stage.result? = some result
    have step := ownTurn_advance future r now
    generalize r.advance future now = next at step ⊢
    cases step with
    | stay => exact returned
    | _ => cases returned

private theorem result?_after {result : Except RunError α}
    (returned : r.stage.result? = some result)
    (turns : List (Nat × CallTurn)) : (r.after future turns).stage.result? = some result :=
  after_induction (P := fun r => r.stage.result? = some result)
    (fun _ returned turn _ => result?_take returned turn.2) returned

theorem exists_return {result : Except RunError α} {turns : List (Nat × CallTurn)}
    (pending : r.stage.result? = none)
    (returned : (r.after future turns).stage.result? = some result) :
    ∃ before now later, turns = before ++ (now, .own) :: later ∧
      (r.after future before).stage.result? = none ∧
      ((r.after future before).advance future now).stage.result? = some result := by
  induction turns generalizing r with
  | nil => rw [show r.after future [] = r from rfl, pending] at returned; cases returned
  | cons head turns ih =>
    obtain ⟨now, turn⟩ := head
    cases here : (r.take future now turn).stage.result? with
    | none =>
      obtain ⟨before, at_, later, rfl, pending, returns⟩ := ih here returned
      exact ⟨(now, turn) :: before, at_, later, rfl, pending, returns⟩
    | some early =>
      have same : some early = some result :=
        (result?_after here turns).symm.trans returned
      cases same
      cases turn with
      | other turn => cases pending.symm.trans here
      | own => exact ⟨[], now, turns, rfl, pending, here⟩

theorem Sound.result_of_cancelled (h : Sound future r) (pending : r.stage.result? = none)
    (late : r.shared.account.cancelled = some first) {result : Except RunError α}
    {turns : List (Nat × CallTurn)}
    (returned : (r.after future turns).stage.result? = some result) :
    result = .error (.cancelled first) := by
  obtain ⟨before, now, later, rfl, pending, returns⟩ := exists_return pending returned
  have verdict := (h.after before).verdict pending returns
  have still : (r.after future before).shared.account.cancelled = some first := by
    have kept : Sound future (r.after future before) ∧
        (r.after future before).shared.account.cancelled = some first :=
      after_induction (P := fun r => Sound future r ∧ r.shared.account.cancelled = some first)
        (fun _ kept turn _ => ⟨kept.1.take turn.2, cancelled_take kept.1.stage kept.2 turn.2⟩)
        ⟨h, late⟩
    exact kept.2
  rw [Verdict, still] at verdict
  exact verdict

def ownTurns (turns : List (Nat × CallTurn)) : Nat := turns.countP fun turn => turn.2 = .own

/-- What every own turn lowers and no other turn changes runs out with the own turns. -/
theorem measure_after {P : PendingCall α → Prop} {measure : PendingCall α → Nat}
    (keeps : ∀ r, P r → ∀ now turn, P (r.take future now turn))
    (lowers : ∀ r, P r → ∀ now, measure (r.advance future now) ≤ measure r - 1)
    (spares : ∀ r now turn, measure (r.take future now (.other turn)) = measure r) (h : P r)
    (turns : List (Nat × CallTurn)) :
    measure (r.after future turns) ≤ measure r - ownTurns turns := by
  induction turns generalizing r with
  | nil => exact Nat.le_refl _
  | cons head turns ih =>
    obtain ⟨now, turn⟩ := head
    have rest := ih (keeps r h now turn)
    change measure ((r.take future now turn).after future turns) ≤ _
    cases turn with
    | own =>
      have step := lowers r h now
      change _ ≤ measure (r.advance future now) - _ at rest
      simp only [ownTurns, List.countP_cons, decide_true, if_true] at rest ⊢
      omega
    | other turn =>
      rw [spares] at rest
      simpa [ownTurns, List.countP_cons] using rest

/-- How many turns of its own a call has left at most once a cancellation is announced. -/
def abandonTime (r : PendingCall α) : Nat :=
  match r.stage with
  | .starting | .checking _ | .settled _ (.dropped _) => 1
  | .watching _ | .settled _ (.finished _) => 2
  | .admitted | .polling _ => 3
  | .returned _ => 0

theorem returned_of_abandonTime (h : r.abandonTime = 0) :
    ∃ result, r.stage.result? = some result := by
  obtain ⟨shared, stage, polls⟩ := r
  cases stage with
  | returned result => exact ⟨result, rfl⟩
  | settled guard how => cases how <;> cases h
  | _ => cases h

private theorem abandonTime_advance (told : r.shared.account.signal = some first)
    (late : r.shared.account.cancelled = some first) (now : Nat) :
    (r.advance future now).abandonTime ≤ r.abandonTime - 1 := by
  have step := ownTurn_advance future r now
  generalize r.advance future now = next at step ⊢
  cases step with
  | pass active => rw [late] at active; cases active
  | look untold => rw [told] at untold; cases untold
  | deliver active => rw [late] at active; cases active
  | _ => exact Nat.le_refl _

/-- A call returns soon after a cancellation is announced, however long its future takes. -/
theorem Sound.returned_of_signal (h : Sound future r) (told : r.shared.account.signal = some first)
    {turns : List (Nat × CallTurn)} (enough : 3 ≤ ownTurns turns) :
    ∃ result, (r.after future turns).stage.result? = some result := by
  refine returned_of_abandonTime ?_
  have bound : (r.after future turns).abandonTime ≤ r.abandonTime - ownTurns turns := by
    refine measure_after (P := fun r => Sound future r ∧ r.shared.account.signal = some first)
      ?_ ?_ (fun _ _ _ => rfl) ⟨h, told⟩ turns
    · rintro r ⟨sound, told⟩ now turn
      exact ⟨sound.take turn, signal_take sound.stage told turn⟩
    · rintro r ⟨⟨⟨p, stage⟩, -⟩, told⟩ now
      exact abandonTime_advance told (stage.cancelled_of_signal told) now
  have atMost : r.abandonTime ≤ 3 := by
    unfold abandonTime
    split <;> omega
  omega

/-- How many turns of its own a call has left at most whose future is ready at the poll `k`. -/
def finishTime (k : Nat) (r : PendingCall α) : Nat :=
  match r.stage with
  | .starting => 2 * (k - r.polls) + 6
  | .admitted => 2 * (k - r.polls) + 5
  | .watching _ => 2 * (k - r.polls) + 4
  | .polling _ => 2 * (k - r.polls) + 3
  | .settled _ (.finished _) => 2
  | .settled _ (.dropped _) | .checking _ => 1
  | .returned _ => 0

def Awaiting (k : Nat) (r : PendingCall α) : Prop :=
  match r.stage with
  | .starting | .admitted | .watching _ | .polling _ => r.polls ≤ k
  | .settled _ _ | .checking _ | .returned _ => True

private theorem returned_of_finishTime {k : Nat} (h : r.finishTime k = 0) :
    ∃ result, r.stage.result? = some result := by
  obtain ⟨shared, stage, polls⟩ := r
  cases stage with
  | returned result => exact ⟨result, rfl⟩
  | settled guard how => cases how <;> cases h
  | _ => cases h

private theorem awaiting_advance {k : Nat} (ready : (future k).isSome) (h : r.Awaiting k)
    (now : Nat) :
    (r.advance future now).Awaiting k ∧ (r.advance future now).finishTime k ≤ r.finishTime k - 1 := by
  have step := ownTurn_advance future r now
  generalize r.advance future now = next at step ⊢
  cases step with
  | @pend shared guard polls unready =>
    have before : polls ≤ k := h
    have notYet : polls ≠ k := by
      rintro rfl
      rw [unready] at ready
      cases ready
    exact ⟨show polls + 1 ≤ k by omega, by simp only [finishTime]; omega⟩
  | @enter shared polls => exact ⟨h, Nat.le_refl _⟩
  | pass | look => exact ⟨h, Nat.le_refl _⟩
  | _ => exact ⟨trivial, by simp only [finishTime]; omega⟩

theorem returned_of_ready {k : Nat} (ready : (future k).isSome) {shared : SharedAccount}
    {turns : List (Nat × CallTurn)} (enough : 2 * k + 6 ≤ ownTurns turns) :
    ∃ result, (after future { shared := shared } turns).stage.result? = some result := by
  refine returned_of_finishTime (k := k) ?_
  have bound : (after future { shared := shared } turns).finishTime k ≤
      2 * k + 6 - ownTurns turns := by
    have awaiting : Awaiting k (α := α) { shared := shared } := Nat.zero_le k
    refine measure_after (P := Awaiting k) ?_ ?_ (fun _ _ _ => rfl) awaiting turns
    · intro r awaiting now turn
      cases turn with
      | own => exact (awaiting_advance ready awaiting now).1
      | other turn => exact awaiting
    · intro r awaiting now
      exact (awaiting_advance ready awaiting now).2
  omega

/-- While a call waits, it holds the guard of its own interval unless one was open before. -/
def Bracketed (before : Option Nat) (r : PendingCall α) : Prop :=
  match r.stage with
  | .starting | .admitted | .checking _ | .returned _ => r.shared.account.idleStart = before
  | .watching guard | .polling guard | .settled guard _ =>
    guard.owner = before.isNone ∧
      (guard.owner = false → r.shared.account.idleStart = before)

private theorem idleStart_leaveIdle {a : Account} {guard : IdleGuard} {before : Option Nat}
    (owner : guard.owner = before.isNone) (kept : guard.owner = false → a.idleStart = before)
    (now : Nat) : (a.leaveIdle guard now).idleStart = before := by
  unfold Account.leaveIdle
  cases owned : guard.owner with
  | false => exact kept owned
  | true =>
    have none : before = none := Option.isNone_iff_eq_none.1 (owner.symm.trans owned)
    rw [none, if_pos rfl, Account.markActive]
    split
    next => rfl
    next closed => exact closed

private theorem idleStart_enterIdle (a : Account) (now : Nat) :
    (a.enterIdle now).1.owner = a.idleStart.isNone ∧
      ((a.enterIdle now).1.owner = false → (a.enterIdle now).2.idleStart = a.idleStart) := by
  refine ⟨rfl, fun held => ?_⟩
  cases found : a.idleStart with
  | none => simp [Account.enterIdle, found] at held
  | some opened => simp only [Account.enterIdle, Account.markIdle, found]

theorem bracketed_take {before : Option Nat} (h : Bracketed before r) {turn : CallTurn}
    (spares : turn.keepsTime = false) : Bracketed before (r.take future now turn) := by
  cases turn with
  | other turn =>
    obtain ⟨-, same, -⟩ := r.shared.take_of_not_keepsTime now spares
    obtain ⟨shared, stage, polls⟩ := r
    cases stage with
    | watching guard | polling guard | settled guard how =>
      exact ⟨h.1, fun kept => same.trans (h.2 kept)⟩
    | _ => exact same.trans h
  | own =>
    change Bracketed before (r.advance future now)
    have step := ownTurn_advance future r now
    generalize r.advance future now = next at step ⊢
    cases step with
    | @enter shared polls =>
      have opened : shared.account.idleStart = before := h
      subst opened
      exact idleStart_enterIdle shared.account now
    | drop | resume => exact idleStart_leaveIdle h.1 h.2 now
    | _ => exact h

end PendingCall

end GuildSandbox
