import GuildSandbox.Proofs.Host.Orderly
import GuildSandbox.Proofs.Host.PendingCall

/-!
Calls to the host under concurrent cancellation.

The laws of a call hold for every future and every order in which the turns of the call and those of
other threads can come. The calls that a run makes are among these: what `Host.call` does is what a
call comes to in turns, with the deadline and the collaborators as the other threads.
-/

set_option autoImplicit false
set_option relaxedAutoImplicit false

namespace GuildSandbox

namespace PendingCall

variable {α : Type} {future : Future α} {s : SharedAccount}

def start (s : SharedAccount) : PendingCall α := { shared := s }

private theorem sound_start (h : ∃ p, s.AtStage p) : Sound future (start s) := ⟨h, trivial⟩

private theorem refused_after {first : CancelReason} (h : ∃ p, s.AtStage p)
    (late : s.account.cancelled = some first) (turns : List (Nat × CallTurn)) :
    ((start s).after future turns).polls = 0 ∧
      (1 ≤ ownTurns turns →
        ((start s).after future turns).stage.result? = some (.error (.cancelled first))) := by
  -- The call has not begun or has failed, as long as the cancellation stands.
  let Outside (r : PendingCall α) : Prop :=
    ((∃ p, r.shared.AtStage p) ∧ r.shared.account.cancelled = some first) ∧ r.polls = 0 ∧
      (r.stage = .starting ∨ r.stage = .returned (.error (.cancelled first)))
  have outside : ∀ r, Outside r → ∀ now turn, Outside (r.take future now turn) := by
    rintro r ⟨⟨stage, late⟩, unpolled, at_⟩ now turn
    refine ⟨⟨exists_atStage_take stage turn, cancelled_take stage late turn⟩, ?_⟩
    cases turn with
    | other turn => exact ⟨unpolled, at_⟩
    | own =>
      obtain ⟨shared, stage, polls⟩ := r
      have unbegun : shared.account.cancelled = some first := late
      rcases at_ with rfl | rfl
      · simp only [take, advance, Account.ensureActive, unbegun]
        exact ⟨unpolled, .inr trivial⟩
      · exact ⟨unpolled, .inr rfl⟩
  have begun : Outside (start s) := ⟨⟨h, late⟩, rfl, .inl rfl⟩
  have ends : Outside ((start s).after future turns) :=
    after_induction (P := Outside) (fun r hr turn _ => outside r hr turn.1 turn.2) begun
  refine ⟨ends.2.1, fun enough => ?_⟩
  have spent : ((start s).after future turns).abandonTime ≤ 1 - ownTurns turns := by
    refine measure_after (P := Outside) outside ?_ (fun _ _ _ => rfl) begun turns
    rintro ⟨shared, stage, polls⟩ ⟨⟨-, late⟩, -, at_⟩ now
    have unbegun : shared.account.cancelled = some first := late
    rcases at_ with rfl | rfl
    · simp only [advance, Account.ensureActive, unbegun]
      exact Nat.le_refl _
    · exact Nat.le_refl _
  obtain ⟨result, returned⟩ := returned_of_abandonTime (r := (start s).after future turns) (by omega)
  have pending : (start s : PendingCall α).stage.result? = none := rfl
  rw [returned, (sound_start h).result_of_cancelled pending late returned]

def cancelTurns (now : Nat) (reason : CancelReason) : List (Nat × CallTurn) :=
  [(now, .other (.cancel 0 reason)), (now, .other (.announce 0))]

private theorem after_cancelTurns (active : s.AtStage .active) (now : Nat) (reason : CancelReason)
    (stage : CallStage α) (polls : Nat) :
    after future ⟨s, stage, polls⟩ (cancelTurns now reason) =
      ⟨{ s with account := (s.account.cancel reason).2 }, stage, polls⟩ := by
  obtain ⟨⟨account, guards⟩, announcing⟩ := s
  obtain ⟨cancelled, -, none⟩ := active
  simp only [CancelStage.reason?, CancelStage.announcing] at cancelled none
  simp [cancelTurns, after, take, SharedAccount.take, Account.record, Account.announce,
    Account.cancel, cancelled, none]

private theorem exists_turns_of_cancelledTo (active : s.AtStage .active) {account : Account}
    (reached : s.account.CancelledTo account) (future : Future α) :
    ∃ turns, (∀ turn ∈ turns, turn.2.keepsTime = false) ∧ ∀ stage polls,
      after future ⟨s, stage, polls⟩ turns = ⟨{ s with account := account }, stage, polls⟩ := by
  rcases reached with rfl | ⟨reason, rfl⟩
  · exact ⟨[], by simp, fun _ _ => rfl⟩
  · refine ⟨cancelTurns 0 reason, by simp [cancelTurns, CallTurn.keepsTime, AccountTurn.keepsTime],
      fun stage polls => ?_⟩
    exact after_cancelTurns active 0 reason stage polls

private theorem after_enter (active : s.account.cancelled = none) (now : Nat) :
    after future (start s : PendingCall α) [(now, .own), (now, .own)] =
      ⟨{ s with account := (s.account.enterIdle now).2 },
        .watching (s.account.enterIdle now).1, 0⟩ := by
  simp [after, take, start, advance, withAccount, Account.ensureActive, active]

/-- The last turns of a call that has finished: the interval is closed and the run is checked. -/
private theorem after_resume (account : Account) (guard : IdleGuard) (result : Except RunError α)
    (polls now : Nat) :
    after future ⟨{ s with account := account }, .settled guard (.finished result), polls⟩
        [(now, .own), (now, .own)] =
      ⟨{ s with account := account.leaveIdle guard now },
        .returned (match account.cancelled with
          | some first => .error (.cancelled first)
          | none => result), polls⟩ := by
  have checked : (account.leaveIdle guard now).cancelled = account.cancelled :=
    account.cancelled_leaveIdle guard now
  simp only [after, List.foldl_cons, List.foldl_nil, take, advance, withAccount,
    Account.ensureActive, checked]
  cases account.cancelled <;> rfl

private theorem after_abandon {reason : CancelReason} (told : s.account.signal = some reason)
    (guard : IdleGuard) (polls now : Nat) :
    after future ⟨s, .watching guard, polls⟩ [(now, .own), (now, .own)] =
      ⟨{ s with account := s.account.leaveIdle guard now },
        .returned (.error (.cancelled reason)), polls⟩ := by
  simp [after, take, advance, withAccount, told]

private theorem exists_turns_of_call (h : ∃ p, s.AtStage p) {c : HostCall α}
    (effect : c.effect.Orderly)
    {w : World} (shared : w.account = s.account) :
    ∃ (future : Future α) (turns : List (Nat × CallTurn)),
      (∀ turn ∈ turns, turn.2.keepsTime = false) ∧
      ((start s).after future turns).stage = .returned ((Host.call c).run w).1 ∧
      ((start s).after future turns).shared.account = ((Host.call c).run w).2.account := by
  cases early : w.account.cancelled with
  | some first =>
    have unbegun : s.account.cancelled = some first := shared ▸ early
    refine ⟨fun _ => none, [(w.clock, .own)], by simp [CallTurn.keepsTime], ?_⟩
    rw [Host.call_of_cancelled early, shared]
    simp [after, take, start, advance, Account.ensureActive, unbegun]
  | none =>
    have active : s.account.cancelled = none := shared ▸ early
    -- While the call waits, the account is that of the idle run, which is not cancelled yet.
    let guard : IdleGuard := (w.account.enterIdle w.clock).1
    let waiting : SharedAccount := { s with account := w.idled.account }
    have entered (future : Future α) : after future (start s) [(w.clock, .own), (w.clock, .own)] =
        ⟨waiting, .watching guard, 0⟩ := by
      rw [after_enter active, ← shared]
      rfl
    have stage : waiting.AtStage .active := by
      obtain ⟨p, stage⟩ := h
      obtain rfl := stage.eq_active active
      have turn : OwnTurn (fun _ => none) w.clock (⟨s, .admitted, 0⟩ : PendingCall α) _ := .enter
      have kept := atStage_ownTurn turn stage
      rw [← shared] at kept
      exact kept
    obtain ⟨reaches, outcome⟩ | ⟨result, left, took, outcome⟩ := Host.call_of_active c early
    · let left := w.idled.elapseToDeadline 0
      have late : left.account = (waiting.account.cancel .totalDurationLimit).2 := by
        have reached := World.reachesDeadline_stopTime reaches 0
        simp only [left, World.elapseToDeadline, World.elapse, reached, if_true]
        rfl
      have told : left.account.signal = some .totalDurationLimit := by
        rw [late, Account.cancel, Account.record, stage.cancelled]
        rfl
      refine ⟨fun _ => none, [(w.clock, .own), (w.clock, .own)] ++
        (cancelTurns w.clock .totalDurationLimit ++ [(left.clock, .own), (left.clock, .own)]),
        by simp [cancelTurns, CallTurn.keepsTime, AccountTurn.keepsTime], ?_⟩
      rw [after_append, entered, after_append, after_cancelTurns stage, ← late,
        after_abandon told, outcome]
      exact ⟨by rw [show (w.idled.elapseToDeadline 0).account.signal = _ from told]; rfl, rfl⟩
    · have reached : waiting.account.CancelledTo left.account := by
        have took' := effect.account (w.idled.elapse (c.wait w.idled))
        rw [took] at took'
        exact (w.idled.cancelledTo_elapse _).trans took'
      obtain ⟨others, spare, meanwhile⟩ :=
        exists_turns_of_cancelledTo stage reached fun _ => some result
      refine ⟨fun _ => some result, [(w.clock, .own), (w.clock, .own)] ++
        ((w.clock, .own) :: (others ++
          ((left.clock, .own) :: [(left.clock, .own), (left.clock, .own)]))), ?_, ?_⟩
      · intro turn there
        simp only [List.mem_append, List.mem_cons, List.not_mem_nil, or_false] at there
        rcases there with (rfl | rfl) | rfl | there | rfl | rfl | rfl
        case inr.inr.inl => exact spare turn there
        all_goals rfl
      · have looked : take (fun _ => some result) ⟨waiting, .watching guard, 0⟩ w.clock .own =
            ⟨waiting, .polling guard, 0⟩ := by
          simp only [take, advance, stage.signal]
          rfl
        have polled : take (fun _ => some result)
            ⟨{ waiting with account := left.account }, .polling guard, 0⟩ left.clock .own =
              ⟨{ waiting with account := left.account }, .settled guard (.finished result), 1⟩ := rfl
        rw [after_append, entered, after_cons, looked, after_append, meanwhile, after_cons, polled,
          after_resume, outcome]
        exact ⟨rfl, rfl⟩

/-- What holds of a call that starts on a shared account, whatever its future and whatever turns
follow. -/
structure Laws (s : SharedAccount) (future : Future α) : Prop where
  /-- A call in a run that is cancelled already is never polled and fails at its first turn. -/
  refused : ∀ first turns, s.account.cancelled = some first →
    ((start s).after future turns).polls = 0 ∧
      (1 ≤ ownTurns turns →
        ((start s).after future turns).stage.result? = some (.error (.cancelled first)))
  /-- What a call returns was decided at a turn of its own: the reason of the cancellation if there
  was one by then, and else what a poll gave. -/
  decided : ∀ turns result, ((start s).after future turns).stage.result? = some result →
    ∃ before now later, turns = before ++ (now, .own) :: later ∧
      ((start s).after future before).stage.result? = none ∧
      Verdict future ((start s).after future before) result
  /-- A cancellation that is recorded before a call returns is what the call returns. -/
  stands : ∀ before later first result,
    ((start s).after future before).stage.result? = none →
    ((start s).after future before).shared.account.cancelled = some first →
    ((start s).after future (before ++ later)).stage.result? = some result →
      result = .error (.cancelled first)
  /-- A call returns within three turns once a cancellation is announced. -/
  abandoned : ∀ before later reason,
    ((start s).after future before).shared.account.signal = some reason →
    3 ≤ ownTurns later → ∃ result,
      ((start s).after future (before ++ later)).stage.result? = some result
  /-- A call whose future gets ready returns. -/
  finished : ∀ k turns, (future k).isSome → 2 * k + 6 ≤ ownTurns turns →
    ∃ result, ((start s).after future turns).stage.result? = some result
  /-- A call that has returned leaves an idle interval open if and only if, and since when, it was
  open before, unless another thread opens or closes one. -/
  bracketed : ∀ turns result, (∀ turn ∈ turns, turn.2.keepsTime = false) →
    ((start s).after future turns).stage.result? = some result →
      ((start s).after future turns).shared.account.idleStart = s.account.idleStart

private theorem laws (h : ∃ p, s.AtStage p) (future : Future α) : Laws s future where
  refused := fun _ turns late => refused_after h late turns
  decided := by
    intro turns result returned
    obtain ⟨before, now, later, parts, pending, returns⟩ := exists_return rfl returned
    exact ⟨before, now, later, parts, pending, ((sound_start h).after before).verdict pending returns⟩
  stands := by
    intro before later first result pending late returned
    rw [after_append] at returned
    exact ((sound_start h).after before).result_of_cancelled pending late returned
  abandoned := by
    intro before later reason told enough
    rw [after_append]
    exact ((sound_start h).after before).returned_of_signal told enough
  finished := fun _ _ ready enough => returned_of_ready ready enough
  bracketed := by
    intro turns result spares returned
    have bracket : Bracketed s.account.idleStart ((start s).after future turns) :=
      after_induction (P := Bracketed s.account.idleStart)
        (fun _ open_ turn there => bracketed_take open_ (spares turn there)) rfl
    generalize (start s).after future turns = r at bracket returned
    obtain ⟨shared, stage, polls⟩ := r
    cases stage with
    | returned result => exact bracket
    | _ => cases returned

/-- A call on an account that any threads have worked on obeys its laws, and a call of the run is
such a call in turns, as long as its effect does no more to the account than cancel it. -/
theorem obeys_cancellation (budget : Budget) (begun : Nat) (past : List (Nat × AccountTurn)) :
    let s := (SharedAccount.new budget begun).after past
    (∀ (α : Type) (future : Future α), Laws s future) ∧
    ∀ (α : Type) (c : HostCall α) (w : World), c.effect.Orderly → w.account = s.account →
      ∃ (future : Future α) (turns : List (Nat × CallTurn)),
        (∀ turn ∈ turns, turn.2.keepsTime = false) ∧
        ((start s).after future turns).stage = .returned ((Host.call c).run w).1 ∧
        ((start s).after future turns).shared.account = ((Host.call c).run w).2.account := by
  intro s
  obtain ⟨p, stage, -⟩ :=
    SharedAccount.exists_atStage_after (SharedAccount.atStage_new budget begun) past
  refine ⟨fun α future => laws ⟨p, stage⟩ future, ?_⟩
  intro α c w effect shared
  exact exists_turns_of_call ⟨p, stage⟩ effect shared

def racedFuture : Future Nat := fun k => if k = 0 then none else some (.ok 5)

/-- Between the second poll and the last check another thread records a cancellation, which it
announces only after the call has returned. -/
def racedCall : List (Nat × CallTurn) :=
  [(10, .own), (11, .own), (12, .own), (13, .own), (14, .other (.onStep 3)), (15, .own), (16, .own),
    (17, .other (.cancel 7 .totalDurationLimit)), (20, .own), (21, .own),
    (22, .other (.announce 7))]

def racedStart : SharedAccount := (SharedAccount.new {} 0).after [(2, .addSteps 4)]

theorem racedCall_cancelled :
    ((start racedStart).after racedFuture racedCall).polls = 2 ∧
      ((start racedStart).after racedFuture racedCall).shared.account.idleClosed = 9 ∧
      ((start racedStart).after racedFuture racedCall).stage.result? =
        some (.error (.cancelled .totalDurationLimit)) ∧
      ((start racedStart).after racedFuture racedCall).shared.account.idleStart = none := by
  have returned : ((start racedStart).after racedFuture racedCall).stage.result? =
      some (.error (.cancelled .totalDurationLimit)) := by rfl
  have lawful : Laws racedStart racedFuture :=
    (obeys_cancellation {} 0 [(2, .addSteps 4)]).1 Nat racedFuture
  exact ⟨by rfl, by rfl, returned, lawful.bracketed racedCall _ (by decide) returned⟩

end PendingCall

end GuildSandbox
