import GuildSandbox.Proofs.Capability.Requirement
import GuildSandbox.Proofs.Capability.Session
import GuildSandbox.Proofs.Host.Gate

/-!
Runs that have been cancelled.

A cancelled run stays cancelled for its first reason, and nothing that its script asks for has an
effect any more. The order of checks decides what a call fails with: its arguments first, then the
permissions taken at dispatch, then the cancellation.
-/

set_option autoImplicit false
set_option relaxedAutoImplicit false

namespace GuildSandbox

variable {w : World} {reason : CancelReason}

namespace Call

/-- The call contacts the host. A deferral after an answer does not. -/
def contactsHost (responded : Bool) : Call → Bool
  | .argument .. | .mention .. | .savedMessageData .. => false
  | .defer => !responded
  | _ => true

/-- The failure of the arguments of a call, which is noticed before the host is contacted. -/
def argumentFailure? : Call → Option RunError
  | .respond _ (.error e) | .editChannel _ (.error e) | .editRole _ (.error e) => some e
  | .storeSet _ _ _ seconds => match Invocation.lifetime seconds with
    | .error e => some e
    | .ok _ => none
  | _ => none

def snapshotDenial? (inv : Invocation) (c : Call) : Option RunError :=
  ((c.mutation? inv.guildId).filter fun m => !inv.gate.grants inv.permissions m.1).map
    fun m => .permissionDenied m.1.describe

/-- The failure of a call that does not even get to the question whether the run is active. -/
def refusal? (inv : Invocation) (c : Call) : Option RunError :=
  c.argumentFailure? <|> c.snapshotDenial? inv

private theorem refusal?_of_mutation {inv : Invocation} {c : Call} {r : Requirement}
    {rest : RestCall}
    (mutates : c.mutation? inv.guildId = some (r, rest)) (e : RunError) :
    (c.refusal? inv).getD e =
      if inv.gate.grants inv.permissions r then e else .permissionDenied r.describe := by
  have arguments : c.argumentFailure? = none := by
    unfold argumentFailure?
    split
    all_goals first
      | rfl
      | cases mutates
  rw [refusal?, arguments, snapshotDenial?, mutates]
  cases h : inv.gate.grants inv.permissions r <;> simp [Option.filter, h]

end Call

theorem Invocation.checkedSend_of_cancelled (cancelled : w.account.cancelled = some reason)
    (inv : Invocation) (r : Requirement) (c : RestCall) : (inv.checkedSend r c).run w =
      (.error (if inv.gate.grants inv.permissions r then .cancelled reason
        else .permissionDenied r.describe), w) := by
  exact Host.run_bind_of_error (inv.gate.check_of_cancelled cancelled r) _

private theorem Invocation.send_of_cancelled (cancelled : w.account.cancelled = some reason)
    (inv : Invocation) (kind : ResponseKind) (payload : ResponsePayload) :
    (inv.send kind payload).run w = (.error (.cancelled reason), w) := by
  rw [send, Host.run_bind, Host.run_getThe]
  simp only
  cases w.responded with
  | true =>
    have followup := Host.run_bind_of_error (Host.call_of_cancelled cancelled (.service
      (Host.sendFollowup inv.interaction.applicationId payload.toData))) (fun m => pure (some m))
    exact Host.run_bind_of_error followup _
  | false => exact Host.run_bind_of_error (Host.call_of_cancelled cancelled _) _

private theorem Invocation.defer_of_cancelled (cancelled : w.account.cancelled = some reason)
    (inv : Invocation) :
    inv.defer.run w = (if w.responded then .ok () else .error (.cancelled reason), w) := by
  rw [defer, Host.run_bind, Host.run_getThe]
  simp only
  cases w.responded with
  | true => rfl
  | false => exact Host.run_bind_of_error (Host.call_of_cancelled cancelled _) _

/-- In a cancelled run a call changes nothing. One that contacts the host fails, with the reason of
the cancellation unless it was refused before. -/
private theorem Call.perform_of_cancelled (cancelled : w.account.cancelled = some reason)
    (inv : Invocation) (c : Call) :
    ((c.perform inv).run w).2 = w ∧ (c.contactsHost w.responded = true →
      ((c.perform inv).run w).1 = .error ((c.refusal? inv).getD (.cancelled reason))) := by
  have whole {e : RunError} (outcome : (c.perform inv).run w = (.error e, w))
      (expected : (c.refusal? inv).getD (.cancelled reason) = e) :
      ((c.perform inv).run w).2 = w ∧ (c.contactsHost w.responded = true →
        ((c.perform inv).run w).1 = .error ((c.refusal? inv).getD (.cancelled reason))) := by
    rw [outcome, expected]
    exact ⟨rfl, fun _ => rfl⟩
  have called {α : Type} := Host.call_of_cancelled (α := α) cancelled
  cases mutates : c.mutation? inv.guildId with
  | some mutation =>
    obtain ⟨value, same⟩ := perform_mutation mutates
    refine whole ?_ (refusal?_of_mutation mutates _)
    rw [same]
    exact Host.run_bind_of_error (inv.checkedSend_of_cancelled cancelled _ _) _
  | none =>
    cases c with
    | respond kind payload =>
      cases payload with
      | error e => exact whole rfl rfl
      | ok payload =>
        refine whole (e := .cancelled reason) ?_ rfl
        rw [perform, Host.run_bind, Host.run_ofExcept]
        exact Host.run_bind_of_error (inv.send_of_cancelled cancelled kind payload) _
    | defer =>
      have deferred := inv.defer_of_cancelled cancelled
      cases responded : w.responded with
      | true =>
        refine ⟨?_, fun contacts => by cases contacts⟩
        rw [perform, Host.run_bind, deferred, responded]
        rfl
      | false =>
        rw [responded] at deferred whole
        exact whole (Host.run_bind_of_error deferred _) rfl
    | argument command name =>
      refine ⟨?_, fun contacts => by cases contacts⟩
      rw [perform, Host.run_ofExcept]
    | mention text => exact ⟨rfl, fun contacts => by cases contacts⟩
    | savedMessageData message =>
      refine ⟨?_, fun contacts => by cases contacts⟩
      rw [perform, Host.run_ofExcept]
    | guild | channel id | role id | member id | guildChannels id | guildRoles id
    | channelMessage channelId messageId | savedMessage id =>
      exact whole (Host.run_bind_of_error (called _) _) rfl
    | removeReaction channelId messageId emoji userId =>
      cases userId with
      | none => exact whole (Host.run_bind_of_error (called _) _) rfl
      | some userId => cases mutates
    | editChannel id edit | editRole id edit =>
      cases edit with
      | error e => exact whole rfl rfl
      | ok edit => cases mutates
    | storeSet handle key value seconds =>
      cases lifetime : Invocation.lifetime seconds with
      | error e =>
        refine whole (e := e) ?_ ?_
        · rw [perform, lifetime]
          rfl
        · simp only [refusal?, argumentFailure?, lifetime]
          rfl
      | ok millis =>
        refine whole (e := .cancelled reason) ?_ ?_
        · rw [perform, lifetime, Host.run_bind, Host.run_ofExcept]
          exact Host.run_bind_of_error (called _) _
        · simp only [refusal?, argumentFailure?, lifetime, snapshotDenial?, mutates]
          rfl
    | storeGet handle key | storeDelete handle key | storeIncrease handle key delta =>
      refine whole (e := .cancelled reason) ?_ rfl
      rw [perform]
      exact called _
    | storeSearch handle pattern =>
      refine whole (e := .cancelled reason) ?_ rfl
      rw [perform]
      exact Host.run_bind_of_error (called _) _
    | _ => cases mutates

/-- What a run has done to the outside: the calls on record, the entries stored, and whether the
interaction has been answered. -/
structure Effects where
  calls : List RestCall
  store : Store
  responded : Bool

def World.effects (w : World) : Effects :=
  { calls := w.rest.calls, store := w.store, responded := w.responded }

private theorem World.step_of_cancelled (cancelled : w.account.cancelled = some reason)
    (inv : Invocation)
    (event : RunEvent) : (w.step inv event).effects = w.effects ∧
      (w.step inv event).account.cancelled = some reason := by
  cases event with
  | call view name args =>
    rw [step]
    split
    next c _ =>
      rw [(c.perform_of_cancelled cancelled inv).1]
      exact ⟨rfl, cancelled⟩
    next => exact ⟨rfl, cancelled⟩
  | cancel other => exact ⟨rfl, by simp [step, World.cancel, Account.cancelled_cancel, cancelled]⟩
  | steps n => exact ⟨rfl, Account.cancelled_onStep cancelled n _⟩
  | elapse nanos =>
    refine ⟨?_, cancelled_elapse cancelled nanos⟩
    rw [step, elapse]
    split
    · rfl
    · rfl
  | cache change => exact ⟨rfl, cancelled⟩

theorem World.after_of_cancelled (cancelled : w.account.cancelled = some reason) (inv : Invocation)
    (events : List RunEvent) : (w.after inv events).effects = w.effects ∧
      (w.after inv events).account.cancelled = some reason := by
  induction events generalizing w with
  | nil => exact ⟨rfl, cancelled⟩
  | cons event rest ih =>
    obtain ⟨same, still⟩ := step_of_cancelled cancelled inv event
    obtain ⟨sameLater, stillLater⟩ := ih still
    exact ⟨sameLater.trans same, stillLater⟩

/-- Once a run is cancelled, at whatever point of its history, nothing that happens later changes
what it has done to the outside. Its first reason stands, no call changes the world, and every call
that contacts the host fails: with the cancellation, unless its arguments or the permissions taken at
dispatch refuse it before. A deferral after an answer still succeeds, and does nothing. -/
theorem World.effects_after_cancellation (inv : Invocation) (w : World)
    (before later : List RunEvent) {first : CancelReason}
    (cancelled : (w.after inv before).account.cancelled = some first) :
    (w.after inv (before ++ later)).effects = (w.after inv before).effects ∧
      (w.after inv (before ++ later)).account.cancelled = some first ∧
      ∀ c : Call, ∀ now, now = w.after inv (before ++ later) →
        ((c.perform inv).run now).2 = now ∧
        (c.contactsHost now.responded = true →
          ((c.perform inv).run now).1 = .error ((c.refusal? inv).getD (.cancelled first))) ∧
        (c = .defer → now.responded = true → ((c.perform inv).run now).1 = .ok .unit) := by
  rw [after_append]
  obtain ⟨same, still⟩ := after_of_cancelled cancelled inv later
  refine ⟨same, still, ?_⟩
  rintro c now rfl
  obtain ⟨unchanged, fails⟩ := c.perform_of_cancelled still inv
  refine ⟨unchanged, fails, ?_⟩
  rintro rfl responded
  have deferred := inv.defer_of_cancelled still
  rw [Call.perform, Host.run_bind, deferred, responded]
  rfl

/-- An interaction of user 7 in guild 42, without any permissions. -/
def plainInvocation : Invocation where
  interaction := { (default : Interaction) with guildId := "42", channelId := "9" }
  permissions := { userId := "7" }

def freshWorld : World := { epoch := ⟨1800000000, 0⟩, account := .new {} 0 }

def smallStore : View := .store { guild := "42", limits := .withMaxKeys 3 }

theorem freshWorld_cancelled :
    let before : List RunEvent := [.call .context "respond" [.str "hi"],
      .call smallStore "set" [.str "k", .int 1], .cancel .durationLimit]
    let later : List RunEvent := [.cancel .stepLimit, .elapse 5,
      .call smallStore "set" [.str "k", .int 2], .call .context "respond" [.str "again"]]
    let now := freshWorld.after plainInvocation (before ++ later)
    (freshWorld.after plainInvocation before).account.cancelled = some .durationLimit ∧
      now.effects = (freshWorld.after plainInvocation before).effects ∧
      now.effects.calls.length = 1 ∧
      (((Call.kick "8").perform plainInvocation).run now).1 =
        .error (.permissionDenied "KICK_MEMBERS") ∧
      (((Call.role "5").perform plainInvocation).run now).1 =
        .error (.cancelled .durationLimit) := by
  intro before later now
  have cancelled : (freshWorld.after plainInvocation before).account.cancelled =
      some .durationLimit := by decide +kernel
  obtain ⟨same, -, each⟩ :=
    World.effects_after_cancellation plainInvocation freshWorld before later cancelled
  have kicked := (each (.kick "8") now rfl).2.1 rfl
  have looked := (each (.role "5") now rfl).2.1 rfl
  refine ⟨cancelled, same, ?_, kicked, looked⟩
  rw [same]
  decide +kernel

end GuildSandbox
