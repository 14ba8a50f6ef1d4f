import GuildSandbox.Proofs.Capability.CheckedCall
import GuildSandbox.Proofs.Capability.Kept

/-!
No mutation without both permissions.

A method that changes something in a guild puts exactly one call on record when the run is active
and the permissions taken at dispatch and the current ones grant what it requires, and none
otherwise. Nothing else that a script does puts such a call on record.
-/

set_option autoImplicit false
set_option relaxedAutoImplicit false

namespace GuildSandbox

variable {w : World} {inv : Invocation} {r : Requirement} {rest : RestCall}

/-- The call changes something in a guild. Answers do not, nor do users who take back their own
reactions. -/
def RestCall.isGuarded : RestCall → Bool
  | .interactionResponse .. | .followup .. | .removeReaction _ _ _ none => false
  | _ => true

/-- The calls on record that change something in a guild, in order. -/
def World.guardedCalls (w : World) : List RestCall := w.rest.calls.filter RestCall.isGuarded

private theorem Call.isGuarded_of_mutation {guildId : String} {c : Call}
    (mutates : c.mutation? guildId = some (r, rest)) : rest.isGuarded = true := by
  unfold mutation? at mutates
  split at mutates
  all_goals
    cases mutates
    try rfl

namespace Host

private theorem guardedCalls_ignoresTime : IgnoresTime World.guardedCalls := fun _ _ _ => rfl

private theorem guardedCalls_ignoresStore : IgnoresStore World.guardedCalls := fun _ _ => rfl

private theorem keeps_record_of_unguarded {c : RestCall} (unguarded : c.isGuarded = false) :
    Keeps World.guardedCalls (record c) :=
  keeps_record fun w => by simp [World.guardedCalls, unguarded]

private theorem keeps_makeMessage (data : ResponseData) :
    Keeps World.guardedCalls (makeMessage data) := fun _ => rfl

private theorem keeps_sendResponse (interactionId : String) (response : InteractionResponse) :
    Keeps World.guardedCalls (sendResponse interactionId response) := by
  refine (keeps_record_of_unguarded rfl).bind fun _ => ?_
  unfold messageOf
  split
  · exact (keeps_makeMessage _).map _
  · exact (keeps_makeMessage _).map _
  · exact keeps_pure none

end Host

namespace Invocation

private theorem keeps_initialResponse (inv : Invocation) (response : InteractionResponse) :
    Host.Keeps World.guardedCalls (inv.initialResponse response) := by
  refine Host.keeps_call Host.guardedCalls_ignoresTime ?_
  refine (Host.keeps_sendResponse _ response).bind fun _ => ?_
  have answered : Host.Keeps World.guardedCalls
    (modify fun w => { w with responded := true } : Host PUnit) := Host.keeps_modify fun _ => rfl
  exact answered.bind fun _ => Host.keeps_pure _

private theorem keeps_send (inv : Invocation) (kind : ResponseKind) (payload : ResponsePayload) :
    Host.Keeps World.guardedCalls (inv.send kind payload) := by
  refine Host.keeps_getThe.bind fun w => ?_
  cases w.responded with
  | true =>
    refine Host.Keeps.bind (Host.Keeps.map some ?_) fun _ => Host.keeps_pure _
    refine Host.keeps_call Host.guardedCalls_ignoresTime ?_
    exact (Host.keeps_record_of_unguarded rfl).bind fun _ => Host.keeps_makeMessage _
  | false => exact (inv.keeps_initialResponse _).bind fun _ => Host.keeps_pure _

private theorem keeps_defer (inv : Invocation) : Host.Keeps World.guardedCalls inv.defer := by
  refine Host.keeps_getThe.bind fun w => ?_
  cases w.responded with
  | true => exact Host.keeps_pure ()
  | false => exact (inv.keeps_initialResponse _).bind fun _ => Host.keeps_pure _

end Invocation

private theorem Call.keeps_perform {c : Call} (other : c.mutation? inv.guildId = none) :
    Host.Keeps World.guardedCalls (c.perform inv) := by
  refine Call.keeps_perform_of Host.guardedCalls_ignoresTime Host.guardedCalls_ignoresStore ?_ ?_ ?_
  · intro answer
    cases c with
    | respond kind payload =>
      refine (Host.keeps_ofExcept _).bind fun payload => ?_
      exact (inv.keeps_send kind payload).bind fun _ => Host.keeps_pure _
    | defer => exact inv.keeps_defer.bind fun _ => Host.keeps_pure _
    | _ => cases answer
  · intro r rest mutates
    rw [other] at mutates
    cases mutates
  · intro channelId messageId emoji _
    exact Host.keeps_record_of_unguarded rfl

/-- The run is served, and the permissions of the user grant the requirement, then and now. -/
def World.Permits (w : World) (inv : Invocation) (r : Requirement) : Prop :=
  w.Serves ∧ inv.gate.Admits w.cache r

instance (w : World) (inv : Invocation) (r : Requirement) : Decidable (w.Permits inv r) :=
  inferInstanceAs (Decidable (_ ∧ _))

/-- What a call that requires `r` does in a world, where `rest` is the call to the service that it
stands for. -/
structure Call.Guarded (c : Call) (inv : Invocation) (r : Requirement) (rest : RestCall)
    (w : World) : Prop where
  permitted : w.Permits inv r →
    ((c.perform inv).run w).2.rest.calls = w.rest.calls ++ [rest] ∧
      match w.rest.failure with
      | some message => ((c.perform inv).run w).1 = .error (.host message)
      | none => ∃ value, ((c.perform inv).run w).1 = .ok value
  /-- Whatever the state of the run. -/
  deniedAtDispatch : ¬ r.GrantedBy inv.gate.channelId inv.permissions →
    (c.perform inv).run w = (.error (.permissionDenied r.describe), w)
  denied : w.Serves → ¬ inv.gate.Admits w.cache r →
    ((c.perform inv).run w).1 = .error (.permissionDenied r.describe) ∧
      ((c.perform inv).run w).2.rest = w.rest
  unserved : ¬ w.Serves → ((c.perform inv).run w).2.rest = w.rest

private theorem Call.guarded {c : Call} (mutates : c.mutation? inv.guildId = some (r, rest))
    (w : World) :
    c.Guarded inv r rest w := by
  obtain ⟨value, same⟩ := perform_mutation mutates
  have sameWorld : ((c.perform inv).run w).2 = ((inv.checkedSend r rest).run w).2 := by
    rw [same, Host.run_bind]
    rcases (inv.checkedSend r rest).run w with ⟨_ | _, left⟩ <;> rfl
  have sameError {e : RunError} (failed : ((inv.checkedSend r rest).run w).1 = .error e) :
      ((c.perform inv).run w).1 = .error e := by
    rw [same, Host.run_bind]
    rcases outcome : (inv.checkedSend r rest).run w with ⟨result, left⟩
    rw [outcome] at failed
    obtain rfl : result = .error e := failed
    rfl
  refine ⟨?_, ?_, ?_, ?_⟩
  · rintro ⟨serves, admits⟩
    obtain ⟨recorded, sent⟩ := Invocation.checkedSend_of_admits serves admits rest
    refine ⟨by rw [sameWorld, recorded], ?_⟩
    cases failure : w.rest.failure with
    | some message =>
      rw [failure] at sent
      exact sameError sent
    | none =>
      rw [failure] at sent
      refine ⟨value, ?_⟩
      rw [same, Host.run_bind]
      rcases outcome : (inv.checkedSend r rest).run w with ⟨result, left⟩
      rw [outcome] at sent
      obtain rfl : result = .ok .unit := sent
      rfl
  · intro denied
    have checked := Gate.check_of_denied_at_dispatch (g := inv.gate) denied w
    rw [same]
    exact Host.run_bind_of_error (Host.run_bind_of_error checked _) _
  · intro serves denied
    obtain ⟨unchanged, failed⟩ := Invocation.checkedSend_of_denied serves denied rest
    exact ⟨sameError failed, by rw [sameWorld, unchanged]⟩
  · intro unserved
    rw [sameWorld, Invocation.checkedSend_of_unserved unserved]

private theorem Call.guardedCalls_perform {c : Call}
    (mutates : c.mutation? inv.guildId = some (r, rest))
    (w : World) : ((c.perform inv).run w).2.guardedCalls =
      w.guardedCalls ++ if w.Permits inv r then [rest] else [] := by
  have guarded := c.guarded mutates w
  unfold World.guardedCalls
  by_cases permits : w.Permits inv r
  · rw [(guarded.permitted permits).1, if_pos permits, List.filter_append]
    simp [isGuarded_of_mutation mutates]
  · rw [if_neg permits, List.append_nil]
    by_cases serves : w.Serves
    · rw [(guarded.denied serves fun admits => permits ⟨serves, admits⟩).2]
    · rw [guarded.unserved serves]

def RunEvent.mutation? (guildId : String) : RunEvent → Option (Requirement × RestCall)
  | .call view name args => view.mutation? guildId name args
  | _ => none

namespace World

def permitted (inv : Invocation) (w : World) (event : RunEvent) : List RestCall :=
  match event.mutation? inv.guildId with
  | some (r, rest) => if w.Permits inv r then [rest] else []
  | none => []

/-- What the events of a history are permitted to put on record, each in the world where it
happens. -/
def permittedAlong (inv : Invocation) (w : World) : List RunEvent → List RestCall
  | [] => []
  | event :: later => w.permitted inv event ++ (w.step inv event).permittedAlong inv later

private theorem guardedCalls_step (inv : Invocation) (w : World) (event : RunEvent) :
    (w.step inv event).guardedCalls = w.guardedCalls ++ w.permitted inv event := by
  cases event with
  | call view name args =>
    simp only [permitted, RunEvent.mutation?, step, view.mutation?_eq]
    cases view.method? name args with
    | none => exact (List.append_nil _).symm
    | some c =>
      simp only [Option.bind_some]
      cases mutates : c.mutation? inv.guildId with
      | none => exact (c.keeps_perform mutates w).trans (List.append_nil _).symm
      | some m => exact c.guardedCalls_perform mutates w
  | cancel reason => exact (List.append_nil _).symm
  | steps n => exact (List.append_nil _).symm
  | elapse nanos =>
    have kept : (w.elapse nanos).guardedCalls = w.guardedCalls :=
      Host.guardedCalls_ignoresTime.elapse w nanos
    exact kept.trans (List.append_nil _).symm
  | cache change => exact (List.append_nil _).symm

private theorem guardedCalls_after (inv : Invocation) (w : World) (events : List RunEvent) :
    (w.after inv events).guardedCalls = w.guardedCalls ++ w.permittedAlong inv events := by
  induction events generalizing w with
  | nil => exact (List.append_nil _).symm
  | cons event later ih =>
    have stepped : w.after inv (event :: later) = (w.step inv event).after inv later := rfl
    rw [stepped, ih, guardedCalls_step, permittedAlong, List.append_assoc]

/-- The calls on record that change something in a guild are those that were permitted when they
were asked for, in order. At any point of a run, a method that changes something puts its own call
on record exactly if it is permitted there; denied, it fails and leaves the record alone. -/
theorem mutations_need_permission (inv : Invocation) (w : World) (events : List RunEvent) :
    (w.after inv events).guardedCalls = w.guardedCalls ++ w.permittedAlong inv events ∧
      ∀ (view : View) (name : String) (args : List Value) (r : Requirement) (rest : RestCall),
        view.mutation? inv.guildId name args = some (r, rest) →
          ∃ c, view.method? name args = some c ∧ c.Guarded inv r rest (w.after inv events) := by
  refine ⟨guardedCalls_after inv w events, ?_⟩
  intro view name args r rest mutates
  rw [view.mutation?_eq] at mutates
  obtain ⟨c, method, same⟩ := Option.bind_eq_some_iff.1 mutates
  exact ⟨c, method, c.guarded same _⟩

end World

def moderatorInvocation : Invocation where
  interaction := { (default : Interaction) with guildId := "42", channelId := "9" }
  permissions := { userId := "7", guildPermissions := .kickMembers }

theorem revokedKick_denied :
    let target : View := .member { (default : Member) with user := { id := "8" } }
    let now := freshWorld.after moderatorInvocation [.call target "kick" [],
      .cache fun c => c.setPermissions { userId := "7" }, .call target "kick" []]
    now.guardedCalls = [.kickMember "42" "8" none] ∧
      ∃ c, target.method? "kick" [] = some c ∧ ((c.perform moderatorInvocation).run now).1 =
        .error (.permissionDenied "KICK_MEMBERS") := by
  intro target now
  obtain ⟨log, each⟩ := World.mutations_need_permission moderatorInvocation freshWorld _
  obtain ⟨c, method, guarded⟩ :=
    each target "kick" [] (.guild .kickMembers) (.kickMember "42" "8" none) rfl
  refine ⟨log.trans ?_, c, method, (guarded.denied ?_ ?_).1⟩
  · decide +kernel
  · decide +kernel
  · decide +kernel

end GuildSandbox
