import GuildSandbox.Proofs.Capability.Kept
import GuildSandbox.Proofs.Capability.Session

set_option autoImplicit false
set_option relaxedAutoImplicit false

namespace GuildSandbox

/-- The second log goes on where the first one ends, with a service that answers alike. -/
structure RestLog.Continues (log later : RestLog) : Prop where
  calls : log.calls <+: later.calls
  delay : later.delay = log.delay
  failure : later.failure = log.failure

namespace RestLog.Continues

variable {log later last : RestLog}

private theorem refl (log : RestLog) : log.Continues log := ⟨List.prefix_refl _, rfl, rfl⟩

private theorem trans (first : log.Continues later) (second : later.Continues last) :
    log.Continues last :=
  ⟨first.calls.trans second.calls, second.delay.trans first.delay,
    second.failure.trans first.failure⟩

end RestLog.Continues

namespace Host

variable {α β : Type}

def Extends (action : Host α) : Prop :=
  ∀ w : World, w.rest.Continues (action.run w).2.rest

private theorem rest_ignoresStore : IgnoresStore World.rest := fun _ _ => rfl

private theorem extends_of_keeps {action : Host α} (kept : Keeps World.rest action) :
    Extends action := by
  intro w
  rw [kept w]
  exact .refl _

private theorem extends_pure (a : α) : Extends (pure a : Host α) := extends_of_keeps (keeps_pure a)

private theorem Extends.bind {action : Host α} {next : α → Host β} (first : Extends action)
    (rest : ∀ a, Extends (next a)) : Extends (action >>= next) :=
  related_bind (fun u v => u.rest.Continues v.rest) (fun early late => early.trans late) first rest

private theorem Extends.map {action : Host α} (grown : Extends action) (f : α → β) :
    Extends (f <$> action) := by
  rw [map_eq_pure_bind]
  exact grown.bind fun _ => extends_pure _

private theorem extends_record (c : RestCall) : Extends (record c) := by
  intro w
  rw [run_record]
  exact ⟨List.prefix_append _ _, rfl, rfl⟩

private theorem extends_call {c : HostCall α} (effect : Extends c.effect) : Extends (call c) := by
  intro w
  have outcome := call_effect rest_ignoresTime c w
  split at outcome
  · obtain ⟨clock, account, outcome⟩ := outcome
    rw [outcome]
    exact effect { w with clock := clock, account := account }
  · rw [outcome]
    exact .refl _

private theorem extends_makeMessage (data : ResponseData) : Extends (makeMessage data) :=
  fun _ => ⟨List.prefix_refl _, rfl, rfl⟩

private theorem extends_messageOf (response : InteractionResponse) :
    Extends (messageOf response) := by
  unfold messageOf
  split
  · exact (extends_makeMessage _).map _
  · exact (extends_makeMessage _).map _
  · exact extends_pure _

private theorem extends_sendResponse (interactionId : String) (response : InteractionResponse) :
    Extends (sendResponse interactionId response) :=
  (extends_record _).bind fun _ => extends_messageOf response

private theorem extends_sendFollowup (applicationId : String) (data : ResponseData) :
    Extends (sendFollowup applicationId data) :=
  (extends_record _).bind fun _ => extends_makeMessage data

end Host

namespace Invocation

open Host

variable (inv : Invocation)

private theorem extends_initialResponse (response : InteractionResponse) :
    Extends (inv.initialResponse response) := by
  refine extends_call ((extends_sendResponse _ response).bind fun message => ?_)
  exact Extends.bind (fun _ => .refl _) fun _ => extends_pure _

private theorem extends_send (kind : ResponseKind) (payload : ResponsePayload) :
    Extends (inv.send kind payload) := by
  refine Extends.bind (extends_of_keeps keeps_getThe) fun w => ?_
  cases w.responded with
  | true =>
    refine Extends.bind (Extends.map ?_ some) fun _ => extends_pure _
    exact extends_call (extends_sendFollowup _ payload.toData)
  | false => exact (inv.extends_initialResponse _).bind fun _ => extends_pure _

private theorem extends_defer : Extends inv.defer := by
  refine Extends.bind (extends_of_keeps keeps_getThe) fun w => ?_
  cases w.responded with
  | true => exact extends_pure ()
  | false => exact (inv.extends_initialResponse _).bind fun _ => extends_pure _

private theorem extends_checkedSend (r : Requirement) (c : RestCall) :
    Extends (inv.checkedSend r c) := by
  refine (extends_of_keeps (Gate.keeps_check rest_ignoresTime inv.gate r)).bind fun _ => ?_
  refine Extends.bind ?_ fun _ => extends_pure _
  exact extends_call (c := .service (record c)) (extends_record c)

end Invocation

open Host in
/-- A call of a script reaches the service as an answer, as a mutation, or when the user takes back a
reaction. -/
private theorem Call.extends_perform (c : Call) (inv : Invocation) : Extends (c.perform inv) := by
  cases mutates : c.mutation? inv.guildId with
  | some mutation =>
    obtain ⟨r, rest⟩ := mutation
    obtain ⟨value, same⟩ := perform_mutation mutates
    rw [same]
    exact (inv.extends_checkedSend r rest).bind fun _ => extends_pure value
  | none =>
    cases c with
    | respond kind payload =>
      refine (extends_of_keeps (keeps_ofExcept _)).bind fun payload => ?_
      exact (inv.extends_send kind payload).bind fun _ => extends_pure _
    | defer => exact inv.extends_defer.bind fun _ => extends_pure _
    | removeReaction channelId messageId emoji userId =>
      cases userId with
      | none =>
        refine Extends.bind ?_ fun _ => extends_pure _
        exact extends_call (extends_record (.removeReaction channelId messageId emoji none))
      | some userId => cases mutates
    | _ =>
      refine extends_of_keeps (keeps_perform_of rest_ignoresTime rest_ignoresStore ?_ ?_ ?_)
      · intro answer
        cases answer
      · intro r rest other
        rw [mutates] at other
        cases other
      · intro channelId messageId emoji reaction
        cases reaction

namespace World

theorem continues_step (inv : Invocation) (w : World) (event : RunEvent) :
    w.rest.Continues (w.step inv event).rest := by
  cases event with
  | call view name args =>
    rw [step]
    split
    next c _ => exact c.extends_perform inv w
    next => exact .refl _
  | cancel reason => exact .refl _
  | steps n => exact .refl _
  | elapse nanos =>
    rw [step, Host.rest_ignoresTime.elapse w nanos]
    exact .refl _
  | cache change => exact .refl _

theorem continues_after (inv : Invocation) (w : World) (events : List RunEvent) :
    w.rest.Continues (w.after inv events).rest := by
  induction events generalizing w with
  | nil => exact .refl _
  | cons event later ih => exact (w.continues_step inv event).trans (ih _)

end World

end GuildSandbox
