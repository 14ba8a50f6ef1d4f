import GuildSandbox.Proofs.Capability.Requirement
import GuildSandbox.Proofs.Host.Gate

set_option autoImplicit false
set_option relaxedAutoImplicit false

namespace GuildSandbox

variable {γ : Type} {observe : World → γ} {inv : Invocation}
  (time : Host.IgnoresTime observe) (stored : Host.IgnoresStore observe)

include time stored

private theorem Host.keeps_request {α : Type} (r : World → StoreRequest α) :
    Host.Keeps observe (Host.request r) := by
  refine Host.keeps_call time (Host.keeps_getThe.bind fun w => ?_)
  cases r w with
  | ok action => exact Host.keeps_onStore time stored action
  | error e => exact Host.keeps_throw _

omit stored

private theorem Invocation.keeps_checkedSend {rest : RestCall}
    (recorded : Host.Keeps observe (.record rest))
    (r : Requirement) : Host.Keeps observe (inv.checkedSend r rest) := by
  refine (Gate.keeps_check time inv.gate r).bind fun _ => ?_
  refine Host.Keeps.bind ?_ fun _ => Host.keeps_pure _
  exact Host.keeps_call (c := .service (Host.record rest)) time recorded

def Call.isAnswer : Call → Bool
  | .respond _ _ | .defer => true
  | _ => false

def Call.isRequest : Call → Bool
  | .storeSet .. | .storeGet .. | .storeDelete .. | .storeIncrease .. | .storeSearch .. => true
  | _ => false

/-- A call keeps an observation when answers and requests to a store keep it, and when the calls to
the service keep it that change something in a guild or take back a reaction of the user. -/
theorem Call.keeps_perform_of_parts {c : Call}
    (answers : c.isAnswer = true → Host.Keeps observe (c.perform inv))
    (requests : c.isRequest = true → Host.Keeps observe (c.perform inv))
    (mutations : ∀ r rest, c.mutation? inv.guildId = some (r, rest) →
      Host.Keeps observe (.record rest))
    (reactions : ∀ channelId messageId emoji, c = .removeReaction channelId messageId emoji none →
      Host.Keeps observe (.record (.removeReaction channelId messageId emoji none))) :
    Host.Keeps observe (c.perform inv) := by
  have lookups {α : Type} (query : Cache → α) (f : α → Value) :
      Host.Keeps observe (do return f (← Host.lookupCall query)) :=
    (Host.keeps_immediateLookup time query).bind fun _ => Host.keeps_pure _
  cases mutates : c.mutation? inv.guildId with
  | some mutation =>
    obtain ⟨r, rest⟩ := mutation
    obtain ⟨value, same⟩ := perform_mutation mutates
    have kept : Host.Keeps observe (inv.checkedSend r rest) :=
      Invocation.keeps_checkedSend time (mutations r rest mutates) r
    rw [same]
    exact kept.bind fun _ => Host.keeps_pure value
  | none =>
    cases c with
    | respond kind payload => exact answers rfl
    | defer => exact answers rfl
    | guild => exact lookups _ _
    | channel id => exact lookups _ _
    | role id => exact lookups _ _
    | member id => exact lookups _ _
    | guildChannels id => exact lookups _ _
    | guildRoles id => exact lookups _ _
    | channelMessage channelId messageId => exact lookups _ _
    | argument command name => exact Host.keeps_ofExcept _
    | mention text => exact Host.keeps_pure _
    | savedMessageData message => exact Host.keeps_ofExcept _
    | savedMessage id =>
      refine Host.Keeps.bind ?_ fun _ => Host.keeps_pure _
      exact Host.keeps_call time (Host.keeps_pure _)
    | removeReaction channelId messageId emoji userId =>
      cases userId with
      | none =>
        refine Host.Keeps.bind ?_ fun _ => Host.keeps_pure _
        exact Host.keeps_call time (reactions _ _ _ rfl)
      | some userId => cases mutates
    | editChannel id edit | editRole id edit =>
      cases edit with
      | error e => exact Host.keeps_throw e
      | ok edit => cases mutates
    | storeSet | storeGet | storeDelete | storeIncrease | storeSearch => exact requests rfl
    | _ => cases mutates

include stored

private theorem Call.keeps_perform_of_isRequest {c : Call} (request : c.isRequest = true) :
    Host.Keeps observe (c.perform inv) := by
  have requests {α : Type} (r : World → StoreRequest α) := Host.keeps_request time stored r
  cases c with
  | storeSet handle key value seconds =>
    refine (Host.keeps_ofExcept _).bind fun lifetime => ?_
    exact (requests fun w => handle.set key value lifetime w.now).bind fun _ => Host.keeps_pure _
  | storeGet handle key => exact requests fun _ => handle.get key
  | storeDelete handle key => exact requests fun _ => handle.delete key
  | storeIncrease handle key delta => exact requests fun _ => handle.increase key delta
  | storeSearch handle pattern =>
    exact (requests fun _ => handle.search pattern).bind fun _ => Host.keeps_pure _
  | _ => cases request

/-- A call keeps an observation when answers keep it, and when the calls to the service keep it that
change something in a guild or take back a reaction of the user. -/
theorem Call.keeps_perform_of {c : Call}
    (answers : c.isAnswer = true → Host.Keeps observe (c.perform inv))
    (mutations : ∀ r rest, c.mutation? inv.guildId = some (r, rest) →
      Host.Keeps observe (.record rest))
    (reactions : ∀ channelId messageId emoji, c = .removeReaction channelId messageId emoji none →
      Host.Keeps observe (.record (.removeReaction channelId messageId emoji none))) :
    Host.Keeps observe (c.perform inv) :=
  keeps_perform_of_parts time answers (keeps_perform_of_isRequest time stored) mutations reactions

end GuildSandbox
