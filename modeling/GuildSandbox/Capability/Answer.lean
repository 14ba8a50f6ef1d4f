import GuildSandbox.Capability.Invocation
import GuildSandbox.Capability.Payload

/-!
Answers to the interaction.

The first answer of a run answers the interaction itself; it counts as given once the service has
accepted it. Every later one is a followup. A deferral after an answer does nothing.
-/

set_option autoImplicit false
set_option relaxedAutoImplicit false

namespace GuildSandbox

namespace Host

/-- The service makes a message of an answer that has a body and shows it. -/
def messageOf (response : InteractionResponse) : Host (Option Message) :=
  match response.data, response.kind with
  | some data, .channelMessageWithSource | some data, .updateMessage => some <$> makeMessage data
  | _, _ => pure none

def sendResponse (interactionId : String) (response : InteractionResponse) :
    Host (Option Message) := do
  record (.interactionResponse interactionId response)
  messageOf response

def sendFollowup (applicationId : String) (data : ResponseData) : Host Message := do
  record (.followup applicationId data)
  makeMessage data

end Host

namespace Invocation

def initialResponse (inv : Invocation) (response : InteractionResponse) : Host (Option Message) :=
  Host.call (.service do
    let message ← Host.sendResponse inv.interaction.id response
    modify fun w => { w with responded := true }
    return message)

/-- A message that names no channel belongs to the channel of the interaction. -/
def placed (inv : Invocation) (message : Message) : Message :=
  if message.channelId = "" then { message with channelId := inv.interaction.channelId }
  else message

/-- Sends a payload: as an answer of the given kind at first, as a followup later. -/
def send (inv : Invocation) (kind : ResponseKind) (payload : ResponsePayload) :
    Host (Option Message) := do
  let message ←
    if (← getThe World).responded then
      some <$> Host.call
        (.service (Host.sendFollowup inv.interaction.applicationId payload.toData))
    else inv.initialResponse { kind := kind, data := some payload.toData }
  return message.map inv.placed

def deferralKind (inv : Invocation) : ResponseKind :=
  match inv.interaction.kind with
  | .command => .deferredChannelMessageWithSource
  | .component | .modalSubmit => .deferredUpdateMessage

/-- Acknowledges the interaction without a body, unless it has been answered. -/
def defer (inv : Invocation) : Host Unit := do
  if (← getThe World).responded then pure ()
  else let _ ← inv.initialResponse { kind := inv.deferralKind }

end Invocation

end GuildSandbox
