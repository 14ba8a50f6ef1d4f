import GuildSandbox.Json.Record

set_option autoImplicit false
set_option relaxedAutoImplicit false

namespace GuildSandbox

inductive ResponseKind where
  | channelMessageWithSource
  | deferredChannelMessageWithSource
  | deferredUpdateMessage
  | updateMessage
  deriving DecidableEq, Repr, Inhabited

namespace ResponseKind

def names : List (String × ResponseKind) :=
  [("channel_message_with_source", .channelMessageWithSource),
   ("deferred_channel_message_with_source", .deferredChannelMessageWithSource),
   ("deferred_update_message", .deferredUpdateMessage),
   ("update_message", .updateMessage)]

def name : ResponseKind → String
  | .channelMessageWithSource => "channel_message_with_source"
  | .deferredChannelMessageWithSource => "deferred_channel_message_with_source"
  | .deferredUpdateMessage => "deferred_update_message"
  | .updateMessage => "update_message"

end ResponseKind

structure ResponseData where
  content : Option String := none
  embeds : List Json := []
  ephemeral : Bool := false
  deriving DecidableEq, Inhabited

namespace ResponseData

def toJson (r : ResponseData) : Json :=
  .obj (Json.whenPresent "content" .str r.content ++
    (if r.embeds.isEmpty then [] else Json.always "embeds" (.arr r.embeds)) ++
    Json.always "ephemeral" (.bool r.ephemeral))

def ofJson? (j : Json) : Option ResponseData := do
  match ← j.recordFields? ["content", "embeds", "ephemeral"] with
  | [content, embeds, ephemeral] =>
    return {
      content := ← Json.optional Json.toStr? content
      embeds := ← Json.withDefault [] (Json.list Json.anything) embeds
      ephemeral := ← Json.withDefault false Json.toBool? ephemeral }
  | _ => none

end ResponseData

structure InteractionResponse where
  kind : ResponseKind
  data : Option ResponseData := none
  deriving DecidableEq, Inhabited

namespace InteractionResponse

def toJson (r : InteractionResponse) : Json :=
  .obj (Json.always "type" (.str r.kind.name) ++
    Json.whenPresent "data" ResponseData.toJson r.data)

def ofJson? (j : Json) : Option InteractionResponse := do
  match ← j.recordFields? ["type", "data"] with
  | [kind, data] =>
    return {
      kind := ← Json.required (Json.oneOf ResponseKind.names) kind
      data := ← Json.optional ResponseData.ofJson? data }
  | _ => none

end InteractionResponse

end GuildSandbox
