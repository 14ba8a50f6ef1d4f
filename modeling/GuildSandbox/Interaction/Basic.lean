import GuildSandbox.Interaction.Command

set_option autoImplicit false
set_option relaxedAutoImplicit false

namespace GuildSandbox

inductive InteractionKind where
  | command
  | component
  | modalSubmit
  deriving DecidableEq, Repr, Inhabited

namespace InteractionKind

def names : List (String × InteractionKind) :=
  [("command", .command), ("component", .component), ("modal_submit", .modalSubmit)]

def name : InteractionKind → String
  | .command => "command"
  | .component => "component"
  | .modalSubmit => "modal_submit"

end InteractionKind

structure Interaction where
  id : String := ""
  applicationId : String := ""
  token : String := ""
  kind : InteractionKind := .command
  guildId : String := ""
  channelId : String := ""
  member : Member := {}
  /-- The message that a component belongs to. -/
  message : Option Message := none
  command : Option CommandData := none
  customId : Option String := none
  deriving Inhabited

namespace Interaction

def toJson (i : Interaction) : Json :=
  .obj (Json.always "id" (.str i.id) ++ Json.always "application_id" (.str i.applicationId) ++
    Json.always "token" (.str i.token) ++ Json.always "type" (.str i.kind.name) ++
    Json.always "guild_id" (.str i.guildId) ++ Json.always "channel_id" (.str i.channelId) ++
    Json.always "member" i.member.toJson ++
    Json.whenPresent "message" Message.toJson i.message ++
    Json.whenPresent "command" CommandData.toJson i.command ++
    Json.whenPresent "custom_id" .str i.customId)

def ofJson? (j : Json) : Option Interaction := do
  match ← j.recordFields?
    ["id", "application_id", "token", "type", "guild_id", "channel_id", "member", "message",
      "command", "custom_id"] with
  | [id, applicationId, token, kind, guildId, channelId, member, message, command, customId] =>
    return {
      id := ← Json.required Json.toStr? id
      applicationId := ← Json.required Json.toStr? applicationId
      token := ← Json.required Json.toStr? token
      kind := ← Json.required (Json.oneOf InteractionKind.names) kind
      guildId := ← Json.required Json.toStr? guildId
      channelId := ← Json.required Json.toStr? channelId
      member := ← Json.required Member.ofJson? member
      message := ← Json.optional Message.ofJson? message
      command := ← Json.optional CommandData.ofJson? command
      customId := ← Json.optional Json.toStr? customId }
  | _ => none

end Interaction

end GuildSandbox
