import GuildSandbox.Entity.Guild
import GuildSandbox.Interaction.Response

set_option autoImplicit false
set_option relaxedAutoImplicit false

namespace GuildSandbox

inductive RestCall where
  | interactionResponse (interactionId : String) (response : InteractionResponse)
  | followup (applicationId : String) (data : ResponseData)
  | deleteMessage (channelId messageId : String)
  | addReaction (channelId messageId emoji : String)
  | removeReaction (channelId messageId emoji : String) (userId : Option String)
  | clearReactions (channelId messageId : String)
  | editChannel (channelId : String) (edit : ChannelEdit)
  | deleteChannel (channelId : String)
  | kickMember (guildId userId : String) (reason : Option String)
  | banMember (guildId userId : String) (reason : Option String)
  | addMemberRole (guildId userId roleId : String)
  | removeMemberRole (guildId userId roleId : String)
  | editRole (guildId roleId : String) (edit : RoleEdit)
  | deleteRole (guildId roleId : String)
  deriving DecidableEq

namespace RestCall

def orNull : Option String → Json
  | some s => .str s
  | none => .null

def name : RestCall → String
  | .interactionResponse .. => "interaction_response"
  | .followup .. => "followup"
  | .deleteMessage .. => "delete_message"
  | .addReaction .. => "add_reaction"
  | .removeReaction .. => "remove_reaction"
  | .clearReactions .. => "clear_reactions"
  | .editChannel .. => "edit_channel"
  | .deleteChannel .. => "delete_channel"
  | .kickMember .. => "kick_member"
  | .banMember .. => "ban_member"
  | .addMemberRole .. => "add_member_role"
  | .removeMemberRole .. => "remove_member_role"
  | .editRole .. => "edit_role"
  | .deleteRole .. => "delete_role"

def arguments : RestCall → List (String × Json)
  | .interactionResponse interactionId response =>
    [("interaction_id", .str interactionId), ("response", response.toJson)]
  | .followup applicationId data =>
    [("application_id", .str applicationId), ("data", data.toJson)]
  | .deleteMessage channelId messageId =>
    [("channel_id", .str channelId), ("message_id", .str messageId)]
  | .addReaction channelId messageId emoji =>
    [("channel_id", .str channelId), ("message_id", .str messageId), ("emoji", .str emoji)]
  | .removeReaction channelId messageId emoji userId =>
    [("channel_id", .str channelId), ("message_id", .str messageId), ("emoji", .str emoji),
      ("user_id", orNull userId)]
  | .clearReactions channelId messageId =>
    [("channel_id", .str channelId), ("message_id", .str messageId)]
  | .editChannel channelId edit => [("channel_id", .str channelId), ("edit", edit.toJson)]
  | .deleteChannel channelId => [("channel_id", .str channelId)]
  | .kickMember guildId userId reason =>
    [("guild_id", .str guildId), ("user_id", .str userId), ("reason", orNull reason)]
  | .banMember guildId userId reason =>
    [("guild_id", .str guildId), ("user_id", .str userId), ("reason", orNull reason)]
  | .addMemberRole guildId userId roleId =>
    [("guild_id", .str guildId), ("user_id", .str userId), ("role_id", .str roleId)]
  | .removeMemberRole guildId userId roleId =>
    [("guild_id", .str guildId), ("user_id", .str userId), ("role_id", .str roleId)]
  | .editRole guildId roleId edit =>
    [("guild_id", .str guildId), ("role_id", .str roleId), ("edit", edit.toJson)]
  | .deleteRole guildId roleId => [("guild_id", .str guildId), ("role_id", .str roleId)]

def toJson (c : RestCall) : Json := .obj (("call", .str c.name) :: c.arguments)

end RestCall

end GuildSandbox
