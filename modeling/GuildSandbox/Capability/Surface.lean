import GuildSandbox.Capability.Call

/-!
The surface that scripts see: namespaces, the properties of views and their methods.

A method is found by the view it is called on, its name and the types of all arguments; no argument
is converted. Namespaces are bound to names; adding one takes the place of an older one of the same
name and comes last.
-/

set_option autoImplicit false
set_option relaxedAutoImplicit false

namespace GuildSandbox

namespace View

def contextProperty? (i : Interaction) : String → Option Value
  | "interaction_id" => some (.str i.id)
  | "guild_id" => some (.str i.guildId)
  | "channel_id" => some (.str i.channelId)
  | "custom_id" => some (.ofText? i.customId)
  | "member" => some (.view (.member i.member))
  | "message" => some (.ofView? (i.message.map .message))
  | "command" => some (.ofView? (i.command.map .command))
  | _ => none

def userProperty? (u : User) : String → Option Value
  | "id" => some (.str u.id)
  | "name" => some (.str u.username)
  | "username" => some (.str u.username)
  | "global_name" => some (.ofText? u.globalName)
  | "display_name" => some (.str u.displayName)
  | "discriminator" => some (.str u.discriminator)
  | "avatar" => some (.ofText? u.avatar)
  | "bot" => some (.bool u.bot)
  | _ => none

def memberProperty? (m : Member) : String → Option Value
  | "id" => some (.str m.user.id)
  | "name" => some (.str m.user.username)
  | "username" => some (.str m.user.username)
  | "global_name" => some (.ofText? m.user.globalName)
  | "display_name" => some (.str m.displayName)
  | "nick" => some (.ofText? m.nick)
  | "discriminator" => some (.str m.user.discriminator)
  | "avatar" => some (.ofText? m.user.avatar)
  | "roles" => some (.array (m.roles.map .str))
  | "user" => some (.view (.user m.user))
  | _ => none

def guildProperty? (g : Guild) : String → Option Value
  | "id" => some (.str g.id)
  | "name" => some (.str g.name)
  | "owner_id" => some (.str g.ownerId)
  | "icon" => some (.ofText? g.icon)
  | "description" => some (.ofText? g.description)
  | _ => none

def channelProperty? (c : Channel) : String → Option Value
  | "id" => some (.str c.id)
  | "name" => some (.str c.name)
  | "topic" => some (.ofText? c.topic)
  | "kind" => some (.int (Int64.ofNat c.kind.toNat))
  | "position" => some (.int c.position)
  | "nsfw" => some (.bool c.nsfw)
  | "parent_id" => some (.ofText? c.parentId)
  | _ => none

def roleProperty? (r : Role) : String → Option Value
  | "id" => some (.str r.id)
  | "name" => some (.str r.name)
  | "color" => some (.int (Int64.ofNat r.color.toNat))
  | "position" => some (.int r.position)
  | "hoist" => some (.bool r.hoist)
  | "mentionable" => some (.bool r.mentionable)
  | _ => none

def embedValues : List Json → Except RunError (List Value)
  | [] => .ok []
  | embed :: rest => do
    let first ← (Value.ofPlainJson embed).mapError RunError.value
    return first :: (← embedValues rest)

def messageProperty? (m : Message) : String → Option (Except RunError Value)
  | "id" => some (.ok (.str m.id))
  | "channel_id" => some (.ok (.str m.channelId))
  | "content" => some (.ok (.str m.content))
  | "author" => some (.ok (.view (.user m.author)))
  | "embeds" => some ((embedValues m.embeds).map .array)
  | "attachments" => some (.ok (.array (m.attachments.map fun a => .view (.attachment a))))
  | _ => none

def sizeValue (n : UInt64) : Int64 :=
  (Number.Binary64.int64? n.toNat).getD Int64.maxValue

def attachmentProperty? (a : Attachment) : String → Option Value
  | "id" => some (.str a.id)
  | "filename" => some (.str a.filename)
  | "url" => some (.str a.url)
  | "size" => some (.int (sizeValue a.size))
  | "content_type" => some (.ofText? a.contentType)
  | _ => none

def commandProperty? (c : CommandData) : String → Option Value
  | "id" => some (.str c.id)
  | "name" => some (.str c.name)
  | _ => none

def savedMessageProperty? (m : SavedMessage) : String → Option Value
  | "id" => some (.str m.id)
  | "name" => some (.str m.name)
  | "description" => some (.ofText? m.description)
  | _ => none

def property? (inv : Invocation) (view : View) (name : String) :
    Option (Except RunError Value) :=
  match view with
  | .context => (contextProperty? inv.interaction name).map .ok
  | .user u => (userProperty? u name).map .ok
  | .member m => (memberProperty? m name).map .ok
  | .guild g => (guildProperty? g name).map .ok
  | .channel c => (channelProperty? c name).map .ok
  | .role r => (roleProperty? r name).map .ok
  | .message m => messageProperty? m name
  | .attachment a => (attachmentProperty? a name).map .ok
  | .command c => (commandProperty? c name).map .ok
  | .savedMessage m => (savedMessageProperty? m name).map .ok
  | .store _ | .savedMessages => none

def answer? (kind : ResponseKind) : List Value → Option Call
  | [.str content] => some (.respond kind (.ok (.ofText content true)))
  | [.str content, .bool ephemeral] => some (.respond kind (.ok (.ofText content ephemeral)))
  | [.map payload] => some (.respond kind (ResponsePayload.ofMap payload))
  | _ => none

def contextMethod? : String → List Value → Option Call
  | "respond", args => answer? .channelMessageWithSource args
  | "update", args => answer? .updateMessage args
  | "defer", [] => some .defer
  | "get_guild", [] => some .guild
  | "get_channel", [] => some (.channel none)
  | "get_channel", [.str id] => some (.channel (some id))
  | "get_role", [.str id] => some (.role id)
  | "get_member", [.str id] => some (.member id)
  | _, _ => none

def storeMethod? (h : StoreHandle) : String → List Value → Option Call
  | "set", [.str key, value] => some (.storeSet h key value none)
  | "set", [.str key, value, .int seconds] => some (.storeSet h key value (some seconds))
  | "get", [.str key] => some (.storeGet h key)
  | "delete", [.str key] => some (.storeDelete h key)
  | "increase", [.str key] => some (.storeIncrease h key 1)
  | "increase", [.str key, .int delta] => some (.storeIncrease h key delta)
  | "search", [.str pattern] => some (.storeSearch h pattern)
  | _, _ => none

def memberMethod? (m : Member) : String → List Value → Option Call
  | "mention", [] => some (.mention m.user.mention)
  | "kick", [] => some (.kick m.user.id)
  | "ban", [] => some (.ban m.user.id none)
  | "ban", [.str reason] => some (.ban m.user.id (some reason))
  | "add_role", [.str roleId] => some (.addRole m.user.id roleId)
  | "remove_role", [.str roleId] => some (.removeRole m.user.id roleId)
  | _, _ => none

def guildMethod? (g : Guild) : String → List Value → Option Call
  | "get_channels", [] => some (.guildChannels g.id)
  | "get_channel", [.str id] => some (.channel (some id))
  | "get_roles", [] => some (.guildRoles g.id)
  | "get_role", [.str id] => some (.role id)
  | "get_member", [.str id] => some (.member id)
  | _, _ => none

def channelMethod? (c : Channel) : String → List Value → Option Call
  | "mention", [] => some (.mention c.mention)
  | "edit", [.map changes] => some (.editChannel c.id (ChannelEdit.ofMap changes))
  | "delete", [] => some (.deleteChannel c.id)
  | "get_message", [.str id] => some (.channelMessage c.id id)
  | _, _ => none

def roleMethod? (r : Role) : String → List Value → Option Call
  | "mention", [] => some (.mention r.mention)
  | "edit", [.map changes] => some (.editRole r.id (RoleEdit.ofMap changes))
  | "delete", [] => some (.deleteRole r.id)
  | _, _ => none

def messageMethod? (m : Message) : String → List Value → Option Call
  | "delete", [] => some (.deleteMessage m.channelId m.id)
  | "add_reaction", [.str emoji] => some (.addReaction m.channelId m.id emoji)
  | "remove_reaction", [.str emoji] => some (.removeReaction m.channelId m.id emoji none)
  | "remove_reaction", [.str emoji, .str userId] =>
    some (.removeReaction m.channelId m.id emoji (some userId))
  | "clear_reactions", [] => some (.clearReactions m.channelId m.id)
  | _, _ => none

/-- The call that a method of a view amounts to for given arguments, if there is such a method. -/
def method? (view : View) (name : String) (args : List Value) : Option Call :=
  match view, name, args with
  | .context, name, args => contextMethod? name args
  | .store h, name, args => storeMethod? h name args
  | .savedMessages, "get_saved_message", [.str id] => some (.savedMessage id)
  | .command c, "get_arg", [.str name] => some (.argument c name)
  | .user u, "mention", [] => some (.mention u.mention)
  | .member m, name, args => memberMethod? m name args
  | .guild g, name, args => guildMethod? g name args
  | .channel c, name, args => channelMethod? c name args
  | .role r, name, args => roleMethod? r name args
  | .message m, name, args => messageMethod? m name args
  | .savedMessage m, "get_data", [] => some (.savedMessageData m)
  | _, _, _ => none

end View

structure Capabilities where
  /-- The action that a function comes to for given arguments, if there is such a function. -/
  function? : String → List Value → Option (Host Value)
  property? : View → String → Option (Host Value)

def Invocation.capabilities (inv : Invocation) : Capabilities where
  function? name args := match args with
    | .view v :: rest => (v.method? name rest).map (Call.perform inv)
    | _ => none
  property? v name := (v.property? inv name).map ofExcept

abbrev Surface := List (String × View)

namespace Surface

def knownNames : List String := ["ctx", "kv", "internal"]

def add (s : Surface) (name : String) (view : View) : Surface :=
  (s.filter fun p => p.1 ≠ name) ++ [(name, view)]

def names (s : Surface) : List String := s.map Prod.fst

def standard (inv : Invocation) (limits : StoreLimits) : Surface :=
  let own : Surface :=
    [("ctx", .context), ("kv", .store { guild := inv.guildId, limits := limits })]
  if inv.savedMessages.isSome then own.add "internal" .savedMessages else own

end Surface

end GuildSandbox
