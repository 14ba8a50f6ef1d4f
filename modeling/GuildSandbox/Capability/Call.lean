import GuildSandbox.Capability.Answer
import GuildSandbox.Capability.Argument

set_option autoImplicit false
set_option relaxedAutoImplicit false

namespace GuildSandbox

inductive Call where
  | respond (kind : ResponseKind) (payload : Except RunError ResponsePayload)
  | defer
  | guild
  | channel (id : Option String)
  | role (id : String)
  | member (userId : String)
  | argument (command : CommandData) (name : String)
  | mention (text : String)
  | kick (userId : String)
  | ban (userId : String) (reason : Option String)
  | addRole (userId roleId : String)
  | removeRole (userId roleId : String)
  | guildChannels (guildId : String)
  | guildRoles (guildId : String)
  | editChannel (channelId : String) (edit : Except RunError ChannelEdit)
  | deleteChannel (channelId : String)
  | channelMessage (channelId messageId : String)
  | editRole (roleId : String) (edit : Except RunError RoleEdit)
  | deleteRole (roleId : String)
  | deleteMessage (channelId messageId : String)
  | addReaction (channelId messageId emoji : String)
  | removeReaction (channelId messageId emoji : String) (userId : Option String)
  | clearReactions (channelId messageId : String)
  | savedMessage (id : String)
  | savedMessageData (message : SavedMessage)
  | storeSet (handle : StoreHandle) (key : String) (value : Value) (seconds : Option Int64)
  | storeGet (handle : StoreHandle) (key : String)
  | storeDelete (handle : StoreHandle) (key : String)
  | storeIncrease (handle : StoreHandle) (key : String) (delta : Int64)
  | storeSearch (handle : StoreHandle) (pattern : String)

namespace Host

def lookupCall {α : Type} (query : Cache → α) : Host α := call (.immediate (lookup query))

def send (c : RestCall) : Host Unit := call (.service (record c))

def request {α : Type} (r : World → StoreRequest α) : Host α :=
  call (.immediate do
    match r (← getThe World) with
    | .ok action => onStore action
    | .error e => throw (.store e))

end Host

namespace Invocation

def checkedSend (inv : Invocation) (r : Requirement) (c : RestCall) : Host Value := do
  inv.gate.check r
  Host.send c
  return .unit

def ownChannel? (inv : Invocation) (id : String) (c : Cache) : Option Channel :=
  (c.channel? id).filter fun ch => ch.guildId = some inv.guildId

def lifetime : Option Int64 → Except RunError (Option Nat)
  | none => .ok none
  | some seconds =>
    if 0 < seconds.toInt then .ok (some (seconds.toInt.toNat * 1000))
    else .error (.invalidArgument
      ("ttl must be a positive number of seconds, got " ++ toString seconds.toInt))

end Invocation

def Call.perform (inv : Invocation) : Call → Host Value
  | .respond kind payload => do
    let payload ← ofExcept payload
    return .ofView? ((← inv.send kind payload).map .message)
  | .defer => do
    inv.defer
    return .unit
  | .guild => do
    return .ofView? ((← Host.lookupCall fun c => c.guild? inv.guildId).map .guild)
  | .channel id => do
    let id := id.getD inv.interaction.channelId
    return .ofView? ((← Host.lookupCall (inv.ownChannel? id)).map .channel)
  | .role id => do
    return .ofView? ((← Host.lookupCall fun c => c.role? inv.guildId id).map .role)
  | .member userId => do
    return .ofView? ((← Host.lookupCall fun c => c.member? inv.guildId userId).map .member)
  | .argument command name => ofExcept (command.argument name)
  | .mention text => return .str text
  | .kick userId =>
    inv.checkedSend (.guild .kickMembers) (.kickMember inv.guildId userId none)
  | .ban userId reason =>
    inv.checkedSend (.guild .banMembers) (.banMember inv.guildId userId reason)
  | .addRole userId roleId =>
    inv.checkedSend (.manageRole roleId) (.addMemberRole inv.guildId userId roleId)
  | .removeRole userId roleId =>
    inv.checkedSend (.manageRole roleId) (.removeMemberRole inv.guildId userId roleId)
  | .guildChannels guildId => do
    let channels ← Host.lookupCall fun c => c.guildChannels guildId
    return .array (channels.map fun ch => .view (.channel ch))
  | .guildRoles guildId => do
    let roles ← Host.lookupCall fun c => c.guildRoles guildId
    return .array (roles.map fun r => .view (.role r))
  | .editChannel channelId edit => do
    let edit ← ofExcept edit
    let _ ← inv.checkedSend (.channel channelId .manageChannels) (.editChannel channelId edit)
    return .view (.channel
      { id := channelId, name := edit.name.getD "", topic := edit.topic })
  | .deleteChannel channelId =>
    inv.checkedSend (.channel channelId .manageChannels) (.deleteChannel channelId)
  | .channelMessage channelId messageId => do
    return .ofView? ((← Host.lookupCall fun c => c.message? channelId messageId).map .message)
  | .editRole roleId edit => do
    let edit ← ofExcept edit
    let _ ← inv.checkedSend (.manageRole roleId) (.editRole inv.guildId roleId edit)
    return .view (.role { id := roleId, name := edit.name.getD "" })
  | .deleteRole roleId =>
    inv.checkedSend (.manageRole roleId) (.deleteRole inv.guildId roleId)
  | .deleteMessage channelId messageId =>
    inv.checkedSend (.channel channelId .manageMessages) (.deleteMessage channelId messageId)
  | .addReaction channelId messageId emoji =>
    inv.checkedSend (.channel channelId .addReactions) (.addReaction channelId messageId emoji)
  | .removeReaction channelId messageId emoji none => do
    Host.send (.removeReaction channelId messageId emoji none)
    return .unit
  | .removeReaction channelId messageId emoji (some userId) =>
    inv.checkedSend (.channel channelId .manageMessages)
      (.removeReaction channelId messageId emoji (some userId))
  | .clearReactions channelId messageId =>
    inv.checkedSend (.channel channelId .manageMessages) (.clearReactions channelId messageId)
  | .savedMessage id => do
    let found ← Host.call (.immediate (pure (inv.savedMessage? id)))
    return .ofView? (found.map .savedMessage)
  | .savedMessageData message => ofExcept ((Value.ofPlainJson message.data).mapError .value)
  | .storeSet handle key value seconds => do
    let lifetime ← ofExcept (Invocation.lifetime seconds)
    Host.request fun w => handle.set key value lifetime w.now
    return .unit
  | .storeGet handle key => Host.request fun _ => handle.get key
  | .storeDelete handle key => Host.request fun _ => handle.delete key
  | .storeIncrease handle key delta => Host.request fun _ => handle.increase key delta
  | .storeSearch handle pattern => do
    return .map (Dict.ofPairs (← Host.request fun _ => handle.search pattern))

end GuildSandbox
