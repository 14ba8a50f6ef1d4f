import GuildSandbox.Capability.Surface
import GuildSandbox.Proofs.Host.Actions

set_option autoImplicit false
set_option relaxedAutoImplicit false

namespace GuildSandbox

namespace Call

/-- What a call that changes something in the guild requires, and the call to the service that it
leads to. -/
def mutation? (guildId : String) : Call → Option (Requirement × RestCall)
  | .kick userId => some (.guild .kickMembers, .kickMember guildId userId none)
  | .ban userId reason => some (.guild .banMembers, .banMember guildId userId reason)
  | .addRole userId roleId => some (.manageRole roleId, .addMemberRole guildId userId roleId)
  | .removeRole userId roleId => some (.manageRole roleId, .removeMemberRole guildId userId roleId)
  | .editChannel id (.ok edit) => some (.channel id .manageChannels, .editChannel id edit)
  | .deleteChannel id => some (.channel id .manageChannels, .deleteChannel id)
  | .editRole id (.ok edit) => some (.manageRole id, .editRole guildId id edit)
  | .deleteRole id => some (.manageRole id, .deleteRole guildId id)
  | .deleteMessage channelId id =>
    some (.channel channelId .manageMessages, .deleteMessage channelId id)
  | .addReaction channelId id emoji =>
    some (.channel channelId .addReactions, .addReaction channelId id emoji)
  | .removeReaction channelId id emoji (some userId) =>
    some (.channel channelId .manageMessages, .removeReaction channelId id emoji (some userId))
  | .clearReactions channelId id =>
    some (.channel channelId .manageMessages, .clearReactions channelId id)
  | _ => none

/-- A mutation is a checked call to the service, after which the script is given a value. -/
theorem perform_mutation {inv : Invocation} {c : Call} {r : Requirement} {rest : RestCall}
    (mutates : c.mutation? inv.guildId = some (r, rest)) :
    ∃ value, c.perform inv = inv.checkedSend r rest >>= fun _ => pure value := by
  -- A checked call gives a unit, so giving a unit after it adds nothing.
  have plain : inv.checkedSend r rest = inv.checkedSend r rest >>= fun _ => pure .unit := by
    simp only [Invocation.checkedSend, bind_assoc, pure_bind]
  cases c with
  | kick | ban | addRole | removeRole | deleteChannel | deleteRole | deleteMessage | addReaction
  | clearReactions =>
    obtain ⟨rfl, rfl⟩ := Prod.mk.inj (Option.some.inj mutates)
    exact ⟨.unit, plain⟩
  | removeReaction channelId id emoji userId =>
    cases userId with
    | none => cases mutates
    | some userId =>
      obtain ⟨rfl, rfl⟩ := Prod.mk.inj (Option.some.inj mutates)
      exact ⟨.unit, plain⟩
  | editChannel id edit =>
    cases edit with
    | error e => cases mutates
    | ok edit =>
      obtain ⟨rfl, rfl⟩ := Prod.mk.inj (Option.some.inj mutates)
      exact ⟨.view (.channel { id := id, name := edit.name.getD "", topic := edit.topic }), rfl⟩
  | editRole id edit =>
    cases edit with
    | error e => cases mutates
    | ok edit =>
      obtain ⟨rfl, rfl⟩ := Prod.mk.inj (Option.some.inj mutates)
      exact ⟨.view (.role { id := id, name := edit.name.getD "" }), rfl⟩
  | _ => cases mutates

end Call

namespace View

/-- What the methods of a member require, and the calls that they lead to. -/
def memberMutation? (guildId userId : String) : String → List Value →
    Option (Requirement × RestCall)
  | "kick", [] => some (.guild .kickMembers, .kickMember guildId userId none)
  | "ban", [] => some (.guild .banMembers, .banMember guildId userId none)
  | "ban", [.str reason] => some (.guild .banMembers, .banMember guildId userId (some reason))
  | "add_role", [.str roleId] => some (.manageRole roleId, .addMemberRole guildId userId roleId)
  | "remove_role", [.str roleId] =>
    some (.manageRole roleId, .removeMemberRole guildId userId roleId)
  | _, _ => none

/-- What the methods of a channel require. An edit has to be well-formed. -/
def channelMutation? (id : String) : String → List Value → Option (Requirement × RestCall)
  | "edit", [.map changes] => (ChannelEdit.ofMap changes).toOption.map
      fun edit => (.channel id .manageChannels, .editChannel id edit)
  | "delete", [] => some (.channel id .manageChannels, .deleteChannel id)
  | _, _ => none

/-- What the methods of a role require. An edit has to be well-formed. -/
def roleMutation? (guildId id : String) : String → List Value → Option (Requirement × RestCall)
  | "edit", [.map changes] => (RoleEdit.ofMap changes).toOption.map
      fun edit => (.manageRole id, .editRole guildId id edit)
  | "delete", [] => some (.manageRole id, .deleteRole guildId id)
  | _, _ => none

/-- What the methods of a message require, all in its channel. Users may always take back their own
reactions. -/
def messageMutation? (channelId id : String) : String → List Value →
    Option (Requirement × RestCall)
  | "delete", [] => some (.channel channelId .manageMessages, .deleteMessage channelId id)
  | "add_reaction", [.str emoji] =>
    some (.channel channelId .addReactions, .addReaction channelId id emoji)
  | "remove_reaction", [.str emoji, .str userId] =>
    some (.channel channelId .manageMessages, .removeReaction channelId id emoji (some userId))
  | "clear_reactions", [] =>
    some (.channel channelId .manageMessages, .clearReactions channelId id)
  | _, _ => none

/-- The requirement of a method that changes something in a guild, and the call to the service that
it leads to. -/
def mutation? (guildId : String) (view : View) (name : String) (args : List Value) :
    Option (Requirement × RestCall) :=
  match view with
  | .member m => memberMutation? guildId m.user.id name args
  | .channel c => channelMutation? c.id name args
  | .role r => roleMutation? guildId r.id name args
  | .message m => messageMutation? m.channelId m.id name args
  | _ => none

private theorem memberMutation?_eq (guildId : String) (m : Member) (name : String)
    (args : List Value) :
    memberMutation? guildId m.user.id name args =
      (memberMethod? m name args).bind (Call.mutation? guildId) := by
  fun_cases memberMutation? guildId m.user.id name args with
  | case1 | case2 | case3 | case4 | case5 => rfl
  | case6 =>
    fun_cases memberMethod? m name args
    all_goals first
      | rfl
      | simp_all

private theorem channelMutation?_eq (guildId : String) (c : Channel) (name : String)
    (args : List Value) :
    channelMutation? c.id name args =
      (channelMethod? c name args).bind (Call.mutation? guildId) := by
  fun_cases channelMutation? c.id name args with
  | case1 changes =>
    have method : channelMethod? c "edit" [.map changes] =
      some (.editChannel c.id (ChannelEdit.ofMap changes)) := rfl
    rw [method]
    cases ChannelEdit.ofMap changes <;> rfl
  | case2 => rfl
  | case3 =>
    fun_cases channelMethod? c name args
    all_goals first
      | rfl
      | simp_all

private theorem roleMutation?_eq (guildId : String) (r : Role) (name : String) (args : List Value) :
    roleMutation? guildId r.id name args =
      (roleMethod? r name args).bind (Call.mutation? guildId) := by
  fun_cases roleMutation? guildId r.id name args with
  | case1 changes =>
    have method : roleMethod? r "edit" [.map changes] =
      some (.editRole r.id (RoleEdit.ofMap changes)) := rfl
    rw [method]
    cases RoleEdit.ofMap changes <;> rfl
  | case2 => rfl
  | case3 =>
    fun_cases roleMethod? r name args
    all_goals first
      | rfl
      | simp_all

private theorem messageMutation?_eq (guildId : String) (m : Message) (name : String)
    (args : List Value) :
    messageMutation? m.channelId m.id name args =
      (messageMethod? m name args).bind (Call.mutation? guildId) := by
  fun_cases messageMutation? m.channelId m.id name args with
  | case1 | case2 | case3 | case4 => rfl
  | case5 =>
    fun_cases messageMethod? m name args
    all_goals first
      | rfl
      | simp_all

/-- The methods that change something are found by their names, and lead to the calls that do. -/
theorem mutation?_eq (guildId : String) (view : View) (name : String) (args : List Value) :
    view.mutation? guildId name args =
      (view.method? name args).bind (Call.mutation? guildId) := by
  cases view with
  | member m => exact memberMutation?_eq guildId m name args
  | channel c => exact channelMutation?_eq guildId c name args
  | role r => exact roleMutation?_eq guildId r name args
  | message m => exact messageMutation?_eq guildId m name args
  | context =>
    change none = (contextMethod? name args).bind _
    fun_cases contextMethod? name args
    case case1 | case2 =>
      unfold answer?
      split <;> rfl
    all_goals rfl
  | store h =>
    change none = (storeMethod? h name args).bind _
    fun_cases storeMethod? h name args
    all_goals rfl
  | guild g =>
    change none = (guildMethod? g name args).bind _
    fun_cases guildMethod? g name args
    all_goals rfl
  | user | attachment | command | savedMessage | savedMessages =>
    unfold method?
    split
    all_goals first
      | rfl
      | contradiction
end View

end GuildSandbox
