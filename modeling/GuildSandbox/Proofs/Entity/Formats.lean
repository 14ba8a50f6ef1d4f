import GuildSandbox.Host.Cache
import GuildSandbox.Interaction.Basic
import GuildSandbox.Interaction.Response
import GuildSandbox.Proofs.Json.Stable

/-!
The formats of users, guilds, messages and interactions are stable under re-encoding.

Each record is taken as the list of its fields under their names, with the absent ones as `none`.
What is left to show for a record is that each of its values is read again under its name: a value
that is left out when there is none must read as none, and a default that is written must read as
itself.
-/

set_option autoImplicit false
set_option relaxedAutoImplicit false

namespace GuildSandbox

open Json (Settles Stable NullFree ofList nullFree_of_forall_ne stable_str stable_bool stable_int64
  stable_uint64 stable_oneOf stable_anything nullFree_anything optional_str height_le_heightItems
  height_le_heightFields)

namespace User

def fields (u : User) : List (String × Option Json) :=
  [("id", some (.str u.id)), ("username", some (.str u.username)),
    ("global_name", u.globalName.map .str), ("discriminator", some (.str u.discriminator)),
    ("avatar", u.avatar.map .str), ("bot", some (.bool u.bot))]

private theorem stable : Stable ofJson? toJson := by
  refine Stable.record fields (fun u => ?_) (fun _ => rfl) (by decide) fun values u read => ?_
  · simp [toJson, fields]
  split at read
  · simp only [Option.bind_eq_bind, Option.pure_def, Option.bind_eq_some_iff,
      Option.some.injEq] at read
    obtain ⟨id, readId, username, readUsername, globalName, readGlobalName, discriminator,
      readDiscriminator, avatar, readAvatar, bot, readBot, rfl⟩ := read
    simp only [fields, List.map_cons, List.map_nil, Option.bind_eq_bind, Option.pure_def,
      Option.bind_eq_some_iff, Option.some.injEq]
    exact ⟨_, stable_str.required readId, _, stable_str.required readUsername,
      _, optional_str readGlobalName, _, stable_str.withDefault rfl readDiscriminator,
      _, optional_str readAvatar, _, stable_bool.withDefault rfl readBot, rfl⟩
  · cases read

private theorem ofJson?_toJson_default : ofJson? (toJson {}) = some {} := by decide +kernel

end User

namespace Member

def fields (m : Member) : List (String × Option Json) :=
  [("user", some m.user.toJson), ("nick", m.nick.map .str),
    ("roles", some (ofList .str m.roles)), ("avatar", m.avatar.map .str),
    ("joined_at", m.joinedAt.map .str)]

private theorem stable : Stable ofJson? toJson := by
  refine Stable.record fields (fun m => ?_) (fun _ => rfl) (by decide) fun values m read => ?_
  · simp [toJson, fields, ofList]
  split at read
  · simp only [Option.bind_eq_bind, Option.pure_def, Option.bind_eq_some_iff,
      Option.some.injEq] at read
    obtain ⟨user, readUser, nick, readNick, roles, readRoles, avatar, readAvatar, joinedAt,
      readJoinedAt, rfl⟩ := read
    simp only [fields, List.map_cons, List.map_nil, Option.bind_eq_bind, Option.pure_def,
      Option.bind_eq_some_iff, Option.some.injEq]
    exact ⟨_, User.stable.required readUser, _, optional_str readNick,
      _, stable_str.list.withDefault rfl readRoles, _, optional_str readAvatar,
      _, optional_str readJoinedAt, rfl⟩
  · cases read

end Member

namespace Guild

def fields (g : Guild) : List (String × Option Json) :=
  [("id", some (.str g.id)), ("name", some (.str g.name)), ("owner_id", some (.str g.ownerId)),
    ("icon", g.icon.map .str), ("description", g.description.map .str)]

private theorem stable : Stable ofJson? toJson := by
  refine Stable.record fields (fun g => ?_) (fun _ => rfl) (by decide) fun values g read => ?_
  · simp [toJson, fields]
  split at read
  · simp only [Option.bind_eq_bind, Option.pure_def, Option.bind_eq_some_iff,
      Option.some.injEq] at read
    obtain ⟨id, readId, name, readName, ownerId, readOwnerId, icon, readIcon, description,
      readDescription, rfl⟩ := read
    simp only [fields, List.map_cons, List.map_nil, Option.bind_eq_bind, Option.pure_def,
      Option.bind_eq_some_iff, Option.some.injEq]
    exact ⟨_, stable_str.required readId, _, stable_str.required readName,
      _, stable_str.withDefault rfl readOwnerId, _, optional_str readIcon,
      _, optional_str readDescription, rfl⟩
  · cases read

end Guild

namespace Channel

def fields (c : Channel) : List (String × Option Json) :=
  [("id", some (.str c.id)), ("guild_id", c.guildId.map .str), ("name", some (.str c.name)),
    ("type", some (Json.ofUInt64 c.kind.toUInt64)), ("topic", c.topic.map .str),
    ("position", some (.int64 c.position)), ("parent_id", c.parentId.map .str),
    ("nsfw", some (.bool c.nsfw))]

private theorem again_kind {field : Option Json} {kind : Int}
    (readKind : Json.withDefault 0 (Json.intWithin 0 255) field = some kind) :
    Json.withDefault 0 (Json.intWithin 0 255)
      (some (Json.ofUInt64 (UInt8.ofNat kind.toNat).toUInt64)) = some kind := by
  have within := Json.within_of_withDefault (by decide) readKind
  refine Json.withDefault_intWithin ?_ within
  have small : kind.toNat % 256 = kind.toNat := Nat.mod_eq_of_lt (by omega)
  rw [UInt8.toNat_toUInt64, UInt8.toNat_ofNat', small, Int.toNat_of_nonneg within.1]

private theorem stable : Stable ofJson? toJson := by
  refine Stable.record fields (fun c => ?_) (fun _ => rfl) (by decide) fun values c read => ?_
  · simp [toJson, fields]
  split at read
  · simp only [Option.bind_eq_bind, Option.pure_def, Option.bind_eq_some_iff,
      Option.some.injEq] at read
    obtain ⟨id, readId, guildId, readGuildId, name, readName, kind, readKind, topic, readTopic,
      position, readPosition, parentId, readParentId, nsfw, readNsfw, rfl⟩ := read
    simp only [fields, List.map_cons, List.map_nil, Option.bind_eq_bind, Option.pure_def,
      Option.bind_eq_some_iff, Option.some.injEq]
    exact ⟨_, stable_str.required readId, _, optional_str readGuildId,
      _, stable_str.withDefault rfl readName, _, again_kind readKind, _, optional_str readTopic,
      _, stable_int64.withDefault rfl readPosition, _, optional_str readParentId,
      _, stable_bool.withDefault rfl readNsfw, rfl⟩
  · cases read

end Channel

namespace Role

def fields (r : Role) : List (String × Option Json) :=
  [("id", some (.str r.id)), ("name", some (.str r.name)),
    ("color", some (Json.ofUInt64 r.color.toUInt64)), ("position", some (.int64 r.position)),
    ("permissions", some (Json.ofUInt64 r.permissions.bits)), ("hoist", some (.bool r.hoist)),
    ("mentionable", some (.bool r.mentionable)), ("managed", some (.bool r.managed))]

private theorem again_color {field : Option Json} {color : Int}
    (readColor : Json.withDefault 0 (Json.intWithin 0 4294967295) field = some color) :
    Json.withDefault 0 (Json.intWithin 0 4294967295)
      (some (Json.ofUInt64 (UInt32.ofNat color.toNat).toUInt64)) = some color := by
  have within := Json.within_of_withDefault (by decide) readColor
  refine Json.withDefault_intWithin ?_ within
  have small : color.toNat % 4294967296 = color.toNat := Nat.mod_eq_of_lt (by omega)
  rw [UInt32.toNat_toUInt64, UInt32.toNat_ofNat', small, Int.toNat_of_nonneg within.1]

private theorem stable : Stable ofJson? toJson := by
  refine Stable.record fields (fun r => ?_) (fun _ => rfl) (by decide) fun values r read => ?_
  · simp [toJson, fields, Json.always]
  split at read
  · simp only [Option.bind_eq_bind, Option.pure_def, Option.bind_eq_some_iff,
      Option.some.injEq] at read
    obtain ⟨id, readId, name, readName, color, readColor, position, readPosition, permissions,
      readPermissions, hoist, readHoist, mentionable, readMentionable, managed, readManaged,
      rfl⟩ := read
    simp only [fields, List.map_cons, List.map_nil, Option.bind_eq_bind, Option.pure_def,
      Option.bind_eq_some_iff, Option.some.injEq]
    exact ⟨_, stable_str.required readId, _, stable_str.required readName, _, again_color readColor,
      _, stable_int64.withDefault rfl readPosition,
      _, stable_uint64.withDefault rfl readPermissions, _, stable_bool.withDefault rfl readHoist,
      _, stable_bool.withDefault rfl readMentionable, _, stable_bool.withDefault rfl readManaged,
      rfl⟩
  · cases read

end Role

namespace ChannelEdit

def fields (e : ChannelEdit) : List (String × Option Json) :=
  [("name", e.name.map .str), ("topic", e.topic.map .str)]

private theorem stable : Stable ofJson? toJson := by
  refine Stable.record fields (fun e => ?_) (fun _ => rfl) (by decide) fun values e read => ?_
  · simp [toJson, fields]
  split at read
  · simp only [Option.bind_eq_bind, Option.pure_def, Option.bind_eq_some_iff,
      Option.some.injEq] at read
    obtain ⟨name, readName, topic, readTopic, rfl⟩ := read
    simp only [fields, List.map_cons, List.map_nil, Option.bind_eq_bind, Option.pure_def,
      Option.bind_eq_some_iff, Option.some.injEq]
    exact ⟨_, optional_str readName, _, optional_str readTopic, rfl⟩
  · cases read

end ChannelEdit

namespace RoleEdit

def fields (e : RoleEdit) : List (String × Option Json) := [("name", e.name.map .str)]

private theorem stable : Stable ofJson? toJson := by
  refine Stable.record fields (fun e => ?_) (fun _ => rfl) (by decide) fun values e read => ?_
  · simp [toJson, fields]
  split at read
  · simp only [Option.bind_eq_bind, Option.pure_def, Option.bind_eq_some_iff,
      Option.some.injEq] at read
    obtain ⟨name, readName, rfl⟩ := read
    simp only [fields, List.map_cons, List.map_nil, Option.bind_eq_bind, Option.pure_def,
      Option.bind_eq_some_iff, Option.some.injEq]
    exact ⟨_, optional_str readName, rfl⟩
  · cases read

end RoleEdit

namespace DerivedPermissions

def fields (d : DerivedPermissions) : List (String × Option Json) :=
  [("user_id", some (.str d.userId)), ("guild_is_owner", some (.bool d.guildIsOwner)),
    ("guild_permissions", some (Json.ofUInt64 d.guildPermissions.bits)),
    ("channel_permissions", some (Json.ofUInt64 d.channelPermissions.bits)),
    ("lower_role_ids", some (ofList .str d.lowerRoleIds))]

private theorem stable : Stable ofJson? toJson := by
  refine Stable.record fields (fun d => ?_) (fun _ => rfl) (by decide) fun values d read => ?_
  · simp [toJson, fields, ofList, Json.always]
  split at read
  · simp only [Option.bind_eq_bind, Option.pure_def, Option.bind_eq_some_iff,
      Option.some.injEq] at read
    obtain ⟨userId, readUserId, owner, readOwner, guild, readGuild, channel, readChannel, lower,
      readLower, rfl⟩ := read
    simp only [fields, List.map_cons, List.map_nil, Option.bind_eq_bind, Option.pure_def,
      Option.bind_eq_some_iff, Option.some.injEq]
    exact ⟨_, stable_str.required readUserId, _, stable_bool.withDefault rfl readOwner,
      _, stable_uint64.withDefault rfl readGuild, _, stable_uint64.withDefault rfl readChannel,
      _, stable_str.list.withDefault rfl readLower, rfl⟩
  · cases read

end DerivedPermissions

namespace Attachment

def fields (a : Attachment) : List (String × Option Json) :=
  [("id", some (.str a.id)), ("filename", some (.str a.filename)), ("url", some (.str a.url)),
    ("size", some (Json.ofUInt64 a.size)), ("content_type", a.contentType.map .str)]

private theorem stable : Stable ofJson? toJson := by
  refine Stable.record fields (fun a => ?_) (fun _ => rfl) (by decide) fun values a read => ?_
  · simp [toJson, fields]
  split at read
  · simp only [Option.bind_eq_bind, Option.pure_def, Option.bind_eq_some_iff,
      Option.some.injEq] at read
    obtain ⟨id, readId, filename, readFilename, url, readUrl, size, readSize, contentType,
      readContentType, rfl⟩ := read
    simp only [fields, List.map_cons, List.map_nil, Option.bind_eq_bind, Option.pure_def,
      Option.bind_eq_some_iff, Option.some.injEq]
    exact ⟨_, stable_str.required readId, _, stable_str.required readFilename,
      _, stable_str.withDefault rfl readUrl, _, stable_uint64.withDefault rfl readSize,
      _, optional_str readContentType, rfl⟩
  · cases read

end Attachment

namespace Message

def fields (m : Message) : List (String × Option Json) :=
  [("id", some (.str m.id)), ("channel_id", some (.str m.channelId)),
    ("guild_id", m.guildId.map .str), ("author", some m.author.toJson),
    ("content", some (.str m.content)), ("embeds", some (ofList (fun j => j) m.embeds)),
    ("attachments", some (ofList Attachment.toJson m.attachments)),
    ("timestamp", m.timestamp.map .str)]

private theorem stable : Stable ofJson? toJson := by
  refine Stable.record fields (fun m => ?_) (fun _ => rfl) (by decide) fun values m read => ?_
  · simp [toJson, fields, ofList]
  split at read
  · simp only [Option.bind_eq_bind, Option.pure_def, Option.bind_eq_some_iff,
      Option.some.injEq] at read
    obtain ⟨id, readId, channelId, readChannelId, guildId, readGuildId, author, readAuthor, content,
      readContent, embeds, readEmbeds, attachments, readAttachments, timestamp, readTimestamp,
      rfl⟩ := read
    simp only [fields, List.map_cons, List.map_nil, Option.bind_eq_bind, Option.pure_def,
      Option.bind_eq_some_iff, Option.some.injEq]
    exact ⟨_, stable_str.required readId, _, stable_str.required readChannelId,
      _, optional_str readGuildId, _, User.stable.withDefault User.ofJson?_toJson_default readAuthor,
      _, stable_str.withDefault rfl readContent, _, stable_anything.list.withDefault rfl readEmbeds,
      _, Attachment.stable.list.withDefault rfl readAttachments, _, optional_str readTimestamp, rfl⟩
  · cases read

end Message

namespace SavedMessage

def fields (m : SavedMessage) : List (String × Option Json) :=
  [("id", some (.str m.id)), ("guild_id", m.guildId.map .str), ("name", some (.str m.name)),
    ("description", m.description.map .str), ("data", some m.data)]

private theorem stable : Stable ofJson? toJson := by
  refine Stable.record fields (fun m => ?_) (fun _ => rfl) (by decide) fun values m read => ?_
  · simp [toJson, fields]
  split at read
  · simp only [Option.bind_eq_bind, Option.pure_def, Option.bind_eq_some_iff,
      Option.some.injEq] at read
    obtain ⟨id, readId, guildId, readGuildId, name, readName, description, readDescription, data,
      readData, rfl⟩ := read
    simp only [fields, List.map_cons, List.map_nil, Option.bind_eq_bind, Option.pure_def,
      Option.bind_eq_some_iff, Option.some.injEq]
    exact ⟨_, stable_str.required readId, _, optional_str readGuildId,
      _, stable_str.required readName, _, optional_str readDescription,
      _, stable_anything.withDefault rfl readData, rfl⟩
  · cases read

end SavedMessage

namespace TaggedValue

def fields (t : TaggedValue) : List (String × Option Json) :=
  [("type", some (.str t.tag)), ("data", some t.data)]

private theorem stable : Stable ofJson? toJson := by
  refine Stable.record fields (fun t => ?_) (fun _ => rfl) (by decide) fun values t read => ?_
  · simp [toJson, fields, Json.always]
  split at read
  · simp only [Option.bind_eq_bind, Option.pure_def, Option.bind_eq_some_iff,
      Option.some.injEq] at read
    obtain ⟨tag, readTag, data, readData, rfl⟩ := read
    simp only [fields, List.map_cons, List.map_nil, Option.bind_eq_bind, Option.pure_def,
      Option.bind_eq_some_iff, Option.some.injEq]
    exact ⟨_, stable_str.required readTag, _, stable_anything.withDefault rfl readData, rfl⟩
  · cases read

end TaggedValue

namespace CommandOption

private theorem stable_kind : Stable (Json.oneOf OptionKind.names) fun kind => .str kind.name :=
  stable_oneOf fun kind => by cases kind <;> rfl

private theorem toJsonItems_eq (options : List CommandOption) :
    toJsonItems options = options.map toJson := by
  induction options with
  | nil => rfl
  | cons option rest ih => rw [toJsonItems, ih, List.map_cons]

def fields (o : CommandOption) : List (String × Option Json) :=
  [("name", some (.str o.name)), ("type", some (.str o.kind.name)), ("value", o.value.map id),
    ("options", some (ofList toJson o.options))]

private theorem map_fst_fields (o : CommandOption) :
    o.fields.map Prod.fst = ["name", "type", "value", "options"] := rfl

private theorem toJson_eq (o : CommandOption) : o.toJson = .obj (Json.written o.fields) := by
  obtain ⟨name, kind, value, options⟩ := o
  rw [toJson, toJsonItems_eq, fields]
  cases value <;> simp [ofList, CommandOption.name, CommandOption.kind, CommandOption.value,
    CommandOption.options, Json.whenPresent, Json.always]

private theorem height_lt_of_mem {option o : CommandOption} (h : option ∈ o.options) :
    option.toJson.height < o.toJson.height := by
  have item : option.toJson.height ≤ Json.heightItems (o.options.map toJson) :=
    height_le_heightItems (List.mem_map_of_mem h)
  have there : ("options", ofList toJson o.options) ∈ Json.written o.fields := by
    cases found : o.value <;> simp [fields, found, Json.always]
  have list : (ofList toJson o.options).height ≤ Json.heightFields (Json.written o.fields) :=
    height_le_heightFields there
  rw [ofList, Json.height] at list
  rw [toJson_eq o, Json.height]
  omega

private theorem ofJsonWith?_toJson {nested again : Json → Option CommandOption} {j : Json}
    {o : CommandOption} (read : ofJsonWith? nested j = some o)
    (inside : ∀ option ∈ o.options, ∀ item, nested item = some option →
      again option.toJson = some option) :
    ofJsonWith? again o.toJson = some o := by
  obtain ⟨values, -, read⟩ := Option.bind_eq_some_iff.1 read
  split at read
  · simp only [Option.bind_eq_bind, Option.pure_def, Option.bind_eq_some_iff,
      Option.some.injEq] at read
    obtain ⟨name, readName, kind, readKind, value, readValue, options, readOptions, rfl⟩ := read
    have optionsAgain : Json.list again (ofList toJson options) = some options := by
      refine Json.readAll_map fun option there => ?_
      obtain ⟨item, readItem⟩ := Json.exists_read_of_mem_withDefault readOptions option there
      exact inside option there item readItem
    have distinct : ((mk name kind value options).fields.map Prod.fst).Nodup := by
      rw [map_fst_fields]; decide
    rw [toJson_eq]
    refine Option.bind_eq_some_iff.2 ⟨_, Json.recordFields?_written distinct, ?_⟩
    simp only [fields, List.map_cons, List.map_nil, Option.bind_eq_bind, Option.pure_def,
      Option.bind_eq_some_iff, Option.some.injEq]
    exact ⟨_, stable_str.required readName, _, stable_kind.required readKind,
      _, stable_anything.optional nullFree_anything readValue, _, optionsAgain, rfl⟩
  · cases read

private theorem ofJsonWithin?_toJson {levels : Nat} {j : Json} {o : CommandOption}
    (read : ofJsonWithin? levels j = some o) (enough : Nat) (high : o.toJson.height ≤ enough) :
    ofJsonWithin? enough o.toJson = some o := by
  induction levels generalizing j o enough with
  | zero => cases read
  | succ levels ih =>
    cases enough with
    | zero => rw [toJson_eq, Json.height] at high; omega
    | succ enough =>
      refine ofJsonWith?_toJson read fun option there item readItem => ih readItem enough ?_
      have lower := height_lt_of_mem there
      omega

private theorem stable : Stable ofJson? toJson :=
  fun _ o read => ofJsonWithin?_toJson read o.toJson.height (Nat.le_refl _)

end CommandOption

namespace ResolvedMember

def fields (m : ResolvedMember) : List (String × Option Json) :=
  [("nick", m.nick.map .str), ("roles", some (ofList .str m.roles))]

private theorem stable : Stable ofJson? toJson := by
  refine Stable.record fields (fun m => ?_) (fun _ => rfl) (by decide) fun values m read => ?_
  · simp [toJson, fields, ofList]
  split at read
  · simp only [Option.bind_eq_bind, Option.pure_def, Option.bind_eq_some_iff,
      Option.some.injEq] at read
    obtain ⟨nick, readNick, roles, readRoles, rfl⟩ := read
    simp only [fields, List.map_cons, List.map_nil, Option.bind_eq_bind, Option.pure_def,
      Option.bind_eq_some_iff, Option.some.injEq]
    exact ⟨_, optional_str readNick, _, stable_str.list.withDefault rfl readRoles, rfl⟩
  · cases read

end ResolvedMember

namespace ResolvedData

def fields (r : ResolvedData) : List (String × Option Json) :=
  [("users", some (Json.ofTable User.toJson r.users)),
    ("members", some (Json.ofTable ResolvedMember.toJson r.members)),
    ("channels", some (Json.ofTable Channel.toJson r.channels)),
    ("roles", some (Json.ofTable Role.toJson r.roles)),
    ("attachments", some (Json.ofTable Attachment.toJson r.attachments))]

private theorem stable : Stable ofJson? toJson := by
  refine Stable.record fields (fun r => ?_) (fun _ => rfl) (by decide) fun values r read => ?_
  · simp [toJson, fields, Json.always]
  split at read
  · simp only [Option.bind_eq_bind, Option.pure_def, Option.bind_eq_some_iff,
      Option.some.injEq] at read
    obtain ⟨users, readUsers, members, readMembers, channels, readChannels, roles, readRoles,
      attachments, readAttachments, rfl⟩ := read
    simp only [fields, List.map_cons, List.map_nil, Option.bind_eq_bind, Option.pure_def,
      Option.bind_eq_some_iff, Option.some.injEq]
    exact ⟨_, User.stable.table.withDefault rfl readUsers,
      _, ResolvedMember.stable.table.withDefault rfl readMembers,
      _, Channel.stable.table.withDefault rfl readChannels,
      _, Role.stable.table.withDefault rfl readRoles,
      _, Attachment.stable.table.withDefault rfl readAttachments, rfl⟩
  · cases read

private theorem ofJson?_toJson_default : ofJson? (toJson {}) = some {} := by decide +kernel

end ResolvedData

namespace CommandData

def fields (c : CommandData) : List (String × Option Json) :=
  [("id", some (.str c.id)), ("name", some (.str c.name)),
    ("options", some (ofList CommandOption.toJson c.options)), ("resolved", some c.resolved.toJson)]

private theorem stable : Stable ofJson? toJson := by
  refine Stable.record fields (fun c => ?_) (fun _ => rfl) (by decide) fun values c read => ?_
  · simp [toJson, fields, ofList, Json.always, CommandOption.toJsonItems_eq]
  split at read
  · simp only [Option.bind_eq_bind, Option.pure_def, Option.bind_eq_some_iff,
      Option.some.injEq] at read
    obtain ⟨id, readId, name, readName, options, readOptions, resolved, readResolved, rfl⟩ := read
    simp only [fields, List.map_cons, List.map_nil, Option.bind_eq_bind, Option.pure_def,
      Option.bind_eq_some_iff, Option.some.injEq]
    exact ⟨_, stable_str.required readId, _, stable_str.required readName,
      _, CommandOption.stable.list.withDefault rfl readOptions,
      _, ResolvedData.stable.withDefault ResolvedData.ofJson?_toJson_default readResolved, rfl⟩
  · cases read

end CommandData

namespace Interaction

def fields (i : Interaction) : List (String × Option Json) :=
  [("id", some (.str i.id)), ("application_id", some (.str i.applicationId)),
    ("token", some (.str i.token)), ("type", some (.str i.kind.name)),
    ("guild_id", some (.str i.guildId)), ("channel_id", some (.str i.channelId)),
    ("member", some i.member.toJson), ("message", i.message.map Message.toJson),
    ("command", i.command.map CommandData.toJson), ("custom_id", i.customId.map .str)]

private theorem stable_kind :
    Stable (Json.oneOf InteractionKind.names) fun kind => .str kind.name :=
  stable_oneOf fun kind => by cases kind <;> rfl

private theorem stable : Stable ofJson? toJson := by
  refine Stable.record fields (fun i => ?_) (fun _ => rfl) (by decide) fun values i read => ?_
  · simp [toJson, fields]
  split at read
  · simp only [Option.bind_eq_bind, Option.pure_def, Option.bind_eq_some_iff,
      Option.some.injEq] at read
    obtain ⟨id, readId, applicationId, readApplicationId, token, readToken, kind, readKind, guildId,
      readGuildId, channelId, readChannelId, member, readMember, message, readMessage, command,
      readCommand, customId, readCustomId, rfl⟩ := read
    have message? : NullFree Message.ofJson? Message.toJson :=
      nullFree_of_forall_ne fun _ => Json.noConfusion
    have command? : NullFree CommandData.ofJson? CommandData.toJson :=
      nullFree_of_forall_ne fun _ => Json.noConfusion
    simp only [fields, List.map_cons, List.map_nil, Option.bind_eq_bind, Option.pure_def,
      Option.bind_eq_some_iff, Option.some.injEq]
    exact ⟨_, stable_str.required readId, _, stable_str.required readApplicationId,
      _, stable_str.required readToken, _, stable_kind.required readKind,
      _, stable_str.required readGuildId, _, stable_str.required readChannelId,
      _, Member.stable.required readMember, _, Message.stable.optional message? readMessage,
      _, CommandData.stable.optional command? readCommand, _, optional_str readCustomId, rfl⟩
  · cases read

end Interaction

namespace ResponseData

def fields (r : ResponseData) : List (String × Option Json) :=
  [("content", r.content.map .str),
    ("embeds", if r.embeds.isEmpty then none else some (ofList id r.embeds)),
    ("ephemeral", some (.bool r.ephemeral))]

private theorem again_embeds {field : Option Json} {embeds : List Json}
    (readEmbeds : Json.withDefault [] (Json.list Json.anything) field = some embeds) :
    Json.withDefault [] (Json.list Json.anything)
      (if embeds.isEmpty then none else some (ofList id embeds)) = some embeds := by
  split
  next empty => rw [List.isEmpty_iff.1 empty]; rfl
  next => exact stable_anything.list.withDefault rfl readEmbeds

private theorem stable : Stable ofJson? toJson := by
  refine Stable.record fields (fun r => ?_) (fun _ => rfl) (by decide) fun values r read => ?_
  · cases empty : r.embeds.isEmpty <;> simp [toJson, fields, ofList, empty]
  split at read
  · simp only [Option.bind_eq_bind, Option.pure_def, Option.bind_eq_some_iff,
      Option.some.injEq] at read
    obtain ⟨content, readContent, embeds, readEmbeds, ephemeral, readEphemeral, rfl⟩ := read
    simp only [fields, List.map_cons, List.map_nil, Option.bind_eq_bind, Option.pure_def,
      Option.bind_eq_some_iff, Option.some.injEq]
    exact ⟨_, optional_str readContent, _, again_embeds readEmbeds,
      _, stable_bool.withDefault rfl readEphemeral, rfl⟩
  · cases read

end ResponseData

namespace InteractionResponse

def fields (r : InteractionResponse) : List (String × Option Json) :=
  [("type", some (.str r.kind.name)), ("data", r.data.map ResponseData.toJson)]

private theorem stable_kind : Stable (Json.oneOf ResponseKind.names) fun kind => .str kind.name :=
  stable_oneOf fun kind => by cases kind <;> rfl

private theorem stable : Stable ofJson? toJson := by
  refine Stable.record fields (fun r => ?_) (fun _ => rfl) (by decide) fun values r read => ?_
  · simp [toJson, fields]
  split at read
  · simp only [Option.bind_eq_bind, Option.pure_def, Option.bind_eq_some_iff,
      Option.some.injEq] at read
    obtain ⟨kind, readKind, data, readData, rfl⟩ := read
    have data? : NullFree ResponseData.ofJson? ResponseData.toJson :=
      nullFree_of_forall_ne fun _ => Json.noConfusion
    simp only [fields, List.map_cons, List.map_nil, Option.bind_eq_bind, Option.pure_def,
      Option.bind_eq_some_iff, Option.some.injEq]
    exact ⟨_, stable_kind.required readKind, _, ResponseData.stable.optional data? readData,
      rfl⟩
  · cases read

end InteractionResponse

namespace Cache

def fields (c : Cache) : List (String × Option Json) :=
  [("guilds", some (ofList Guild.toJson c.guilds)),
    ("channels", some (ofList Channel.toJson c.channels)),
    ("roles", some (Json.ofTable (ofList Role.toJson) c.roles)),
    ("members", some (Json.ofTable (ofList Member.toJson) c.members)),
    ("messages", some (ofList Message.toJson c.messages)),
    ("permissions", some (Json.ofTable DerivedPermissions.toJson c.permissions))]

private theorem stable : Stable ofJson? toJson := by
  refine Stable.record fields (fun c => rfl) (fun _ => rfl) (by decide) fun values c read => ?_
  split at read
  · simp only [Option.bind_eq_bind, Option.pure_def, Option.bind_eq_some_iff,
      Option.some.injEq] at read
    obtain ⟨guilds, readGuilds, channels, readChannels, roles, readRoles, members, readMembers,
      messages, readMessages, permissions, readPermissions, rfl⟩ := read
    simp only [fields, List.map_cons, List.map_nil, Option.bind_eq_bind, Option.pure_def,
      Option.bind_eq_some_iff, Option.some.injEq]
    exact ⟨_, Guild.stable.list.withDefault rfl readGuilds,
      _, Channel.stable.list.withDefault rfl readChannels,
      _, Role.stable.list.table.withDefault rfl readRoles,
      _, Member.stable.list.table.withDefault rfl readMembers,
      _, Message.stable.list.withDefault rfl readMessages,
      _, DerivedPermissions.stable.table.withDefault rfl readPermissions, rfl⟩
  · cases read

end Cache

/-- Every format that the host's data are exchanged in: what any tree was read as is read again from
the tree that it is written as, so a tree that was written once is written the same ever after. -/
theorem formats_settle :
    Settles User.ofJson? User.toJson ∧
    Settles Member.ofJson? Member.toJson ∧
    Settles Guild.ofJson? Guild.toJson ∧
    Settles Channel.ofJson? Channel.toJson ∧
    Settles Role.ofJson? Role.toJson ∧
    Settles Attachment.ofJson? Attachment.toJson ∧
    Settles Message.ofJson? Message.toJson ∧
    Settles CommandOption.ofJson? CommandOption.toJson ∧
    Settles CommandData.ofJson? CommandData.toJson ∧
    Settles ResolvedData.ofJson? ResolvedData.toJson ∧
    Settles Interaction.ofJson? Interaction.toJson ∧
    Settles ResponseData.ofJson? ResponseData.toJson ∧
    Settles InteractionResponse.ofJson? InteractionResponse.toJson ∧
    Settles ChannelEdit.ofJson? ChannelEdit.toJson ∧
    Settles RoleEdit.ofJson? RoleEdit.toJson ∧
    Settles DerivedPermissions.ofJson? DerivedPermissions.toJson ∧
    Settles SavedMessage.ofJson? SavedMessage.toJson ∧
    Settles TaggedValue.ofJson? TaggedValue.toJson ∧
    Settles Cache.ofJson? Cache.toJson :=
  ⟨User.stable.settles, Member.stable.settles, Guild.stable.settles, Channel.stable.settles,
    Role.stable.settles, Attachment.stable.settles, Message.stable.settles,
    CommandOption.stable.settles, CommandData.stable.settles, ResolvedData.stable.settles,
    Interaction.stable.settles, ResponseData.stable.settles, InteractionResponse.stable.settles,
    ChannelEdit.stable.settles, RoleEdit.stable.settles, DerivedPermissions.stable.settles,
    SavedMessage.stable.settles, TaggedValue.stable.settles, Cache.stable.settles⟩

/-- A group of commands with an unknown field, a `null` for an absent value, and an option given as
an array. -/
def looseOption : Json :=
  .obj [("options", .arr [.arr [.str "color", .obj [("string", .null)], .str "red"]]),
    ("type", .str "sub_command_group"), ("value", .null), ("hidden", .bool true),
    ("name", .str "paint")]

theorem looseOption_settles :
    CommandOption.ofJson? looseOption =
        some (.mk "paint" .subCommandGroup none [.mk "color" .string (some (.str "red")) []]) ∧
      CommandOption.ofJson? (CommandOption.toJson
          (.mk "paint" .subCommandGroup none [.mk "color" .string (some (.str "red")) []])) =
        some (.mk "paint" .subCommandGroup none [.mk "color" .string (some (.str "red")) []]) := by
  obtain ⟨-, -, -, -, -, -, -, options, -⟩ := formats_settle
  have read : CommandOption.ofJson? looseOption =
      some (.mk "paint" .subCommandGroup none [.mk "color" .string (some (.str "red")) []]) := by
    rfl
  exact ⟨read, options.stable looseOption _ read⟩

end GuildSandbox
