import GuildSandbox.Entity.User

set_option autoImplicit false
set_option relaxedAutoImplicit false

namespace GuildSandbox

structure Attachment where
  id : String := ""
  filename : String := ""
  url : String := ""
  size : UInt64 := 0
  contentType : Option String := none
  deriving DecidableEq, Repr, Inhabited

namespace Attachment

def toJson (a : Attachment) : Json :=
  .obj (Json.always "id" (.str a.id) ++ Json.always "filename" (.str a.filename) ++
    Json.always "url" (.str a.url) ++ Json.always "size" (Json.ofUInt64 a.size) ++
    Json.whenPresent "content_type" .str a.contentType)

def ofJson? (j : Json) : Option Attachment := do
  match ← j.recordFields? ["id", "filename", "url", "size", "content_type"] with
  | [id, filename, url, size, contentType] =>
    return {
      id := ← Json.required Json.toStr? id
      filename := ← Json.required Json.toStr? filename
      url := ← Json.withDefault "" Json.toStr? url
      size := ← Json.withDefault 0 Json.uint64 size
      contentType := ← Json.optional Json.toStr? contentType }
  | _ => none

end Attachment

structure Message where
  id : String := ""
  channelId : String := ""
  guildId : Option String := none
  author : User := {}
  content : String := ""
  embeds : List Json := []
  attachments : List Attachment := []
  timestamp : Option String := none
  deriving DecidableEq, Inhabited

namespace Message

def toJson (m : Message) : Json :=
  .obj (Json.always "id" (.str m.id) ++ Json.always "channel_id" (.str m.channelId) ++
    Json.whenPresent "guild_id" .str m.guildId ++ Json.always "author" m.author.toJson ++
    Json.always "content" (.str m.content) ++ Json.always "embeds" (.arr m.embeds) ++
    Json.always "attachments" (.arr (m.attachments.map Attachment.toJson)) ++
    Json.whenPresent "timestamp" .str m.timestamp)

def ofJson? (j : Json) : Option Message := do
  match ← j.recordFields?
    ["id", "channel_id", "guild_id", "author", "content", "embeds", "attachments",
      "timestamp"] with
  | [id, channelId, guildId, author, content, embeds, attachments, timestamp] =>
    return {
      id := ← Json.required Json.toStr? id
      channelId := ← Json.required Json.toStr? channelId
      guildId := ← Json.optional Json.toStr? guildId
      author := ← Json.withDefault {} User.ofJson? author
      content := ← Json.withDefault "" Json.toStr? content
      embeds := ← Json.withDefault [] (Json.list Json.anything) embeds
      attachments := ← Json.withDefault [] (Json.list Attachment.ofJson?) attachments
      timestamp := ← Json.optional Json.toStr? timestamp }
  | _ => none

end Message

structure SavedMessage where
  id : String := ""
  guildId : Option String := none
  name : String := ""
  description : Option String := none
  data : Json := .null
  deriving DecidableEq, Inhabited

namespace SavedMessage

def toJson (m : SavedMessage) : Json :=
  .obj (Json.always "id" (.str m.id) ++ Json.whenPresent "guild_id" .str m.guildId ++
    Json.always "name" (.str m.name) ++ Json.whenPresent "description" .str m.description ++
    Json.always "data" m.data)

def ofJson? (j : Json) : Option SavedMessage := do
  match ← j.recordFields? ["id", "guild_id", "name", "description", "data"] with
  | [id, guildId, name, description, data] =>
    return {
      id := ← Json.required Json.toStr? id
      guildId := ← Json.optional Json.toStr? guildId
      name := ← Json.required Json.toStr? name
      description := ← Json.optional Json.toStr? description
      data := ← Json.withDefault .null Json.anything data }
  | _ => none

end SavedMessage

end GuildSandbox
