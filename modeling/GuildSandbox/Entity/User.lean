import GuildSandbox.Json.Record

set_option autoImplicit false
set_option relaxedAutoImplicit false

namespace GuildSandbox

structure User where
  id : String := ""
  username : String := ""
  globalName : Option String := none
  discriminator : String := ""
  avatar : Option String := none
  bot : Bool := false
  deriving DecidableEq, Repr, Inhabited

namespace User

def mention (u : User) : String := "<@" ++ u.id ++ ">"

def displayName (u : User) : String := u.globalName.getD u.username

def toJson (u : User) : Json :=
  .obj (Json.always "id" (.str u.id) ++ Json.always "username" (.str u.username) ++
    Json.whenPresent "global_name" .str u.globalName ++
    Json.always "discriminator" (.str u.discriminator) ++
    Json.whenPresent "avatar" .str u.avatar ++ Json.always "bot" (.bool u.bot))

def ofJson? (j : Json) : Option User := do
  match ← j.recordFields? ["id", "username", "global_name", "discriminator", "avatar", "bot"] with
  | [id, username, globalName, discriminator, avatar, bot] =>
    return {
      id := ← Json.required Json.toStr? id
      username := ← Json.required Json.toStr? username
      globalName := ← Json.optional Json.toStr? globalName
      discriminator := ← Json.withDefault "" Json.toStr? discriminator
      avatar := ← Json.optional Json.toStr? avatar
      bot := ← Json.withDefault false Json.toBool? bot }
  | _ => none

end User

structure Member where
  user : User := {}
  nick : Option String := none
  roles : List String := []
  avatar : Option String := none
  joinedAt : Option String := none
  deriving DecidableEq, Repr, Inhabited

namespace Member

def displayName (m : Member) : String := m.nick.getD m.user.displayName

def toJson (m : Member) : Json :=
  .obj (Json.always "user" m.user.toJson ++ Json.whenPresent "nick" .str m.nick ++
    Json.always "roles" (.arr (m.roles.map .str)) ++ Json.whenPresent "avatar" .str m.avatar ++
    Json.whenPresent "joined_at" .str m.joinedAt)

def ofJson? (j : Json) : Option Member := do
  match ← j.recordFields? ["user", "nick", "roles", "avatar", "joined_at"] with
  | [user, nick, roles, avatar, joinedAt] =>
    return {
      user := ← Json.required User.ofJson? user
      nick := ← Json.optional Json.toStr? nick
      roles := ← Json.withDefault [] (Json.list Json.toStr?) roles
      avatar := ← Json.optional Json.toStr? avatar
      joinedAt := ← Json.optional Json.toStr? joinedAt }
  | _ => none

end Member

end GuildSandbox
