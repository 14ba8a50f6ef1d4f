import GuildSandbox.Json.Record
import GuildSandbox.Json.Skip
import GuildSandbox.Time.Rfc3339

set_option autoImplicit false
set_option relaxedAutoImplicit false

namespace GuildSandbox

open Time (Instant)

structure Entry where
  guild : String
  key : String
  value : String
  expiresAt : Option Instant := none
  createdAt : Instant
  updatedAt : Instant
  deriving DecidableEq, Repr, Inhabited

namespace Entry

def isExpired (e : Entry) (now : Instant) : Bool :=
  match e.expiresAt with
  | some t => t ≤ now
  | none => false

def isLive (e : Entry) (now : Instant) : Bool := !e.isExpired now

def toJson (e : Entry) : Json :=
  .obj (Json.always "guild_id" (.str e.guild) ++ Json.always "key" (.str e.key) ++
    Json.always "value" (.str e.value) ++
    Json.whenPresent "expires_at" (fun t => .str t.toText) e.expiresAt ++
    Json.always "created_at" (.str e.createdAt.toText) ++
    Json.always "updated_at" (.str e.updatedAt.toText))

def instant? (j : Json) : Option Instant := j.toStr? >>= Instant.ofText?

def fieldNames : List String :=
  ["guild_id", "key", "value", "expires_at", "created_at", "updated_at"]

def ofJson? (j : Json) : Option Entry := do
  match ← j.recordFields? fieldNames with
  | [guild, key, value, expiresAt, createdAt, updatedAt] =>
    return {
      guild := ← Json.required Json.toStr? guild
      key := ← Json.required Json.toStr? key
      value := ← Json.required Json.toStr? value
      expiresAt := ← Json.optional instant? expiresAt
      createdAt := ← Json.required instant? createdAt
      updatedAt := ← Json.required instant? updatedAt }
  | _ => none

def ofText? (text : String) : Option Entry := Json.parseRecord? fieldNames text >>= ofJson?

end Entry

end GuildSandbox
