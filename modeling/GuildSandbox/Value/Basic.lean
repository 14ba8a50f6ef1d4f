import GuildSandbox.Interaction.Basic
import GuildSandbox.Store.Limits

set_option autoImplicit false
set_option relaxedAutoImplicit false

namespace GuildSandbox

/-- What a script sees of its host: the namespaces it may call, and snapshots of entities. -/
inductive View where
  | context
  | store (handle : StoreHandle)
  | savedMessages
  | command (command : CommandData)
  | user (user : User)
  | member (member : Member)
  | guild (guild : Guild)
  | channel (channel : Channel)
  | role (role : Role)
  | message (message : Message)
  | attachment (attachment : Attachment)
  | savedMessage (message : SavedMessage)
  deriving Inhabited

/-- What a function value carries beside a name: the definition of the function, and the cells of the
variables that it takes along. -/
inductive Carried where
  | definition
  | cell (number : Nat)
  deriving DecidableEq, Repr

inductive Value where
  | unit
  | bool (b : Bool)
  | int (n : Int64)
  | float (f : Float)
  | str (s : String)
  | char (c : Char)
  | array (items : List Value)
  | map (entries : List (String × Value))
  | blob (bytes : List UInt8)
  /-- A function. Where there is only its name, it is looked up when it is called. -/
  | fn (name : String) (carried : List Carried)
  | range (low high : Int64) (inclusive : Bool)
  | view (view : View)

namespace View

def scriptName : View → String
  | .context => "Context"
  | .store _ => "KV"
  | .savedMessages => "Internal"
  | .command _ => "Command"
  | .user _ => "User"
  | .member _ => "Member"
  | .guild _ => "Guild"
  | .channel _ => "Channel"
  | .role _ => "Role"
  | .message _ => "Message"
  | .attachment _ => "Attachment"
  | .savedMessage _ => "SavedMessage"

def typeName : View → String
  | .context => "guild_scripts::capabilities::context::ContextNamespace"
  | .store _ => "guild_scripts::capabilities::kv::KvNamespace"
  | .savedMessages => "guild_scripts::capabilities::internal::InternalNamespace"
  | .command _ => "guild_scripts::capabilities::context::CommandView"
  | .user _ => "guild_scripts::capabilities::entities::UserView"
  | .member _ => "guild_scripts::capabilities::entities::MemberView"
  | .guild _ => "guild_scripts::capabilities::entities::GuildView"
  | .channel _ => "guild_scripts::capabilities::entities::ChannelView"
  | .role _ => "guild_scripts::capabilities::entities::RoleView"
  | .message _ => "guild_scripts::capabilities::entities::MessageView"
  | .attachment _ => "guild_scripts::capabilities::entities::AttachmentView"
  | .savedMessage _ => "guild_scripts::capabilities::internal::SavedMessageView"

end View

def Carried.cells (carried : List Carried) : List Nat :=
  carried.filterMap fun c => match c with
    | .cell number => some number
    | .definition => none

namespace Value

instance : Inhabited Value := ⟨.unit⟩

def typeName : Value → String
  | .unit => "()"
  | .bool _ => "bool"
  | .int _ => "i64"
  | .float _ => "f64"
  | .str _ => "string"
  | .char _ => "char"
  | .array _ => "array"
  | .map _ => "map"
  | .blob _ => "blob"
  | .fn _ _ => "Fn"
  | .range _ _ false => "core::ops::range::Range<i64>"
  | .range _ _ true => "core::ops::range::RangeInclusive<i64>"
  | .view v => v.typeName

def scriptTypeName : Value → String
  | .range _ _ false => "range"
  | .range _ _ true => "range="
  | .view v => v.scriptName
  | v => v.typeName

def ofText? : Option String → Value
  | some s => .str s
  | none => .unit

def ofView? : Option View → Value
  | some v => .view v
  | none => .unit

end Value

end GuildSandbox
