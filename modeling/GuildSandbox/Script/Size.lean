import GuildSandbox.Script.Fault
import GuildSandbox.Script.Limits
import GuildSandbox.Value.Size

set_option autoImplicit false
set_option relaxedAutoImplicit false

namespace GuildSandbox.Script.Limits

def sizeFault? (limits : Limits) (s : Sizes) : Option Fault :=
  if exceeds s.bytes limits.maxStringSize then some (.tooLarge "Length of string")
  else if exceeds s.items limits.maxArraySize then some (.tooLarge "Size of array/BLOB")
  else if exceeds s.entries limits.maxMapSize then some (.tooLarge "Size of object map")
  else none

def accept (limits : Limits) (v : Value) : Except Fault Value :=
  match limits.sizeFault? v.sizes with
  | some fault => .error fault
  | none => .ok v

end GuildSandbox.Script.Limits
