import GuildSandbox.Value.Display

set_option autoImplicit false
set_option relaxedAutoImplicit false

namespace GuildSandbox.Script

inductive Fault where
  /-- The script threw a value. -/
  | thrown (value : Value)
  /-- No function has the name and takes arguments of these types. -/
  | functionNotFound (signature : String)
  | variableNotFound (name : String)
  /-- No such property can be read. -/
  | unknownProperty (name typeName : String)
  /-- A property cannot be written. -/
  | unknownSetter (name typeName valueType : String)
  | indexNotFound (index : String)
  | arrayIndex (size : Nat) (index : Int)
  | stringIndex (size : Nat) (index : Int)
  | bitIndex (index : Int)
  /-- A value of the wrong type; `actual` may be left out. -/
  | typeMismatch (expected actual : String)
  /-- A value of the type cannot be indexed. -/
  | noIndexer (signature : String)
  | notIterable
  | constant (name : String)
  | methodOnConstant (name : String)
  | unboundThis
  | tooLarge (what : String)
  | arithmetic (detail : String)
  | stackOverflow
  | terminated
  deriving Inhabited

namespace Fault

def boundsMessage (what unit container : String) (size : Nat) (index : Int) : String :=
  what ++ " index " ++ toString index ++ " out of bounds: " ++
    match size with
    | 0 => container ++ " is empty"
    | 1 => "only 1 " ++ unit ++ " in " ++ container
    | n => "only " ++ toString n ++ " " ++ unit ++ "s in " ++ container

def message : Fault → String
  | .thrown value =>
    if value.fullDisplay = "" then "Runtime error" else "Runtime error: " ++ value.fullDisplay
  | .functionNotFound signature => "Function not found: " ++ signature
  | .variableNotFound name => "Variable not found: " ++ name
  | .unknownProperty name typeName =>
    "Unknown property '" ++ name ++ "' - a getter is not registered for type '" ++ typeName ++ "'"
  | .unknownSetter name typeName valueType =>
    "No writable property '" ++ name ++ "' - a setter is not registered for type '" ++
      typeName ++ "' to handle '" ++ valueType ++ "'"
  | .indexNotFound index => "Index not found: " ++ index
  | .arrayIndex size index => boundsMessage "Array" "element" "array" size index
  | .stringIndex size index => boundsMessage "String" "character" "string" size index
  | .bitIndex index =>
    "Bit-field index " ++ toString index ++ " out of bounds: only 64 bits in bit-field"
  | .typeMismatch expected "" => "Data type incorrect, expecting " ++ expected
  | .typeMismatch "" actual => "Data type incorrect: " ++ actual
  | .typeMismatch expected actual =>
    "Data type incorrect: " ++ actual ++ " (expecting " ++ expected ++ ")"
  | .noIndexer signature => "Indexer unavailable: " ++ signature
  | .notIterable => "For loop expects iterable type"
  | .constant name => "Cannot modify constant: " ++ name
  | .methodOnConstant name => "Non-pure method '" ++ name ++ "' cannot be called on a constant"
  | .unboundThis => "'this' not bound"
  | .tooLarge what => what ++ " too large"
  | .arithmetic detail => detail
  | .stackOverflow => "Stack overflow"
  | .terminated => "Script terminated"

def isCatchable : Fault → Bool
  | .tooLarge _ | .stackOverflow | .terminated => false
  | _ => true

end Fault

end GuildSandbox.Script
