import GuildSandbox.Number.Shortest
import GuildSandbox.Text.Quoted
import GuildSandbox.Value.Basic

set_option autoImplicit false
set_option relaxedAutoImplicit false

namespace GuildSandbox.Value

def intText (n : Int64) : String := toString n.toInt

def greatestPlainFloat : Float := 9999999827968.0

/-- Floats below this magnitude are displayed with an exponent, zero apart. -/
def leastPlainFloat : Float := Float.ofScientific 10000000116860974 true 23

def needsExponent (f : Float) : Bool := greatestPlainFloat < f.abs || f.abs < leastPlainFloat

def floatText (f : Float) : String :=
  String.ofList <|
    match Number.Binary64.parts? f with
    | none => Number.writeFloat ⟨0, 0, false⟩ f
    | some p =>
      if p.mantissa = 0 then "0.0".toList
      else
        let sign := if p.negative then ['-'] else []
        let digits := p.shortest
        sign ++ if needsExponent f then digits.scientific false else digits.plain

/-- Floats inside containers are written positionally from a ten-thousandth up to sixteen
places before the point. -/
def containedFloat : Number.FloatLayout := ⟨-4, 15, false⟩

def rangeText (low high : Int64) (inclusive : Bool) : String :=
  intText low ++ (if inclusive then "..=" else "..") ++ intText high

mutual

def inspect (viewName : View → String) : Value → String
  | .unit => "()"
  | .bool b => if b then "true" else "false"
  | .int n => intText n
  | .float f => String.ofList (Number.writeFloat containedFloat f)
  | .str s => String.ofList (Text.quoted '"' s.toList)
  | .char c => String.ofList (Text.quoted '\'' [c])
  | .array items => "[" ++ inspectItems viewName items ++ "]"
  | .map entries => "#\x7b" ++ inspectEntries viewName entries ++ "\x7d"
  | .blob bytes => "[" ++ String.join (bytes.map fun b => String.ofList
      [Text.hexDigit (b.toNat / 16), Text.hexDigit (b.toNat % 16)]) ++ "]"
  | .fn name _ => "Fn(" ++ name ++ ")"
  | .range low high inclusive => rangeText low high inclusive
  | .view v => viewName v

def inspectItems (viewName : View → String) : List Value → String
  | [] => ""
  | [item] => inspect viewName item
  | item :: rest => inspect viewName item ++ ", " ++ inspectItems viewName rest

def inspectEntries (viewName : View → String) : List (String × Value) → String
  | [] => ""
  | [(key, item)] => String.ofList (Text.quoted '"' key.toList) ++ ": " ++ inspect viewName item
  | (key, item) :: rest =>
    String.ofList (Text.quoted '"' key.toList) ++ ": " ++ inspect viewName item ++ ", " ++
      inspectEntries viewName rest

end

def displayWith (viewName : View → String) : Value → String
  | .unit => ""
  | .str s => s
  | .char c => c.toString
  | .float f => floatText f
  | v => v.inspect viewName

def display (v : Value) : String := v.displayWith View.scriptName

def fullDisplay (v : Value) : String := v.displayWith View.typeName

end GuildSandbox.Value
