import GuildSandbox.Text.Blank
import GuildSandbox.Time.Instant

/-!
Instants as RFC 3339 text.

Written in universal time with `Z`, and a fraction of three, six or nine digits when it is not
zero; years outside four digits carry a sign. Read with any offset below a day, a blank in place of
`T`, blanks before the numbers and before `-`, `:` and the offset, and the word `UTC`.
-/

set_option autoImplicit false
set_option relaxedAutoImplicit false

namespace GuildSandbox.Time

structure Clock where
  hour : Nat
  minute : Nat
  second : Nat
  deriving DecidableEq, Repr

def Clock.Valid (c : Clock) : Prop := c.hour < 24 ∧ c.minute < 60 ∧ c.second ≤ 60

instance (c : Clock) : Decidable c.Valid := by unfold Clock.Valid; infer_instance

/-- The seconds since midnight; a leap second counts with the one before it. -/
def Clock.seconds (c : Clock) : Nat :=
  c.hour * 3600 + c.minute * 60 + if c.second = 60 then 59 else c.second

def padded (width : Nat) (n : Nat) : List Char :=
  let ds := Nat.toDigits 10 n
  List.replicate (width - ds.length) '0' ++ ds

def renderYear (year : Int) : List Char :=
  if 0 ≤ year ∧ year ≤ 9999 then padded 4 year.natAbs
  else (if year < 0 then '-' else '+') :: padded 4 year.natAbs

def renderFraction (nanos : Nat) : List Char :=
  if nanos = 0 then []
  else if nanos % 1000000 = 0 then '.' :: padded 3 (nanos / 1000000)
  else if nanos % 1000 = 0 then '.' :: padded 6 (nanos / 1000)
  else '.' :: padded 9 nanos

/-- Hour, minute and second of an instant. A leap second is second sixty of its minute. -/
def Instant.clock (t : Instant) : Clock :=
  let second := (t.seconds - t.seconds.fdiv 86400 * 86400).toNat
  { hour := second / 3600, minute := second / 60 % 60
    second := second % 60 + if 1000000000 ≤ t.nanos then 1 else 0 }

def Instant.fraction (t : Instant) : Nat :=
  if 1000000000 ≤ t.nanos then t.nanos - 1000000000 else t.nanos

def renderDate (d : Date) : List Char :=
  renderYear d.year ++ '-' :: padded 2 d.month ++ '-' :: padded 2 d.day

def renderClock (c : Clock) : List Char :=
  padded 2 c.hour ++ ':' :: padded 2 c.minute ++ ':' :: padded 2 c.second

def Instant.render (t : Instant) : List Char :=
  renderDate t.date ++ 'T' :: renderClock t.clock ++ renderFraction t.fraction ++ ['Z']

def Instant.toText (t : Instant) : String := String.ofList t.render

def readNumber (limit : Nat) (cs : List Char) : Option (Nat × List Char) :=
  let cs := Text.trimStart cs
  let digits := (cs.take limit).takeWhile Text.isDigit
  if digits.isEmpty then none else some (Text.digitsValue digits, cs.drop digits.length)

def readYear (cs : List Char) : Option (Int × List Char) :=
  match Text.trimStart cs with
  | '-' :: rest => (unblanked rest).map fun (n, rest) => (-(n : Int), rest)
  | '+' :: rest => (unblanked rest).map fun (n, rest) => ((n : Int), rest)
  | rest => (readNumber 4 rest).map fun (n, rest) => ((n : Int), rest)
where
  /-- Digits that follow at once. -/
  unblanked (rest : List Char) : Option (Nat × List Char) :=
    if (rest.head?.map Text.isDigit).getD false then readNumber rest.length rest else none

def readMark (mark : Char) (cs : List Char) : Option (List Char) :=
  match Text.trimStart cs with
  | c :: rest => if c = mark then some rest else none
  | [] => none

def readFraction (cs : List Char) : Option (Nat × List Char) :=
  match cs with
  | '.' :: rest =>
    let digits := rest.takeWhile Text.isDigit
    if digits.isEmpty then none
    else
      let kept := digits.take 9
      some (Text.digitsValue kept * Nat.pow 10 (9 - kept.length), rest.drop digits.length)
  | _ => some (0, cs)

def readOffset (cs : List Char) : Option (Int × List Char) :=
  match cs with
  | 'Z' :: rest => some (0, rest)
  | 'z' :: rest => some (0, rest)
  | sign :: h1 :: h2 :: rest =>
    if (sign = '+' || sign = '-' || sign = '\u2212') && Text.isDigit h1 && Text.isDigit h2 then
      match rest.dropWhile fun c => c = ':' || Text.isBlank c with
      | m1 :: m2 :: rest =>
        if Text.isDigit m1 && Text.isDigit m2 && m1 < '6' then
          let seconds : Int :=
            Text.digitsValue [h1, h2] * 3600 + Text.digitsValue [m1, m2] * 60
          if seconds < 86400 then some (if sign = '+' then seconds else -seconds, rest) else none
        else none
      | _ => none
    else none
  | _ => none

def readZone (cs : List Char) : Option (Int × List Char) :=
  match cs with
  | a :: b :: c :: rest =>
    if a.toUpper = 'U' && b.toUpper = 'T' && c.toUpper = 'C' then some (0, rest) else readOffset cs
  | _ => readOffset cs

def readDate (cs : List Char) : Option (Date × List Char) := do
  let (year, cs) ← readYear cs
  let cs ← readMark '-' cs
  let (month, cs) ← readNumber 2 cs
  let cs ← readMark '-' cs
  let (day, cs) ← readNumber 2 cs
  return ({ year := year, month := month, day := day }, cs)

def readSeparator : List Char → Option (List Char)
  | c :: rest => if c = 'T' || c = 't' || c = ' ' then some rest else none
  | [] => none

def readClock (cs : List Char) : Option (Clock × List Char) := do
  let (hour, cs) ← readNumber 2 cs
  let cs ← readMark ':' cs
  let (minute, cs) ← readNumber 2 cs
  let cs ← readMark ':' cs
  let (second, cs) ← readNumber 2 cs
  return ({ hour := hour, minute := minute, second := second }, cs)

def Instant.ofFields? (date : Date) (clock : Clock) (nanos : Nat) (offset : Int) :
    Option Instant :=
  if date.Valid ∧ clock.Valid then
    let localSeconds := date.dayNumber * 86400 + clock.seconds
    let seconds := localSeconds - offset
    if Instant.inRange localSeconds && Instant.inRange seconds then
      some { seconds := seconds, nanos := nanos + if clock.second = 60 then 1000000000 else 0 }
    else none
  else none

def Instant.ofText? (text : String) : Option Instant := do
  let (date, cs) ← readDate text.toList
  let cs ← readSeparator cs
  let (clock, cs) ← readClock cs
  let (nanos, cs) ← readFraction cs
  let (offset, cs) ← readZone (Text.trimStart cs)
  if (Text.trimStart cs).isEmpty then Instant.ofFields? date clock nanos offset else none

end GuildSandbox.Time
