import GuildSandbox.Json.Printer
import GuildSandbox.Json.Reader
import GuildSandbox.Proofs.Text.Digits

set_option autoImplicit false
set_option relaxedAutoImplicit false

namespace GuildSandbox.Json

private theorem hexUnit?_control :
    ∀ n < 32, hexUnit? '0' '0' (Text.hexDigit (n / 16)) (Text.hexDigit (n % 16)) = some n := by
  decide

private theorem readString_escapeChar (c : Char) (acc rest : List Char) :
    readString acc (escapeChar c ++ rest) = readString (c :: acc) rest := by
  by_cases quote : c = '"'
  · subst quote; simp [escapeChar, readString, shortEscape?]
  by_cases slash : c = '\\'
  · subst slash; simp [escapeChar, readString, shortEscape?]
  by_cases lf : c = '\n'
  · subst lf; simp [escapeChar, readString, shortEscape?]
  by_cases cr : c = '\r'
  · subst cr; simp [escapeChar, readString, shortEscape?]
  by_cases tab : c = '\t'
  · subst tab; simp [escapeChar, readString, shortEscape?]
  by_cases back : c = '\x08'
  · subst back; simp [escapeChar, readString, shortEscape?]
  by_cases feed : c = '\x0c'
  · subst feed; simp [escapeChar, readString, shortEscape?]
  by_cases control : c.toNat < 32
  · have noLead : isLeadSurrogate c.toNat = false := by simp [isLeadSurrogate]; omega
    have noTrail : isTrailSurrogate c.toNat = false := by simp [isTrailSurrogate]; omega
    simp [escapeChar, quote, slash, lf, cr, tab, back, feed, control, readString,
      hexUnit?_control c.toNat control, noLead, noTrail]
  · simp [escapeChar, quote, slash, lf, cr, tab, back, feed, control, readString]

private theorem readString_escaped (cs acc rest : List Char) :
    readString acc (cs.flatMap escapeChar ++ '"' :: rest) =
      some (String.ofList (acc.reverse ++ cs), rest) := by
  induction cs generalizing acc with
  | nil => simp [readString]
  | cons c cs ih =>
    rw [List.flatMap_cons, List.append_assoc, readString_escapeChar, ih]
    simp

theorem readString_renderString (s : String) (rest : List Char) :
    ∃ cs, renderString s ++ rest = '"' :: cs ∧ readString [] cs = some (s, rest) := by
  refine ⟨s.toList.flatMap escapeChar ++ '"' :: rest, by simp [renderString], ?_⟩
  rw [readString_escaped]
  simp

def EndsNumber (rest : List Char) : Prop :=
  ∀ c, rest.head? = some c → Text.isDigit c = false ∧ c ≠ '.' ∧ c ≠ 'e' ∧ c ≠ 'E'

theorem endsNumber_nil : EndsNumber [] := by simp [EndsNumber]

private theorem takeDigits_append {cs ds rest tail : List Char} (taken : takeDigits cs = (ds, rest))
    (ends : EndsNumber tail) : takeDigits (cs ++ tail) = (ds, rest ++ tail) := by
  simp only [takeDigits, List.span_eq_takeWhile_dropWhile, Prod.mk.injEq] at taken
  obtain ⟨rfl, rfl⟩ := taken
  have stop : ∀ c, (cs.dropWhile Text.isDigit ++ tail).head? = some c →
      Text.isDigit c = false := by
    intro c head
    cases left : cs.dropWhile Text.isDigit with
    | nil =>
      rw [left] at head
      exact (ends c head).1
    | cons d left' =>
      rw [left] at head
      obtain rfl : d = c := by simpa using head
      have none := List.head?_dropWhile_not Text.isDigit cs
      rw [left] at none
      simpa using none
  conv_lhs =>
    rw [← List.takeWhile_append_dropWhile (p := Text.isDigit) (l := cs), List.append_assoc]
  exact Text.span_digits (List.all_eq_true.1 List.all_takeWhile) stop

private theorem readFraction_append {cs rest tail : List Char} {fraction : Option (List Char)}
    (read : readFraction cs = some (fraction, rest)) (ends : EndsNumber tail) :
    readFraction (cs ++ tail) = some (fraction, rest ++ tail) := by
  unfold readFraction at read
  split at read
  case h_1 cs =>
    obtain ⟨ds, left, taken⟩ : ∃ ds left, takeDigits cs = (ds, left) := ⟨_, _, rfl⟩
    simp only [taken] at read
    simp only [List.cons_append, readFraction, takeDigits_append taken ends]
    split at read
    · simp at read
    next nonempty =>
      obtain ⟨rfl, rfl⟩ := by simpa using read
      simp [nonempty]
  case h_2 point =>
    obtain ⟨rfl, rfl⟩ := by simpa using read
    unfold readFraction
    split
    case h_1 rest' text =>
      cases cs with
      | nil => exact absurd rfl (ends '.' (by rw [List.nil_append] at text; rw [text]; rfl)).2.1
      | cons c cs =>
        obtain ⟨rfl, -⟩ := by simpa using text
        exact absurd rfl (point cs)
    case h_2 => rfl

private theorem readSign_append {c : Char} {cs rest tail : List Char} {negative : Bool}
    (read : readSign (c :: cs) = (negative, rest)) :
    readSign (c :: cs ++ tail) = (negative, rest ++ tail) := by
  by_cases plus : c = '+'
  · subst plus
    obtain ⟨rfl, rfl⟩ : false = negative ∧ cs = rest := by simpa [readSign] using read
    rfl
  · by_cases minus : c = '-'
    · subst minus
      obtain ⟨rfl, rfl⟩ : true = negative ∧ cs = rest := by simpa [readSign] using read
      rfl
    · obtain ⟨rfl, rfl⟩ : false = negative ∧ c :: cs = rest := by
        simpa [readSign, plus, minus] using read
      simp [readSign, plus, minus]

private theorem readExponent_append {cs rest tail : List Char} {exponent : Option Int}
    (read : readExponent cs = some (exponent, rest)) (ends : EndsNumber tail) :
    readExponent (cs ++ tail) = some (exponent, rest ++ tail) := by
  cases cs with
  | nil =>
    obtain ⟨rfl, rfl⟩ : none = exponent ∧ [] = rest := by simpa [readExponent] using read
    cases tail with
    | nil => rfl
    | cons c tail =>
      obtain ⟨-, -, lower, upper⟩ := ends c rfl
      simp [readExponent, lower, upper]
  | cons c cs =>
    by_cases mark : c = 'e' ∨ c = 'E'
    · have marked : (decide (c = 'e') || decide (c = 'E')) = true := by simpa using mark
      obtain ⟨negative, left, sign⟩ : ∃ negative left, readSign cs = (negative, left) := ⟨_, _, rfl⟩
      obtain ⟨ds, left', taken⟩ : ∃ ds left', takeDigits left = (ds, left') := ⟨_, _, rfl⟩
      simp only [readExponent, marked, if_true, sign, taken] at read
      split at read
      · simp at read
      next nonempty =>
        -- without a character behind the mark there would be no digits
        have sign' : readSign (cs ++ tail) = (negative, left ++ tail) := by
          cases cs with
          | nil =>
            obtain ⟨-, rfl⟩ : false = negative ∧ [] = left := by simpa [readSign] using sign
            obtain ⟨rfl, -⟩ : [] = ds ∧ [] = left' := by simpa [takeDigits] using taken
            exact absurd rfl nonempty
          | cons d cs => exact readSign_append sign
        obtain ⟨rfl, rfl⟩ := by simpa using read
        simp [readExponent, mark, sign', takeDigits_append taken ends, nonempty]
    · simp only [not_or] at mark
      obtain ⟨rfl, rfl⟩ : none = exponent ∧ c :: cs = rest := by
        simpa [readExponent, mark.1, mark.2] using read
      simp [readExponent, mark.1, mark.2]

theorem readNumber_append {negative : Bool} {cs rest tail : List Char} {n : JsonNumber}
    (read : readNumber negative cs = some (n, rest)) (ends : EndsNumber tail) :
    readNumber negative (cs ++ tail) = some (n, rest ++ tail) := by
  obtain ⟨ds, left, taken⟩ : ∃ ds left, takeDigits cs = (ds, left) := ⟨_, _, rfl⟩
  simp only [readNumber, taken, takeDigits_append taken ends] at read ⊢
  split at read
  next whole =>
    obtain ⟨⟨fraction, left'⟩, first, read⟩ := Option.bind_eq_some_iff.1 read
    obtain ⟨⟨exponent, left''⟩, second, read⟩ := Option.bind_eq_some_iff.1 read
    obtain ⟨m, value, read⟩ := Option.bind_eq_some_iff.1 read
    obtain ⟨rfl, rfl⟩ : m = n ∧ left'' = rest := by simpa using read
    simp [whole, readFraction_append first ends, readExponent_append second ends, value]
  · simp at read

theorem exists_digit_of_readNumber {negative : Bool} {cs rest : List Char} {n : JsonNumber}
    (read : readNumber negative cs = some (n, rest)) :
    ∃ d cs', cs = d :: cs' ∧ Text.isDigit d = true := by
  cases cs with
  | nil => simp [readNumber, takeDigits, List.span_eq_takeWhile_dropWhile, isWhole] at read
  | cons d cs =>
    refine ⟨d, cs, rfl, ?_⟩
    by_contra digit
    simp [readNumber, takeDigits, List.span_eq_takeWhile_dropWhile, isWhole, digit] at read

end GuildSandbox.Json
