import Mathlib.Data.List.TakeWhile
import GuildSandbox.Proofs.Json.Literal
import GuildSandbox.Proofs.Number.Shortest

set_option autoImplicit false
set_option relaxedAutoImplicit false

namespace GuildSandbox

namespace Number

private theorem dropTrailingZeros_append (ds : List Char) :
    ∃ zeros, ds = dropTrailingZeros ds ++ List.replicate zeros '0' := by
  obtain ⟨zeros, tail⟩ : ∃ zeros, ds.reverse.takeWhile (· = '0') = List.replicate zeros '0' :=
    ⟨_, List.eq_replicate_of_mem fun c member => by
      simpa using List.mem_takeWhile_imp member⟩
  have split := List.takeWhile_append_dropWhile (p := (· = '0')) (l := ds.reverse)
  refine ⟨zeros, ?_⟩
  rw [← List.reverse_inj, ← split, tail, dropTrailingZeros]
  simp

namespace Decimal

variable {d : Decimal}

def value (d : Decimal) : ℚ :=
  Text.digitsValue d.digits * 10 ^ (d.exponent + 1 - d.digits.length)

structure Proper (d : Decimal) : Prop where
  digits : ∀ c ∈ d.digits, Text.isDigit c = true
  nonempty : d.digits ≠ []
  leading : d.digits.head? ≠ some '0'

end Decimal

private theorem Binary64.Parts.takes_shortest {p : Parts} (normal : p.Normal)
    (nonzero : p.mantissa ≠ 0) :
    p.shortest.Proper ∧ p.Takes p.shortest.value := by
  have takes := takes_search normal nonzero
  obtain ⟨n, k, found⟩ : ∃ n k, p.rounding.search 20 p.rounding.startExponent = (n, k) := ⟨_, _, rfl⟩
  have shortest : p.shortest = ⟨dropTrailingZeros (Nat.toDigits 10 n),
      k + ((Nat.toDigits 10 n).length : Int) - 1⟩ := by
    rw [Parts.shortest, found]
  rw [found] at takes
  have positive : n ≠ 0 := by
    rintro rfl
    simpa using takes.pos nonzero
  obtain ⟨zeros, split⟩ := dropTrailingZeros_append (Nat.toDigits 10 n)
  have count := congrArg List.length split
  have number := Text.digitsValue_toDigits n
  have leading := Text.head?_toDigits_ne_zero (Nat.pos_of_ne_zero positive)
  have digits : ∀ c ∈ Nat.toDigits 10 n, Text.isDigit c = true := fun _ => Text.isDigit_of_mem_toDigits
  generalize Nat.toDigits 10 n = ds at shortest split count number leading digits
  generalize dropTrailingZeros ds = kept at shortest split count
  rw [List.length_append, List.length_replicate] at count
  rw [split, Text.digitsValue_append_zeros] at number
  have nonempty : kept ≠ [] := by
    rintro rfl
    rw [Text.digitsValue, List.foldl_nil, Nat.zero_mul] at number
    exact positive number.symm
  obtain ⟨c, cs, rfl⟩ := List.exists_cons_of_ne_nil nonempty
  rw [shortest]
  refine ⟨⟨fun c member => digits c (split ▸ List.mem_append_left _ member), nonempty, ?_⟩, ?_⟩
  · rw [split] at leading
    exact leading
  · have place : (k + (ds.length : Int) - 1 + 1 - ((c :: cs).length : Int)) = k + zeros := by omega
    rw [Decimal.value]
    simp only
    rw [place, zpow_add₀ (by norm_num), zpow_natCast, mul_comm (10 ^ k), ← mul_assoc]
    rw [← number] at takes
    push_cast at takes
    exact takes

end Number

namespace Json

open Number (Decimal)

variable {whole fraction tail : List Char} {negative : Bool} {d : Decimal}

private theorem takeDigits_digits (digits : ∀ c ∈ whole, Text.isDigit c = true)
    (stop : ∀ c, tail.head? = some c → Text.isDigit c = false) :
    takeDigits (whole ++ tail) = (whole, tail) :=
  Text.span_digits digits stop

private theorem takeDigits_all (digits : ∀ c ∈ whole, Text.isDigit c = true) :
    takeDigits whole = (whole, []) := by
  have alone := takeDigits_digits digits (by simp : ∀ c, ([] : List Char).head? = some c →
    Text.isDigit c = false)
  rwa [List.append_nil] at alone

private theorem readFraction_digits (digits : ∀ c ∈ fraction, Text.isDigit c = true)
    (nonempty : fraction ≠ []) (stop : ∀ c, tail.head? = some c → Text.isDigit c = false) :
    readFraction ('.' :: (fraction ++ tail)) = some (some fraction, tail) := by
  simp [readFraction, takeDigits_digits digits stop, nonempty]

private def exponentText (plusSign : Bool) (e : Int) : List Char :=
  'e' :: ((if e < 0 then ['-'] else if plusSign then ['+'] else []) ++ Nat.toDigits 10 e.natAbs)

private theorem readExponent_exponentText (plusSign : Bool) (e : Int) :
    readExponent (exponentText plusSign e) = some (some e, []) := by
  have nonempty : Nat.toDigits 10 e.natAbs ≠ [] := Nat.toDigits_ne_nil
  have digits : ∀ c ∈ Nat.toDigits 10 e.natAbs, Text.isDigit c = true :=
    fun _ => Text.isDigit_of_mem_toDigits
  have taken : takeDigits (Nat.toDigits 10 e.natAbs) = (Nat.toDigits 10 e.natAbs, []) :=
    takeDigits_all digits
  have value := Text.digitsValue_toDigits e.natAbs
  have unsigned : readSign (Nat.toDigits 10 e.natAbs) = (false, Nat.toDigits 10 e.natAbs) := by
    obtain ⟨c, cs, text⟩ := List.exists_cons_of_ne_nil nonempty
    have digit := digits c (by rw [text]; exact List.mem_cons_self)
    rw [text, readSign]
    · rintro rest ⟨⟩
      exact absurd digit (by decide)
    · rintro rest ⟨⟩
      exact absurd digit (by decide)
  rw [exponentText]
  split
  next below =>
    have sign : -(e.natAbs : Int) = e := by omega
    simp [readExponent, readSign, taken, nonempty, value, sign, -Nat.cast_natAbs]
  next above =>
    have sign : (e.natAbs : Int) = e := by omega
    cases plusSign
    · simp [readExponent, unsigned, taken, nonempty, value, sign, -Nat.cast_natAbs]
    · simp [readExponent, readSign, taken, nonempty, value, sign, -Nat.cast_natAbs]

/-- What is read of a text are digits before and after the point and an exponent, which denote the
number. -/
private def Reads (negative : Bool) (text : List Char) (x : ℚ) : Prop :=
  ∃ whole fraction e, readNumber negative text =
      (floatNumber? negative whole fraction e).map (·, []) ∧
    Text.digitsValue (whole ++ fraction) * (10 : ℚ) ^ (e - fraction.length) = x

private theorem reads_parts {rest : List Char} {fraction? : Option (List Char)} {exponent? : Option Int}
    {e : Int} (digits : ∀ c ∈ whole, Text.isDigit c = true) (proper : isWhole whole = true)
    (stop : ∀ c, tail.head? = some c → Text.isDigit c = false)
    (first : readFraction tail = some (fraction?, rest))
    (second : readExponent rest = some (exponent?, []))
    (literal : literalNumber? negative whole fraction? exponent? =
      floatNumber? negative whole fraction e) :
    Reads negative (whole ++ tail)
      (Text.digitsValue (whole ++ fraction) * (10 : ℚ) ^ (e - fraction.length)) := by
  refine ⟨whole, fraction, e, ?_, rfl⟩
  simp only [readNumber, takeDigits_digits digits stop, proper, if_true, first, second, literal,
    Option.bind_eq_bind, Option.bind_some]
  cases floatNumber? negative whole fraction e <;> rfl

private theorem isWhole_cons {c : Char} {cs : List Char} (leading : c ≠ '0') :
    isWhole (c :: cs) = true := by
  simp [isWhole, leading]

private theorem digitsValue_cast (cs : List Char) (zeros : Nat) :
    (Text.digitsValue (cs ++ List.replicate zeros '0') : ℚ) = Text.digitsValue cs * 10 ^ (zeros : ℤ) := by
  rw [Text.digitsValue_append_zeros, zpow_natCast]
  push_cast
  rfl

private theorem head?_exponentText (plusSign : Bool) (e : Int) :
    ∀ c, (exponentText plusSign e).head? = some c → Text.isDigit c = false := by
  rintro c ⟨⟩
  decide

private theorem reads_scientific (proper : d.Proper) (plusSign : Bool) :
    Reads negative (d.scientific plusSign) d.value := by
  obtain ⟨digits, exponent⟩ := d
  obtain ⟨isDigits, nonempty, leading⟩ := proper
  obtain ⟨c, cs, rfl⟩ := List.exists_cons_of_ne_nil nonempty
  have nonzero : c ≠ '0' := by simpa using leading
  have first : ∀ d ∈ [c], Text.isDigit d = true := by simpa using isDigits c List.mem_cons_self
  have stop := head?_exponentText plusSign exponent
  have last := readExponent_exponentText plusSign exponent
  cases cs with
  | nil =>
    have text : Decimal.scientific plusSign ⟨[c], exponent⟩ = [c] ++ exponentText plusSign exponent :=
      rfl
    have blank : readFraction (exponentText plusSign exponent) =
      some (none, exponentText plusSign exponent) := rfl
    have literal : literalNumber? negative [c] none (some exponent) =
      floatNumber? negative [c] [] exponent := rfl
    have read := reads_parts first (isWhole_cons nonzero) stop blank last literal
    rw [text]
    simpa [Decimal.value] using read
  | cons c' cs =>
    have text : Decimal.scientific plusSign ⟨c :: c' :: cs, exponent⟩ =
        [c] ++ '.' :: ((c' :: cs) ++ exponentText plusSign exponent) := rfl
    have point := readFraction_digits
      (fun d member => isDigits d (List.mem_cons_of_mem c member)) (List.cons_ne_nil c' cs) stop
    have literal : literalNumber? negative [c] (some (c' :: cs)) (some exponent) =
      floatNumber? negative [c] (c' :: cs) exponent := rfl
    have read := reads_parts first (isWhole_cons nonzero) (by simp; decide) point last literal
    have place : exponent + 1 - ((c :: c' :: cs).length : Int) = exponent - (c' :: cs).length := by
      simp only [List.length_cons]
      omega
    rw [text, Decimal.value, place]
    exact read

private theorem reads_point (wholeDigits : ∀ c ∈ whole, Text.isDigit c = true)
    (fractionDigits : ∀ c ∈ fraction, Text.isDigit c = true) (nonempty : fraction ≠ [])
    (proper : isWhole whole = true) : Reads negative (whole ++ '.' :: fraction)
      (Text.digitsValue (whole ++ fraction) * (10 : ℚ) ^ (0 - fraction.length : ℤ)) := by
  have stop : ∀ c, ([] : List Char).head? = some c → Text.isDigit c = false := by simp
  have point := readFraction_digits fractionDigits nonempty stop
  rw [List.append_nil] at point
  have literal : literalNumber? negative whole (some fraction) none =
    floatNumber? negative whole fraction 0 := rfl
  exact reads_parts wholeDigits proper (by simp; decide) point rfl literal

private theorem isDigit_of_mem_zeros (zeros : Nat) :
    ∀ c ∈ List.replicate zeros '0', Text.isDigit c = true := by
  intro c member
  rw [List.eq_of_mem_replicate member]
  decide

variable {digits : List Char} {n : Nat} {exponent : Int}

private theorem reads_plain_inside (proper : Decimal.Proper ⟨digits, n⟩) (long : n + 1 < digits.length) :
    Reads negative (Decimal.plain ⟨digits, n⟩) (Decimal.value ⟨digits, n⟩) := by
  obtain ⟨isDigits, nonempty, leading⟩ := proper
  obtain ⟨c, cs, rfl⟩ := List.exists_cons_of_ne_nil nonempty
  have nonzero : c ≠ '0' := by simpa using leading
  have room : n + 1 - (c :: cs).length = 0 := by omega
  have rest : (c :: cs).drop (n + 1) ≠ [] := by simpa using long
  have read : Reads negative ((c :: cs).take (n + 1) ++ '.' :: (c :: cs).drop (n + 1)) _ :=
    reads_point (fun d member => isDigits d (List.mem_of_mem_take member))
      (fun d member => isDigits d (List.mem_of_mem_drop member)) rest (isWhole_cons nonzero)
  rw [List.take_append_drop, List.length_drop] at read
  have place : ((n : Int) + 1 - (c :: cs).length) = 0 - ((c :: cs).length - (n + 1) : Nat) := by
    omega
  have fraction : ((c :: cs).drop (n + 1)).isEmpty = false := by simpa using rest
  rw [Decimal.plain, if_pos (Int.natCast_nonneg n)]
  simp only [Decimal.value, Int.toNat_natCast, room, List.replicate_zero, List.append_nil, fraction,
    place]
  exact read

private theorem reads_plain_padded (proper : Decimal.Proper ⟨digits, n⟩)
    (short : digits.length ≤ n + 1) :
    Reads negative (Decimal.plain ⟨digits, n⟩) (Decimal.value ⟨digits, n⟩) := by
  obtain ⟨isDigits, nonempty, leading⟩ := proper
  obtain ⟨c, cs, rfl⟩ := List.exists_cons_of_ne_nil nonempty
  have nonzero : c ≠ '0' := by simpa using leading
  obtain ⟨padded, pad⟩ : ∃ padded, padded = cs ++ List.replicate (n + 1 - (c :: cs).length) '0' :=
    ⟨_, rfl⟩
  have length : (c :: padded).length = n + 1 := by
    rw [pad, ← List.cons_append, List.length_append, List.length_replicate]
    omega
  have wholeDigits : ∀ d ∈ c :: padded, Text.isDigit d = true := by
    rw [pad, ← List.cons_append]
    exact fun d member => (List.mem_append.1 member).elim (isDigits d) (isDigit_of_mem_zeros _ d)
  have read : Reads negative (c :: padded ++ '.' :: ['0']) _ :=
    reads_point wholeDigits (isDigit_of_mem_zeros 1) (List.cons_ne_nil _ _)
      (isWhole_cons nonzero)
  have value : (Text.digitsValue (c :: padded ++ ['0']) : ℚ) * 10 ^ (0 - (['0'].length : Int)) =
      Text.digitsValue (c :: cs) * 10 ^ ((n : Int) + 1 - (c :: cs).length) := by
    have place : ((n : Int) + 1 - (c :: cs).length) = (n + 1 - (c :: cs).length : Nat) := by omega
    have last := digitsValue_cast (c :: padded) 1
    have whole := digitsValue_cast (c :: cs) (n + 1 - (c :: cs).length)
    rw [List.cons_append, ← pad] at whole
    change (Text.digitsValue (c :: padded ++ ['0']) : ℚ) = _ at last
    rw [last, whole, place]
    simp
  rw [value] at read
  have taken : (c :: padded).take (n + 1) = c :: padded := List.take_of_length_le length.le
  have left : (c :: padded).drop (n + 1) = [] := List.drop_eq_nil_of_le length.le
  rw [Decimal.plain, if_pos (Int.natCast_nonneg n)]
  simp only [Decimal.value, Int.toNat_natCast, List.cons_append, ← pad, taken, left,
    List.isEmpty_nil, if_true]
  exact read

private theorem reads_plain_below (proper : Decimal.Proper ⟨digits, exponent⟩)
    (below : ¬ 0 ≤ exponent) :
    Reads negative (Decimal.plain ⟨digits, exponent⟩) (Decimal.value ⟨digits, exponent⟩) := by
  obtain ⟨isDigits, nonempty, -⟩ := proper
  have fractionDigits : ∀ c ∈ List.replicate ((-exponent).toNat - 1) '0' ++ digits,
      Text.isDigit c = true := fun c member =>
    (List.mem_append.1 member).elim (isDigit_of_mem_zeros _ c) (isDigits c)
  have filled : List.replicate ((-exponent).toNat - 1) '0' ++ digits ≠ [] :=
    List.append_ne_nil_of_right_ne_nil _ nonempty
  have read : Reads negative _ _ :=
    reads_point (isDigit_of_mem_zeros 1) fractionDigits filled rfl
  rw [← List.append_assoc, ← List.replicate_add, Text.digitsValue_zeros_append] at read
  have place : (exponent + 1 - digits.length : Int) =
      0 - (List.replicate ((-exponent).toNat - 1) '0' ++ digits).length := by
    rw [List.length_append, List.length_replicate]
    omega
  rw [Decimal.value, Decimal.plain, if_neg below]
  simp only [place]
  exact read

private theorem reads_plain (proper : d.Proper) : Reads negative d.plain d.value := by
  obtain ⟨digits, exponent⟩ := d
  by_cases up : 0 ≤ exponent
  · obtain ⟨n, rfl⟩ := Int.eq_ofNat_of_zero_le up
    rcases Nat.lt_or_ge (n + 1) digits.length with long | short
    · exact reads_plain_inside proper long
    · exact reads_plain_padded proper short
  · exact reads_plain_below proper up

private theorem reads_layOut (proper : d.Proper) (l : Number.FloatLayout) :
    Reads negative (d.layOut l) d.value := by
  rw [Decimal.layOut]
  split
  · exact reads_plain proper
  · exact reads_scientific proper _

open Number.Binary64 in
private theorem parts?_nearest_of_zero {e : Int} (zero : Text.digitsValue (whole ++ fraction) = 0) :
    parts? (Number.nearest whole fraction e) = some ⟨false, 0, -1074⟩ := by
  have parts : parts? 0.0 = some ⟨false, 0, -1074⟩ := by decide +kernel
  rw [Number.nearest, zero, if_pos (by simp)]
  exact parts

open Number.Binary64 in
private theorem readNumber_of_reads {f : Float} {p : Parts} {text : List Char} {x : ℚ}
    (finite : isFinite f = true) (parts : parts? f = some p) (reads : Reads p.negative text x)
    (magnitude : if p.mantissa = 0 then x = 0 else p.Takes x) :
    readNumber p.negative text = some (.float f finite, []) := by
  obtain ⟨whole, fraction, e, read, value⟩ := reads
  have normal := normal_of_parts? parts
  have nearest : parts? (Number.nearest whole fraction e) = some { p with negative := false } := by
    split at magnitude
    next zero =>
      have least : p.exponent = -1074 := by
        have above := normal.least
        have leading := normal.leading
        omega
      rw [magnitude] at value
      have unit : (10 : ℚ) ^ (e - fraction.length : ℤ) ≠ 0 := by positivity
      have digits : Text.digitsValue (whole ++ fraction) = 0 := by
        exact_mod_cast (mul_eq_zero.1 value).resolve_right unit
      rw [parts?_nearest_of_zero digits, zero, least]
    next nonzero => exact Parts.parts?_nearest normal nonzero (value ▸ magnitude)
  have same : (if p.negative then -Number.nearest whole fraction e
      else Number.nearest whole fraction e) = f := by
    obtain ⟨sign, m, k⟩ := p
    cases sign with
    | false =>
      rw [if_neg Bool.false_ne_true]
      exact eq_of_parts? nearest parts
    | true =>
      rw [if_pos rfl]
      exact eq_of_parts? (parts?_neg nearest) parts
  rw [read, floatNumber?, same, JsonNumber.ofFloat?, dif_pos finite]
  rfl

open Number.Binary64 in
private theorem readNumber_magnitude {f : Float} {p : Parts} (finite : isFinite f = true)
    (parts : parts? f = some p) :
    readNumber p.negative (if p.mantissa = 0 then "0.0".toList else p.shortest.layOut floatLayout) =
      some (.float f finite, []) := by
  have zero : Text.isDigit '0' = true := by decide
  split
  next none =>
    have read : Reads p.negative (['0'] ++ '.' :: ['0']) _ :=
      reads_point (by simpa using zero) (by simpa using zero) (List.cons_ne_nil _ _) rfl
    refine readNumber_of_reads finite parts read ?_
    rw [if_pos none]
    simp [Text.digitsValue, Text.digitValue]
  next some =>
    obtain ⟨proper, takes⟩ := Parts.takes_shortest (normal_of_parts? parts) some
    refine readNumber_of_reads finite parts (reads_layOut proper floatLayout) ?_
    rwa [if_neg some]

private theorem isWhole_toDigits (n : Nat) : isWhole (Nat.toDigits 10 n) = true := by
  have nonempty : Nat.toDigits 10 n ≠ [] := Nat.toDigits_ne_nil
  rcases Nat.eq_zero_or_pos n with rfl | positive
  · decide
  · simp [isWhole, nonempty, Text.head?_toDigits_ne_zero positive]

private theorem readNumber_toDigits {n : Nat} {m : JsonNumber}
    (value : integerNumber? negative (Nat.toDigits 10 n) = some m) :
    readNumber negative (Nat.toDigits 10 n) = some (m, []) := by
  have taken : takeDigits (Nat.toDigits 10 n) = (Nat.toDigits 10 n, []) :=
    takeDigits_all fun _ => Text.isDigit_of_mem_toDigits
  simp [readNumber, taken, isWhole_toDigits, readFraction, readExponent, literalNumber?, value]

private theorem readNumber_renderNumber (n : JsonNumber) :
    ∃ negative text, renderNumber n = (if negative then ['-'] else []) ++ text ∧
      readNumber negative text = some (n, []) := by
  cases n with
  | int n fits =>
    have inside : JsonNumber.ofInt? n = some (.int n fits) := dif_pos fits
    rw [renderNumber, renderInt]
    split
    next negative =>
      have positive : ¬ n.natAbs = 0 := by omega
      have small : n.natAbs ≤ 9223372036854775808 := by omega
      have sign : -(n.natAbs : Int) = n := by omega
      refine ⟨true, Nat.toDigits 10 n.natAbs, rfl, readNumber_toDigits ?_⟩
      simp only [integerNumber?, Text.digitsValue_toDigits, if_true, if_neg positive, if_pos small,
        sign, inside]
    next positive =>
      have sign : (n.natAbs : Int) = n := by omega
      refine ⟨false, Nat.toDigits 10 n.natAbs, rfl, readNumber_toDigits ?_⟩
      simp only [integerNumber?, Text.digitsValue_toDigits, sign, inside, Option.some_or,
        Bool.false_eq_true, if_false]
  | float f finite =>
    obtain ⟨p, parts⟩ := Number.Binary64.exists_parts?_of_isFinite finite
    refine ⟨p.negative, _, ?_, readNumber_magnitude finite parts⟩
    rw [renderNumber, Number.writeFloat, parts, Number.Binary64.isNegative_of_parts? parts]
    simp only
    split <;> rfl

private theorem isSpace_of_isDigit {c : Char} (h : Text.isDigit c = true) : isSpace c = false := by
  simp only [isSpace, Bool.or_eq_false_iff, decide_eq_false_iff_not]
  refine ⟨⟨⟨?_, ?_⟩, ?_⟩, ?_⟩ <;> rintro rfl <;> exact absurd h (by decide)

private theorem readValue_digit {c : Char} (digit : Text.isDigit c = true) (depth : Nat)
    (cs : List Char) :
    readValue depth (c :: cs) =
      (readNumber false (c :: cs)).map fun (n, rest) => (.num n, rest) := by
  have here : skipSpace (c :: cs) = c :: cs := by
    simp [skipSpace, isSpace_of_isDigit digit]
  unfold readValue
  rw [here]
  split
  all_goals
    try (next text => obtain ⟨rfl, -⟩ := List.cons.inj text; exact absurd digit (by decide))
  rfl

theorem readValue_renderNumber (n : JsonNumber) (depth : Nat) (ends : EndsNumber tail) :
    readValue depth (renderNumber n ++ tail) = some (.num n, tail) := by
  obtain ⟨negative, text, written, read⟩ := readNumber_renderNumber n
  have next := readNumber_append read ends
  rw [written, List.append_assoc]
  cases negative with
  | true =>
    change readValue depth ('-' :: (text ++ tail)) = _
    rw [readValue_minus, next]
    rfl
  | false =>
    obtain ⟨c, cs, text, digit⟩ := exists_digit_of_readNumber next
    change readValue depth (_ ++ tail) = _
    rw [text] at next ⊢
    rw [readValue_digit digit, next]
    rfl

theorem exists_first_of_renderNumber (n : JsonNumber) :
    ∃ c cs, skipSpace (renderNumber n) = c :: cs ∧ c ≠ ']' := by
  obtain ⟨negative, text, written, read⟩ := readNumber_renderNumber n
  rw [written]
  cases negative with
  | true => exact ⟨'-', text, rfl, by decide⟩
  | false =>
    obtain ⟨c, cs, rfl, digit⟩ := exists_digit_of_readNumber read
    refine ⟨c, cs, ?_, by rintro rfl; exact absurd digit (by decide)⟩
    simp [skipSpace, isSpace_of_isDigit digit]

end Json

end GuildSandbox
