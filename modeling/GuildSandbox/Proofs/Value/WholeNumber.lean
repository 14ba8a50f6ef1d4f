import GuildSandbox.Proofs.Number.Nearest
import GuildSandbox.Proofs.Value.Decoded
import GuildSandbox.Value.Plain

/-!
Whole numbers.

A number is taken as an integer, from a record as well as from plain JSON, exactly when it is one
within 64 bits, however it is written. Any other number is malformed in a record of an integer, and in
plain JSON it is the float nearest to it.
-/

set_option autoImplicit false
set_option relaxedAutoImplicit false

namespace GuildSandbox

def JsonNumber.exact : JsonNumber → ℚ
  | .int n _ => n
  | .float f _ => Number.Binary64.exact f

namespace Value

open Number.Binary64 (exact isFinite ofInt int64? IsNearest)

private theorem exists_nat_of_int64?_eq_none {n : Int}
    (fits : -9223372036854775808 ≤ n ∧ n < 18446744073709551616) (beyond : int64? n = none) :
    ∃ m : Nat, n = m ∧ 2 ^ 63 ≤ m ∧ m < 2 ^ 64 := by
  have large : 2 ^ 63 ≤ n := by
    by_contra below
    rw [int64?, if_pos ⟨fits.1, Int.not_le.1 below⟩] at beyond
    cases beyond
  obtain ⟨m, rfl⟩ := Int.eq_ofNat_of_zero_le (Int.le_trans (by decide) large)
  exact ⟨m, rfl, by omega, by omega⟩

/-- An integer beyond the signed ones is still beyond them as a float, since the first number beyond
them is one. -/
private theorem two_pow_63_le_exact_ofInt {n : Nat} (beyond : 2 ^ 63 ≤ n) (small : n < 2 ^ 64) :
    2 ^ 63 ≤ exact (ofInt n) := by
  have least : (2 ^ 63 : ℚ) ≤ n := by exact_mod_cast beyond
  have near := (Number.Binary64.isNearest_ofInt (by omega) small).near
    (ofInt Int64.maxValue.toInt) (by decide +kernel)
  rw [Number.Binary64.exact_ends.2, abs_sub_comm _ (n : ℚ), abs_sub_comm _ (n : ℚ),
    abs_of_nonneg (sub_nonneg.2 least)] at near
  linarith [le_of_abs_le near]

private theorem wholeNumber?_eq_some_iff (n : JsonNumber) (i : Int64) :
    wholeNumber? (.num n) = some i ↔ n.exact = i.toInt := by
  cases n with
  | float f finite => exact Number.Binary64.toInt64?_eq_some_iff finite
  | int n fits =>
    rw [JsonNumber.exact, Int.cast_inj]
    cases word : int64? n with
    | some m =>
      have value := Number.Binary64.toInt_of_int64? word
      rw [wholeNumber?, JsonNumber.toInt64?, word, Option.some_or, Option.some_inj, ← value,
        Int64.toInt_inj]
    | none =>
      obtain ⟨m, rfl, beyond, small⟩ := exists_nat_of_int64?_eq_none fits word
      have finite := JsonNumber.isFinite_toFloat (.int m fits)
      have high := two_pow_63_le_exact_ofInt beyond small
      have bound := i.toInt_lt
      rw [wholeNumber?, JsonNumber.toInt64?, word, Option.none_or,
        Number.Binary64.toInt64?_eq_some_iff finite, JsonNumber.toFloat]
      constructor
      · intro same
        rw [same] at high
        have high : 2 ^ 63 ≤ i.toInt := by exact_mod_cast high
        omega
      · intro same
        omega

private theorem isNearest_of_wholeNumber?_eq_none {n : JsonNumber}
    (other : wholeNumber? (.num n) = none) :
    IsNearest n.toFloat n.exact := by
  refine ⟨n.isFinite_toFloat, fun g finite => ?_⟩
  cases n with
  | float f _ =>
    rw [JsonNumber.toFloat, JsonNumber.exact, sub_self, abs_zero]
    exact abs_nonneg _
  | int n fits =>
    have beyond := (Option.or_eq_none_iff.1 other).1
    obtain ⟨m, rfl, beyond, small⟩ := exists_nat_of_int64?_eq_none fits beyond
    exact (Number.Binary64.isNearest_ofInt (by omega) small).near g finite

private theorem decode_of_int_record {j : Json} {n : JsonNumber}
    (record : TaggedValue.ofJson? j = some { tag := "int", data := .num n }) :
    decode j = (orFail (mismatch { tag := "int", data := .num n })
      (wholeNumber? (.num n))).map .int := by
  rw [decode, decodeWithin, record]
  rfl

/-- A number is decoded as an integer, and read as one from plain JSON, exactly when it is an integer
within 64 bits, and then as that one. Any other is malformed in a record of an integer, and is read
from plain JSON as the nearest float. -/
theorem int_iff_exact {j : Json} {n : JsonNumber}
    (record : TaggedValue.ofJson? j = some { tag := "int", data := .num n }) :
    (∀ i : Int64, (decode j = .ok (.int i) ↔ n.exact = i.toInt) ∧
        (ofPlainJson (.num n) = .ok (.int i) ↔ n.exact = i.toInt)) ∧
      ((¬ ∃ z : ℤ, n.exact = z ∧ -2 ^ 63 ≤ z ∧ z < 2 ^ 63) →
        (∃ detail, decode j = .error (.malformed detail)) ∧
        ofPlainJson (.num n) = .ok (.float n.toFloat) ∧ IsNearest n.toFloat n.exact) := by
  have plain : ofPlainJson (.num n) = .ok (ofNumber n) := rfl
  have exactly := wholeNumber?_eq_some_iff n
  rw [decode_of_int_record record, plain, ofNumber]
  cases found : wholeNumber? (.num n) with
  | some m =>
    have value := (exactly m).1 found
    refine ⟨fun i => ?_, fun outside => absurd ⟨m.toInt, value, m.le_toInt, m.toInt_lt⟩ outside⟩
    rw [← exactly i, found]
    simp [orFail, Except.map]
  | none =>
    refine ⟨fun i => ?_, fun _ => ⟨⟨_, rfl⟩, rfl, isNearest_of_wholeNumber?_eq_none found⟩⟩
    rw [← exactly i, found]
    simp [orFail, Except.map]

def firstBeyond : JsonNumber := .int (2 ^ 63) (by decide)

theorem firstBeyond_is_float :
    TaggedValue.ofJson? (.arr [.str "int", .num firstBeyond]) =
        some { tag := "int", data := .num firstBeyond } ∧
      (∃ detail, decode (.arr [.str "int", .num firstBeyond]) = .error (.malformed detail)) ∧
      ofPlainJson (.num firstBeyond) = .ok (.float firstBeyond.toFloat) := by
  have record : TaggedValue.ofJson? (.arr [.str "int", .num firstBeyond]) =
    some { tag := "int", data := .num firstBeyond } := rfl
  have outside : ¬ ∃ z : ℤ, firstBeyond.exact = z ∧ -2 ^ 63 ≤ z ∧ z < 2 ^ 63 := by
    rintro ⟨z, value, -, below⟩
    have same : (2 ^ 63 : ℤ) = z := Int.cast_injective value
    omega
  obtain ⟨malformed, float, -⟩ := (int_iff_exact record).2 outside
  exact ⟨record, malformed, float⟩

end Value

end GuildSandbox
