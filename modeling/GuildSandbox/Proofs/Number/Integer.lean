import GuildSandbox.Proofs.Number.Nearest

set_option autoImplicit false
set_option relaxedAutoImplicit false

namespace GuildSandbox.Number.Binary64

open Float.Model Float.Model.UnpackedFloat

private theorem IsNearest.neg {f : Float} {x : ℚ} (nearest : IsNearest f x) : IsNearest (-f) (-x) := by
  obtain ⟨p, parts⟩ := exists_parts?_of_isFinite nearest.finite
  refine ⟨isFinite_of_parts? (parts?_neg parts), fun g finite => ?_⟩
  obtain ⟨q, other⟩ := exists_parts?_of_isFinite finite
  have mirrored := nearest.near (-g) (isFinite_of_parts? (parts?_neg other))
  rw [exact_of_parts? parts, exact_of_parts? (parts?_neg other), q.exact_opposite] at mirrored
  rw [exact_of_parts? (parts?_neg parts), exact_of_parts? other, p.exact_opposite]
  calc |-p.exact - -x| = |p.exact - x| := by rw [← abs_neg, neg_sub, neg_sub_neg]
    _ ≤ |-q.exact - x| := mirrored
    _ = |q.exact - -x| := by rw [← abs_neg, neg_sub, sub_neg_eq_add, sub_neg_eq_add, add_comm]

private theorem roundWithAccuracy_shifted {m k : Nat} {e : Int} (leading : 2 ^ 52 ≤ m)
    (short : m < 2 ^ 53)
    (least : -1074 ≤ e + k) : roundWithAccuracy .binary64 .positive (m * 2 ^ k) e .exact =
      (⟨false, m, e + k⟩ : Parts).unpacked := by
  have unit := Nat.two_pow_pos k
  have bits : (m * 2 ^ k).log2 = 52 + k := by
    rw [log2_mul_two_pow (by omega), (Nat.log2_eq_iff (by omega)).2 ⟨leading, short⟩]
  have shifted : ExtendedMantissa.ofMantissaAndAccuracy (m * 2 ^ k) .exact >>> k = ⟨m, false, false⟩ := by
    have value := shift_mantissa (m * 2 ^ k) k
    have sticky := shift_stickyBit (m * 2 ^ k) k
    rw [← Nat.mul_assoc, Nat.mul_div_cancel _ unit] at value
    rw [← Nat.mul_assoc, Nat.mul_mod_left] at sticky
    generalize ExtendedMantissa.ofMantissaAndAccuracy (m * 2 ^ k) .exact >>> k = em at value sticky
    obtain ⟨q, round, bit⟩ := em
    obtain rfl : bit = false := sticky
    cases round with
    | false =>
      obtain rfl : q = m := by simpa using value
      rfl
    | true =>
      simp only [Bool.toNat_true] at value
      omega
  have kept : (ExtendedMantissa.mk m false false).roundedMantissa = m := rfl
  have second := shiftToTargetExponent_of_short leading short least
  rw [roundWithAccuracy, shiftToTargetExponent_eq bits least, shifted]
  dsimp only
  rw [kept, second]
  rfl

private theorem mul_one_unpacked {p : Parts} (positive : p.negative = false) (normal : p.Normal)
    (leading : 2 ^ 52 ≤ p.mantissa) :
    UnpackedFloat.mul .binary64 p.unpacked one = p.unpacked := by
  obtain ⟨negative, mantissa, exponent⟩ := p
  obtain rfl : negative = false := positive
  simp only at leading
  have nonzero : mantissa ≠ 0 := by omega
  have place : exponent + -52 + (52 : Nat) = exponent := by omega
  have rounded := roundWithAccuracy_shifted (k := 52) (e := exponent + -52) leading normal.mantissa
    (by rw [place]; exact normal.least)
  rw [place] at rounded
  have unpacked : (⟨false, mantissa, exponent⟩ : Parts).unpacked =
      .finite .positive mantissa exponent (Nat.pos_of_ne_zero nonzero) := dif_neg nonzero
  calc UnpackedFloat.mul .binary64 (⟨false, mantissa, exponent⟩ : Parts).unpacked one
      = roundWithAccuracy .binary64 .positive (mantissa * 2 ^ 52) (exponent + -52) .exact := by
        rw [unpacked]
        rfl
    _ = (⟨false, mantissa, exponent⟩ : Parts).unpacked := rounded

def shortParts (n : Nat) : Parts where
  negative := false
  mantissa := n * 2 ^ (52 - n.log2)
  exponent := -(52 - n.log2 : Nat)

section Short

variable {n : Nat}

private theorem shortParts_bounds (nonzero : n ≠ 0) (short : n < 2 ^ 53) :
    2 ^ 52 ≤ (shortParts n).mantissa ∧ (shortParts n).mantissa < 2 ^ 53 := by
  have few : n.log2 < 53 := (Nat.log2_lt nonzero).2 short
  obtain ⟨low, high⟩ := (Nat.log2_eq_iff nonzero).1 rfl
  have room : n.log2 + (52 - n.log2) = 52 := by omega
  have unit := Nat.two_pow_pos (52 - n.log2)
  constructor
  · have product := Nat.mul_le_mul_right (2 ^ (52 - n.log2)) low
    rwa [← Nat.pow_add, room] at product
  · have product := Nat.mul_lt_mul_of_pos_right high unit
    rwa [← Nat.pow_add, Nat.add_right_comm, room] at product

private theorem normal_shortParts (nonzero : n ≠ 0) (short : n < 2 ^ 53) :
    (shortParts n).Normal := by
  obtain ⟨leading, fits⟩ := shortParts_bounds nonzero short
  have zeros : (shortParts n).exponent = -(52 - n.log2 : Nat) := rfl
  exact ⟨⟨fits, by omega, by omega⟩, fun _ => leading⟩

private theorem exact_shortParts (n : Nat) : (shortParts n).exact = n := by
  simp [shortParts, Parts.exact, Parts.magnitude, zpow_neg, zpow_natCast]

private theorem toModel_toFloat_of_short (nonzero : n ≠ 0) (short : n < 2 ^ 53) :
    n.toUInt64.toFloat.toModel = Float.Model.pack (shortParts n).unpacked := by
  obtain ⟨leading, fits⟩ := shortParts_bounds nonzero short
  have few : n.log2 < 53 := (Nat.log2_lt nonzero).2 short
  have same : n.toUInt64.toNat = n := Nat.mod_eq_of_lt (by omega)
  have positive : compare (n : Int) 0 = .gt := Int.compare_eq_gt.2 (by omega)
  have target : Format.binary64.targetExponent (totalExponent n 0) = -(52 - n.log2 : Nat) := by
    simp only [Format.targetExponent, totalExponent, mantissaBits_eq, Format.minExponent]
    omega
  have rounded : UnpackedFloat.round .binary64 .positive n 0 = (shortParts n).unpacked := by
    have kept := roundWithAccuracy_shifted (k := 0) (e := -(52 - n.log2 : Nat)) leading fits (by omega)
    rw [Nat.pow_zero, Nat.mul_one, Int.natCast_zero, Int.add_zero] at kept
    rw [UnpackedFloat.round, target]
    simp only [decreaseExponent, Nat.shiftLeft_eq, zero_sub, neg_neg, Int.toNat_natCast]
    exact kept
  change Float.Model.pack (UnpackedFloat.normalize .binary64 n.toUInt64.toNat 0 .positive) = _
  rw [same, UnpackedFloat.normalize, positive]
  exact congrArg Float.Model.pack rounded

private theorem isRounding_ofNat_of_short (nonzero : n ≠ 0) (short : n < 2 ^ 53) :
    IsRounding (Float.ofNat n) n := by
  obtain ⟨leading, -⟩ := shortParts_bounds nonzero short
  have normal := normal_shortParts nonzero short
  have taken : n.toUInt64.toFloat.toModel.unpack = (shortParts n).unpacked := by
    rw [toModel_toFloat_of_short nonzero short]
    exact unpack_of_parts? (parts?_pack normal)
  have joined : Float.ofNat n = .ofModel (Float.Model.pack (shortParts n).unpacked) := by
    rw [ofNat_of_short short]
    change Float.ofModel (Float.Model.pack
      (UnpackedFloat.mul .binary64 n.toUInt64.toFloat.toModel.unpack one)) = _
    rw [taken, mul_one_unpacked rfl normal leading]
  refine ⟨shortParts n, joined, normal, fun q _ => ?_⟩
  rw [exact_shortParts, sub_self, abs_zero]
  exact abs_nonneg _

end Short

private theorem isRounding_ofNat {n : Nat} (nonzero : n ≠ 0) (small : n < 2 ^ 64) :
    IsRounding (Float.ofNat n) n := by
  rcases Nat.lt_or_ge n (2 ^ 53) with short | long
  · exact isRounding_ofNat_of_short nonzero short
  · exact isRounding_ofNat_of_long long small

theorem isNearest_ofInt_of_fits {n : Int} (small : n.natAbs < 2 ^ 64) : IsNearest (ofInt n) n := by
  cases n with
  | ofNat n =>
    by_cases zero : n = 0
    · subst zero
      refine ⟨by decide +kernel, fun g _ => ?_⟩
      have exactly : exact (ofInt 0) = 0 := by decide +kernel
      change |exact (ofInt 0) - ((0 : Int) : ℚ)| ≤ _
      rw [exactly, Int.cast_zero, sub_self, abs_zero]
      exact abs_nonneg _
    · exact (isRounding_ofNat zero small).isNearest
  | negSucc n =>
    have opposite := (isRounding_ofNat n.succ_ne_zero small).isNearest.neg
    rw [Int.cast_negSucc]
    exact opposite

end GuildSandbox.Number.Binary64
