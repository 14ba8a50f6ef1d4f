import Mathlib.Algebra.Order.Field.Power
import Mathlib.Data.Rat.Cast.Order
import Mathlib.Tactic.FieldSimp
import Mathlib.Tactic.GCongr
import Mathlib.Tactic.NormNum
import Mathlib.Tactic.Positivity
import Mathlib.Tactic.Ring
import GuildSandbox.Proofs.Number.Sum

set_option autoImplicit false
set_option relaxedAutoImplicit false

namespace GuildSandbox.Number.Binary64

open Float.Model Float.Model.UnpackedFloat

def Parts.magnitude (p : Parts) : ℚ := p.mantissa * 2 ^ p.exponent

def Parts.exact (p : Parts) : ℚ := if p.negative then -p.magnitude else p.magnitude

/-- The number that a finite float stands for; infinities and NaNs stand for none, and have zero. -/
def exact (f : Float) : ℚ := (parts? f).elim 0 Parts.exact

structure Parts.InFormat (p : Parts) : Prop where
  mantissa : p.mantissa < 2 ^ 53
  least : -1074 ≤ p.exponent
  greatest : p.exponent ≤ 971

theorem inFormat_of_parts? {f : Float} {p : Parts} (parts : parts? f = some p) : p.InFormat := by
  have fraction : fractionBits f < 2 ^ 52 := Nat.mod_lt _ (by decide)
  have bits : exponentBits f < 2048 := Nat.mod_lt _ (by decide)
  have hidden : Nat.pow 2 52 = 2 ^ 52 := rfl
  unfold parts? at parts
  split at parts
  · cases parts
  · split at parts
    · cases parts
      exact ⟨by simp only; omega, by simp only; omega, by simp only; omega⟩
    · cases parts
      exact ⟨by simp only; omega, by simp only; omega, by simp only; omega⟩

/-- The parts are those of a float: all 53 bits of the mantissa are used, unless the exponent is the
least one. -/
structure Parts.Normal (p : Parts) : Prop extends p.InFormat where
  leading : -1074 < p.exponent → 2 ^ 52 ≤ p.mantissa

theorem normal_of_parts? {f : Float} {p : Parts} (parts : parts? f = some p) : p.Normal where
  toInFormat := inFormat_of_parts? parts
  leading above := by
    unfold parts? at parts
    split at parts
    · cases parts
    · split at parts <;> cases parts
      · exact absurd above (Int.lt_irrefl _)
      · exact Nat.le_add_right _ _

theorem exists_parts?_of_isFinite {f : Float} (finite : isFinite f = true) :
    ∃ p, parts? f = some p := by
  have proper : exponentBits f ≠ 2047 := by simpa [isFinite] using finite
  rw [parts?, if_neg proper]
  split <;> exact ⟨_, rfl⟩

theorem exact_of_parts? {f : Float} {p : Parts} (parts : parts? f = some p) :
    exact f = p.exact := by
  rw [exact, parts, Option.elim_some]

def Parts.sign (p : Parts) : Sign := if p.negative then .negative else .positive

def Parts.unpacked (p : Parts) : UnpackedFloat :=
  if h : p.mantissa = 0 then .zero p.sign
  else .finite p.sign p.mantissa p.exponent (Nat.pos_of_ne_zero h)

theorem fractionBits_eq (f : Float) :
    fractionBits f = (@unpackMantissa .binary64 f.toModel.toBits.toBitVec).toNat := by
  change f.toModel.toBits.toNat % Nat.pow 2 52 = _
  simp [unpackMantissa, BitVec.extractLsb, BitVec.extractLsb']

theorem unpackSign_eq {format : Format} (b : BitVec format.numBits) :
    unpackSign b = (b.extractLsb (format.mantissaBitsWithoutImplicit + format.exponentBits)
      (format.mantissaBitsWithoutImplicit + format.exponentBits)).cast (by omega) := rfl

theorem sign_eq (f : Float) :
    (if isNegative f then Sign.negative else .positive) =
      .ofBitVec (@unpackSign .binary64 f.toModel.toBits.toBitVec) := by
  have bit : @unpackSign .binary64 f.toModel.toBits.toBitVec = 0#1 ↔ isNegative f = false := by
    have word := f.toModel.toBits.toNat_lt
    rw [← BitVec.toNat_inj]
    change _ ↔ (f.toModel.toBits.toNat / Nat.pow 2 63 == 1) = false
    simp [unpackSign_eq, BitVec.extractLsb, BitVec.extractLsb', Nat.shiftRight_eq_div_pow]
    omega
  rw [Sign.ofBitVec]
  cases negative : isNegative f with
  | false => rw [if_pos (bit.2 negative), if_neg Bool.false_ne_true]
  | true => rw [if_neg (mt bit.1 (by simp [negative])), if_pos rfl]

theorem unpack_of_parts? {f : Float} {p : Parts} (parts : parts? f = some p) :
    f.toModel.unpack = p.unpacked := by
  have sign := sign_eq f
  have exponent := exponentBits_eq f
  have fraction := fractionBits_eq f
  change UnpackedFloat.unpack .binary64 f.toModel.toBits.toBitVec = _
  generalize f.toModel.toBits.toBitVec = b at sign exponent fraction
  have ones : @unpackExponent .binary64 b = -1#_ ↔ exponentBits f = 2047 := by
    rw [exponent, ← BitVec.toNat_inj]
    rfl
  have zeros : @unpackExponent .binary64 b = 0#_ ↔ exponentBits f = 0 := by
    rw [exponent, ← BitVec.toNat_inj]
    rfl
  have blank : @unpackMantissa .binary64 b = 0#_ ↔ fractionBits f = 0 := by
    rw [fraction, ← BitVec.toNat_inj]
    rfl
  rw [parts?] at parts
  split at parts
  · cases parts
  next proper =>
    delta UnpackedFloat.unpack
    dsimp only
    rw [if_neg (mt ones.1 proper), ← sign]
    split at parts <;> cases parts
    next subnormal =>
      rw [if_pos (zeros.2 subnormal), Parts.unpacked]
      by_cases zero : fractionBits f = 0
      · rw [dif_pos (blank.2 zero), dif_pos zero]
        rfl
      · rw [dif_neg (mt blank.1 zero), dif_neg zero]
        congr 1
        · exact fraction.symm
        · rw [← exponent, subnormal]
          rfl
    next normal =>
      rw [if_neg (mt zeros.1 normal), Parts.unpacked, dif_neg (by simp)]
      congr 1
      · rw [BitVec.toNat_append, ← fraction]
        have short : fractionBits f < 2 ^ 52 := Nat.mod_lt _ (by decide)
        exact (Nat.two_pow_add_eq_or_of_lt short 1).symm
      · rw [← exponent]
        rfl

/-- Floats of a lesser exponent lie below all those of 53 bits with the greater exponent. -/
theorem Parts.magnitude_lt {p : Parts} {e : Int} (normal : p.Normal) (order : p.exponent < e) :
    p.magnitude < 2 ^ 52 * 2 ^ e := by
  have short : (p.mantissa : ℚ) < 2 ^ 53 := by exact_mod_cast normal.mantissa
  calc p.magnitude = p.mantissa * 2 ^ p.exponent := rfl
    _ < 2 ^ 53 * 2 ^ p.exponent := by gcongr
    _ = 2 ^ 52 * 2 ^ (p.exponent + 1) := by rw [zpow_add_one₀ (by norm_num)]; ring
    _ ≤ 2 ^ 52 * 2 ^ e := by gcongr <;> first | exact order | norm_num

private theorem Parts.magnitude_lt_magnitude {p q : Parts} (normal : p.Normal) (normal' : q.Normal)
    (order : p.exponent < q.exponent) : p.magnitude < q.magnitude := by
  have leading : (2 : ℚ) ^ 52 ≤ q.mantissa := by
    exact_mod_cast normal'.leading (Int.lt_of_le_of_lt normal.least order)
  calc p.magnitude < 2 ^ 52 * 2 ^ q.exponent := magnitude_lt normal order
    _ ≤ q.mantissa * 2 ^ q.exponent := by gcongr

private theorem Parts.compare_magnitude {p q : Parts} (normal : p.Normal) (normal' : q.Normal) :
    compare p.magnitude q.magnitude =
      (compare p.exponent q.exponent).then (compare p.mantissa q.mantissa) := by
  rcases lt_trichotomy p.exponent q.exponent with below | same | above
  · rw [compare_lt_iff_lt.2 below, compare_lt_iff_lt.2 (magnitude_lt_magnitude normal normal' below)]
    rfl
  · have unit : (0 : ℚ) < 2 ^ q.exponent := by positivity
    rw [compare_eq_iff_eq.2 same, magnitude, magnitude, same, ← cmp_eq_compare, ← cmp_eq_compare,
      cmp_mul_pos_right unit, (Nat.strictMono_cast (α := ℚ)).cmp_map_eq]
    rfl
  · rw [compare_gt_iff_gt.2 above, compare_gt_iff_gt.2 (magnitude_lt_magnitude normal' normal above)]
    rfl

theorem Parts.magnitude_nonneg (p : Parts) : 0 ≤ p.magnitude :=
  mul_nonneg (Nat.cast_nonneg _) (by positivity)

private theorem Parts.magnitude_pos {p : Parts} (nonzero : 0 < p.mantissa) : 0 < p.magnitude := by
  have mantissa : (0 : ℚ) < p.mantissa := by exact_mod_cast nonzero
  exact mul_pos mantissa (by positivity)

private theorem Parts.unpacked_cases (p : Parts) :
    (∃ s, p.unpacked = .zero s ∧ p.exact = 0) ∨
      (∃ nonzero, p.unpacked = .finite .positive p.mantissa p.exponent nonzero ∧
        p.exact = p.magnitude) ∨
      ∃ nonzero, p.unpacked = .finite .negative p.mantissa p.exponent nonzero ∧
        p.exact = -p.magnitude := by
  rw [unpacked, exact, sign]
  by_cases zero : p.mantissa = 0
  · exact .inl ⟨_, dif_pos zero, by simp [magnitude, zero]⟩
  · have nonzero := Nat.pos_of_ne_zero zero
    rw [dif_neg zero]
    cases p.negative
    · exact .inr (.inl ⟨nonzero, rfl, rfl⟩)
    · exact .inr (.inr ⟨nonzero, rfl, rfl⟩)

private theorem Parts.compare_unpacked {p q : Parts} (normal : p.Normal) (normal' : q.Normal) :
    p.unpacked.compare q.unpacked = some (compare p.exact q.exact) := by
  have magnitudes := compare_magnitude normal normal'
  -- Zero, positive or negative on either side: only within one sign do the magnitudes decide.
  rcases p.unpacked_cases with ⟨s, unpacked, value⟩ | ⟨nonzero, unpacked, value⟩ |
      ⟨nonzero, unpacked, value⟩ <;>
    rcases q.unpacked_cases with ⟨s', unpacked', value'⟩ | ⟨nonzero', unpacked', value'⟩ |
      ⟨nonzero', unpacked', value'⟩ <;>
    rw [unpacked, unpacked', value, value']
  · exact congrArg some (compare_eq_iff_eq.2 rfl).symm
  · exact congrArg some (compare_lt_iff_lt.2 (magnitude_pos nonzero')).symm
  · exact congrArg some (compare_gt_iff_gt.2 (neg_neg_of_pos (magnitude_pos nonzero'))).symm
  · exact congrArg some (compare_gt_iff_gt.2 (magnitude_pos nonzero)).symm
  · exact congrArg some magnitudes.symm
  · exact congrArg some (compare_gt_iff_gt.2 ((neg_neg_of_pos (magnitude_pos nonzero')).trans
      (magnitude_pos nonzero))).symm
  · exact congrArg some (compare_lt_iff_lt.2 (neg_neg_of_pos (magnitude_pos nonzero))).symm
  · exact congrArg some (compare_lt_iff_lt.2 ((neg_neg_of_pos (magnitude_pos nonzero)).trans
      (magnitude_pos nonzero'))).symm
  · change some ((compare p.exponent q.exponent).then (compare p.mantissa q.mantissa)).swap = _
    rw [← magnitudes, ← cmp_eq_compare, ← cmp_eq_compare, cmp_swap,
      StrictAnti.cmp_map_eq fun _ _ => neg_lt_neg]

private theorem compare_unpack {f g : Float} (finite : isFinite f = true)
    (finite' : isFinite g = true) :
    f.toModel.unpack.compare g.toModel.unpack = some (compare (exact f) (exact g)) := by
  obtain ⟨p, parts⟩ := exists_parts?_of_isFinite finite
  obtain ⟨q, parts'⟩ := exists_parts?_of_isFinite finite'
  rw [unpack_of_parts? parts, unpack_of_parts? parts', exact_of_parts? parts,
    exact_of_parts? parts']
  exact Parts.compare_unpacked (normal_of_parts? parts) (normal_of_parts? parts')

private theorem lt_iff {f g : Float} (finite : isFinite f = true) (finite' : isFinite g = true) :
    f < g ↔ exact f < exact g := by
  change decide ((f.toModel.unpack.compare g.toModel.unpack == some .lt) = true) = true ↔ _
  rw [compare_unpack finite finite', ← compare_lt_iff_lt]
  simp

private theorem le_iff {f g : Float} (finite : isFinite f = true) (finite' : isFinite g = true) :
    f ≤ g ↔ exact f ≤ exact g := by
  change decide ((f.toModel.unpack.compare g.toModel.unpack).any (·.isLE) = true) = true ↔ _
  rw [compare_unpack finite finite', ← compare_le_iff_le]
  simp [Ordering.isLE_iff_ne_gt]

private theorem Parts.magnitude_of_isWhole {p : Parts} (whole : p.isWhole = true) :
    p.magnitude = p.wholeMagnitude := by
  rw [magnitude, wholeMagnitude]
  split
  next up =>
    obtain ⟨k, exponent⟩ := Int.eq_ofNat_of_zero_le up
    simp [exponent]
  next down =>
    obtain ⟨k, exponent⟩ : ∃ k : ℕ, p.exponent = -k := ⟨(-p.exponent).toNat, by omega⟩
    have divides : 2 ^ k ∣ p.mantissa := by
      rw [isWhole, Bool.or_eq_true, decide_eq_true_eq, or_iff_right down, beq_iff_eq, exponent,
        neg_neg, Int.toNat_natCast] at whole
      exact Nat.dvd_of_mod_eq_zero whole
    obtain ⟨n, mantissa⟩ := divides
    rw [exponent, neg_neg, Int.toNat_natCast, mantissa, Nat.pow_eq,
      Nat.mul_div_cancel_left _ (Nat.two_pow_pos k), zpow_neg, zpow_natCast]
    field_simp
    push_cast
    ring

private theorem Parts.exact_of_isWhole {p : Parts} (whole : p.isWhole = true) :
    p.exact = p.truncated := by
  rw [exact, truncated, magnitude_of_isWhole whole]
  split <;> simp

private theorem Parts.isWhole_of_exact {p : Parts} {z : ℤ} (whole : p.exact = z) :
    p.isWhole = true := by
  rw [isWhole, Bool.or_eq_true, decide_eq_true_eq, beq_iff_eq]
  refine or_iff_not_imp_left.2 fun down => ?_
  obtain ⟨k, exponent⟩ : ∃ k : ℕ, p.exponent = -k := ⟨(-p.exponent).toNat, by omega⟩
  have magnitude : p.magnitude = z.natAbs := by
    have absolute : |p.exact| = |(z : ℚ)| := congrArg _ whole
    rw [exact] at absolute
    split at absolute <;> simpa [abs_of_nonneg p.magnitude_nonneg] using absolute
  have scaled : p.mantissa = z.natAbs * 2 ^ k := by
    rw [Parts.magnitude, exponent, zpow_neg, zpow_natCast] at magnitude
    field_simp at magnitude
    rw [Nat.mul_comm]
    exact_mod_cast magnitude
  rw [exponent, neg_neg, Int.toNat_natCast, scaled]
  exact Nat.mul_mod_left _ _

/-- The ends of the 64-bit integers as floats; the upper one is one more than the greatest. -/
theorem exact_ends :
    exact (ofInt Int64.minValue.toInt) = -2 ^ 63 ∧ exact (ofInt Int64.maxValue.toInt) = 2 ^ 63 := by
  have low : parts? (ofInt Int64.minValue.toInt) =
      some { negative := true, mantissa := 2 ^ 52, exponent := 11 } := by decide +kernel
  have high : parts? (ofInt Int64.maxValue.toInt) =
      some { negative := false, mantissa := 2 ^ 52, exponent := 11 } := by decide +kernel
  rw [exact_of_parts? low, exact_of_parts? high]
  norm_num [Parts.exact, Parts.magnitude]

private theorem isInt64_iff {f : Float} (finite : isFinite f = true) :
    isInt64 f = true ↔ isWhole f = true ∧ -2 ^ 63 ≤ exact f ∧ exact f < 2 ^ 63 := by
  have wide (n : Int) (small : n.natAbs ≤ 2 ^ 64) : isFinite (ofInt n) = true :=
    (isFinite_iff _).2 (Nat.le_trans (exponentBits_ofInt_le small) (by decide))
  rw [isInt64, Bool.and_eq_true, Bool.and_eq_true, decide_eq_true_eq, decide_eq_true_eq,
    le_iff (wide _ (by decide)) finite, lt_iff finite (wide _ (by decide)), exact_ends.1,
    exact_ends.2, and_assoc]

theorem toInt64?_eq_some_iff {f : Float} (finite : isFinite f = true) {i : Int64} :
    toInt64? f = some i ↔ exact f = i.toInt := by
  obtain ⟨p, parts⟩ := exists_parts?_of_isFinite finite
  have value := exact_of_parts? parts
  have whole_eq : isWhole f = p.isWhole := by rw [isWhole, parts, Option.any_some]
  have word : toInt64 f = Int64.ofIntClamp p.truncated := by rw [toInt64, parts]
  rw [toInt64?, Option.ite_none_right_eq_some, isInt64_iff finite, whole_eq, word, Option.some_inj,
    value]
  constructor
  · rintro ⟨⟨whole, low, high⟩, rfl⟩
    rw [Parts.exact_of_isWhole whole] at low high ⊢
    have low : -2 ^ 63 ≤ p.truncated := by exact_mod_cast low
    have high : p.truncated < 2 ^ 63 := by exact_mod_cast high
    rw [Int64.toInt_ofIntClamp low (Int.lt_add_one_iff.1 high)]
  · intro same
    have whole := Parts.isWhole_of_exact same
    have truncated : p.truncated = i.toInt := by
      rw [Parts.exact_of_isWhole whole] at same
      exact_mod_cast same
    refine ⟨⟨whole, ?_, ?_⟩, ?_⟩
    · rw [same]
      exact_mod_cast i.le_toInt
    · rw [same]
      exact_mod_cast i.toInt_lt
    · rw [truncated, Int64.ofIntClamp_toInt]

end GuildSandbox.Number.Binary64
