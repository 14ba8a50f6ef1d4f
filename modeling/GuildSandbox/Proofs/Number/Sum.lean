import Mathlib.Algebra.Ring.Nat
import GuildSandbox.Number.Binary64

/-!
Sums of a float and an integer stay finite.

The greatest float is so much larger than any 64-bit integer that adding one cannot reach the next
power of two: the exact sum stays more than half a unit of the last place below it, and is rounded to a
float of the same exponent. Exponents are followed through the rounding of `Float`.
-/

set_option autoImplicit false
set_option relaxedAutoImplicit false

namespace GuildSandbox.Number.Binary64

open Float.Model Float.Model.UnpackedFloat

def ExponentWithin (bound : Int) : UnpackedFloat → Prop
  | .zero _ => True
  | .finite _ _ e _ => e ≤ bound
  | .infinity _ | .notANumber => False

def MantissaWithin : UnpackedFloat → Prop
  | .finite _ m _ _ => m < 2 ^ 53
  | _ => True

theorem shift_mantissa (m k : Nat) :
    2 * (ExtendedMantissa.ofMantissaAndAccuracy m .exact >>> k).mantissa +
      (ExtendedMantissa.ofMantissaAndAccuracy m .exact >>> k).roundBit.toNat = 2 * m / 2 ^ k := by
  change 2 * (k.repeat ExtendedMantissa.shiftRightOne _).mantissa +
    (k.repeat ExtendedMantissa.shiftRightOne _).roundBit.toNat = _
  induction k with
  | zero => simp [Nat.repeat, ExtendedMantissa.ofMantissaAndAccuracy]
  | succ k ih =>
    rw [Nat.pow_succ, ← Nat.div_div_eq_div_mul, ← ih, Nat.repeat]
    generalize k.repeat ExtendedMantissa.shiftRightOne _ = em
    have bit : (em.mantissa % 2 != 0).toNat = em.mantissa % 2 := by
      rcases Nat.mod_two_eq_zero_or_one em.mantissa with even | odd
      · rw [even]; rfl
      · rw [odd]; rfl
    simp only [ExtendedMantissa.shiftRightOne, bit]
    have small : em.roundBit.toNat ≤ 1 := Bool.toNat_le em.roundBit
    omega

private theorem roundedMantissa_le (em : ExtendedMantissa) :
    em.roundedMantissa ≤ em.mantissa + em.roundBit.toNat := by
  obtain ⟨m, round, sticky⟩ := em
  have parity := Nat.mod_lt m (y := 2) (by decide)
  cases round <;> cases sticky <;>
    simp [ExtendedMantissa.roundedMantissa, ExtendedMantissa.accuracy,
      Accuracy.roundToNearestEven]
  omega

theorem roundedMantissa_shift_le (m k : Nat) :
    2 * ((ExtendedMantissa.ofMantissaAndAccuracy m .exact >>> k).roundedMantissa * 2 ^ k) ≤
      2 * m + 2 ^ k := by
  have exact := shift_mantissa m k
  have rounded := roundedMantissa_le (ExtendedMantissa.ofMantissaAndAccuracy m .exact >>> k)
  generalize ExtendedMantissa.ofMantissaAndAccuracy m .exact >>> k = em at exact rounded ⊢
  have small : em.roundBit.toNat ≤ 1 := Bool.toNat_le em.roundBit
  calc 2 * (em.roundedMantissa * 2 ^ k) = 2 * em.roundedMantissa * 2 ^ k := by
        rw [Nat.mul_assoc]
    _ ≤ (2 * m / 2 ^ k + 1) * 2 ^ k := Nat.mul_le_mul_right _ (by omega)
    _ = 2 * m / 2 ^ k * 2 ^ k + 2 ^ k := Nat.succ_mul _ _
    _ ≤ 2 * m + 2 ^ k := Nat.add_le_add_right (Nat.div_mul_le_self _ _) _

theorem mantissaBits_eq : Format.binary64.mantissaBits = 53 := rfl

private theorem targetExponent_le {m : Nat} {e bound : Int} (least : -1074 ≤ bound)
    (order : e ≤ bound)
    (small : m < 2 ^ 53 * 2 ^ (bound - e).toNat) :
    Format.binary64.targetExponent (totalExponent m e) ≤ bound := by
  have bits : m.log2 < 53 + (bound - e).toNat := by
    rcases Nat.eq_zero_or_pos m with rfl | positive
    · rw [Nat.log2_zero]
      omega
    · rw [Nat.log2_lt (Nat.ne_of_gt positive), Nat.pow_add]
      exact small
  simp only [Format.targetExponent, totalExponent, mantissaBits_eq, Format.minExponent]
  omega

/-- A number that is more than half a unit below two to `bound + 53` is still below it when its last
`k` bits have been rounded off. -/
private theorem targetExponent_rounded_le {m r k : Nat} {e bound : Int} (least : -1074 ≤ bound)
    (order : e + k ≤ bound) (small : 2 * m < (2 ^ 54 - 1) * 2 ^ (bound - e).toNat)
    (rounded : 2 * (r * 2 ^ k) ≤ 2 * m + 2 ^ k) :
    Format.binary64.targetExponent (totalExponent r (e + k)) ≤ bound := by
  refine targetExponent_le least order ?_
  have room : (bound - e).toNat = k + (bound - (e + k)).toNat := by omega
  rw [room, Nat.pow_add] at small
  have unit := Nat.two_pow_pos (bound - (e + k)).toNat
  generalize 2 ^ (bound - (e + k)).toNat = b at small unit ⊢
  generalize 2 ^ k = a at small rounded
  refine Nat.lt_of_not_le fun large => ?_
  have product : 2 ^ 53 * b * a ≤ r * a := Nat.mul_le_mul_right a large
  have least : a ≤ a * b := Nat.le_mul_of_pos_right a unit
  rw [Nat.mul_assoc, Nat.mul_comm b a] at product
  omega

private theorem finiteOrZero_within {sign : Sign} {m : Nat} {e bound : Int} (order : e ≤ bound) :
    ExponentWithin bound
      (if h : m = 0 then .zero sign else .finite sign m e (Nat.pos_of_ne_zero h)) := by
  by_cases zero : m = 0
  · rw [dif_pos zero]
    trivial
  · rw [dif_neg zero]
    exact order

private theorem roundWithAccuracy_within {sign : Sign} {m : Nat} {e bound : Int}
    (least : -1074 ≤ bound)
    (order : e ≤ bound) (small : 2 * m < (2 ^ 54 - 1) * 2 ^ (bound - e).toNat) :
    ExponentWithin bound (roundWithAccuracy .binary64 sign m e .exact) := by
  have before : Format.binary64.targetExponent (totalExponent m e) ≤ bound :=
    targetExponent_le least order (by omega)
  have after := targetExponent_rounded_le least (by omega) small
    (roundedMantissa_shift_le m (Format.binary64.targetExponent (totalExponent m e) - e).toNat)
  refine finiteOrZero_within ?_
  omega

private theorem round_within {sign : Sign} {m : Nat} {e bound : Int} (least : -1074 ≤ bound)
    (order : e ≤ bound) (small : 2 * m < (2 ^ 54 - 1) * 2 ^ (bound - e).toNat) :
    ExponentWithin bound (UnpackedFloat.round .binary64 sign m e) := by
  simp only [UnpackedFloat.round, decreaseExponent]
  generalize (e - Format.binary64.targetExponent (totalExponent m e)).toNat = k
  refine roundWithAccuracy_within least (by omega) ?_
  have room : (bound - (e - k)).toNat = (bound - e).toNat + k := by omega
  rw [room, Nat.pow_add, ← Nat.mul_assoc, Nat.shiftLeft_eq, ← Nat.mul_assoc]
  exact Nat.mul_lt_mul_of_pos_right small (Nat.two_pow_pos k)

private theorem normalize_within {m : Int} {e bound : Int} {zeroSign : Sign} (least : -1074 ≤ bound)
    (order : e ≤ bound) (small : 2 * m.natAbs < (2 ^ 54 - 1) * 2 ^ (bound - e).toNat) :
    ExponentWithin bound (UnpackedFloat.normalize .binary64 m e zeroSign) := by
  rw [UnpackedFloat.normalize]
  split
  next below =>
    have negative : (-m).toNat = m.natAbs := by
      have order := Int.compare_eq_lt.1 below
      omega
    exact round_within least order (by rwa [negative])
  next => trivial
  next above =>
    have positive : m.toNat = m.natAbs := by
      have order := Int.compare_eq_gt.1 above
      omega
    exact round_within least order (by rwa [positive])

private theorem natAbs_apply_add_le (s s' : Sign) (m m' : Nat) :
    (s.apply m + s'.apply m').natAbs ≤ m + m' := by
  cases s <;> cases s' <;> simp only [Sign.apply] <;> omega

/-- The exact sum of a float and a float of a much smaller exponent is rounded within the bound. -/
private theorem add_within {x y : UnpackedFloat} {bound lesser : Int} (least : -1074 ≤ bound)
    (apart : lesser + 54 ≤ bound) (mantissas : MantissaWithin x ∧ MantissaWithin y)
    (left : ExponentWithin bound x) (right : ExponentWithin lesser y) :
    ExponentWithin bound (UnpackedFloat.add .binary64 x y) := by
  cases x with
  | infinity s => exact left.elim
  | notANumber => exact left.elim
  | zero s =>
    cases y with
    | infinity s' => exact right.elim
    | notANumber => exact right.elim
    | zero s' =>
      change ExponentWithin bound (if s == s' then .zero s else .zero .positive)
      split <;> trivial
    | finite s' m e positive => exact Int.le_trans right (by omega)
  | finite s m e positive =>
    cases y with
    | infinity s' => exact right.elim
    | notANumber => exact right.elim
    | zero s' => exact left
    | finite s' m' e' positive' =>
      obtain ⟨small, small'⟩ : m < 2 ^ 53 ∧ m' < 2 ^ 53 := mantissas
      change e ≤ bound at left
      change e' ≤ lesser at right
      refine normalize_within least (by omega) ?_
      refine Nat.lt_of_le_of_lt (Nat.mul_le_mul_left 2 (natAbs_apply_add_le s s' _ _)) ?_
      simp only [Nat.shiftLeft_eq]
      obtain ⟨room, hroom⟩ : ∃ room, (bound - min e e').toNat = room := ⟨_, rfl⟩
      rw [hroom]
      -- At the lesser exponent the first number leaves a unit of the bound free, and the second one
      -- is below half of that.
      have here : m * 2 ^ (e - min e e').toNat ≤ (2 ^ 53 - 1) * 2 ^ room :=
        Nat.mul_le_mul (by omega) (Nat.pow_le_pow_right (by decide) (by omega))
      have there : 2 * (m' * 2 ^ (e' - min e e').toNat) < 2 ^ room :=
        calc 2 * (m' * 2 ^ (e' - min e e').toNat)
            = 2 * m' * 2 ^ (e' - min e e').toNat := (Nat.mul_assoc _ _ _).symm
          _ < 2 ^ 54 * 2 ^ (e' - min e e').toNat :=
              Nat.mul_lt_mul_of_pos_right (by omega) (Nat.two_pow_pos _)
          _ = 2 ^ (54 + (e' - min e e').toNat) := (Nat.pow_add _ _ _).symm
          _ ≤ 2 ^ room := Nat.pow_le_pow_right (by decide) (by omega)
      omega

theorem exponentBits_eq (f : Float) :
    exponentBits f = (@unpackExponent .binary64 f.toModel.toBits.toBitVec).toNat := by
  change f.toModel.toBits.toNat / Nat.pow 2 52 % 2048 = _
  simp [unpackExponent, BitVec.extractLsb, BitVec.extractLsb', Nat.shiftRight_eq_div_pow]

private theorem exponentBits_pack_le {x : UnpackedFloat} {bound : Int} (least : -1074 ≤ bound)
    (greatest : bound ≤ 971) (within : ExponentWithin bound x) :
    exponentBits (.ofModel (Float.Model.pack x)) ≤ (bound + 1075).toNat := by
  rw [exponentBits_eq]
  change (@unpackExponent .binary64 (UnpackedFloat.pack .binary64 x)).toNat ≤ _
  cases x with
  | infinity s => exact within.elim
  | notANumber => exact within.elim
  | zero s =>
    change (@unpackExponent .binary64 (packedZero .binary64 s)).toNat ≤ _
    simp [packedZero]
  | finite s m e positive =>
    change e ≤ bound at within
    have fits : ¬ 2 ^ Format.binary64.exponentBits ≤ (e + Format.binary64.exponentBias +
        Format.binary64.mantissaBitsWithoutImplicit).toNat + 1 := by
      change ¬ 2 ^ 11 ≤ (e + 1023 + 52).toNat + 1
      omega
    delta UnpackedFloat.pack
    dsimp only
    rw [if_neg fits]
    by_cases normal : m.log2 + 1 = Format.binary64.mantissaBits
    · rw [if_pos normal, unpackExponent_packComponents, BitVec.toNat_ofNat]
      refine Nat.le_trans (Nat.mod_le _ _) ?_
      change (e + 1023 + 52).toNat ≤ (bound + 1075).toNat
      omega
    · rw [if_neg normal, unpackExponent_packComponents]
      exact Nat.zero_le _

private theorem unpack_within {f : Float} {bits : Nat} (small : exponentBits f ≤ bits)
    (positive : 1 ≤ bits)
    (finite : bits ≤ 2046) :
    MantissaWithin f.toModel.unpack ∧ ExponentWithin (bits - 1075) f.toModel.unpack := by
  rw [exponentBits_eq] at small
  change MantissaWithin (UnpackedFloat.unpack .binary64 f.toModel.toBits.toBitVec) ∧
    ExponentWithin _ (UnpackedFloat.unpack .binary64 f.toModel.toBits.toBitVec)
  generalize f.toModel.toBits.toBitVec = b at small
  have proper : @unpackExponent .binary64 b ≠ -1#_ := by
    intro ones
    rw [ones] at small
    change 2047 ≤ bits at small
    omega
  delta UnpackedFloat.unpack
  dsimp only
  rw [if_neg proper]
  by_cases subnormal : @unpackExponent .binary64 b = 0#_
  · rw [if_pos subnormal]
    by_cases zero : @unpackMantissa .binary64 b = 0#_
    · rw [dif_pos zero]
      exact ⟨trivial, trivial⟩
    · rw [dif_neg zero]
      have short := (@unpackMantissa .binary64 b).isLt
      change _ < 2 ^ 52 at short
      have none : (@unpackExponent .binary64 b).toNat = 0 := by rw [subnormal]; rfl
      refine ⟨Nat.lt_trans short (by decide), ?_⟩
      change ((@unpackExponent .binary64 b).toNat : Int) - (1023 + 52) + 1 ≤ _
      omega
  · rw [if_neg subnormal]
    refine ⟨(1#1 ++ @unpackMantissa .binary64 b).isLt, ?_⟩
    change ((@unpackExponent .binary64 b).toNat : Int) - (1023 + 52) ≤ _
    omega

theorem isFinite_iff (f : Float) : isFinite f = true ↔ exponentBits f ≤ 2046 := by
  have bits : exponentBits f < 2048 := Nat.mod_lt _ (by decide)
  simp only [isFinite, bne_iff_ne]
  omega

private theorem ExponentWithin.neg {x : UnpackedFloat} {bound : Int}
    (within : ExponentWithin bound x) :
    ExponentWithin bound x.neg := by
  cases x <;> exact within

def one : UnpackedFloat := .finite .positive (2 ^ 52) (-52) (by decide)

private theorem mul_one_within {x : UnpackedFloat} {bound : Int} (least : -1074 ≤ bound)
    (mantissa : MantissaWithin x) (within : ExponentWithin bound x) :
    ExponentWithin bound (UnpackedFloat.mul .binary64 x one) := by
  cases x with
  | infinity s => exact within.elim
  | notANumber => exact within.elim
  | zero s => trivial
  | finite s m e positive =>
    change m < 2 ^ 53 at mantissa
    change e ≤ bound at within
    refine roundWithAccuracy_within least (by omega) ?_
    have room : (bound - (e + -52)).toNat = 52 + (bound - e).toNat := by omega
    have unit := Nat.two_pow_pos (bound - e).toNat
    rw [room, Nat.pow_add]
    calc 2 * (m * 2 ^ 52) = 2 * m * 2 ^ 52 := (Nat.mul_assoc _ _ _).symm
      _ < (2 ^ 54 - 1) * 2 ^ 52 := by omega
      _ ≤ (2 ^ 54 - 1) * (2 ^ 52 * 2 ^ (bound - e).toNat) :=
          Nat.mul_le_mul_left _ (Nat.le_mul_of_pos_right _ unit)

private theorem exponentBits_ofUInt64_le (n : UInt64) : exponentBits n.toFloat ≤ 1087 := by
  have small := n.toNat_lt
  have within : ExponentWithin 12 (UnpackedFloat.ofUInt64 .binary64 n) := by
    refine normalize_within (by decide) (by decide) ?_
    change 2 * (n.toNat : Int).natAbs < (2 ^ 54 - 1) * 2 ^ 12
    omega
  exact exponentBits_pack_le (by decide) (by decide) within

private theorem ofScientific_zero {n : Nat} (positive : n ≠ 0) :
    UnpackedFloat.ofScientific .binary64 n 0 =
      roundWithAccuracy .binary64 .positive (n * 2 ^ 53) (-53) .exact := by
  have low : ¬ (0 : Int) < -((2 ^ Format.binary64.exponentBits : Int) + n.log2) := by
    change ¬ (0 : Int) < -(2048 + n.log2)
    omega
  have high : ¬ (0 : Int) > 2 ^ Format.binary64.exponentBits := by decide
  rw [UnpackedFloat.ofScientific, dif_neg positive, if_neg high, if_neg low,
    if_pos (Int.le_refl 0)]
  change roundWithAccuracy .binary64 .positive ((n <<< 53) * 1) (-53 + 0) .exact = _
  rw [Nat.shiftLeft_eq, Nat.mul_one, Int.add_zero]

/-- Integers of at most 53 bits are turned into a float as words, which is then multiplied by one. -/
theorem ofNat_of_short {n : Nat} (short : n < 2 ^ 53) :
    Float.ofNat n = n.toUInt64.toFloat * Float.ofBits 0x3FF0000000000000 := by
  change Float.ofScientific n false 0 = _
  rw [Float.ofScientific, dif_pos ⟨short, by decide⟩]
  rfl

theorem ofNat_of_long {n : Nat} (long : 2 ^ 53 ≤ n) : Float.ofNat n =
    .ofModel (Float.Model.pack
      (roundWithAccuracy .binary64 .positive (n * 2 ^ 53) (-53) .exact)) := by
  change Float.ofScientific n false 0 = _
  rw [Float.ofScientific, dif_neg fun fits => Nat.not_lt.2 long fits.1,
    ← ofScientific_zero (by omega)]
  rfl

private theorem exponentBits_ofNat_le {n : Nat} (small : n ≤ 2 ^ 64) :
    exponentBits (Float.ofNat n) ≤ 1087 := by
  by_cases short : n < 2 ^ 53
  · obtain ⟨mantissa, exponent⟩ :=
      unpack_within (exponentBits_ofUInt64_le n.toUInt64) (by decide) (by decide)
    have within :
        ExponentWithin 12 (UnpackedFloat.mul .binary64 n.toUInt64.toFloat.toModel.unpack one) :=
      mul_one_within (by decide) mantissa exponent
    rw [ofNat_of_short short]
    exact exponentBits_pack_le (by decide) (by decide) within
  · have within : ExponentWithin 12
        (roundWithAccuracy .binary64 .positive (n * 2 ^ 53) (-53) .exact) := by
      refine roundWithAccuracy_within (by decide) (by decide) ?_
      rw [show (12 - -53 : Int).toNat = 65 from rfl]
      omega
    rw [ofNat_of_long (Nat.not_lt.1 short)]
    exact exponentBits_pack_le (by decide) (by decide) within

/-- A 64-bit integer, signed or not, is finite as a float, and far from the greatest floats. -/
theorem exponentBits_ofInt_le {n : Int} (small : n.natAbs ≤ 2 ^ 64) :
    exponentBits (ofInt n) ≤ 1087 := by
  cases n with
  | ofNat n => exact exponentBits_ofNat_le small
  | negSucc n =>
    obtain ⟨-, exponent⟩ := unpack_within (exponentBits_ofNat_le small) (by decide) (by decide)
    exact exponentBits_pack_le (by decide) (by decide) exponent.neg

theorem isFinite_add_ofInt {f : Float} (finite : isFinite f = true) {n : Int}
    (small : n.natAbs ≤ 2 ^ 63) : isFinite (f + ofInt n) = true := by
  rw [isFinite_iff] at finite ⊢
  obtain ⟨mantissa, exponent⟩ := unpack_within finite (by decide) (by decide)
  obtain ⟨mantissa', exponent'⟩ :=
    unpack_within (exponentBits_ofInt_le (n := n) (by omega)) (by decide) (by decide)
  have within : ExponentWithin 971
      (UnpackedFloat.add .binary64 f.toModel.unpack (ofInt n).toModel.unpack) :=
    add_within (by decide) (by decide) ⟨mantissa, mantissa'⟩ exponent exponent'
  exact exponentBits_pack_le (by decide) (by decide) within

end GuildSandbox.Number.Binary64
