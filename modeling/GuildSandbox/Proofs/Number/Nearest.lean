import GuildSandbox.Proofs.Number.Packing

set_option autoImplicit false
set_option relaxedAutoImplicit false

namespace GuildSandbox.Number.Binary64

open Float.Model Float.Model.UnpackedFloat

/-- The bits that were shifted out below the round bit are kept as whether there were any. -/
theorem shift_stickyBit (m k : Nat) :
    (ExtendedMantissa.ofMantissaAndAccuracy m .exact >>> k).stickyBit = (2 * m % 2 ^ k != 0) := by
  induction k with
  | zero => rw [Nat.pow_zero, Nat.mod_one]; rfl
  | succ k ih =>
    have value := shift_mantissa m k
    change (ExtendedMantissa.shiftRightOne ((_ : ExtendedMantissa) >>> k)).stickyBit = _
    rw [ExtendedMantissa.shiftRightOne, ih, Nat.mod_pow_succ, ← value]
    generalize ExtendedMantissa.ofMantissaAndAccuracy m .exact >>> k = em
    cases em.roundBit <;> simp

private theorem le_roundedMantissa_shift (m k : Nat) :
    2 * m ≤ 2 * ((ExtendedMantissa.ofMantissaAndAccuracy m .exact >>> k).roundedMantissa * 2 ^ k) +
      2 ^ k := by
  have value := shift_mantissa m k
  have sticky := shift_stickyBit m k
  have whole := Nat.div_add_mod (2 * m) (2 ^ k)
  have unit := Nat.two_pow_pos k
  have rest := Nat.mod_lt (2 * m) unit
  rw [← value] at whole
  generalize ExtendedMantissa.ofMantissaAndAccuracy m .exact >>> k = em at sticky whole ⊢
  obtain ⟨q, round, bit⟩ := em
  cases round with
  | false =>
    have down : (ExtendedMantissa.mk q false bit).roundedMantissa = q := by cases bit <;> rfl
    simp only [Bool.toNat_false] at whole
    rw [down]
    linarith
  | true =>
    simp only [Bool.toNat_true] at whole
    cases bit with
    | false =>
      have half : 2 * m % 2 ^ k = 0 := by simpa using sticky.symm
      have kept : q ≤ (ExtendedMantissa.mk q true false).roundedMantissa := Nat.le_add_right _ _
      have product := Nat.mul_le_mul_right (2 ^ k) kept
      linarith
    | true =>
      have up : (ExtendedMantissa.mk q true true).roundedMantissa = q + 1 := rfl
      rw [up]
      linarith

theorem shiftToTargetExponent_eq {m k : Nat} {e : Int} (bits : m.log2 = 52 + k)
    (least : -1074 ≤ e + k) :
    shiftToTargetExponent .binary64 m e .exact =
      (ExtendedMantissa.ofMantissaAndAccuracy m .exact >>> k, e + k) := by
  have target : Format.binary64.targetExponent (totalExponent m e) = e + k := by
    simp only [Format.targetExponent, totalExponent, mantissaBits_eq, Format.minExponent, bits]
    omega
  rw [shiftToTargetExponent, target, shiftToExponent]
  simp

theorem log2_mul_two_pow {n : Nat} (nonzero : n ≠ 0) (k : Nat) : (n * 2 ^ k).log2 = n.log2 + k := by
  induction k with
  | zero => rw [Nat.pow_zero, Nat.mul_one, Nat.add_zero]
  | succ k ih =>
    have product : n * 2 ^ k ≠ 0 := Nat.mul_ne_zero nonzero (Nat.two_pow_pos k).ne'
    rw [Nat.pow_succ, ← Nat.mul_assoc, Nat.mul_comm, Nat.log2_two_mul product, ih, Nat.add_assoc]

theorem shiftToTargetExponent_of_short {m : Nat} {e : Int} (leading : 2 ^ 52 ≤ m) (short : m < 2 ^ 53)
    (least : -1074 ≤ e) : shiftToTargetExponent .binary64 m e .exact = (⟨m, false, false⟩, e) := by
  have bits : m.log2 = 52 + 0 := (Nat.log2_eq_iff (by omega)).2 ⟨leading, short⟩
  rw [shiftToTargetExponent_eq bits (by omega), Int.natCast_zero, Int.add_zero]
  rfl

private theorem shiftToTargetExponent_of_carry {e : Int} (least : -1074 ≤ e) :
    shiftToTargetExponent .binary64 (2 ^ 53) e .exact = (⟨2 ^ 52, false, false⟩, e + 1) :=
  shiftToTargetExponent_eq (k := 1) Nat.log2_two_pow (by omega)

/-- A number of 53 bits and more is rounded to 53 bits, and by at most half a unit of the last one. -/
private theorem roundWithAccuracy_near {m k : Nat} {e : Int} (bits : m.log2 = 52 + k)
    (least : -1074 ≤ e + k)
    (greatest : e + k ≤ 970) :
    ∃ p : Parts, ∃ r : Nat, roundWithAccuracy .binary64 .positive m e .exact = p.unpacked ∧
      p.Normal ∧ p.exact = r * 2 ^ (e + k) ∧
      2 * (r * 2 ^ k) ≤ 2 * m + 2 ^ k ∧ 2 * m ≤ 2 * (r * 2 ^ k) + 2 ^ k := by
  have nonzero : m ≠ 0 := by
    rintro rfl
    rw [Nat.log2_zero] at bits
    omega
  obtain ⟨low, high⟩ := (Nat.log2_eq_iff nonzero).1 bits
  have low : 2 ^ 52 * 2 ^ k ≤ m := by rwa [← Nat.pow_add]
  have high : m < 2 ^ 53 * 2 ^ k := by rwa [Nat.add_right_comm, Nat.pow_add] at high
  have below := roundedMantissa_shift_le m k
  have above := le_roundedMantissa_shift m k
  have first := shiftToTargetExponent_eq bits least
  generalize ExtendedMantissa.ofMantissaAndAccuracy m .exact >>> k = em at first below above
  have unit := Nat.two_pow_pos k
  generalize 2 ^ k = u at low high below above unit ⊢
  have leading : 2 ^ 52 ≤ em.roundedMantissa := by
    by_contra short
    have product := Nat.mul_le_mul_right u (Nat.not_le.1 short)
    linarith
  have rounded : em.roundedMantissa ≤ 2 ^ 53 := by
    by_contra long
    have product := Nat.mul_le_mul_right u (Nat.not_le.1 long)
    linarith
  rcases Nat.lt_or_eq_of_le rounded with short | carry
  · have second := shiftToTargetExponent_of_short leading short least
    refine ⟨⟨false, em.roundedMantissa, e + k⟩, _, ?_, ?_, rfl, below, above⟩
    · rw [roundWithAccuracy, first]
      dsimp only
      rw [second]
      rfl
    · exact ⟨⟨short, least, by simp only; omega⟩, fun _ => leading⟩
  · have second := shiftToTargetExponent_of_carry least
    refine ⟨⟨false, 2 ^ 52, e + k + 1⟩, _, ?_, ?_, ?_, below, above⟩
    · rw [roundWithAccuracy, first]
      dsimp only
      rw [carry, second]
      rfl
    · refine ⟨⟨?_, ?_, ?_⟩, fun _ => Nat.le_refl _⟩ <;> simp only <;> omega
    · simp [Parts.exact, Parts.magnitude, carry, zpow_add_one₀]
      ring

private theorem abs_sub_le_of_multiple {r z : ℤ} {u x : ℚ} (near : |r * u - x| ≤ u / 2) :
    |r * u - x| ≤ |z * u - x| := by
  by_cases same : z = r
  · rw [same]
  · have positive : 0 ≤ u := by linarith [abs_nonneg (r * u - x)]
    have apart : (1 : ℚ) ≤ |(z - r : ℤ)| := by exact_mod_cast Int.one_le_abs (sub_ne_zero.2 same)
    have step : u ≤ |z * u - r * u| := by
      rw [← sub_mul, abs_mul, abs_of_nonneg positive]
      push_cast at apart
      exact le_mul_of_one_le_left positive apart
    have triangle := abs_sub_le (z * u) x (r * u)
    rw [abs_sub_comm x] at triangle
    linarith

private theorem Parts.exists_exact_eq {p : Parts} {e : Int} (order : e ≤ p.exponent) :
    ∃ z : ℤ, p.exact = z * 2 ^ e := by
  obtain ⟨k, exponent⟩ := Int.le.dest order
  have magnitude : p.magnitude = (p.mantissa * 2 ^ k : ℤ) * 2 ^ e := by
    rw [Parts.magnitude, ← exponent, zpow_add₀ (by norm_num), zpow_natCast]
    push_cast
    ring
  rw [exact, magnitude]
  split
  · exact ⟨-(p.mantissa * 2 ^ k), by push_cast; ring⟩
  · exact ⟨_, rfl⟩

private theorem abs_sub_le_of_float {r : ℤ} {e : Int} {x : ℚ} (near : |r * 2 ^ e - x| ≤ 2 ^ e / 2)
    (large : 2 ^ 52 * 2 ^ e ≤ x) {p : Parts} (normal : p.Normal) :
    |r * 2 ^ e - x| ≤ |p.exact - x| := by
  rcases lt_or_ge p.exponent e with below | above
  · have magnitude := Parts.magnitude_lt normal below
    have least : p.exact < 2 ^ 52 * 2 ^ e := by
      rw [Parts.exact]
      split <;> linarith [p.magnitude_nonneg]
    calc |r * 2 ^ e - x| ≤ |(2 ^ 52 : ℤ) * 2 ^ e - x| := abs_sub_le_of_multiple near
      _ = x - 2 ^ 52 * 2 ^ e := by
          rw [Int.cast_pow, Int.cast_ofNat, abs_sub_comm, abs_of_nonneg (sub_nonneg.2 large)]
      _ ≤ x - p.exact := by linarith
      _ ≤ |p.exact - x| := by rw [abs_sub_comm]; exact le_abs_self _
  · obtain ⟨z, value⟩ := p.exists_exact_eq above
    rw [value]
    exact abs_sub_le_of_multiple near

/-- The float is finite, and no other one is nearer to the number. -/
structure IsNearest (f : Float) (x : ℚ) : Prop where
  finite : isFinite f = true
  near : ∀ g, isFinite g = true → |exact f - x| ≤ |exact g - x|

def IsRounding (f : Float) (x : ℚ) : Prop :=
  ∃ p : Parts, f = .ofModel (Float.Model.pack p.unpacked) ∧ p.Normal ∧
    ∀ q : Parts, q.Normal → |p.exact - x| ≤ |q.exact - x|

theorem IsRounding.isNearest {f : Float} {x : ℚ} (rounding : IsRounding f x) : IsNearest f x := by
  obtain ⟨p, rfl, normal, near⟩ := rounding
  have parts := parts?_pack normal
  refine ⟨isFinite_of_parts? parts, fun g finite => ?_⟩
  obtain ⟨q, other⟩ := exists_parts?_of_isFinite finite
  rw [exact_of_parts? parts, exact_of_parts? other]
  exact near q (normal_of_parts? other)

theorem isRounding_ofNat_of_long {n : Nat} (large : 2 ^ 53 ≤ n) (small : n < 2 ^ 64) :
    IsRounding (Float.ofNat n) n := by
  have positive : n ≠ 0 := by omega
  have long : 53 ≤ n.log2 := (Nat.le_log2 positive).2 large
  have short : n.log2 < 64 := (Nat.log2_lt positive).2 small
  obtain ⟨k, bits⟩ : ∃ k, n.log2 = 52 + k := ⟨n.log2 - 52, by omega⟩
  have low := ((Nat.log2_eq_iff positive).1 bits).1
  have scaled : (n * 2 ^ 53).log2 = 52 + (k + 53) := by
    rw [log2_mul_two_pow positive, bits, Nat.add_assoc]
  obtain ⟨p, r, rounded, normal, value, below, above⟩ :=
    roundWithAccuracy_near (e := -53) scaled (by omega) (by omega)
  have unit : (-53 : Int) + ((k + 53 : ℕ) : Int) = k := by omega
  rw [unit] at value
  refine ⟨p, by rw [ofNat_of_long large, rounded], normal, fun q other => ?_⟩
  rw [value]
  refine abs_sub_le_of_float (r := r) ?_ ?_ other
  · rw [Nat.pow_add] at below above
    rw [zpow_natCast, abs_le]
    have below : (2 * (r * (2 ^ k * 2 ^ 53)) : ℚ) ≤ 2 * (n * 2 ^ 53) + 2 ^ k * 2 ^ 53 := by
      exact_mod_cast below
    have above : (2 * (n * 2 ^ 53) : ℚ) ≤ 2 * (r * (2 ^ k * 2 ^ 53)) + 2 ^ k * 2 ^ 53 := by
      exact_mod_cast above
    generalize (2 : ℚ) ^ k = u at below above ⊢
    push_cast
    constructor <;> linarith
  · rw [zpow_natCast, ← pow_add]
    exact_mod_cast low

theorem isNearest_ofInt {n : Nat} (large : 2 ^ 53 ≤ n) (small : n < 2 ^ 64) :
    IsNearest (ofInt n) n :=
  (isRounding_ofNat_of_long large small).isNearest

end GuildSandbox.Number.Binary64
