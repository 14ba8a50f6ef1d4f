import GuildSandbox.Proofs.Number.Length
import GuildSandbox.Proofs.Number.Nearest
import GuildSandbox.Proofs.Number.Ratio

set_option autoImplicit false
set_option relaxedAutoImplicit false

namespace GuildSandbox.Number

/-- A power of ten below a power of two, up to four bits. Three digits take no more than ten bits,
and 28 digits no less than 93. -/
private theorem ten_zpow_le {q b : Int} (order : 100000 * q ≤ 30103 * b) (least : -1100 ≤ b)
    (greatest : b ≤ 1100) : (10 : ℚ) ^ q ≤ 2 ^ (b + 4) := by
  have power {k : ℕ} (nonzero : k ≠ 0) (le : ((10 : ℚ) ^ q) ^ k ≤ ((2 : ℚ) ^ (b + 4)) ^ k) :
      (10 : ℚ) ^ q ≤ 2 ^ (b + 4) :=
    (pow_le_pow_iff_left₀ (by positivity) (by positivity) nonzero).1 le
  rcases Int.le_total 0 q with up | down
  · obtain ⟨n, rfl⟩ := Int.eq_ofNat_of_zero_le up
    refine power (k := 3) (by decide) ?_
    calc ((10 : ℚ) ^ (n : ℤ)) ^ 3 = (10 ^ 3) ^ n := by rw [zpow_natCast, pow_right_comm]
      _ ≤ (2 ^ 10) ^ n := by gcongr; norm_num
      _ = 2 ^ (10 * n : ℤ) := by rw [← pow_mul]; exact_mod_cast rfl
      _ ≤ 2 ^ ((b + 4) * 3) := zpow_le_zpow_right₀ one_le_two (by omega)
      _ = ((2 : ℚ) ^ (b + 4)) ^ 3 := by rw [zpow_mul]; rfl
  · obtain ⟨n, rfl⟩ : ∃ n : ℕ, q = -n := ⟨(-q).toNat, by omega⟩
    refine power (k := 28) (by decide) ?_
    calc ((10 : ℚ) ^ (-n : ℤ)) ^ 28 = ((10 ^ 28) ^ n)⁻¹ := by
          rw [zpow_neg, zpow_natCast, inv_pow, pow_right_comm]
      _ ≤ ((2 ^ 93) ^ n)⁻¹ := by gcongr; norm_num
      _ = 2 ^ (-(93 * n) : ℤ) := by rw [← pow_mul, zpow_neg]; exact_mod_cast rfl
      _ ≤ 2 ^ ((b + 4) * 28) := zpow_le_zpow_right₀ one_le_two (by omega)
      _ = ((2 : ℚ) ^ (b + 4)) ^ 28 := by rw [zpow_mul]; rfl

namespace Rounding

variable {r : Rounding} {k : Int} {d tries : Nat}

private theorem holds_of_onGrid? (hit : r.onGrid? k = some d) : r.holds d k = true := by
  unfold onGrid? at hit
  simp only at hit
  split at hit
  next low high =>
    split at hit
    · cases hit; exact low
    · split at hit
      · cases hit; exact high
      · split at hit
        · cases hit; exact low
        · cases hit; exact high
  next low _ => cases hit; exact low
  next _ high => cases hit; exact high
  next => cases hit

private theorem holds_search {j : Nat} (hit : (r.onGrid? (k - j)).isSome) (within : j < tries) :
    r.holds (r.search tries k).1 (r.search tries k).2 = true := by
  induction tries generalizing k j with
  | zero => exact absurd within (Nat.not_lt_zero j)
  | succ tries ih =>
    rw [search]
    split
    next d here => exact holds_of_onGrid? here
    next missed =>
      obtain ⟨i, rfl⟩ : ∃ i, j = i + 1 := by
        refine Nat.exists_eq_add_one_of_ne_zero ?_
        rintro rfl
        rw [Int.natCast_zero, Int.sub_zero, missed] at hit
        cases hit
      refine ih (j := i) ?_ (Nat.lt_of_succ_lt_succ within)
      have same : k - 1 - (i : Int) = k - (i + 1 : Nat) := by omega
      rwa [same]

end Rounding

namespace Binary64.Parts

variable {p : Parts} {k : Int} {d : Nat}

private def lowQuarters (p : Parts) : Nat :=
  if p.mantissa = Nat.pow 2 52 ∧ p.exponent ≠ -1074 then 4 * p.mantissa - 1 else 4 * p.mantissa - 2

private theorem cast_lowQuarters (nonzero : p.mantissa ≠ 0) :
    (p.lowQuarters : ℚ) = 4 * (p.mantissa - p.marginBelow) := by
  rw [lowQuarters, marginBelow, Nat.pow_eq]
  split <;> rw [Nat.cast_sub (by omega)] <;> push_cast <;> ring

/-- Comparing quarters of the last place of a float with tens on a grid, over a common denominator. -/
private theorem cast_scaled (p : Parts) (d : Nat) (k : Int) (quarters : Nat) :
    (quarters / 4 * 2 ^ p.exponent : ℚ) * (4 * 2 ^ (-p.exponent).toNat * 10 ^ (-k).toNat : ℕ) =
        (quarters * Nat.pow 2 p.exponent.toNat * Nat.pow 10 (-k).toNat : ℕ) ∧
      (d * 10 ^ k : ℚ) * (4 * 2 ^ (-p.exponent).toNat * 10 ^ (-k).toNat : ℕ) =
        (d * Nat.pow 10 k.toNat * p.rounding.denominator : ℕ) := by
  have denominator : p.rounding.denominator = 4 * 2 ^ (-p.exponent).toNat := rfl
  rw [zpow_eq_div 2, zpow_eq_div 10, denominator, Nat.pow_eq, Nat.pow_eq, Nat.pow_eq]
  push_cast
  constructor <;> field_simp

private theorem common_pos (e k : Int) : (0 : ℚ) < (4 * 2 ^ (-e).toNat * 10 ^ (-k).toNat : ℕ) := by
  have common : 0 < 4 * 2 ^ (-e).toNat * 10 ^ (-k).toNat := by positivity
  exact_mod_cast common

private theorem quarters_le_iff (p : Parts) (d : Nat) (k : Int) (quarters : Nat) :
    quarters * Nat.pow 2 p.exponent.toNat * Nat.pow 10 (-k).toNat ≤
        d * Nat.pow 10 k.toNat * p.rounding.denominator ↔
      (quarters / 4 * 2 ^ p.exponent : ℚ) ≤ d * 10 ^ k := by
  obtain ⟨left, right⟩ := cast_scaled p d k quarters
  rw [← Nat.cast_le (α := ℚ), ← left, ← right, mul_le_mul_iff_left₀ (common_pos _ _)]

private theorem le_quarters_iff (p : Parts) (d : Nat) (k : Int) (quarters : Nat) :
    d * Nat.pow 10 k.toNat * p.rounding.denominator ≤
        quarters * Nat.pow 2 p.exponent.toNat * Nat.pow 10 (-k).toNat ↔
      (d * 10 ^ k : ℚ) ≤ quarters / 4 * 2 ^ p.exponent := by
  obtain ⟨left, right⟩ := cast_scaled p d k quarters
  rw [← Nat.cast_le (α := ℚ), ← left, ← right, mul_le_mul_iff_left₀ (common_pos _ _)]

private theorem holds_iff (nonzero : p.mantissa ≠ 0) :
    p.rounding.holds d k = true ↔ p.Takes (d * 10 ^ k) := by
  have low : p.rounding.low = p.lowQuarters * Nat.pow 2 p.exponent.toNat := rfl
  have high : p.rounding.high = (4 * p.mantissa + 2) * Nat.pow 2 p.exponent.toNat := rfl
  have included : p.rounding.endsIncluded = (p.mantissa % 2 == 0) := rfl
  have least : (p.lowQuarters / 4 : ℚ) = p.mantissa - p.marginBelow := by
    rw [cast_lowQuarters nonzero]
    ring
  have greatest : ((4 * p.mantissa + 2 : ℕ) / 4 : ℚ) = p.mantissa + 1 / 2 := by
    push_cast
    ring
  have takes : p.Takes (d * 10 ^ k) ↔ _ ∧ _ ∧ (_ ∨ _ ∧ _) :=
    ⟨fun t => ⟨t.low, t.high, t.even⟩, fun ⟨low, high, even⟩ => ⟨low, high, even⟩⟩
  have low_le := quarters_le_iff p d k p.lowQuarters
  have le_low := le_quarters_iff p d k p.lowQuarters
  have high_le := quarters_le_iff p d k (4 * p.mantissa + 2)
  have le_high := le_quarters_iff p d k (4 * p.mantissa + 2)
  rw [least] at low_le le_low
  rw [greatest] at high_le le_high
  have low_lt := not_iff_not.2 le_low
  have lt_high := not_iff_not.2 high_le
  rw [not_le, not_le] at low_lt lt_high
  rw [takes, Rounding.holds, low, high, included]
  rcases Nat.mod_two_eq_zero_or_one p.mantissa with even | odd
  · simp only [even, beq_self_eq_true, if_true, Bool.and_eq_true, decide_eq_true_eq, low_le, le_high,
      true_or, and_true]
  · have weaker {a b c : ℚ} : a < b ∧ b < c ↔ a ≤ b ∧ b ≤ c ∧ a < b ∧ b < c :=
      ⟨fun ⟨above, below⟩ => ⟨above.le, below.le, above, below⟩, fun ⟨_, _, strict⟩ => strict⟩
    simp only [odd, Nat.reduceBEq, Bool.false_eq_true, if_false, Bool.and_eq_true, decide_eq_true_eq,
      low_lt, lt_high, one_ne_zero, false_or]
    exact weaker

private theorem isSome_onGrid? (nonzero : p.mantissa ≠ 0) (fine : (10 : ℚ) ^ k ≤ 2 ^ p.exponent / 4) :
    (p.rounding.onGrid? k).isSome := by
  obtain ⟨b, quotient⟩ : ∃ b, b = p.rounding.value * Nat.pow 10 (-k).toNat /
    (Nat.pow 10 k.toNat * p.rounding.denominator) := ⟨_, rfl⟩
  have margin := p.marginBelow_le
  have unit : (0 : ℚ) < 2 ^ p.exponent := by positivity
  have floor : (b * 10 ^ k : ℚ) ≤ p.mantissa * 2 ^ p.exponent ∧
      p.mantissa * 2 ^ p.exponent < ((b + 1 : ℕ) : ℚ) * 10 ^ k := by
    have step : 0 < Nat.pow 10 k.toNat * p.rounding.denominator :=
      Nat.mul_pos (Nat.pow_pos (by decide)) (Nat.mul_pos (by decide) (Nat.two_pow_pos _))
    have value : ((4 * p.mantissa : ℕ) / 4 : ℚ) = p.mantissa := by
      rw [Nat.cast_mul, Nat.cast_ofNat, mul_div_cancel_left₀ _ four_ne_zero]
    have below := le_quarters_iff p b k (4 * p.mantissa)
    have above := le_quarters_iff p (b + 1) k (4 * p.mantissa)
    rw [value, Nat.mul_assoc] at below above
    rw [← below, ← not_le, ← above, Nat.not_le, quotient]
    exact ⟨Nat.div_mul_le_self _ _, (Nat.lt_mul_div_succ _ step).trans_eq (Nat.mul_comm _ _)⟩
  have low : (p.mantissa - p.marginBelow) * 2 ^ p.exponent < b * 10 ^ k := by
    have step : (2 : ℚ) ^ p.exponent / 4 ≤ p.marginBelow * 2 ^ p.exponent := by
      rw [div_eq_inv_mul, ← one_div]
      gcongr
      exact margin.1
    push_cast at floor
    linarith
  have high : (b * 10 ^ k : ℚ) < (p.mantissa + 1 / 2) * 2 ^ p.exponent := by linarith
  have here : p.rounding.holds b k = true :=
    (holds_iff nonzero).2 ⟨low.le, high.le, .inr ⟨low, high⟩⟩
  rw [quotient] at here
  rw [Rounding.onGrid?]
  simp only [here]
  cases p.rounding.holds (_ + 1) k with
  | false => rfl
  | true =>
    simp only
    split
    · rfl
    · split
      · rfl
      · split <;> rfl

private theorem startExponent_eq (nonzero : p.mantissa ≠ 0) :
    p.rounding.startExponent = (p.mantissa.log2 + p.exponent) * 30103 / 100000 + 1 := by
  have value : p.rounding.value.log2 = p.mantissa.log2 + (2 + p.exponent.toNat) := by
    have same : p.rounding.value = p.mantissa * 2 ^ (2 + p.exponent.toNat) := by
      rw [Nat.pow_add]
      change 4 * p.mantissa * 2 ^ _ = _
      ring
    rw [same, log2_mul_two_pow nonzero]
  have denominator : p.rounding.denominator.log2 = 2 + (-p.exponent).toNat := by
    rw [denominator_eq, Nat.log2_two_pow]
  rw [Rounding.startExponent, Int.fdiv_eq_ediv_of_nonneg _ (by decide), value, denominator]
  congr 3
  omega

theorem takes_search (normal : p.Normal) (nonzero : p.mantissa ≠ 0) :
    p.Takes ((p.rounding.search 20 p.rounding.startExponent).1 *
      10 ^ (p.rounding.search 20 p.rounding.startExponent).2) := by
  have least := normal.least
  have greatest := normal.greatest
  have short : p.mantissa.log2 < 53 := (Nat.log2_lt nonzero).2 normal.mantissa
  have start := startExponent_eq nonzero
  refine (holds_iff nonzero).1 (Rounding.holds_search (j := 19) (isSome_onGrid? nonzero ?_) (by decide))
  have power := ten_zpow_le (q := p.rounding.startExponent - 1) (b := p.mantissa.log2 + p.exponent)
    (by omega) (by omega) (by omega)
  calc (10 : ℚ) ^ (p.rounding.startExponent - (19 : ℕ)) =
        10 ^ (p.rounding.startExponent - 1) / 10 ^ 18 := by
        rw [← zpow_natCast, ← zpow_sub₀ (by norm_num)]
        congr 1
        omega
    _ ≤ 2 ^ (p.mantissa.log2 + p.exponent + 4) / 2 ^ 59 := by
        gcongr
        norm_num
    _ ≤ 2 ^ (p.exponent + 57) / 2 ^ 59 := by
        gcongr ?_ / _
        exact zpow_le_zpow_right₀ one_le_two (by omega)
    _ = 2 ^ p.exponent / 4 := by
        rw [zpow_add₀ two_ne_zero]
        norm_num
        ring

end Binary64.Parts

end GuildSandbox.Number
