import GuildSandbox.Number.Literal
import GuildSandbox.Proofs.Number.Packing
import GuildSandbox.Proofs.Text.Digits

/-!
Ratios as floats.

Every float takes the numbers between the middles to its neighbours, and the middles too when its
mantissa is even. `parts?_ofRatio` states that a ratio is read as the float that takes it.
-/

set_option autoImplicit false
set_option relaxedAutoImplicit false

namespace GuildSandbox.Number

variable {n d m : Nat} {e : Int}

private theorem roundedQuotient_eq (positive : 0 < d) (low : 2 * (m * d) ≤ 2 * n + d)
    (high : 2 * n ≤ 2 * (m * d) + d)
    (even : m % 2 = 0 ∨ 2 * (m * d) < 2 * n + d ∧ 2 * n < 2 * (m * d) + d) :
    roundedQuotient n d = m := by
  have whole := Nat.div_add_mod n d
  have rest := Nat.mod_lt n positive
  rw [Nat.mul_comm] at whole
  rw [roundedQuotient]
  generalize n / d = q at whole ⊢
  generalize n % d = r at whole rest ⊢
  have least : q ≤ m := by
    by_contra beyond
    have product := Nat.mul_le_mul_right d (Nat.not_le.1 beyond)
    rw [Nat.succ_mul] at product
    omega
  have greatest : m ≤ q + 1 := by
    by_contra beyond
    have product := Nat.mul_le_mul_right d (Nat.not_le.1 beyond)
    rw [Nat.succ_mul, Nat.succ_mul] at product
    omega
  rcases Nat.lt_or_eq_of_le greatest with short | next
  · obtain rfl : q = m := Nat.le_antisymm least (Nat.le_of_lt_succ short)
    split
    · rfl
    · split <;> omega
  · subst next
    rw [Nat.succ_mul q d] at low high even
    split
    · omega
    · split <;> omega

theorem zpow_eq_div (b : ℚ) (k : ℤ) : b ^ k = b ^ k.toNat / b ^ (-k).toNat := by
  rcases Int.le_total 0 k with up | down
  · obtain ⟨n, rfl⟩ := Int.eq_ofNat_of_zero_le up
    simp
  · obtain ⟨n, rfl⟩ : ∃ n : ℕ, k = -n := ⟨(-k).toNat, by omega⟩
    simp

private theorem scale_pos (nonzero : d ≠ 0) (e : Int) : 0 < d * 2 ^ e.toNat :=
  Nat.mul_pos (Nat.pos_of_ne_zero nonzero) (Nat.two_pow_pos _)

private theorem cast_scaled (nonzero : d ≠ 0) (e : Int) :
    ((n * 2 ^ (-e).toNat : ℕ) : ℚ) * 2 ^ e = n / d * (d * 2 ^ e.toNat : ℕ) := by
  have denominator : (d : ℚ) ≠ 0 := by exact_mod_cast nonzero
  rw [zpow_eq_div]
  push_cast
  field_simp

private theorem lt_iff_cast (nonzero : d ≠ 0) (m : Nat) (e : Int) :
    n * 2 ^ (-e).toNat < m * (d * 2 ^ e.toNat) ↔ (n / d : ℚ) < m * 2 ^ e := by
  have unit : (0 : ℚ) < 2 ^ e := by positivity
  have positive : (0 : ℚ) < (d * 2 ^ e.toNat : ℕ) := by exact_mod_cast scale_pos nonzero e
  rw [← Nat.cast_lt (α := ℚ), ← mul_lt_mul_iff_left₀ unit, cast_scaled nonzero, Nat.cast_mul m,
    mul_right_comm, mul_lt_mul_iff_left₀ positive]

private theorem cast_log2_bounds (nonzero : n ≠ 0) :
    (2 : ℚ) ^ (n.log2 : ℤ) ≤ n ∧ (n : ℚ) < 2 ^ (n.log2 + 1 : ℤ) := by
  obtain ⟨low, high⟩ := (Nat.log2_eq_iff nonzero).1 rfl
  constructor
  · rw [zpow_natCast]
    exact_mod_cast low
  · exact_mod_cast high

private theorem lastExponent_spec (numerator : n ≠ 0) (denominator : d ≠ 0) :
    ∃ e, lastExponent n d = max e (-1074) ∧ (2 : ℚ) ^ (52 + e) ≤ n / d ∧
      (n / d : ℚ) < 2 ^ (53 + e) := by
  obtain ⟨low, high⟩ := cast_log2_bounds numerator
  obtain ⟨low', high'⟩ := cast_log2_bounds denominator
  have positive : (0 : ℚ) < d := by exact_mod_cast Nat.pos_of_ne_zero denominator
  have compared := lt_iff_cast (n := n) denominator (2 ^ 52) (n.log2 - d.log2 - 52)
  have place : ((2 ^ 52 : ℕ) : ℚ) * 2 ^ (n.log2 - d.log2 - 52 : ℤ) = 2 ^ (n.log2 - d.log2 : ℤ) := by
    rw [Nat.cast_pow, Nat.cast_ofNat, ← zpow_natCast, ← zpow_add₀ two_ne_zero]
    congr 1
    omega
  rw [place] at compared
  rw [lastExponent]
  split
  next short =>
    refine ⟨_, rfl, ?_, ?_⟩
    · rw [le_div_iff₀ positive]
      calc (2 : ℚ) ^ (52 + (n.log2 - d.log2 - 52 - 1) : ℤ) * d
          ≤ 2 ^ (52 + (n.log2 - d.log2 - 52 - 1) : ℤ) * 2 ^ (d.log2 + 1 : ℤ) := by gcongr
        _ = 2 ^ (n.log2 : ℤ) := by
            rw [← zpow_add₀ two_ne_zero]
            congr 1
            omega
        _ ≤ n := low
    · have same : (53 + (n.log2 - d.log2 - 52 - 1) : ℤ) = n.log2 - d.log2 := by omega
      rw [same]
      exact compared.1 short
  next long =>
    refine ⟨_, rfl, ?_, ?_⟩
    · have same : (52 + (n.log2 - d.log2 - 52) : ℤ) = n.log2 - d.log2 := by omega
      rw [same]
      exact not_lt.1 (mt compared.2 long)
    · rw [div_lt_iff₀ positive]
      calc (n : ℚ) < 2 ^ (n.log2 + 1 : ℤ) := high
        _ = 2 ^ (53 + (n.log2 - d.log2 - 52) : ℤ) * 2 ^ (d.log2 : ℤ) := by
            rw [← zpow_add₀ two_ne_zero]
            congr 1
            omega
        _ ≤ 2 ^ (53 + (n.log2 - d.log2 - 52) : ℤ) * d := by gcongr

private theorem lastExponent_eq (numerator : n ≠ 0) (denominator : d ≠ 0) (least : -1074 ≤ e)
    (high : (n / d : ℚ) < 2 ^ (53 + e)) (low : -1074 < e → (2 : ℚ) ^ (52 + e) ≤ n / d) :
    lastExponent n d = e := by
  obtain ⟨e', last, low', high'⟩ := lastExponent_spec numerator denominator
  have above : 52 + e' < 53 + e :=
    (zpow_lt_zpow_iff_right₀ one_lt_two).1 (low'.trans_lt high)
  rw [last]
  rcases Int.lt_or_eq_of_le least with normal | subnormal
  · have below : 52 + e < 53 + e' :=
      (zpow_lt_zpow_iff_right₀ one_lt_two).1 ((low normal).trans_lt high')
    omega
  · omega

private theorem roundedQuotient_scaled (denominator : d ≠ 0) (low : (m - 1 / 2) * 2 ^ e ≤ (n / d : ℚ))
    (high : (n / d : ℚ) ≤ (m + 1 / 2) * 2 ^ e)
    (even : m % 2 = 0 ∨ (m - 1 / 2) * 2 ^ e < (n / d : ℚ) ∧ (n / d : ℚ) < (m + 1 / 2) * 2 ^ e) :
    roundedQuotient (n * 2 ^ (-e).toNat) (d * 2 ^ e.toNat) = m := by
  have scaled := cast_scaled (n := n) denominator e
  have unit : (0 : ℚ) < 2 ^ e := by positivity
  have positive : 0 < d * 2 ^ e.toNat := scale_pos denominator e
  have cast : (0 : ℚ) < (d * 2 ^ e.toNat : ℕ) := by exact_mod_cast positive
  generalize n * 2 ^ (-e).toNat = a at scaled ⊢
  generalize d * 2 ^ e.toNat = b at scaled positive cast ⊢
  generalize (n / d : ℚ) = x at scaled low high even
  generalize (2 : ℚ) ^ e = u at scaled unit low high even
  have below (c : ℚ) : c * u ≤ x ↔ c * b ≤ a := by
    rw [← mul_le_mul_iff_left₀ cast, ← scaled, mul_right_comm, mul_le_mul_iff_left₀ unit]
  have strictly (c : ℚ) : c * u < x ↔ c * b < a := by
    rw [← mul_lt_mul_iff_left₀ cast, ← scaled, mul_right_comm, mul_lt_mul_iff_left₀ unit]
  rw [← not_lt, strictly, not_lt] at high
  rw [below] at low
  rw [strictly, ← not_le (b := x), below, not_le] at even
  have inside (strict : (m - 1 / 2) * (b : ℚ) < a ∧ a < (m + 1 / 2) * (b : ℚ)) :
      2 * (m * b) < 2 * a + b ∧ 2 * a < 2 * (m * b) + b := by
    rw [← Nat.cast_lt (α := ℚ), ← Nat.cast_lt (α := ℚ)]
    push_cast
    constructor <;> linarith
  refine roundedQuotient_eq positive ?_ ?_ (even.imp_right inside) <;>
    rw [← Nat.cast_le (α := ℚ)] <;> push_cast <;> linarith

namespace Binary64.Parts

variable {p : Parts} {x : ℚ}

/-- How far below the number the middle to its neighbour lies. The neighbours below a power of two
stand closer. -/
def marginBelow (p : Parts) : ℚ :=
  if p.mantissa = 2 ^ 52 ∧ p.exponent ≠ -1074 then 1 / 4 else 1 / 2

structure Takes (p : Parts) (x : ℚ) : Prop where
  low : (p.mantissa - p.marginBelow) * 2 ^ p.exponent ≤ x
  high : x ≤ (p.mantissa + 1 / 2) * 2 ^ p.exponent
  even : p.mantissa % 2 = 0 ∨
    (p.mantissa - p.marginBelow) * 2 ^ p.exponent < x ∧ x < (p.mantissa + 1 / 2) * 2 ^ p.exponent

theorem marginBelow_le (p : Parts) : 1 / 4 ≤ p.marginBelow ∧ p.marginBelow ≤ 1 / 2 := by
  rw [marginBelow]
  split <;> norm_num

theorem Takes.pos (takes : p.Takes x) (nonzero : p.mantissa ≠ 0) : 0 < x := by
  have least : (1 : ℚ) ≤ p.mantissa := by exact_mod_cast Nat.one_le_iff_ne_zero.2 nonzero
  have margin := p.marginBelow_le.2
  exact (mul_pos (by linarith) (by positivity)).trans_le takes.low

private theorem Takes.lt (takes : p.Takes x) (normal : p.Normal) : x < 2 ^ (53 + p.exponent) := by
  have short : (p.mantissa : ℚ) + 1 ≤ 2 ^ 53 := by exact_mod_cast normal.mantissa
  calc x ≤ (p.mantissa + 1 / 2) * 2 ^ p.exponent := takes.high
    _ < 2 ^ 53 * 2 ^ p.exponent := by gcongr; linarith
    _ = 2 ^ (53 + p.exponent) := by rw [zpow_add₀ two_ne_zero]; norm_num

private theorem Takes.eq_two_pow (takes : p.Takes x) (normal : p.Normal) (above : -1074 < p.exponent)
    (short : x < 2 ^ (52 + p.exponent)) :
    p.mantissa = 2 ^ 52 ∧ (2 ^ 52 - 1 / 4) * 2 ^ p.exponent ≤ x := by
  have unit : (0 : ℚ) < 2 ^ p.exponent := by positivity
  have leading := normal.leading above
  have low := takes.low
  rw [zpow_add₀ two_ne_zero] at short
  have near : (p.mantissa : ℚ) - p.marginBelow < 2 ^ 52 :=
    lt_of_mul_lt_mul_right (low.trans_lt short) unit.le
  have full : p.mantissa = 2 ^ 52 := by
    by_contra other
    have next : (2 ^ 52 + 1 : ℚ) ≤ p.mantissa := by
      exact_mod_cast Nat.lt_of_le_of_ne leading (Ne.symm other)
    linarith [p.marginBelow_le.2]
  have margin : p.marginBelow = 1 / 4 := if_pos ⟨full, by omega⟩
  rw [margin, full] at low
  exact ⟨full, by exact_mod_cast low⟩

private theorem parts?_ofRatio (normal : p.Normal) (nonzero : p.mantissa ≠ 0) (denominator : d ≠ 0)
    (takes : p.Takes (n / d)) : parts? (ofRatio n d) = some { p with negative := false } := by
  have least := normal.least
  have greatest := normal.greatest
  have short := normal.mantissa
  have margin := p.marginBelow_le
  have unit : (0 : ℚ) < 2 ^ p.exponent := by positivity
  have numerator : n ≠ 0 := by
    rintro rfl
    simpa using takes.pos nonzero
  suffices bits : (lastExponent n d + 1074).toNat * 2 ^ 52 +
      roundedQuotient (n * 2 ^ (-lastExponent n d).toNat) (d * 2 ^ (lastExponent n d).toNat) =
        (p.exponent + 1074).toNat * 2 ^ 52 + p.mantissa by
    have finite : (p.exponent + 1074).toNat * 2 ^ 52 + p.mantissa ≤ infinityBits := by
      rw [infinityBits, Nat.pow_eq]
      omega
    simp only [ofRatio, Nat.pow_eq]
    rw [bits, Nat.min_eq_right finite]
    exact parts?_ofBits ⟨⟨short, least, greatest⟩, normal.leading⟩
  by_cases place : -1074 < p.exponent → (2 : ℚ) ^ (52 + p.exponent) ≤ n / d
  · have rounded : roundedQuotient (n * 2 ^ (-p.exponent).toNat) (d * 2 ^ p.exponent.toNat) =
        p.mantissa := by
      refine roundedQuotient_scaled denominator (le_trans ?_ takes.low) takes.high
        (takes.even.imp_right fun inside => ⟨lt_of_le_of_lt ?_ inside.1, inside.2⟩)
      all_goals
        gcongr
        exact margin.2
    rw [lastExponent_eq numerator denominator least (takes.lt normal) place, rounded]
  · obtain ⟨above, below⟩ := Classical.not_imp.1 place
    have below := not_le.1 below
    obtain ⟨full, near⟩ := takes.eq_two_pow normal above below
    -- The number has its first bit one place lower, and is rounded up to the next power of two.
    have half : (2 : ℚ) ^ p.exponent = 2 * 2 ^ (p.exponent - 1) := by
      rw [← zpow_one_add₀ two_ne_zero, add_sub_cancel]
    rw [half] at near
    rw [zpow_add₀ two_ne_zero, half] at below
    have last : lastExponent n d = p.exponent - 1 := by
      refine lastExponent_eq numerator denominator (by omega) ?_ fun _ => ?_ <;>
        rw [zpow_add₀ two_ne_zero] <;> norm_num at below near ⊢ <;> linarith
    have rounded : roundedQuotient (n * 2 ^ (-(p.exponent - 1)).toNat)
        (d * 2 ^ (p.exponent - 1).toNat) = 2 ^ 53 := by
      refine roundedQuotient_scaled denominator ?_ ?_ (.inl rfl) <;> push_cast <;>
        norm_num at below near ⊢ <;> linarith
    rw [last, rounded, full]
    omega

private theorem Takes.bounds (takes : p.Takes x) (normal : p.Normal) (nonzero : p.mantissa ≠ 0) :
    (10 : ℚ) ^ (-400 : ℤ) < x ∧ x < 10 ^ (400 : ℤ) := by
  have least : (1 : ℚ) ≤ p.mantissa := by exact_mod_cast Nat.one_le_iff_ne_zero.2 nonzero
  have margin := p.marginBelow_le.2
  have powers : (2 : ℚ) ^ (1200 : ℤ) ≤ 10 ^ (400 : ℤ) := by
    calc (2 : ℚ) ^ (1200 : ℤ) = (2 ^ (3 : ℤ)) ^ (400 : ℤ) := by rw [← zpow_mul]; rfl
      _ ≤ 10 ^ (400 : ℤ) := zpow_le_zpow_left₀ (by norm_num) (by norm_num) (by norm_num)
  constructor
  · calc (10 : ℚ) ^ (-400 : ℤ) ≤ 2 ^ (-1200 : ℤ) := by
          rw [zpow_neg, zpow_neg]
          gcongr
      _ < 2 ^ (-1 + p.exponent) := zpow_lt_zpow_right₀ one_lt_two (by have := normal.least; omega)
      _ = 1 / 2 * 2 ^ p.exponent := by rw [zpow_add₀ two_ne_zero]; norm_num
      _ ≤ (p.mantissa - p.marginBelow) * 2 ^ p.exponent := by gcongr; linarith
      _ ≤ x := takes.low
  · calc x < 2 ^ (53 + p.exponent) := takes.lt normal
      _ ≤ 2 ^ (1200 : ℤ) := zpow_le_zpow_right₀ one_le_two (by have := normal.greatest; omega)
      _ ≤ 10 ^ (400 : ℤ) := powers

theorem parts?_nearest {whole fraction : List Char} (normal : p.Normal) (nonzero : p.mantissa ≠ 0)
    (takes : p.Takes (Text.digitsValue (whole ++ fraction) * 10 ^ (e - fraction.length))) :
    parts? (nearest whole fraction e) = some { p with negative := false } := by
  obtain ⟨least, greatest⟩ := takes.bounds normal nonzero
  rw [nearest]
  generalize Text.digitsValue (whole ++ fraction) = s at takes least greatest ⊢
  generalize e - fraction.length = k at takes least greatest ⊢
  have positive := takes.pos nonzero
  have significand : s ≠ 0 := by
    rintro rfl
    simp at positive
  obtain ⟨low, high⟩ : 10 ^ ((Nat.toDigits 10 s).length - 1) ≤ s ∧
      s < 10 ^ (Nat.toDigits 10 s).length := Text.toDigits_bounds significand
  have digits : 0 < (Nat.toDigits 10 s).length := List.length_pos_iff.2 Nat.toDigits_ne_nil
  generalize (Nat.toDigits 10 s).length = l at low high digits ⊢
  have above : -furthestExponent < k + l := by
    refine (zpow_lt_zpow_iff_right₀ (a := (10 : ℚ)) (by norm_num)).1 (least.trans ?_)
    rw [add_comm, zpow_add₀ (by norm_num), zpow_natCast]
    gcongr
    exact_mod_cast high
  have below : k + (l - 1 : Nat) < furthestExponent := by
    refine (zpow_lt_zpow_iff_right₀ (a := (10 : ℚ)) (by norm_num)).1 (lt_of_le_of_lt ?_ greatest)
    rw [add_comm, zpow_add₀ (by norm_num), zpow_natCast]
    gcongr
    exact_mod_cast low
  have zero : ¬ (decide (s = 0) || decide (k + l < -furthestExponent)) = true := by
    simp [significand]
    omega
  rw [if_neg zero, if_neg (by omega)]
  refine parts?_ofRatio normal nonzero (Nat.pow_pos (by decide)).ne' ?_
  rw [zpow_eq_div, ← mul_div_assoc] at takes
  simp only [Nat.pow_eq]
  push_cast
  exact takes

end Binary64.Parts

end GuildSandbox.Number
