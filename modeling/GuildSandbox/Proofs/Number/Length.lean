import GuildSandbox.Json.Printer
import GuildSandbox.Proofs.Number.Exact
import GuildSandbox.Proofs.Text.Digits

set_option autoImplicit false
set_option relaxedAutoImplicit false

namespace GuildSandbox.Number

private theorem length_dropTrailingZeros_le (ds : List Char) :
    (dropTrailingZeros ds).length ≤ ds.length := by
  rw [dropTrailingZeros, List.length_reverse]
  calc
    (ds.reverse.dropWhile (· = '0')).length ≤ ds.reverse.length :=
      (List.dropWhile_suffix _).length_le
    _ = ds.length := List.length_reverse

namespace Rounding

variable {r : Rounding}

private theorem le_of_onGrid? {k : Int} {d : Nat} (hit : r.onGrid? k = some d) :
    d ≤ r.value * 10 ^ (-k).toNat + 1 := by
  have below : r.value * 10 ^ (-k).toNat / (Nat.pow 10 k.toNat * r.denominator) ≤
      r.value * 10 ^ (-k).toNat := Nat.div_le_self _ _
  have power : Nat.pow 10 (-k).toNat = 10 ^ (-k).toNat := rfl
  unfold onGrid? at hit
  simp only [power] at hit
  generalize r.value * 10 ^ (-k).toNat / (Nat.pow 10 k.toNat * r.denominator) = b at hit below
  split at hit
  · split at hit
    · cases hit; omega
    · split at hit
      · cases hit; omega
      · split at hit <;> cases hit <;> omega
  · cases hit; omega
  · cases hit; omega
  · cases hit

private theorem search_le (tries : Nat) (k : Int) :
    (r.search tries k).1 ≤ r.value * 10 ^ (tries - k).toNat + 1 ∧
      k - tries ≤ (r.search tries k).2 ∧ (r.search tries k).2 ≤ k := by
  induction tries generalizing k with
  | zero =>
    refine ⟨?_, by simp [search], by simp [search]⟩
    have quotient := Nat.div_le_self (r.value * Nat.pow 10 (-k).toNat)
      (Nat.pow 10 k.toNat * r.denominator)
    have same : ((0 : Nat) - k : Int) = -k := by omega
    rw [search, same]
    exact Nat.le_succ_of_le quotient
  | succ tries ih =>
    rw [search]
    split
    next d hit =>
      have finer : 10 ^ (-k).toNat ≤ 10 ^ ((tries + 1 : Nat) - k).toNat :=
        Nat.pow_le_pow_right (by decide) (by omega)
      exact ⟨Nat.le_trans (le_of_onGrid? hit) (by have := Nat.mul_le_mul_left r.value finer; omega),
        by simp only; omega, Int.le_refl k⟩
    next =>
      obtain ⟨digits, least, greatest⟩ := ih (k - 1)
      have same : (tries - (k - 1) : Int) = (tries + 1 : Nat) - k := by omega
      rw [same] at digits
      exact ⟨digits, by omega, by omega⟩

end Rounding

namespace Binary64.Parts

variable {p : Parts}

private theorem InFormat.value_lt (inFormat : p.InFormat) :
    p.rounding.value < 2 ^ (55 + p.exponent.toNat) := by
  have mantissa := inFormat.mantissa
  rw [Nat.pow_add]
  exact Nat.mul_lt_mul_of_pos_right (by omega) (Nat.two_pow_pos _)

theorem denominator_eq (p : Parts) : p.rounding.denominator = 2 ^ (2 + (-p.exponent).toNat) := by
  rw [Nat.pow_add]
  rfl

private theorem log2_le {n bits : Nat} (small : n < 2 ^ (bits + 1)) : n.log2 ≤ bits := by
  rcases Nat.eq_zero_or_pos n with rfl | positive
  · rw [Nat.log2_zero]
    exact Nat.zero_le _
  · exact Nat.le_of_lt_succ ((Nat.log2_lt (Nat.ne_of_gt positive)).2 small)

private theorem InFormat.startExponent_bounds (inFormat : p.InFormat) :
    -324 ≤ p.rounding.startExponent ∧ p.rounding.startExponent ≤ 311 := by
  have least := inFormat.least
  have greatest := inFormat.greatest
  have above : p.rounding.value.log2 ≤ 54 + p.exponent.toNat :=
    log2_le (by rw [Nat.add_right_comm]; exact inFormat.value_lt)
  have below : p.rounding.denominator.log2 = 2 + (-p.exponent).toNat := by
    rw [denominator_eq, Nat.log2_two_pow]
  rw [Rounding.startExponent, Int.fdiv_eq_ediv_of_nonneg _ (by decide), below]
  omega

private theorem InFormat.shortest_bounds (inFormat : p.InFormat) :
    p.shortest.digits.length ≤ 1371 ∧ p.shortest.exponent.natAbs < 10 ^ 4 := by
  obtain ⟨lowest, highest⟩ := inFormat.startExponent_bounds
  obtain ⟨near, least, greatest⟩ := p.rounding.search_le 20 p.rounding.startExponent
  have top := inFormat.greatest
  have value : p.rounding.value ≤ 10 ^ (55 + p.exponent.toNat) :=
    Nat.le_trans (Nat.le_of_lt inFormat.value_lt) (Nat.pow_le_pow_left (by decide) _)
  obtain ⟨finest, fine⟩ :
      ∃ finest, finest = ((20 : Nat) - p.rounding.startExponent).toNat := ⟨_, rfl⟩
  rw [← fine] at near
  have small : (p.rounding.search 20 p.rounding.startExponent).1 <
      10 ^ (55 + p.exponent.toNat + finest + 1) := by
    have product := Nat.mul_le_mul_right (10 ^ finest) value
    rw [← Nat.pow_add] at product
    have positive := Nat.pow_pos (n := 55 + p.exponent.toNat + finest) (a := 10) (by decide)
    rw [Nat.pow_succ]
    omega
  have length := Text.length_toDigits_le (Nat.succ_pos _) small
  have kept := length_dropTrailingZeros_le
    (Nat.toDigits 10 (p.rounding.search 20 p.rounding.startExponent).1)
  rw [shortest]
  simp only
  constructor <;> omega

end Binary64.Parts

namespace Decimal

variable {d : Decimal} {n : Nat}

private theorem length_plain_le (digits : d.digits.length ≤ n) (least : -5 ≤ d.exponent)
    (greatest : d.exponent ≤ 15) : d.plain.length ≤ n + 34 := by
  rw [plain]
  split
  next whole =>
    simp only [List.length_append, List.length_take, List.length_cons, List.length_replicate]
    split
    · simp only [List.length_cons, List.length_nil]
      omega
    · simp only [List.length_drop, List.length_append, List.length_replicate]
      omega
  next =>
    simp only [List.length_cons, List.length_append, List.length_replicate]
    omega

private theorem length_scientific_le (digits : d.digits.length ≤ n)
    (exponent : d.exponent.natAbs < 10 ^ 4) (plusSign : Bool) :
    (d.scientific plusSign).length ≤ n + 8 := by
  have power := Text.length_toDigits_le (by decide) exponent
  have sign : (if d.exponent < 0 then ['-'] else if plusSign then ['+'] else []).length ≤ 1 := by
    split
    · exact Nat.le_refl 1
    · split <;> simp
  rw [scientific, List.length_append, List.length_cons, List.length_append]
  split
  next => simp only [List.length_cons, List.length_nil]; omega
  next => simp only [List.length_cons, List.length_nil]; omega
  next c cs _ shape =>
    rw [shape, List.length_cons] at digits
    simp only [List.length_cons]
    omega

private theorem length_layOut_le (digits : d.digits.length ≤ n)
    (exponent : d.exponent.natAbs < 10 ^ 4) :
    (d.layOut Json.floatLayout).length ≤ n + 34 := by
  rw [layOut]
  split
  next positional => exact length_plain_le digits positional.1 positional.2
  next => exact Nat.le_trans (length_scientific_le digits exponent _) (by omega)

end Decimal

theorem length_writeFloat_le (f : Float) : (writeFloat Json.floatLayout f).length ≤ 1406 := by
  have sign : (if Binary64.isNegative f then ['-'] else []).length ≤ 1 := by
    split <;> simp
  rw [writeFloat]
  split
  next =>
    split
    · decide
    · rw [List.length_append]
      exact Nat.le_trans (Nat.add_le_add_right sign _) (by decide)
  next p parts =>
    split
    · rw [List.length_append]
      exact Nat.le_trans (Nat.add_le_add_right sign _) (by decide)
    · obtain ⟨digits, exponent⟩ := (Binary64.inFormat_of_parts? parts).shortest_bounds
      have laidOut := Decimal.length_layOut_le digits exponent
      rw [List.length_append]
      omega

end GuildSandbox.Number
