import Mathlib.Tactic.Linarith
import GuildSandbox.Proofs.Number.Exact

set_option autoImplicit false
set_option relaxedAutoImplicit false

namespace GuildSandbox.Number.Binary64

open Float.Model Float.Model.UnpackedFloat

variable {p : Parts} {f g : Float}

private theorem unpackSign_packComponents {format : Format} {sign : Sign}
    {exponent : BitVec format.exponentBits} {mantissa : BitVec format.mantissaBitsWithoutImplicit} :
    unpackSign (packComponents format sign exponent mantissa) = sign.toBitVec := by
  ext i bound
  obtain rfl : i = 0 := by omega
  simp [unpackSign_eq, packComponents, BitVec.getLsbD_append, BitVec.getLsbD_eq_getElem,
    BitVec.getElem_append]

private theorem pack_unpacked (normal : p.Normal) :
    UnpackedFloat.pack .binary64 p.unpacked = packComponents .binary64 p.sign
      (.ofNat _ (if 2 ^ 52 ≤ p.mantissa then (p.exponent + 1023 + 52).toNat else 0))
      (.ofNat _ p.mantissa) := by
  have greatest := normal.greatest
  have fits : ¬ 2 ^ Format.binary64.exponentBits ≤ (p.exponent + Format.binary64.exponentBias +
      Format.binary64.mantissaBitsWithoutImplicit).toNat + 1 := by
    change ¬ 2 ^ 11 ≤ (p.exponent + 1023 + 52).toNat + 1
    omega
  by_cases nonzero : p.mantissa = 0
  · rw [Parts.unpacked, dif_pos nonzero, nonzero]
    rfl
  rw [Parts.unpacked, dif_neg nonzero]
  delta UnpackedFloat.pack
  dsimp only
  rw [if_neg fits, mantissaBits_eq]
  by_cases leading : 2 ^ 52 ≤ p.mantissa
  · have bits : p.mantissa.log2 + 1 = 53 := by
      rw [(Nat.log2_eq_iff nonzero).2 ⟨leading, normal.mantissa⟩]
    rw [if_pos bits, if_pos leading]
    rfl
  · have bits : p.mantissa.log2 + 1 ≠ 53 := by
      have short := (Nat.log2_lt nonzero).2 (Nat.not_le.1 leading)
      omega
    rw [if_neg bits, if_neg leading]

theorem parts?_pack (normal : p.Normal) :
    parts? (.ofModel (Float.Model.pack p.unpacked)) = some p := by
  have short := normal.mantissa
  have least := normal.least
  have greatest := normal.greatest
  have full := normal.leading
  obtain ⟨f, hf⟩ : ∃ f, Float.ofModel (Float.Model.pack p.unpacked) = f := ⟨_, rfl⟩
  have packed := pack_unpacked normal
  change (Float.ofModel (Float.Model.pack p.unpacked)).toModel.toBits.toBitVec = _ at packed
  rw [hf] at packed
  have sign := sign_eq f
  have exponent := exponentBits_eq f
  have fraction := fractionBits_eq f
  rw [packed, unpackSign_packComponents] at sign
  rw [packed, unpackExponent_packComponents, BitVec.toNat_ofNat] at exponent
  rw [packed, unpackMantissa_packComponents, BitVec.toNat_ofNat] at fraction
  have negative : isNegative f = p.negative := by
    rw [Parts.sign] at sign
    cases h : isNegative f <;> cases h' : p.negative <;> simp_all [Sign.ofBitVec, Sign.toBitVec]
  change _ = _ % 2 ^ 11 at exponent
  change _ = _ % 2 ^ 52 at fraction
  have hidden : Nat.pow 2 52 = 2 ^ 52 := rfl
  rw [hf, parts?, negative]
  split at exponent
  next leading =>
    have exponent : exponentBits f = (p.exponent + 1075).toNat := by omega
    rw [if_neg (by omega), if_neg (by omega), exponent]
    have mantissa : Nat.pow 2 52 + fractionBits f = p.mantissa := by omega
    have biased : ((p.exponent + 1075).toNat : Int) - 1075 = p.exponent := by omega
    rw [mantissa, biased]
  next =>
    have mantissa : fractionBits f = p.mantissa := by omega
    have lowest : p.exponent = -1074 := by omega
    rw [if_neg (by omega), if_pos (by omega), mantissa, ← lowest]

theorem isFinite_of_parts? (parts : parts? f = some p) : isFinite f = true := by
  rw [isFinite, bne_iff_ne]
  intro infinite
  rw [parts?, if_pos infinite] at parts
  cases parts

theorem isNegative_of_parts? (parts : parts? f = some p) : isNegative f = p.negative := by
  unfold parts? at parts
  split at parts
  · cases parts
  · split at parts <;> cases parts <;> rfl

theorem eq_of_parts? (parts : parts? f = some p) (same : parts? g = some p) : f = g := by
  have sign : isNegative f = isNegative g :=
    (isNegative_of_parts? parts).trans (isNegative_of_parts? same).symm
  have hidden : Nat.pow 2 52 = 2 ^ 52 := rfl
  have fields : exponentBits f = exponentBits g ∧ fractionBits f = fractionBits g := by
    have short : fractionBits f < 2 ^ 52 := Nat.mod_lt _ (by decide)
    have short' : fractionBits g < 2 ^ 52 := Nat.mod_lt _ (by decide)
    unfold parts? at parts same
    split at parts
    · cases parts
    split at same
    · cases same
    split at parts <;> split at same <;> cases parts <;> simp at same <;> omega
  have words : f.toBits.toNat = g.toBits.toNat := by
    have word := f.toBits.toNat_lt
    have word' := g.toBits.toNat_lt
    rw [isNegative, isNegative, Bool.eq_iff_iff, beq_iff_eq, beq_iff_eq] at sign
    simp only [Nat.pow_eq] at sign
    simp only [exponentBits, fractionBits, Nat.pow_eq] at fields
    omega
  obtain ⟨⟨bits, valid⟩⟩ := f
  obtain ⟨⟨bits', valid'⟩⟩ := g
  obtain rfl : bits = bits' := UInt64.toNat_inj.1 words
  rfl

private theorem toBits_ofBits {w : UInt64} (finite : w.toNat / 2 ^ 52 % 2048 ≠ 2047) :
    (Float.ofBits w).toBits = w := by
  have valid : Format.binary64.Valid w.toBitVec := by
    refine ⟨fun ones => absurd ?_ finite⟩
    have exponent : (@unpackExponent .binary64 w.toBitVec).toNat = w.toNat / 2 ^ 52 % 2048 := by
      simp [unpackExponent, BitVec.extractLsb, BitVec.extractLsb', Nat.shiftRight_eq_div_pow]
    rw [← exponent, ones]
    rfl
  obtain ⟨f, bits⟩ : ∃ f : Float, f.toBits = w := ⟨.ofModel ⟨w, valid⟩, rfl⟩
  have proper : isFinite f = true := by
    rw [isFinite, exponentBits, bits, bne_iff_ne]
    exact finite
  obtain ⟨p, parts⟩ := exists_parts?_of_isFinite proper
  have again : Float.ofBits w = .ofModel (Float.Model.pack f.toModel.unpack) := by
    rw [← bits]
    rfl
  rw [again, unpack_of_parts? parts, eq_of_parts? (parts?_pack (normal_of_parts? parts)) parts, bits]

theorem parts?_ofBits {m : Nat} {e : Int} (normal : (⟨false, m, e⟩ : Parts).Normal) :
    parts? (.ofBits (.ofNat ((e + 1074).toNat * 2 ^ 52 + m))) = some ⟨false, m, e⟩ := by
  have short := normal.mantissa
  have least := normal.least
  have greatest := normal.greatest
  have full := normal.leading
  simp only at short least greatest full
  obtain ⟨w, word⟩ : ∃ w, w = UInt64.ofNat ((e + 1074).toNat * 2 ^ 52 + m) := ⟨_, rfl⟩
  have value : w.toNat = (e + 1074).toNat * 2 ^ 52 + m := by
    rw [word, UInt64.toNat_ofNat']
    omega
  have bits := toBits_ofBits (w := w) (by omega)
  have sign : isNegative (.ofBits w) = false := by
    rw [isNegative, bits, beq_eq_false_iff_ne, Nat.pow_eq]
    omega
  have exponent : exponentBits (.ofBits w) = (e + 1074).toNat + m / 2 ^ 52 := by
    rw [exponentBits, bits, Nat.pow_eq]
    omega
  have fraction : fractionBits (.ofBits w) = m % 2 ^ 52 := by
    rw [fractionBits, bits, Nat.pow_eq]
    omega
  rw [← word, parts?, if_neg (by omega), exponent, fraction, sign, Nat.pow_eq]
  by_cases leading : 2 ^ 52 ≤ m
  · have mantissa : 2 ^ 52 + m % 2 ^ 52 = m := by omega
    have biased : (((e + 1074).toNat + m / 2 ^ 52 : Nat) : Int) - 1075 = e := by omega
    rw [if_neg (by omega), mantissa, biased]
  · have lowest : e = -1074 := by omega
    rw [if_pos (by omega), Nat.mod_eq_of_lt (by omega), lowest]

def Parts.opposite (p : Parts) : Parts := { p with negative := !p.negative }

theorem Parts.exact_opposite (p : Parts) : p.opposite.exact = -p.exact := by
  obtain ⟨negative, mantissa, exponent⟩ := p
  cases negative <;> simp [opposite, exact, magnitude]

private theorem Parts.Normal.opposite (normal : p.Normal) : p.opposite.Normal :=
  ⟨⟨normal.mantissa, normal.least, normal.greatest⟩, normal.leading⟩

private theorem Parts.unpacked_opposite (p : Parts) : p.opposite.unpacked = p.unpacked.neg := by
  obtain ⟨negative, mantissa, exponent⟩ := p
  cases mantissa <;> cases negative <;> rfl

theorem parts?_neg (parts : parts? f = some p) : parts? (-f) = some p.opposite := by
  have normal := normal_of_parts? parts
  change parts? (.ofModel (Float.Model.pack f.toModel.unpack.neg)) = _
  rw [unpack_of_parts? parts, ← p.unpacked_opposite, parts?_pack normal.opposite]

end GuildSandbox.Number.Binary64
