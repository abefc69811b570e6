import MeteredRules.Binary64.Parts
import Mathlib

/-!
# The encoding of floats

A finite float is known by its sign, its significand and its exponent: it is the packing of these
parts, and unpacking gives them back.
-/

namespace MeteredRules.Binary64

open Float.Model
open Float.Model.UnpackedFloat

/-- The significands and exponents of the finite floats. -/
structure Canonical (significand : Nat) (exponent : Int) : Prop where
  significand_lt : significand < 2 * hiddenBit
  least_le : leastExponent ≤ exponent
  le_greatest : exponent ≤ 971
  normal : exponent = leastExponent ∨ hiddenBit ≤ significand

theorem hiddenBit_eq : hiddenBit = 4503599627370496 := by decide

theorem signBit_eq : signBit = 9223372036854775808 := by decide

theorem leastExponent_eq : leastExponent = -1074 := by decide

/-- The sign of a float. -/
def sign (negative : Bool) : Sign :=
  if negative then .negative else .positive

/-- The float with given parts, before it is packed. -/
def unpacked (negative : Bool) (significand : Nat) (exponent : Int) : UnpackedFloat :=
  if positive : 0 < significand then .finite (sign negative) significand exponent positive
  else .zero (sign negative)

/-- The float with given parts. -/
def ofParts (negative : Bool) (significand : Nat) (exponent : Int) : Float :=
  .ofModel (.pack (unpacked negative significand exponent))

/-! ## Bits -/

/-- The encoding of a finite float, as a number. -/
def encoding (negative : Bool) (significand : Nat) (exponent : Int) : Nat :=
  (if negative then signBit else 0) +
    if significand < hiddenBit then significand
    else (exponent - leastExponent).toNat * hiddenBit + significand

theorem Parts.canonical_of_finite {value : Float} {negative : Bool} {significand : Nat}
    {exponent : Int} (parts : Parts.ofFloat value = .finite negative significand exponent) :
    Canonical significand exponent ∧
      value.toBits.toNat = encoding negative significand exponent := by
  have bits_lt : value.toBits.toNat < 18446744073709551616 := value.toBits.toNat_lt
  simp only [Parts.ofFloat, hiddenBit_eq, signBit_eq] at parts
  generalize value.toBits.toNat = bits at parts bits_lt ⊢
  split at parts
  · split at parts <;> cases parts
  split at parts
  · rename_i notSpecial isLeast
    cases parts
    simp only [beq_iff_eq] at notSpecial isLeast
    have fraction_lt : bits % 4503599627370496 < hiddenBit := by
      rw [hiddenBit_eq]
      omega
    refine ⟨⟨by omega, by decide, by decide, .inl rfl⟩, ?_⟩
    rw [encoding, if_pos fraction_lt, signBit_eq]
    simp only [beq_iff_eq]
    split <;> omega
  · rename_i notSpecial notLeast
    cases parts
    simp only [beq_iff_eq] at notSpecial notLeast
    have normal : hiddenBit ≤ 4503599627370496 + bits % 4503599627370496 :=
      Nat.le_add_right _ _
    refine ⟨⟨?_, ?_, by omega, .inr normal⟩, ?_⟩
    · rw [hiddenBit_eq]
      omega
    · rw [leastExponent_eq]
      omega
    · rw [encoding, if_neg (Nat.not_lt.mpr normal), signBit_eq, hiddenBit_eq, leastExponent_eq]
      simp only [beq_iff_eq]
      split <;> omega

theorem toNat_packComponents (sign : Sign) (exponent : BitVec 11) (fraction : BitVec 52) :
    (packComponents Format.binary64 sign exponent fraction).toNat =
      sign.toBitVec.toNat * 2 ^ 63 + exponent.toNat * 2 ^ 52 + fraction.toNat := by
  have exponent_lt := exponent.isLt
  have fraction_lt := fraction.isLt
  have joined : (packComponents Format.binary64 sign exponent fraction).toNat =
      ((sign.toBitVec ++ exponent) ++ fraction).toNat := rfl
  rw [joined, BitVec.toNat_append, BitVec.toNat_append, ← Nat.shiftLeft_add_eq_or_of_lt exponent_lt,
    ← Nat.shiftLeft_add_eq_or_of_lt fraction_lt, Nat.shiftLeft_eq, Nat.shiftLeft_eq]
  omega

theorem toNat_toBitVec_sign (negative : Bool) :
    (sign negative).toBitVec.toNat = if negative then 1 else 0 := by
  cases negative <;> rfl

theorem pack_unpacked {negative : Bool} {significand : Nat} {exponent : Int}
    (canonical : Canonical significand exponent) :
    UnpackedFloat.pack Format.binary64 (unpacked negative significand exponent) =
      packComponents Format.binary64 (sign negative)
        (BitVec.ofNat 11 (if significand < hiddenBit then 0 else (exponent + 1075).toNat))
        (BitVec.ofNat 52 significand) := by
  rcases canonical with ⟨significand_lt, least_le, le_greatest, normal⟩
  rw [hiddenBit_eq] at significand_lt normal ⊢
  rw [leastExponent_eq] at least_le normal
  unfold unpacked
  split
  · rename_i positive
    have fits : ¬2 ^ Format.binary64.exponentBits ≤
        (exponent + Format.binary64.exponentBias +
          Format.binary64.mantissaBitsWithoutImplicit).toNat + 1 := by
      simp only [Format.exponentBias]
      omega
    have biased : (exponent + Format.binary64.exponentBias +
        Format.binary64.mantissaBitsWithoutImplicit).toNat = (exponent + 1075).toNat := by
      simp only [Format.exponentBias]
      omega
    simp only [UnpackedFloat.pack]
    rw [if_neg fits, biased]
    by_cases small : significand < 4503599627370496
    · have short : ¬significand.log2 + 1 = Format.binary64.mantissaBits := by
        have log_lt : significand.log2 < 52 :=
          (Nat.log2_lt (Nat.ne_of_gt positive)).mpr (by omega)
        simp only [Format.mantissaBits]
        omega
      rw [if_neg short, if_pos small]
    · have full : significand.log2 + 1 = Format.binary64.mantissaBits := by
        have log_lt : significand.log2 < 53 :=
          (Nat.log2_lt (Nat.ne_of_gt positive)).mpr (by omega)
        have le_log : 52 ≤ significand.log2 :=
          (Nat.le_log2 (Nat.ne_of_gt positive)).mpr (by omega)
        simp only [Format.mantissaBits]
        omega
      rw [if_pos full, if_neg small]
  · rename_i zero
    obtain rfl : significand = 0 := by omega
    rfl

theorem toBits_ofParts {negative : Bool} {significand : Nat} {exponent : Int}
    (canonical : Canonical significand exponent) :
    (ofParts negative significand exponent).toBits.toNat =
      encoding negative significand exponent := by
  have bits : (ofParts negative significand exponent).toBits.toNat =
      (UnpackedFloat.pack Format.binary64 (unpacked negative significand exponent)).toNat := rfl
  rw [bits, pack_unpacked canonical, toNat_packComponents, toNat_toBitVec_sign, encoding]
  rcases canonical with ⟨significand_lt, least_le, le_greatest, normal⟩
  simp only [BitVec.toNat_ofNat, hiddenBit_eq, signBit_eq, leastExponent_eq] at *
  split <;> split <;> omega

theorem Parts.eq_ofParts {value : Float} {negative : Bool} {significand : Nat} {exponent : Int}
    (parts : Parts.ofFloat value = .finite negative significand exponent) :
    value = Binary64.ofParts negative significand exponent := by
  rcases Parts.canonical_of_finite parts with ⟨canonical, bits⟩
  rw [← Float.toBits_inj, ← UInt64.toNat_inj, bits, toBits_ofParts canonical]

/-! ## Unpacking -/

theorem toNat_append_one (fraction : BitVec 52) :
    ((1#1 : BitVec 1) ++ fraction).toNat = 4503599627370496 + fraction.toNat := by
  rw [BitVec.toNat_append, ← Nat.shiftLeft_add_eq_or_of_lt fraction.isLt]
  simp [Nat.shiftLeft_eq]

/-- A significand without the hidden bit is unpacked with the least exponent. -/
theorem unpack_packComponents_of_small (negative : Bool) {significand : Nat}
    (small : significand < 4503599627370496) :
    UnpackedFloat.unpack Format.binary64 (packComponents Format.binary64 (sign negative)
      (BitVec.ofNat 11 0) (BitVec.ofNat 52 significand)) = unpacked negative significand (-1074) := by
  have fraction : (BitVec.ofNat 52 significand).toNat = significand := by
    rw [BitVec.toNat_ofNat]
    omega
  have notLast : ¬BitVec.ofNat 11 0 = -1#11 := by decide
  simp only [UnpackedFloat.unpack, unpackMantissa_packComponents, unpackExponent_packComponents,
    unpackSign_packComponents, Sign.ofBitVec_toBitVec]
  rw [if_neg notLast, if_pos trivial, unpacked]
  by_cases positive : 0 < significand
  · have nonzero : ¬BitVec.ofNat 52 significand = 0#52 := by
      intro zero
      rw [zero] at fraction
      simp at fraction
      omega
    rw [dif_neg nonzero, dif_pos positive]
    simp only [fraction]
    rfl
  · obtain rfl : significand = 0 := by omega
    rfl

/-- A significand with the hidden bit is unpacked with the exponent that was packed. -/
theorem unpack_packComponents_of_full (negative : Bool) {significand : Nat} {exponent : Int}
    (full : 4503599627370496 ≤ significand) (significand_lt : significand < 9007199254740992)
    (least_le : -1074 ≤ exponent) (le_greatest : exponent ≤ 971) :
    UnpackedFloat.unpack Format.binary64 (packComponents Format.binary64 (sign negative)
      (BitVec.ofNat 11 (exponent + 1075).toNat) (BitVec.ofNat 52 significand)) =
        unpacked negative significand exponent := by
  have biased : (BitVec.ofNat 11 (exponent + 1075).toNat).toNat = (exponent + 1075).toNat := by
    rw [BitVec.toNat_ofNat]
    omega
  have notLast : ¬BitVec.ofNat 11 (exponent + 1075).toNat = -1#11 := by
    intro last
    have same := congrArg BitVec.toNat last
    rw [biased] at same
    have allOnes : (-1#11 : BitVec 11).toNat = 2047 := by decide
    omega
  have notFirst : ¬BitVec.ofNat 11 (exponent + 1075).toNat = 0#11 := by
    intro first
    have same := congrArg BitVec.toNat first
    rw [biased] at same
    simp at same
    omega
  have fraction : ((1#1 : BitVec 1) ++ BitVec.ofNat 52 significand).toNat = significand := by
    rw [toNat_append_one, BitVec.toNat_ofNat]
    omega
  have positive : 0 < significand := by omega
  simp only [UnpackedFloat.unpack, unpackMantissa_packComponents, unpackExponent_packComponents,
    unpackSign_packComponents, Sign.ofBitVec_toBitVec]
  rw [if_neg notLast, if_neg notFirst, unpacked, dif_pos positive]
  simp only [fraction, biased, Format.exponentBias]
  congr 1
  omega

/-- The parts of a finite float are not lost when it is packed. -/
theorem unpack_pack_unpacked {negative : Bool} {significand : Nat} {exponent : Int}
    (canonical : Canonical significand exponent) :
    (Float.Model.pack (unpacked negative significand exponent)).unpack =
      unpacked negative significand exponent := by
  have packed : (Float.Model.pack (unpacked negative significand exponent)).unpack =
      UnpackedFloat.unpack Format.binary64
        (UnpackedFloat.pack Format.binary64 (unpacked negative significand exponent)) := rfl
  rw [packed, pack_unpacked canonical]
  rcases canonical with ⟨significand_lt, least_le, le_greatest, normal⟩
  rw [hiddenBit_eq] at significand_lt normal ⊢
  rw [leastExponent_eq] at least_le normal
  by_cases small : significand < 4503599627370496
  · obtain rfl : exponent = -1074 := by omega
    rw [if_pos small]
    exact unpack_packComponents_of_small negative small
  · rw [if_neg small]
    exact unpack_packComponents_of_full negative (by omega) (by omega) least_le le_greatest

theorem neg_unpacked (negative : Bool) (significand : Nat) (exponent : Int) :
    (unpacked negative significand exponent).neg = unpacked (!negative) significand exponent := by
  unfold unpacked
  cases negative <;> split <;> rfl

theorem neg_ofParts {negative : Bool} {significand : Nat} {exponent : Int}
    (canonical : Canonical significand exponent) :
    -ofParts negative significand exponent = ofParts (!negative) significand exponent := by
  have negated : -ofParts negative significand exponent =
      .ofModel (.pack (Float.Model.pack (unpacked negative significand exponent)).unpack.neg) := rfl
  rw [negated, unpack_pack_unpacked canonical, neg_unpacked]
  rfl

end MeteredRules.Binary64
