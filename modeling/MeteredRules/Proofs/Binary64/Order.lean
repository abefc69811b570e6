import MeteredRules.Number.Basic
import MeteredRules.Proofs.Decimal.Nearest

/-!
# The order of floats

Every float but a NaN has a place among the floats: its sign and kind come first, then its exponent,
then its significand, and for negative floats the other way round. Comparing floats is comparing
their places, so that the three comparisons of the machine are answers to one question. An integer
has a place whatever its size, because rounding leads to a finite float or an infinity.
-/

namespace MeteredRules.Binary64

open Float.Model
open Float.Model.UnpackedFloat

/-! ## Places -/

/-- A place among the floats: the kind, then the exponent, then the significand. -/
abbrev Place := ℤ ×ₗ ℤ ×ₗ ℤ

/-- The place of a magnitude with a sign. -/
def Place.signed (sign : Sign) (kind exponent significand : ℤ) : Place :=
  match sign with
  | .negative => toLex (-kind, toLex (-exponent, -significand))
  | .positive => toLex (kind, toLex (exponent, significand))

/-- The place of an unpacked float; a NaN has none. -/
def unpackedPlace? : UnpackedFloat → Option Place
  | .notANumber => none
  | .zero _ => some (.signed .positive 0 0 0)
  | .finite sign mantissa exponent _ => some (.signed sign 1 exponent mantissa)
  | .infinity sign => some (.signed sign 2 0 0)

/-- The place of a float; a NaN has none. -/
def place? (value : Float) : Option Place :=
  unpackedPlace? value.toModel.unpack

theorem compare_toLex (kind exponent significand kind' exponent' significand' : ℤ) :
    compare (toLex (kind, toLex (exponent, significand)) : Place)
        (toLex (kind', toLex (exponent', significand'))) =
      (compare kind kind').then ((compare exponent exponent').then
        (compare significand significand')) := by
  simp [Prod.Lex.compare_def, compareLex, compareOn]

theorem compare_neg_neg (left right : ℤ) : compare (-left) (-right) = (compare left right).swap := by
  rw [← Int.compare_swap]
  simp only [compare, compareOfLessAndEq, Ordering.swap]
  grind

theorem compare_natCast (left right : ℕ) : compare (left : ℤ) (right : ℤ) = compare left right := by
  simp only [compare, compareOfLessAndEq]
  grind

theorem compare_unpacked (left right : UnpackedFloat) :
    left.compare right = Option.map₂ compare (unpackedPlace? left) (unpackedPlace? right) := by
  rcases left with (_ | _) | _ | (_ | _) | ⟨_ | _, _, _, _⟩ <;>
    rcases right with (_ | _) | _ | (_ | _) | ⟨_ | _, _, _, _⟩ <;>
    simp only [UnpackedFloat.compare, unpackedPlace?, Place.signed, Option.map₂_some_some,
      compare_toLex, compare_neg_neg, compare_natCast, Ordering.swap_then] <;>
    rfl

theorem unpackedPlace?_eq_none_iff {unpacked : UnpackedFloat} :
    unpackedPlace? unpacked = none ↔ unpacked.isNaN = true := by
  cases unpacked <;> simp [unpackedPlace?, UnpackedFloat.isNaN]

/-! ## Comparisons -/

variable {left right value : Float}

theorem place?_eq_none_iff : place? value = none ↔ value.isNaN = true :=
  unpackedPlace?_eq_none_iff

theorem lt_iff_places :
    left < right ↔ Option.map₂ compare (place? left) (place? right) = some .lt := by
  rw [place?, place?, ← compare_unpacked]
  change decide ((left.toModel.unpack.compare right.toModel.unpack == some .lt) = true) = true ↔ _
  rw [decide_eq_true_iff, beq_iff_eq]

theorem beq_eq_places :
    (left == right) = (Option.map₂ compare (place? left) (place? right) == some .eq) := by
  rw [place?, place?, ← compare_unpacked]
  rfl

theorem map₂_compare_swap (left right : Option Place) :
    Option.map₂ compare right left = (Option.map₂ compare left right).map Ordering.swap := by
  rw [Option.map_map₂]
  apply Option.map₂_comm
  intro right left
  exact Std.OrientedCmp.eq_swap

theorem compareFloats_eq (left right : Float) :
    Number.compareFloats left right = Option.map₂ compare (place? left) (place? right) := by
  simp only [Number.compareFloats, lt_iff_places, beq_eq_places,
    map₂_compare_swap (place? left) (place? right)]
  rcases Option.map₂ compare (place? left) (place? right) with _ | _ | _ | _ <;> rfl

theorem compareFloats_swap (left right : Float) :
    Number.compareFloats right left = (Number.compareFloats left right).map Ordering.swap := by
  rw [compareFloats_eq, compareFloats_eq, map₂_compare_swap]

theorem compareFloats_eq_none_iff :
    Number.compareFloats left right = none ↔ left.isNaN = true ∨ right.isNaN = true := by
  rw [compareFloats_eq, Option.map₂_eq_none_iff, place?_eq_none_iff, place?_eq_none_iff]

theorem beq_eq_compareFloats (left right : Float) :
    (left == right) = (Number.compareFloats left right == some .eq) := by
  rw [compareFloats_eq, beq_eq_places]

/-! ## Integers as floats -/

theorem packComponents_ne_packedNaN (sign : Sign) {exponent : BitVec 11} {fraction : BitVec 52}
    (regular : exponent ≠ -1#11 ∨ fraction = 0) :
    packComponents Format.binary64 sign exponent fraction ≠ packedNaN Format.binary64 := by
  intro isNaN
  rcases regular with notLast | zero
  · have exponents := congrArg unpackExponent isNaN
    rw [packedNaN, unpackExponent_packComponents, unpackExponent_packComponents] at exponents
    exact notLast exponents
  · have fractions := congrArg unpackMantissa isNaN
    rw [packedNaN, unpackMantissa_packComponents, unpackMantissa_packComponents, zero] at fractions
    exact absurd fractions (by decide)

theorem pack_ne_packedNaN {unpacked : UnpackedFloat} (regular : unpacked.isNaN = false) :
    UnpackedFloat.pack Format.binary64 unpacked ≠ packedNaN Format.binary64 := by
  cases unpacked with
  | notANumber => cases regular
  | infinity sign => exact packComponents_ne_packedNaN sign (.inr rfl)
  | zero sign => exact packComponents_ne_packedNaN sign (.inr rfl)
  | finite sign mantissa exponent positive =>
      simp only [UnpackedFloat.pack]
      split
      · exact packComponents_ne_packedNaN sign (.inr rfl)
      rename_i fits
      split
      · apply packComponents_ne_packedNaN sign
        left
        intro last
        have values := congrArg BitVec.toNat last
        have allOnes : (-1#11 : BitVec 11).toNat = 2047 := by decide
        rw [allOnes, BitVec.toNat_ofNat, Nat.mod_eq_of_lt (by omega)] at values
        omega
      · exact packComponents_ne_packedNaN sign (.inl (by decide))

theorem isNaN_ofModel_pack {unpacked : UnpackedFloat} (regular : unpacked.isNaN = false) :
    (Float.ofModel (.pack unpacked)).isNaN = false := by
  rw [← Bool.not_eq_true]
  intro isNaN
  exact pack_ne_packedNaN regular ((isNaN_unpack_iff_of_valid valid_pack).mp isNaN)

theorem isNaN_roundWithAccuracy (sign : Sign) (mantissa : Nat) (exponent : Int)
    (accuracy : Accuracy) :
    (roundWithAccuracy Format.binary64 sign mantissa exponent accuracy).isNaN = false := by
  simp only [roundWithAccuracy]
  split <;> rfl

theorem isNaN_mul_ofParts {significand factor : Nat} {exponent shift : Int}
    (canonical : Canonical significand exponent) (positive : 0 < significand)
    (factor_canonical : Canonical factor shift) (factor_pos : 0 < factor) :
    (ofParts false significand exponent * ofParts false factor shift).isNaN = false := by
  have model : ofParts false significand exponent * ofParts false factor shift =
      .ofModel (.pack (UnpackedFloat.mul Format.binary64
        (Float.Model.pack (unpacked false significand exponent)).unpack
        (Float.Model.pack (unpacked false factor shift)).unpack)) := rfl
  rw [model, unpack_pack_unpacked canonical, unpack_pack_unpacked factor_canonical, unpacked,
    unpacked, dif_pos positive, dif_pos factor_pos]
  exact isNaN_ofModel_pack (isNaN_roundWithAccuracy _ _ _ _)

/-- A decimal without a fraction is rounded or too large, but in no case a NaN. -/
theorem isNaN_ofScientific (coefficient : Nat) {exponent : Int} (nonneg : 0 ≤ exponent) :
    (UnpackedFloat.ofScientific Format.binary64 coefficient exponent).isNaN = false := by
  unfold UnpackedFloat.ofScientific
  split
  · rfl
  split
  · rfl
  split
  · rfl
  exact isNaN_roundWithAccuracy _ _ _ _

theorem isNaN_ofNat (number : Nat) : (Float.ofNat number).isNaN = false := by
  change (Float.ofScientific number false 0).isNaN = false
  by_cases number_eq : number = 0
  · subst number_eq
    decide
  have number_pos := Nat.pos_of_ne_zero number_eq
  unfold Float.ofScientific
  split
  · rename_i small
    have number_canonical : Canonical (aligned number) (0 + number.log2 - 52) :=
      canonical_aligned small.1 number_pos (by omega) (by omega)
    have one_canonical : Canonical (aligned 1) (0 + (1 : Nat).log2 - 52) :=
      canonical_aligned (by norm_num) Nat.one_pos (by omega) (by omega)
    have table : Float.exactlyRepresentablePowersOfTen[0] =
        ofParts false (aligned 1) (0 + (1 : Nat).log2 - 52) := powersOfTen_eq_ofParts 0
    rw [zero_add] at number_canonical
    simp only [Bool.false_eq_true, if_false]
    rw [toFloat_eq_ofParts small.1 number_pos, table]
    exact isNaN_mul_ofParts number_canonical (aligned_pos number_pos) one_canonical
      (aligned_pos Nat.one_pos)
  · apply isNaN_ofModel_pack
    exact isNaN_ofScientific number (Int.natCast_nonneg 0)

theorem isNaN_neg (regular : value.isNaN = false) : (-value).isNaN = false := by
  have model : -value = .ofModel (.pack value.toModel.unpack.neg) := rfl
  have unpackedRegular : value.toModel.unpack.isNaN = false := regular
  rw [model]
  apply isNaN_ofModel_pack
  cases unpacked : value.toModel.unpack with
  | notANumber => rw [unpacked] at unpackedRegular; exact unpackedRegular
  | infinity sign => rfl
  | zero sign => rfl
  | finite sign mantissa exponent positive => rfl

/-- Rounding an integer to a float never leads to a NaN. -/
theorem isNaN_ofInt (number : Int) : (Float.ofInt number).isNaN = false := by
  cases number with
  | ofNat magnitude => exact isNaN_ofNat magnitude
  | negSucc magnitude => exact isNaN_neg (isNaN_ofNat (magnitude + 1))

end MeteredRules.Binary64
