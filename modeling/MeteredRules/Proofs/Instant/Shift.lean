import MeteredRules.Instant.Shift

/-!
# Shifted instants

Outside of leap seconds a move by whole seconds leaves the fraction alone, so that it is a relation
between two instants: their whole seconds are a number apart and their nanoseconds are the same. The
moved instant is the one in that relation to the other, if there is one, and there is one exactly if
its whole second lies in the years that instants reach over.
-/

namespace MeteredRules.Instant

/-- A whole second of the years that instants reach over. -/
def Representable (seconds : Int) : Prop :=
  Date.toDayNumber ⟨-262143, 1, 1⟩ * 86400 ≤ seconds ∧
    seconds < Date.toDayNumber ⟨262143, 1, 1⟩ * 86400

/-- An instant that lies a whole number of seconds after another one, at the same nanosecond. -/
structure IsShift (base : Instant) (count : Int) (shifted : Instant) : Prop where
  seconds : shifted.seconds = base.seconds + count
  nanos : shifted.nanos = base.nanos

variable {base shifted : Instant} {count seconds : Int} {nanos : Nat}

instance (seconds : Int) : Decidable (Representable seconds) :=
  inferInstanceAs (Decidable (_ ∧ _))

theorem representable_iff :
    Representable seconds ↔ -8334601228800 ≤ seconds ∧ seconds ≤ 8210266876799 := by
  have first : Date.toDayNumber ⟨-262143, 1, 1⟩ * 86400 = -8334601228800 := by decide
  have last : Date.toDayNumber ⟨262143, 1, 1⟩ * 86400 = 8210266876800 := by decide
  rw [Representable, first, last]
  omega

theorem isLeap_eq_false_iff : base.isLeap = false ↔ base.nanos < 1000000000 := by
  rw [isLeap, decide_eq_false_iff_not]
  exact Nat.not_le

namespace IsShift

theorem isLeap_eq (shift : base.IsShift count shifted) : shifted.isLeap = base.isLeap := by
  rw [isLeap, isLeap, shift.nanos]

theorem reverse (shift : base.IsShift count shifted) : shifted.IsShift (-count) base := by
  refine ⟨?_, shift.nanos.symm⟩
  rw [shift.seconds, Int.add_neg_cancel_right]

theorem representable (shift : base.IsShift count shifted) :
    Representable (base.seconds + count) := by
  rw [← shift.seconds]
  exact representable_iff.mpr shifted.inRange

end IsShift

theorem exists_isShift (ordinary : base.isLeap = false)
    (representable : Representable (base.seconds + count)) :
    ∃ shifted, base.IsShift count shifted :=
  ⟨⟨base.seconds + count, base.nanos, representable_iff.mp representable,
    .inl (isLeap_eq_false_iff.mp ordinary)⟩, rfl, rfl⟩

theorem ofUnix?_eq_some_iff :
    ofUnix? seconds nanos = some shifted ↔ shifted.seconds = seconds ∧ shifted.nanos = nanos := by
  constructor
  · intro made
    rw [ofUnix?] at made
    split at made
    · split at made
      · cases made
        exact ⟨rfl, rfl⟩
      · cases made
    · cases made
  · rintro ⟨rfl, rfl⟩
    rw [ofUnix?, dif_pos shifted.inRange, dif_pos shifted.fraction]

/-- Whole seconds that are counted in nanoseconds leave the fraction alone. -/
theorem moveFrom?_whole (fraction : nanos < 1000000000) :
    moveFrom? seconds nanos (count * 1000000000) = ofUnix? (seconds + count) nanos := by
  have whole : (seconds * 1000000000 + nanos + count * 1000000000) / 1000000000 =
      seconds + count := by
    omega
  have rest : (seconds * 1000000000 + nanos + count * 1000000000) % 1000000000 = nanos := by
    omega
  simp only [moveFrom?, nanosPerSecond, Int.cast_ofNat_Int, whole, rest, Int.toNat_natCast]

theorem move?_eq_some_iff (ordinary : base.isLeap = false) :
    base.move? (count * 1000000000) = some shifted ↔ base.IsShift count shifted := by
  rw [move?, ordinary, if_neg Bool.false_ne_true,
    moveFrom?_whole (isLeap_eq_false_iff.mp ordinary), ofUnix?_eq_some_iff]
  exact ⟨fun ⟨seconds, nanos⟩ => ⟨seconds, nanos⟩, fun shift => ⟨shift.seconds, shift.nanos⟩⟩

end MeteredRules.Instant
