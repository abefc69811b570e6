import MeteredRules.Error

/-!
# The meter

Evaluation is charged one operation for every form that it enters. A budget of `n` admits exactly
`n` operations; the one after them fails.
-/

namespace MeteredRules

/-- The operations counted so far and the budget, if there is one. -/
structure Meter where
  count : UInt64
  limit : Option UInt64
deriving DecidableEq

namespace Meter

/-- A meter that has counted nothing. -/
def ofLimit (limit : Option UInt64) : Meter :=
  ⟨0, limit⟩

/-- Counts one operation; the counter stays at its greatest value once it is reached. -/
def advance (meter : Meter) : Meter :=
  { meter with
    count := if meter.count.toNat + 1 < UInt64.size then meter.count + 1 else meter.count }

/-- Fails if more operations were counted than the budget admits. -/
def check (meter : Meter) : Except Error Unit :=
  match meter.limit with
  | some limit => if limit < meter.count then .error (.budget limit) else .ok ()
  | none => .ok ()

end Meter

end MeteredRules
