/-!
# Ranges of letters

The shape of the tables of letter case: letters at regular distances whose counterparts are all the
same number of code points away.
-/

namespace MeteredRules.Text.Case

/-- The code points `first`, `first + stride`, ... up to `last`, each moved by `offset`. -/
structure Range where
  first : Nat
  last : Nat
  stride : Nat
  offset : Int
deriving DecidableEq

/-- Whether a range holds a code point. -/
def Range.holds (range : Range) (code : Nat) : Bool :=
  range.first ≤ code && code ≤ range.last && (code - range.first) % range.stride == 0

/-- The code point that a table assigns to a code point; one in no range is its own. -/
def moved (table : List Range) (code : Nat) : Nat :=
  match table.find? fun range => range.holds code with
  | some range => (code + range.offset).toNat
  | none => code

end MeteredRules.Text.Case
