/-!
# Spans of characters

A property of characters is given by the spans of the code points that have it.
-/

namespace MeteredRules.Text

/-- Whether one of the given spans, ends included, holds a code point. -/
def within (spans : List (Nat × Nat)) (code : Nat) : Bool :=
  spans.any fun span => span.1 ≤ code && code ≤ span.2

end MeteredRules.Text
