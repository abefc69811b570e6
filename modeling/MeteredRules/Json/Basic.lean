/-!
# JSON values

JSON as a tree. Integers and floats are kept apart, and the entries of an object are listed.
-/

namespace MeteredRules

/-- A JSON value. -/
inductive Json where
  | null
  | boolean (truth : Bool)
  | integer (value : Int)
  | float (value : Float)
  | string (text : String)
  | array (items : List Json)
  | object (entries : List (String × Json))

instance : Inhabited Json := ⟨.null⟩

end MeteredRules
