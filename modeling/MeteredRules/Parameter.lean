import MeteredRules.Clock

/-!
# Typed parameters

A function is written over typed parameters and called with values. Its arguments are counted, then
converted from left to right, then the rest of them, and only then does it compute. The rest of the
arguments, like the elements of an array, is of one kind. It is checked as a whole before the first
of them is projected, so that a projection never meets an element of another kind
(`ElementKind.view_of_checked`).
-/

namespace MeteredRules

/-- The conversion of an argument to what a parameter accepts. -/
abbrev Parameter (α : Type) := Value → Except Error α

namespace Parameter

/-- Refuses a value. -/
def mismatch {α : Type} (expected : Expectation) (value : Value) : Except Error α :=
  .error (.refuse (.mismatch expected value))

/-- Any value. -/
def value : Parameter Value :=
  .ok

/-- A number of either kind. -/
def number : Parameter Number
  | .number amount => .ok amount
  | other => mismatch .number other

/-- An integer. -/
def integer : Parameter Int64
  | .number (.int amount) => .ok amount
  | other => mismatch .integer other

/-- A float; an integer is converted. -/
def float : Parameter Float
  | .number amount => .ok amount.toFloat
  | other => mismatch .number other

/-- A truth value. -/
def boolean : Parameter Bool
  | .boolean truth => .ok truth
  | other => mismatch .boolean other

/-- An instant. -/
def instant : Parameter Instant
  | .instant moment => .ok moment
  | other => mismatch .instant other

/-- A string. -/
def string : Parameter String
  | .string text => .ok text
  | other => mismatch .string other

end Parameter

/-- How the elements of a list are seen as elements of one kind. -/
structure ElementKind (α : Type) where
  /-- Checks a whole list, before the first of its elements is projected. -/
  precheck : List Value → Except Error Unit
  /-- Projects one element; an element of another kind has no projection. -/
  project : Value → Option α
  /-- A checked list holds no element of another kind. -/
  isSome_project : ∀ {items}, precheck items = .ok () → ∀ item ∈ items, (project item).isSome

namespace ElementKind

variable {α : Type} {kind : ElementKind α} {items : List Value}

/-- The elements of a list, none of which is projected unless all are admitted. -/
def view (kind : ElementKind α) (items : List Value) : Except Error (List α) :=
  match checked : kind.precheck items with
  | .error error => .error error
  | .ok () =>
    .ok (items.pmap (fun item projects => (kind.project item).get projects)
      (kind.isSome_project checked))

/-- A view fails only where the list is refused as a whole. -/
theorem view_eq_error_iff {error : Error} :
    kind.view items = .error error ↔ kind.precheck items = .error error := by
  unfold view
  split <;> simp_all

/-- The view of a checked list consists of the projections of all its elements. -/
theorem view_of_checked (checked : kind.precheck items = .ok ()) :
    ∃ elements, kind.view items = .ok elements ∧ items.map kind.project = elements.map some := by
  unfold view
  split
  · simp_all
  · refine ⟨_, rfl, ?_⟩
    rw [List.map_pmap]
    simp [List.pmap_eq_map]

theorem view_eq_ok_iff {elements : List α} :
    kind.view items = .ok elements ↔
      kind.precheck items = .ok () ∧ items.map kind.project = elements.map some := by
  cases checked : kind.precheck items with
  | error error => simp [view_eq_error_iff.mpr checked]
  | ok _ =>
    rcases view_of_checked checked with ⟨others, viewed, projected⟩
    rw [viewed, projected, List.map_inj_right (fun _ _ => Option.some.inj)]
    simp

/-- Refuses the first element that is not admitted. -/
def refuseOther (expected : Expectation) (admits : Value → Bool) (items : List Value) :
    Except Error Unit :=
  match items.find? fun item => !admits item with
  | some refused => Parameter.mismatch expected refused
  | none => .ok ()

section RefuseOther

variable {expected : Expectation} {admits : Value → Bool}

theorem refuseOther_eq_error_iff {error : Error} :
    refuseOther expected admits items = .error error ↔
      ∃ refused, items.find? (fun item => !admits item) = some refused ∧
        error = .refuse (.mismatch expected refused) := by
  unfold refuseOther
  cases items.find? fun item => !admits item with
  | none => simp
  | some refused => simp [Parameter.mismatch, eq_comm]

theorem admits_of_refuseOther (checked : refuseOther expected admits items = .ok ()) :
    ∀ item ∈ items, admits item = true := by
  intro item member
  unfold refuseOther at checked
  split at checked
  · cases checked
  · next none => simpa using List.find?_eq_none.mp none item member

end RefuseOther

/-- Values of any kind. -/
def value : ElementKind Value where
  precheck _ := .ok ()
  project := some
  isSome_project _ _ _ := rfl

/-- Numbers of either kind. -/
def number : ElementKind Number where
  precheck := refuseOther .number fun
    | .number _ => true
    | _ => false
  project
    | .number amount => some amount
    | _ => none
  isSome_project checked item member := by
    have admitted := admits_of_refuseOther checked item member
    cases item with
    | number amount => rfl
    | _ => cases admitted

/-- Strings. -/
def string : ElementKind String where
  precheck := refuseOther .string fun
    | .string _ => true
    | _ => false
  project
    | .string text => some text
    | _ => none
  isSome_project checked item member := by
    have admitted := admits_of_refuseOther checked item member
    cases item with
    | string text => rfl
    | _ => cases admitted

end ElementKind

/-- An array whose elements are of one kind. -/
def Parameter.array {α : Type} (kind : ElementKind α) : Parameter (List α)
  | .array items => kind.view items
  | other => mismatch .array other

/-- A function on argument lists. -/
abbrev Function := List Value → Action Value

namespace Function

/-- Fails because of the number of arguments. -/
def arityError (expected : Nat) (arguments : List Value) : Action Value :=
  .ofResult (.error (.arity expected arguments.length none))

/-- A function without parameters. -/
def nullary (body : Action Value) : Function
  | [] => body
  | arguments => arityError 0 arguments

/-- A function with one parameter. -/
def unary {α : Type} (parameter : Parameter α) (body : α → Action Value) : Function
  | [argument] => do
    let converted ← Action.ofResult (parameter argument)
    body converted
  | arguments => arityError 1 arguments

/-- A function with two parameters. -/
def binary {α β : Type} (first : Parameter α) (second : Parameter β)
    (body : α → β → Action Value) : Function
  | [left, right] => do
    let convertedLeft ← Action.ofResult (first left)
    let convertedRight ← Action.ofResult (second right)
    body convertedLeft convertedRight
  | arguments => arityError 2 arguments

/-- A function of any number of arguments of one kind. -/
def variadic {α : Type} (kind : ElementKind α) (body : List α → Action Value) : Function :=
  fun arguments => do
    let elements ← Action.ofResult (kind.view arguments)
    body elements

/-- A function of one argument and any number of further ones of one kind. -/
def variadicAfter {α β : Type} (first : Parameter α) (kind : ElementKind β)
    (body : α → List β → Action Value) : Function
  | argument :: rest => do
    let converted ← Action.ofResult (first argument)
    let elements ← Action.ofResult (kind.view rest)
    body converted elements
  | [] => arityError 1 []

/-- A function that first checks the number of its arguments against an arity. -/
def checked (arity : Arity) (body : Function) : Function :=
  fun arguments => do
    Action.ofResult (arity.check arguments.length)
    body arguments

end Function

end MeteredRules
