import MeteredRules.Proofs.Evaluation.Run
import MeteredRules.Proofs.Node.Induction

/-!
# The names of an expression

A name is used in one of two ways: as an expression of its own, or at the head of a form. The two
are looked up differently, so the uses of an expression keep them apart. Evaluation reaches the
bindings through the lookup of a use and in no other way.
-/

namespace MeteredRules

/-- A use of a name. -/
inductive Use where
  /-- As an expression of its own. -/
  | operand (name : String)
  /-- At the head of a form. -/
  | head (name : String)
deriving DecidableEq

/-- The name that is used. -/
def Use.name : Use → String
  | .operand name | .head name => name

/-- What a use of a name gives. -/
def Scope.lookup (scope : Scope) : Use → Except Error Value
  | .operand name => scope.resolve name
  | .head name => scope.resolveHead name

namespace Scope

/-- What a use of a name can give: a binding, a built-in function or one of two errors. -/
inductive Gives (scope : Scope) (use : Use) : Except Error Value → Prop where
  | bound {value : Value} (isBound : scope.environment.get? use.name = some value) :
      Gives scope use (.ok value)
  | builtin {function : Builtin} (isBuiltin : Builtin.ofName? use.name = some function) :
      Gives scope use (.ok (.callable (.builtin function)))
  | reserved {form : SpecialForm} (isForm : SpecialForm.ofName? use.name = some form) :
      Gives scope use (.error (.refuse (.reservedName form)))
  | unbound (notBound : scope.environment.get? use.name = none)
      (noBuiltin : Builtin.ofName? use.name = none) (noForm : SpecialForm.ofName? use.name = none) :
      Gives scope use (.error (.unbound use.name))

theorem gives_resolve (scope : Scope) {use : Use} : scope.Gives use (scope.resolve use.name) := by
  simp only [resolve]
  split
  · rename_i form isForm
    exact .reserved isForm
  · rename_i noForm
    split
    · rename_i value isBound
      exact .bound isBound
    · rename_i notBound
      split
      · rename_i function isBuiltin
        exact .builtin isBuiltin
      · rename_i noBuiltin
        exact .unbound notBound noBuiltin noForm

theorem gives_lookup (scope : Scope) (use : Use) : scope.Gives use (scope.lookup use) := by
  cases use with
  | operand name => exact scope.gives_resolve
  | head name =>
      simp only [lookup]
      unfold resolveHead
      split
      · rename_i function isBound
        exact .bound isBound
      · split
        · rename_i function isBuiltin
          exact .builtin isBuiltin
        · split
          · rename_i value isBound
            exact .bound isBound
          · exact scope.gives_resolve

end Scope

namespace Node

mutual

/-- The uses of names in an expression; the name of a special form is no use of it. -/
def uses : Node → List Use
  | .atom _ => []
  | .symbol name => [.operand name]
  | .form (.symbol name :: arguments) => .head name :: allUses arguments
  | .form elements => allUses elements
  | .special _ arguments => allUses arguments

/-- The uses of names in a list of expressions. -/
def allUses : List Node → List Use
  | [] => []
  | node :: nodes => node.uses ++ allUses nodes

end

/-- The uses of names at the head of a form. -/
def headUses : Node → List Use
  | .symbol name => [.head name]
  | head => head.uses

theorem uses_form_cons (head : Node) (arguments : List Node) :
    (form (head :: arguments)).uses = head.headUses ++ allUses arguments := by
  cases head <;> rfl

theorem mem_allUses {use : Use} {nodes : List Node} :
    use ∈ allUses nodes ↔ ∃ node ∈ nodes, use ∈ node.uses := by
  induction nodes with
  | nil => simp [allUses]
  | cons node nodes ih => simp [allUses, ih]

end Node

end MeteredRules
