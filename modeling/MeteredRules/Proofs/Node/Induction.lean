import MeteredRules.Node.Basic

/-!
# Induction over expressions

An expression holds lists of expressions. The induction principle of this file hides the nesting:
a property of all expressions is proved for a form or a special form from the property of every
element of it.
-/

namespace MeteredRules.Node

/-- What holds of an expression as soon as it holds of its parts holds of every expression. -/
@[elab_as_elim]
theorem induction {motive : Node → Prop}
    (atom : ∀ value, motive (.atom value))
    (symbol : ∀ name, motive (.symbol name))
    (form : ∀ elements, (∀ element ∈ elements, motive element) → motive (.form elements))
    (special : ∀ operation arguments, (∀ argument ∈ arguments, motive argument) →
      motive (.special operation arguments))
    (node : Node) : motive node := by
  refine @Node.rec motive (fun nodes => ∀ node ∈ nodes, motive node)
    atom symbol form special ?nil ?cons node
  case nil =>
    intro node node_mem
    simp at node_mem
  case cons =>
    intro head tail head_holds tail_holds node node_mem
    rcases List.mem_cons.mp node_mem with rfl | in_tail
    · exact head_holds
    · exact tail_holds node in_tail

end MeteredRules.Node
