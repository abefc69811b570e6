import Std.Data.String.ToNat
import MeteredRules.Environment
import MeteredRules.Parameter

/-!
# Tables of host functions

A host is usually a finite table of functions, each with the key under which it is kept and the id
under which it appears. A function is registered as one on the plain list of its arguments, or as
one over typed parameters, which are counted and converted before it computes. Each registration has
a key of its own. Functions that were registered under the same name before are kept, since there
may be environments that still bind it to them.
-/

namespace MeteredRules

/--
A function as a host registers it: on the plain list of its arguments, over up to two typed
parameters which are counted and converted, or over any number of arguments with an arity of its
own.
-/
inductive Registration where
  | plain (function : Function)
  | nullary (body : Action Value)
  | unary {α : Type} (parameter : Parameter α) (body : α → Action Value)
  | binary {α β : Type} (first : Parameter α) (second : Parameter β)
    (body : α → β → Action Value)
  /-- A function of arguments of one kind. -/
  | variadic {α : Type} (arity : Arity) (kind : ElementKind α) (body : List α → Action Value)
  /-- A function of one argument and of further ones, where the arity counts all of them. -/
  | variadicAfter {α β : Type} (arity : Arity) (first : Parameter α) (kind : ElementKind β)
    (body : α → List β → Action Value)

/-- The function that is called once it was registered. -/
def Registration.function : Registration → Function
  | .plain function => function
  | .nullary body => .nullary body
  | .unary parameter body => .unary parameter body
  | .binary first second body => .binary first second body
  | .variadic arity kind body => .checked arity (.variadic kind body)
  | .variadicAfter arity first kind body => .checked arity (.variadicAfter first kind body)

/-- A function of a host. -/
structure HostFunction where
  /-- The key under which the host keeps the function. -/
  key : String
  /-- The id under which the function appears. -/
  id : String
  function : Function

namespace HostFunction

/-- A function that is kept under the name that it is registered under. -/
def named (name : String) (registration : Registration) : HostFunction :=
  ⟨name, name, registration.function⟩

/-- The value of a function. -/
def value (entry : HostFunction) : Value :=
  .callable (.host entry.id entry.key)

end HostFunction

namespace Host

/-- The function of a given key in a table. -/
def find? (table : List HostFunction) (key : String) : Option HostFunction :=
  table.find? fun entry => entry.key == key

/-- The host with the functions of a table. -/
def ofTable (table : List HostFunction) : Host :=
  fun key arguments =>
    match find? table key with
    | some entry => entry.function arguments
    | none => .ofResult (.error (.unbound key))

/-- The environment that binds the functions of a table to their keys. -/
def environment (table : List HostFunction) : Environment :=
  .ofList (table.map fun entry => (entry.key, entry.value))

end Host

/-- The functions that were registered so far. -/
structure Registry where
  /-- The functions, the last one first. -/
  table : List HostFunction
  /-- The functions are kept under the numbers of their registrations. -/
  keys_eq : table.map HostFunction.key = (List.range table.length).reverse.map Nat.repr

namespace Registry

/-- No function was registered yet. -/
def empty : Registry :=
  ⟨[], rfl⟩

/-- The key of the function that is registered next. -/
def nextKey (registry : Registry) : String :=
  registry.table.length.repr

/-- Keeps a function, which appears under the name that it is registered under. -/
def add (registry : Registry) (name : String) (registration : Registration) : Registry where
  table := ⟨registry.nextKey, name, registration.function⟩ :: registry.table
  keys_eq := by
    rw [List.map_cons, registry.keys_eq, List.length_cons, List.range_succ]
    simp [nextKey]

/-- Registers a function: it is kept, and its name is bound to it in an environment. -/
def register (registry : Registry) (environment : Environment) (name : String)
    (registration : Registration) : Registry × Environment :=
  (registry.add name registration, environment.register name registry.nextKey)

/-- The host that keeps the registered functions. -/
def host (registry : Registry) : Host :=
  .ofTable registry.table

/-- The keys that are in use. -/
def keys (registry : Registry) : List String :=
  registry.table.map HostFunction.key

theorem nextKey_not_mem_keys (registry : Registry) : registry.nextKey ∉ registry.keys := by
  rw [keys, registry.keys_eq, nextKey]
  simp [Nat.repr_inj]

theorem nextKey_mem_keys_add (registry : Registry) (name : String) (registration : Registration) :
    registry.nextKey ∈ (registry.add name registration).keys := by
  simp [keys, add]

theorem mem_keys_add {registry : Registry} {key : String} (used : key ∈ registry.keys)
    (name : String) (registration : Registration) :
    key ∈ (registry.add name registration).keys := by
  simpa [keys, add] using Or.inr used

theorem host_add_nextKey (registry : Registry) (name : String) (registration : Registration) :
    (registry.add name registration).host registry.nextKey = registration.function := by
  funext arguments
  simp [host, add, Host.ofTable, Host.find?]

/-- A further registration leaves the functions alone that are kept. -/
theorem host_add_of_mem_keys {registry : Registry} {key : String} (used : key ∈ registry.keys)
    (name : String) (registration : Registration) :
    (registry.add name registration).host key = registry.host key := by
  have other : registry.nextKey ≠ key := by
    rintro rfl
    exact registry.nextKey_not_mem_keys used
  funext arguments
  simp [host, add, Host.ofTable, Host.find?, other]

end Registry

end MeteredRules
