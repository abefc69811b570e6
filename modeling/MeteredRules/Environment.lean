import MeteredRules.Value.Equality

/-!
# Environments

The bindings of names to values that a host gives to an evaluation. An environment is flat. It holds
its bindings in no particular order, each name once, and only its listing is sorted by the names.
-/

namespace MeteredRules

/-- Bindings of names to values. -/
structure Environment where
  /-- The bindings, in any order. -/
  bindings : List (String × Value)
  /-- No name is bound twice. -/
  distinct : (bindings.map Prod.fst).Nodup

namespace Environment

/-- The environment without bindings. -/
def empty : Environment :=
  ⟨[], List.nodup_nil⟩

instance : Inhabited Environment := ⟨empty⟩

/-- Binds a name to a value, in place of an earlier binding of that name. -/
def define (environment : Environment) (name : String) (value : Value) : Environment where
  bindings := (name, value) :: environment.bindings.filter fun binding => binding.1 != name
  distinct := by
    rw [List.map_cons, List.nodup_cons]
    refine ⟨by simp, environment.distinct.sublist ?_⟩
    exact (List.filter_sublist).map Prod.fst

/-- Binds a name to the function that the host keeps under a key; it appears under that name. -/
def register (environment : Environment) (name key : String) : Environment :=
  environment.define name (.callable (.host name key))

/-- The value of a name. -/
def get? (environment : Environment) (name : String) : Option Value :=
  environment.bindings.lookup name

/-- The number of bound names. -/
def size (environment : Environment) : Nat :=
  environment.bindings.length

/-- Whether no name is bound. -/
def isEmpty (environment : Environment) : Bool :=
  environment.bindings.isEmpty

/-- The bindings, sorted by their names. -/
def toList (environment : Environment) : List (String × Value) :=
  environment.bindings.mergeSort fun left right => left.1 ≤ right.1

/-- Binds all names of a list; of several bindings for one name the last counts. -/
def defineAll (environment : Environment) (bindings : List (String × Value)) : Environment :=
  bindings.foldl (fun environment binding => environment.define binding.1 binding.2) environment

/-- The environment with the given bindings. -/
def ofList (bindings : List (String × Value)) : Environment :=
  empty.defineAll bindings

/-- The defaults, with the names that the overrides bind taken from there. -/
def merged (defaults overrides : Environment) : Environment :=
  defaults.defineAll overrides.bindings

/-- Whether two environments bind the same names to equal values. -/
def equals (left right : Environment) : Bool :=
  left.size == right.size &&
    left.bindings.all fun binding =>
      match right.get? binding.1 with
      | some value => binding.2 == value
      | none => false

instance : BEq Environment := ⟨equals⟩

@[simp]
theorem get?_empty (name : String) : empty.get? name = none :=
  rfl

theorem lookup_cons (binding : String × Value) (bindings : List (String × Value)) (name : String) :
    (binding :: bindings).lookup name =
      if binding.1 = name then some binding.2 else bindings.lookup name := by
  rcases binding with ⟨bound, value⟩
  by_cases same : bound = name
  · simp [same]
  · have passed : (name == bound) = false := by simpa using Ne.symm same
    simp [List.lookup_cons, same, passed]

theorem lookup_filter_of_ne {bindings : List (String × Value)} {bound name : String}
    (other : bound ≠ name) :
    (bindings.filter fun binding => binding.1 != bound).lookup name = bindings.lookup name := by
  induction bindings with
  | nil => rfl
  | cons binding bindings ih =>
    by_cases same : binding.1 = bound
    · simp [lookup_cons, same, other, ih]
    · simp [lookup_cons, same, ih]

theorem get?_define (environment : Environment) (bound name : String) (value : Value) :
    (environment.define bound value).get? name =
      if bound = name then some value else environment.get? name := by
  by_cases same : bound = name
  · simp [get?, define, same]
  · simp [get?, define, lookup_cons, same, lookup_filter_of_ne same]

theorem get?_defineAll {bindings : List (String × Value)}
    (distinct : (bindings.map Prod.fst).Nodup) (environment : Environment) (name : String) :
    (environment.defineAll bindings).get? name =
      (bindings.lookup name).or (environment.get? name) := by
  induction bindings generalizing environment with
  | nil => rfl
  | cons binding bindings ih =>
    rw [List.map_cons, List.nodup_cons] at distinct
    refine (ih distinct.2 (environment.define binding.1 binding.2)).trans ?_
    rw [get?_define, lookup_cons]
    by_cases same : binding.1 = name
    · have later : bindings.lookup name = none := by
        rw [List.lookup_eq_none_iff]
        intro other member
        have apart : name ≠ other.1 := by
          rintro rfl
          exact distinct.1 (same ▸ List.mem_map_of_mem member)
        simpa using apart
      simp [same, later]
    · simp [same]

/-- A name means what the overrides bind it to, and else what the defaults do. -/
theorem get?_merged (defaults overrides : Environment) (name : String) :
    (defaults.merged overrides).get? name = (overrides.get? name).or (defaults.get? name) :=
  get?_defineAll overrides.distinct defaults name

end Environment

end MeteredRules
