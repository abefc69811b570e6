import Mathlib.Data.List.Forall2
import Mathlib.Data.Set.Card
import Mathlib.Data.String.Basic
import Std.Data.String.ToNat
import MeteredRules.Host.Basic
import MeteredRules.Proofs.Builtin.Call

/-!
# Environments as finite maps

Environments are built from empty ones by binding names, by registering functions of the host and by
merging. Whatever the order of these operations, the value of a name is the one that was written to
it last, where a merge writes what its overrides bind and hands on the rest of its defaults. A name
to which a function was written last calls this function, also if others were registered under the
name.

The number of bindings and their list are determined by the values of the names. The list is in the
strict order of the names, so that it holds each of them once, and there is only one such list.
-/

namespace MeteredRules.Environment

/-! ## Related lookups -/

section Rel

variable {α β : Type*} {related better : α → β → Prop} {first second : Option α}
  {third fourth : Option β}

theorem ne_none_iff_of_rel (rel : Option.Rel related first third) :
    first ≠ none ↔ third ≠ none := by
  cases rel with
  | some _ => simp
  | none => simp

theorem rel_imp (rel : Option.Rel better first third)
    (imp : ∀ value other, better value other → related value other) :
    Option.Rel related first third := by
  cases rel with
  | some holds => exact .some (imp _ _ holds)
  | none => exact .none

theorem rel_or (rel : Option.Rel related first third) (others : Option.Rel related second fourth) :
    Option.Rel related (first.or second) (third.or fourth) := by
  cases rel with
  | some holds => exact .some holds
  | none => exact others

end Rel

variable {environment left right : Environment}

/-! ## Listings -/

theorem lookup_eq_some_iff {bindings : List (String × Value)}
    (distinct : (bindings.map Prod.fst).Nodup) {name : String} {value : Value} :
    bindings.lookup name = some value ↔ (name, value) ∈ bindings := by
  induction bindings with
  | nil => simp
  | cons binding bindings ih =>
      rw [List.map_cons, List.nodup_cons] at distinct
      rw [lookup_cons, List.mem_cons, ← ih distinct.2]
      by_cases same : binding.1 = name
      · have later : ¬bindings.lookup name = some value := by
          rw [ih distinct.2]
          intro member
          exact distinct.1 (same ▸ List.mem_map_of_mem member)
        simp [same, later, Prod.ext_iff, eq_comm]
      · simp [same, Prod.ext_iff, Ne.symm same]

theorem mem_toList {name : String} {value : Value} :
    (name, value) ∈ environment.toList ↔ environment.get? name = some value := by
  rw [toList, List.mem_mergeSort, get?, lookup_eq_some_iff environment.distinct]

theorem toList_perm (environment : Environment) :
    environment.toList.Perm environment.bindings :=
  List.mergeSort_perm _ _

theorem nodup_names (environment : Environment) : (environment.toList.map Prod.fst).Nodup :=
  (environment.toList_perm.map Prod.fst).nodup_iff.mpr environment.distinct

/-- Sorting puts the names in order, and in strict order since none of them occurs twice. -/
theorem pairwise_toList (environment : Environment) :
    environment.toList.Pairwise fun first second => first.1 < second.1 := by
  have sorted : environment.toList.Pairwise fun first second => first.1 ≤ second.1 := by
    refine (List.pairwise_mergeSort ?_ ?_ environment.bindings).imp of_decide_eq_true
    · intro first second third
      simpa using le_trans
    · intro first second
      simpa using le_total first.1 second.1
  have apart := environment.nodup_names
  rw [List.Nodup, List.pairwise_map] at apart
  exact sorted.imp₂ (fun _ _ ordered => lt_of_le_of_ne ordered) apart

theorem mem_names {name : String} :
    name ∈ environment.toList.map Prod.fst ↔ environment.get? name ≠ none := by
  rw [Option.ne_none_iff_exists', List.mem_map]
  constructor
  · rintro ⟨⟨name, value⟩, listed, rfl⟩
    exact ⟨value, mem_toList.mp listed⟩
  · rintro ⟨value, bound⟩
    exact ⟨(name, value), mem_toList.mpr bound, rfl⟩

theorem encard_names (environment : Environment) :
    {name | environment.get? name ≠ none}.encard = environment.size := by
  have names_eq : {name | environment.get? name ≠ none} =
      ((environment.toList.map Prod.fst).toFinset : Set String) := by
    ext name
    rw [Set.mem_ofPred_eq, ← mem_names, List.coe_toFinset, Set.mem_ofPred_eq]
  have length_eq : (environment.toList.map Prod.fst).length = environment.size := by
    rw [List.length_map]
    exact environment.toList_perm.length_eq
  rw [names_eq, Set.encard_coe_eq_coe_finsetCard,
    List.toFinset_card_of_nodup environment.nodup_names, length_eq]

theorem isEmpty_iff : environment.isEmpty = true ↔ environment.size = 0 := by
  rw [isEmpty, size, List.isEmpty_iff, List.length_eq_zero_iff]

/-- Environments that bind the same names list them alike. -/
theorem names_eq_of_forall (same : ∀ name, left.get? name ≠ none ↔ right.get? name ≠ none) :
    left.toList.map Prod.fst = right.toList.map Prod.fst := by
  have permuted : (left.toList.map Prod.fst).Perm (right.toList.map Prod.fst) := by
    rw [List.perm_ext_iff_of_nodup left.nodup_names right.nodup_names]
    intro name
    rw [mem_names, mem_names, same]
  have leftOrdered := List.pairwise_map.mpr left.pairwise_toList
  have rightOrdered := List.pairwise_map.mpr right.pairwise_toList
  apply permuted.eq_of_pairwise _ leftOrdered rightOrdered
  intro first second _ _ ordered reversed
  exact absurd reversed (lt_asymm ordered)

/-- Environments whose names have related values list the same names with related values. -/
theorem forall₂_toList {related : Value → Value → Prop}
    (same : ∀ name, Option.Rel related (left.get? name) (right.get? name)) :
    List.Forall₂ (fun first second => first.1 = second.1 ∧ related first.2 second.2)
      left.toList right.toList := by
  have paired : List.Forall₂ Eq (left.toList.map Prod.fst) (right.toList.map Prod.fst) := by
    rw [names_eq_of_forall fun name => ne_none_iff_of_rel (same name)]
    exact List.forall₂_same.mpr fun _ _ => rfl
  rw [List.forall₂_map_left_iff, List.forall₂_map_right_iff] at paired
  rw [List.forall₂_iff_zip] at paired ⊢
  refine ⟨paired.1, ?_⟩
  rintro ⟨name, first⟩ ⟨other, second⟩ member
  obtain rfl : name = other := paired.2 member
  have values := same name
  rw [mem_toList.mp (List.of_mem_zip member).1, mem_toList.mp (List.of_mem_zip member).2] at values
  cases values with
  | some holds => exact ⟨rfl, holds⟩

theorem toList_eq_of_get?_eq (same : ∀ name, left.get? name = right.get? name) :
    left.toList = right.toList := by
  have listed : List.Forall₂ Eq left.toList right.toList := by
    have related : ∀ name, Option.Rel Eq (left.get? name) (right.get? name) := by
      intro name
      rw [same name]
      cases right.get? name with
      | some _ => exact .some rfl
      | none => exact .none
    exact (forall₂_toList related).imp fun _ _ equal => Prod.ext equal.1 equal.2
  rwa [List.forall₂_eq_eq_eq] at listed

/-! ## Histories -/

/-- Environments that are kept at numbered places, and the functions that were registered. -/
structure Store where
  environments : Nat → Environment
  registry : Registry

/-- An operation on a store. -/
inductive Change where
  /-- Binds a name in an environment. -/
  | define (place : Nat) (name : String) (value : Value)
  /-- Binds a name in a copy of an environment, which itself stays as it is. -/
  | extend (place source : Nat) (name : String) (value : Value)
  /-- Registers a function under a name in an environment. -/
  | register (place : Nat) (name : String) (registration : Registration)
  /-- Merges two environments, which themselves stay as they are. -/
  | merge (place defaults overrides : Nat)

namespace Change

/-- The place of the environment that an operation changes. -/
def place : Change → Nat
  | .define place _ _ | .extend place _ _ _ | .register place _ _ | .merge place _ _ => place

/-- The registry after an operation, and the environment that it puts at its place. -/
def result (store : Store) : Change → Registry × Environment
  | .define place name value => (store.registry, (store.environments place).define name value)
  | .extend _ source name value => (store.registry, (store.environments source).define name value)
  | .register place name registration =>
    store.registry.register (store.environments place) name registration
  | .merge _ defaults overrides =>
    (store.registry, (store.environments defaults).merged (store.environments overrides))

end Change

namespace Store

/-- Empty environments, and no functions. -/
def initial : Store :=
  ⟨fun _ => empty, .empty⟩

/-- The store after an operation. -/
def perform (store : Store) (change : Change) : Store where
  environments := Function.update store.environments change.place (change.result store).2
  registry := (change.result store).1

/-- The store after a history, which lists its operations with the last one first. -/
def after : List Change → Store
  | [] => initial
  | change :: earlier => (after earlier).perform change

end Store

/-- What is written to a name. -/
inductive Written where
  | given (value : Value)
  /-- A function, which appears under the name that it was registered under. -/
  | registered (name : String) (registration : Registration)

/--
Whether a value is what was written; for a function, a call of the value has to be a call of it.
-/
def Written.IsValue (host : Host) : Written → Value → Prop
  | .given written, value => value = written
  | .registered name registration, value => ∃ called, value = .callable called ∧ called.id = name ∧
      called.call host = registration.function

/-- What a history wrote last to a name of the environment at a place. -/
def lastWrite : List Change → (place : Nat) → (name : String) → Option Written
  | [], _, _ => none
  | .define target bound value :: earlier, place, name =>
    if place = target ∧ bound = name then some (.given value) else lastWrite earlier place name
  | .extend target source bound value :: earlier, place, name =>
    if place = target then
      if bound = name then some (.given value) else lastWrite earlier source name
    else lastWrite earlier place name
  | .register target bound registration :: earlier, place, name =>
    if place = target ∧ bound = name then some (.registered bound registration)
    else lastWrite earlier place name
  | .merge target defaults overrides :: earlier, place, name =>
    if place = target then
      (lastWrite earlier overrides name).or (lastWrite earlier defaults name)
    else lastWrite earlier place name

variable {store : Store} {change : Change} {place : Nat} {value : Value} {written : Written}

theorem perform_of_eq (here : place = change.place) :
    (store.perform change).environments place = (change.result store).2 := by
  rw [here]
  exact Function.update_self _ _ _

/-- An operation leaves all environments as they are but the one that it changes. -/
theorem perform_of_ne (elsewhere : place ≠ change.place) :
    (store.perform change).environments place = store.environments place :=
  Function.update_of_ne elsewhere _ _

/--
A value is what was written, and a function that was registered is kept under one of the keys.
-/
def Records (registry : Registry) (value : Value) : Written → Prop
  | .given written => value = written
  | .registered name registration => ∃ key ∈ registry.keys,
      value = .callable (.host name key) ∧ registry.host key = registration.function

theorem Records.isValue {registry : Registry} (records : Records registry value written) :
    written.IsValue registry.host value := by
  cases written with
  | given value => exact records
  | registered name registration =>
      rcases records with ⟨key, _, rfl, kept⟩
      exact ⟨_, rfl, rfl, (Callable.call_host _ _ _).trans kept⟩

/-- An operation leaves the functions alone that are registered. -/
theorem host_perform_of_mem_keys {key : String} (used : key ∈ store.registry.keys)
    (change : Change) : key ∈ (store.perform change).registry.keys ∧
      (store.perform change).registry.host key = store.registry.host key := by
  cases change with
  | register place bound added =>
      exact ⟨Registry.mem_keys_add used bound added, Registry.host_add_of_mem_keys used bound added⟩
  | define | extend | merge => exact ⟨used, rfl⟩

theorem Records.perform (records : Records store.registry value written) (change : Change) :
    Records (store.perform change).registry value written := by
  cases written with
  | given value => exact records
  | registered name registration =>
      rcases records with ⟨key, used, rfl, kept⟩
      have later := host_perform_of_mem_keys used change
      exact ⟨key, later.1, rfl, later.2.trans kept⟩

theorem records_register (store : Store) (place : Nat) (name : String)
    (registration : Registration) :
    Records (store.perform (.register place name registration)).registry
      (.callable (.host name store.registry.nextKey)) (.registered name registration) :=
  ⟨_, store.registry.nextKey_mem_keys_add name registration, rfl,
    store.registry.host_add_nextKey name registration⟩

/-- The value of a name is what was written to it last. -/
theorem records_get? (history : List Change) (place : Nat) (name : String) :
    Option.Rel (Records (Store.after history).registry)
      (((Store.after history).environments place).get? name) (lastWrite history place name) := by
  induction history generalizing place with
  | nil => exact .none
  | cons change earlier ih =>
      have kept (place : Nat) : Option.Rel (Records (Store.after (change :: earlier)).registry)
          (((Store.after earlier).environments place).get? name) (lastWrite earlier place name) :=
        rel_imp (ih place) fun _ _ records => records.perform change
      by_cases here : place = change.place
      · rw [Store.after, perform_of_eq here]
        subst here
        cases change with
        | define target bound value =>
            simp only [Change.result, Change.place, lastWrite, get?_define, true_and]
            split
            · exact .some rfl
            · exact kept target
        | extend target source bound value =>
            simp only [Change.result, Change.place, lastWrite, get?_define, if_true]
            split
            · exact .some rfl
            · exact kept source
        | register target bound registration =>
            simp only [Change.result, Change.place, lastWrite, Registry.register, register,
              get?_define, true_and]
            split
            · exact .some (records_register (Store.after earlier) target bound registration)
            · exact kept target
        | merge target defaults overrides =>
            simp only [Change.result, Change.place, lastWrite, get?_merged, if_true]
            exact rel_or (kept overrides) (kept defaults)
      · rw [Store.after, perform_of_ne here]
        have untouched :
            lastWrite (change :: earlier) place name = lastWrite earlier place name := by
          simp only [Change.place] at here
          cases change <;> simp [lastWrite, here]
        rw [untouched]
        exact kept place

/-- An environment is the finite map of what was written to each name. -/
structure Represents (environment : Environment) (host : Host)
    (written : String → Option Written) : Prop where
  get? : ∀ name, Option.Rel (fun value written => written.IsValue host value)
    (environment.get? name) (written name)
  size_eq : {name | written name ≠ none}.encard = environment.size
  isEmpty_iff : environment.isEmpty = true ↔ environment.size = 0
  listed : ∀ name value, (name, value) ∈ environment.toList ↔ environment.get? name = some value
  ordered : environment.toList.Pairwise fun first second => first.1 < second.1

theorem represents_after (history : List Change) (place : Nat) :
    ((Store.after history).environments place).Represents (Store.after history).registry.host
      (lastWrite history place) := by
  have rel := records_get? history place
  refine ⟨?_, ?_, isEmpty_iff, fun _ _ => mem_toList, pairwise_toList _⟩
  · intro name
    exact rel_imp (rel name) fun _ _ records => records.isValue
  · rw [← encard_names]
    congr 1
    ext name
    exact (ne_none_iff_of_rel (rel name)).symm

/-! ## Merges -/

theorem get?_merged_assoc (first second third : Environment) (name : String) :
    ((first.merged second).merged third).get? name =
      (first.merged (second.merged third)).get? name := by
  simp only [get?_merged, Option.or_assoc]

theorem get?_merged_empty (environment : Environment) (name : String) :
    (environment.merged empty).get? name = environment.get? name := by
  rw [get?_merged, get?_empty, Option.none_or]

theorem get?_empty_merged (environment : Environment) (name : String) :
    (empty.merged environment).get? name = environment.get? name := by
  rw [get?_merged, get?_empty, Option.or_none]

/--
Environments behave as finite maps under every history of operations. An environment is the map of
what was written last to each name, where a function that was registered last under a name is the
one that the name calls. An operation leaves all environments but one as they are, and all functions
that are registered. Environments whose names have related values list the same names with related
values, and so the same bindings if the values are the same. Merging is associative, and the empty
environment is neutral in it on both sides.
-/
theorem finite_maps :
    (∀ history place, ((Store.after history).environments place).Represents
      (Store.after history).registry.host (lastWrite history place)) ∧
    (∀ (store : Store) change place, place ≠ Change.place change →
      (store.perform change).environments place = store.environments place) ∧
    (∀ (store : Store) change key, key ∈ store.registry.keys →
      (store.perform change).registry.host key = store.registry.host key) ∧
    (∀ left right : Environment, (∀ name, left.get? name = right.get? name) →
      left.toList = right.toList) ∧
    (∀ (related : Value → Value → Prop) (left right : Environment),
      (∀ name, Option.Rel related (left.get? name) (right.get? name)) →
      List.Forall₂ (fun first second => first.1 = second.1 ∧ related first.2 second.2)
        left.toList right.toList) ∧
    (∀ first second third : Environment, ∀ name,
      ((first.merged second).merged third).get? name =
        (first.merged (second.merged third)).get? name) ∧
    ∀ (environment : Environment) name,
      (environment.merged empty).get? name = environment.get? name ∧
        (empty.merged environment).get? name = environment.get? name := by
  refine ⟨represents_after, ?_, ?_, ?_, ?_, get?_merged_assoc, ?_⟩
  · intro store change place elsewhere
    exact perform_of_ne elsewhere
  · intro store change key used
    exact (host_perform_of_mem_keys used change).2
  · intro left right same
    exact toList_eq_of_get?_eq same
  · intro related left right same
    exact forall₂_toList same
  · intro environment name
    exact ⟨get?_merged_empty environment name, get?_empty_merged environment name⟩

/--
Of two functions under one name the second is called, whether the bindings are written one by one or
merged. Where only the second was registered the name has an equal value, under another key, and the
function under this key stays when the first one is registered as well.
-/
theorem finite_maps_overwritten :
    let first : Registration := .plain fun _ => pure .nil
    let second : Registration := .variadic (.atLeast 1) .number fun _ => pure .nil
    let written := Store.after
      [.register 0 "b" second, .define 0 "a" (.int 1), .register 0 "b" first]
    let parts := Store.after
      [.define 3 "a" (.int 1), .register 3 "b" second, .define 2 "a" (.int 5),
        .register 2 "b" first]
    let merged := parts.perform (.merge 1 2 3)
    let alone := Store.after [.register 0 "b" second, .define 0 "a" (.int 1)]
    (∃ called, (written.environments 0).get? "b" = some (.callable called) ∧ called.id = "b" ∧
      called.call written.registry.host = second.function) ∧
      first.function [] ≠ second.function [] ∧
      (2 ≠ Change.place (.merge 1 2 3) ∧ merged.environments 2 = parts.environments 2) ∧
      (Nat.repr 0 ∈ alone.registry.keys ∧
        (alone.perform (.register 0 "b" first)).registry.host (Nat.repr 0) =
          alone.registry.host (Nat.repr 0)) ∧
      ((∀ name, (written.environments 0).get? name = (merged.environments 1).get? name) ∧
        (written.environments 0).toList = (merged.environments 1).toList) ∧
      (∀ name, Option.Rel (fun first second => (first == second) = true)
        ((written.environments 0).get? name) ((alone.environments 0).get? name)) ∧
      List.Forall₂ (fun first second => first.1 = second.1 ∧ (first.2 == second.2) = true)
        (written.environments 0).toList (alone.environments 0).toList := by
  intro first second written parts merged alone
  have ⟨represented, untouched, kept, listed, listedAlike, _⟩ := finite_maps
  have ofWritten : (written.environments 0).bindings =
      [("b", .callable (.host "b" (Nat.repr 1))), ("a", .int 1)] := rfl
  have ofMerged : (merged.environments 1).bindings =
      [("b", .callable (.host "b" (Nat.repr 1))), ("a", .int 1)] := rfl
  have ofAlone : (alone.environments 0).bindings =
      [("b", .callable (.host "b" (Nat.repr 0))), ("a", .int 1)] := rfl
  have same (name : String) :
      (written.environments 0).get? name = (merged.environments 1).get? name := by
    rw [get?, get?, ofWritten, ofMerged]
  have alike (name : String) : Option.Rel (fun first second => (first == second) = true)
      ((written.environments 0).get? name) ((alone.environments 0).get? name) := by
    rw [get?, get?, ofWritten, ofAlone]
    simp only [lookup_cons]
    split
    · exact .some rfl
    · split
      · exact .some (by decide)
      · exact .none
  have used : Nat.repr 0 ∈ alone.registry.keys := List.mem_singleton_self _
  refine ⟨?_, ?_, ⟨by decide, untouched _ _ _ (by decide)⟩, ⟨used, kept _ _ _ used⟩,
    ⟨same, listed _ _ same⟩, alike, listedAlike _ _ _ alike⟩
  · have last := (represented
      [.register 0 "b" second, .define 0 "a" (.int 1), .register 0 "b" first] 0).get? "b"
    cases last with
    | some isValue =>
        rcases isValue with ⟨called, value_eq, appears, calls⟩
        cases value_eq
        exact ⟨_, rfl, appears, calls⟩
  · intro same
    have results := congrArg (fun action => (action.run (.still .epoch)).1) same
    cases results

end MeteredRules.Environment
