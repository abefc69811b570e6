import MeteredRules.Json.Exchange
import MeteredRules.Proofs.Error
import MeteredRules.Proofs.Reader.Word
import MeteredRules.Proofs.Value.Parts

/-!
# Values to JSON and back

A value has a JSON tree unless a function or a float that is no number occurs in it, and a tree has a
value unless an object occurs in it. The value of the tree of a value is this value with its instants
as texts. The tree of the value of a tree is this tree as long as its integers fit 64 bits; a greater
one has become a float.
-/

namespace MeteredRules

/-! ## Lists that are mapped element by element -/

namespace Error

variable {α β γ : Type}

theorem exists_mapM_eq_ok_iff {step : α → Except Error β} {items : List α} :
    (∃ results, items.mapM step = .ok results) ↔ ∀ item ∈ items, ∃ result, step item = .ok result := by
  induction items with
  | nil => simp [pure, Except.pure]
  | cons item items ih =>
      rw [List.forall_mem_cons, ← ih, List.mapM_cons]
      constructor
      · rintro ⟨results, mapped⟩
        rcases bind_eq_ok_iff.mp mapped with ⟨result, first, mapped⟩
        rcases bind_eq_ok_iff.mp mapped with ⟨rest, others, -⟩
        exact ⟨⟨result, first⟩, rest, others⟩
      · rintro ⟨⟨result, first⟩, rest, others⟩
        exact ⟨result :: rest, by simp [first, others, pure, Except.pure]⟩

/-- Mapping the results once more gives what it should just where it does so for each element. -/
theorem mapM_results_iff {step : α → Except Error β} {back : β → Except Error γ} {image : α → γ}
    {exact : α → Prop} {items : List α} {results : List β} (mapped : items.mapM step = .ok results)
    (each : ∀ item ∈ items, ∀ result, step item = .ok result →
      (back result = .ok (image item) ↔ exact item)) :
    results.mapM back = .ok (items.map image) ↔ ∀ item ∈ items, exact item := by
  induction items generalizing results with
  | nil =>
      obtain rfl : [] = results := by simpa [pure, Except.pure] using mapped
      simp [pure, Except.pure]
  | cons item items ih =>
      rw [List.mapM_cons] at mapped
      rcases bind_eq_ok_iff.mp mapped with ⟨result, first, mapped⟩
      rcases bind_eq_ok_iff.mp mapped with ⟨rest, others, collected⟩
      obtain rfl : result :: rest = results := by simpa [pure, Except.pure] using collected
      rw [List.forall_mem_cons] at each ⊢
      rw [← each.1 result first, ← ih others each.2, List.mapM_cons, List.map_cons]
      simp only [bind_eq_ok_iff, pure, Except.pure, Except.ok.injEq, List.cons.injEq]
      constructor
      · rintro ⟨_, backFirst, _, backOthers, rfl, rfl⟩
        exact ⟨backFirst, backOthers⟩
      · rintro ⟨backFirst, backOthers⟩
        exact ⟨_, backFirst, _, backOthers, rfl, rfl⟩

end Error

/-! ## The parts of a tree -/

namespace Json

mutual

/-- A tree and everything that it contains, at any depth. -/
def parts : Json → List Json
  | .array items => .array items :: allParts items
  | .object entries => .object entries :: entryParts entries
  | json => [json]

/-- The parts of the items of an array. -/
def allParts : List Json → List Json
  | [] => []
  | item :: items => item.parts ++ allParts items

/-- The parts of the entries of an object. -/
def entryParts : List (String × Json) → List Json
  | [] => []
  | (_, value) :: entries => value.parts ++ entryParts entries

end

theorem allParts_eq_flatMap (items : List Json) : allParts items = items.flatMap parts := by
  induction items with
  | nil => rfl
  | cons item items ih => simp [allParts, ih]

theorem forall_mem_parts_array {items : List Json} {condition : Json → Prop} :
    (∀ part ∈ (Json.array items).parts, condition part) ↔
      condition (.array items) ∧ ∀ item ∈ items, ∀ part ∈ item.parts, condition part := by
  simp only [parts, allParts_eq_flatMap, List.forall_mem_cons, List.mem_flatMap]
  grind

/-- What holds of all other trees, and of an array if it holds of its items, holds of every tree. -/
@[elab_as_elim]
theorem induction {motive : Json → Prop}
    (null : motive .null)
    (boolean : ∀ truth, motive (.boolean truth))
    (integer : ∀ value, motive (.integer value))
    (float : ∀ value, motive (.float value))
    (string : ∀ text, motive (.string text))
    (array : ∀ items, (∀ item ∈ items, motive item) → motive (.array items))
    (object : ∀ entries, motive (.object entries))
    (json : Json) : motive json := by
  refine @Json.rec motive (fun items => ∀ item ∈ items, motive item) (fun _ => True) (fun _ => True)
    null boolean integer float string array (fun entries _ => object entries) ?noItems ?items
    trivial (fun _ _ _ _ => trivial) (fun _ _ _ => trivial) json
  case noItems =>
    intro item itemMem
    simp at itemMem
  case items =>
    intro head tail headHolds tailHolds item itemMem
    rcases List.mem_cons.mp itemMem with rfl | inTail
    · exact headHolds
    · exact tailHolds item inTail

/-- An integer of 64 bits, a float that is a number, or a tree of another kind. -/
def HasOwnValue : Json → Prop
  | .integer number => ∃ value : Int64, value.toInt = number
  | .float amount => amount.isFinite
  | _ => True

end Json

namespace Value

/-! ## From values to trees and back -/

/-- Neither a function nor a float that is no number. -/
def HasOwnJson : Value → Prop
  | .callable _ => False
  | .number (.float amount) => amount.isFinite
  | _ => True

mutual

/-- A value with the texts of its instants in their place. -/
def withInstantTexts : Value → Value
  | .instant moment => .string moment.render
  | .array items => .array (allWithInstantTexts items)
  | value => value

/-- Values with the texts of their instants in their place. -/
def allWithInstantTexts : List Value → List Value
  | [] => []
  | value :: values => value.withInstantTexts :: allWithInstantTexts values

end

theorem allWithInstantTexts_eq_map (values : List Value) :
    allWithInstantTexts values = values.map withInstantTexts := by
  induction values with
  | nil => rfl
  | cons value values ih => simp [allWithInstantTexts, ih]

theorem toJsonItems_eq_mapM (items : List Value) : toJsonItems items = items.mapM toJson := by
  induction items with
  | nil => rfl
  | cons item items ih => rw [toJsonItems, List.mapM_cons, ih]

theorem ofJsonItems_eq_mapM (items : List Json) : ofJsonItems items = items.mapM ofJson := by
  induction items with
  | nil => rfl
  | cons item items ih => rw [ofJsonItems, List.mapM_cons, ih]

theorem toJson_array_eq_ok_iff {items : List Value} {json : Json} :
    (Value.array items).toJson = .ok json ↔
      ∃ jsons, items.mapM toJson = .ok jsons ∧ .array jsons = json := by
  rw [toJson, toJsonItems_eq_mapM, Error.bind_eq_ok_iff]
  simp [pure, Except.pure]

theorem ofJson_array_eq_ok_iff {items : List Json} {value : Value} :
    ofJson (.array items) = .ok value ↔
      ∃ values, items.mapM ofJson = .ok values ∧ .array values = value := by
  rw [ofJson, ofJsonItems_eq_mapM, Error.bind_eq_ok_iff]
  simp [pure, Except.pure]

/-- A value has a tree if all of its parts have one. -/
theorem exists_toJson_iff (value : Value) :
    (∃ json, value.toJson = .ok json) ↔ ∀ part ∈ value.parts, part.HasOwnJson := by
  induction value using Value.induction with
  | number amount =>
      cases amount with
      | int value => simp [toJson, parts, HasOwnJson]
      | float value =>
          cases finite : value.isFinite with
          | true => simp [toJson, parts, HasOwnJson, finite]
          | false => simp [toJson, parts, HasOwnJson, finite]
  | string text => simp [toJson, parts, HasOwnJson]
  | boolean truth => simp [toJson, parts, HasOwnJson]
  | nil => simp [toJson, parts, HasOwnJson]
  | array items ih =>
      calc (∃ json, (Value.array items).toJson = .ok json)
        _ ↔ ∃ jsons, items.mapM toJson = .ok jsons := by
          simp only [toJson_array_eq_ok_iff]
          rw [exists_comm]
          simp
        _ ↔ ∀ item ∈ items, ∃ json, item.toJson = .ok json := Error.exists_mapM_eq_ok_iff
        _ ↔ ∀ item ∈ items, ∀ part ∈ item.parts, part.HasOwnJson := forall₂_congr ih
        _ ↔ ∀ part ∈ (Value.array items).parts, part.HasOwnJson := by
          simp [forall_mem_parts_array, HasOwnJson]
  | instant moment => simp [toJson, parts, HasOwnJson]
  | callable function => simp [toJson, parts, HasOwnJson]

/-- The tree of a value is read back as this value, with its instants as texts. -/
theorem ofJson_of_toJson {value : Value} {json : Json} (exported : value.toJson = .ok json) :
    ofJson json = .ok value.withInstantTexts := by
  induction value using Value.induction generalizing json with
  | number amount =>
      cases amount with
      | int value =>
          obtain rfl : Json.integer value.toInt = json := by simpa [toJson] using exported
          rw [ofJson, Number.fit?_toInt]
          rfl
      | float value =>
          rw [toJson] at exported
          split at exported
          · obtain rfl : Json.float value = json := by simpa using exported
            rfl
          · simp at exported
  | string text =>
      obtain rfl : Json.string text = json := by simpa [toJson] using exported
      rfl
  | boolean truth =>
      obtain rfl : Json.boolean truth = json := by simpa [toJson] using exported
      rfl
  | nil =>
      obtain rfl : Json.null = json := by simpa [toJson] using exported
      rfl
  | array items ih =>
      rcases toJson_array_eq_ok_iff.mp exported with ⟨jsons, mapped, rfl⟩
      have readBack : jsons.mapM ofJson = .ok (items.map withInstantTexts) := by
        have each : ∀ item ∈ items, ∀ json, item.toJson = .ok json →
            (ofJson json = .ok item.withInstantTexts ↔ True) := by
          intro item itemMem json ofItem
          simp [ih item itemMem ofItem]
        exact (Error.mapM_results_iff mapped each).mpr (by simp)
      rw [ofJson_array_eq_ok_iff]
      exact ⟨_, readBack, by rw [withInstantTexts, allWithInstantTexts_eq_map]⟩
  | instant moment =>
      obtain rfl : Json.string moment.render = json := by simpa [toJson] using exported
      rfl
  | callable function => simp [toJson] at exported

/-! ## From trees to values and back -/

/-- A tree has a value if no part of it is an object. -/
theorem exists_ofJson_iff (json : Json) :
    (∃ value, ofJson json = .ok value) ↔ ∀ part ∈ json.parts, ∀ entries, part ≠ .object entries := by
  induction json using Json.induction with
  | null => simp [ofJson, Json.parts]
  | boolean truth => simp [ofJson, Json.parts]
  | integer number =>
      cases fits : Number.fit? number with
      | none => simp [ofJson, Json.parts, fits]
      | some value => simp [ofJson, Json.parts, fits]
  | float amount => simp [ofJson, Json.parts]
  | string text => simp [ofJson, Json.parts]
  | array items ih =>
      calc (∃ value, ofJson (.array items) = .ok value)
        _ ↔ ∃ values, items.mapM ofJson = .ok values := by
          simp only [ofJson_array_eq_ok_iff]
          rw [exists_comm]
          simp
        _ ↔ ∀ item ∈ items, ∃ value, ofJson item = .ok value := Error.exists_mapM_eq_ok_iff
        _ ↔ ∀ item ∈ items, ∀ part ∈ item.parts, ∀ entries, part ≠ .object entries :=
          forall₂_congr ih
        _ ↔ ∀ part ∈ (Json.array items).parts, ∀ entries, part ≠ .object entries := by
          simp [Json.forall_mem_parts_array]
  | object entries => simp [ofJson, Json.parts]

/-- The value of a tree has this tree again if each part of the tree is a value of its own kind. -/
theorem toJson_of_ofJson_iff {json : Json} {value : Value} (imported : ofJson json = .ok value) :
    value.toJson = .ok json ↔ ∀ part ∈ json.parts, part.HasOwnValue := by
  induction json using Json.induction generalizing value with
  | null =>
      obtain rfl : Value.nil = value := by simpa [ofJson] using imported
      simp [toJson, Json.parts, Json.HasOwnValue]
  | boolean truth =>
      obtain rfl : Value.boolean truth = value := by simpa [ofJson] using imported
      simp [toJson, Json.parts, Json.HasOwnValue]
  | integer number =>
      cases fits : Number.fit? number with
      | some integer =>
          obtain rfl : Value.int integer = value := by simpa [ofJson, fits] using imported
          obtain rfl : integer.toInt = number := Number.toInt_of_fit? fits
          simp [toJson, Value.int, Json.parts, Json.HasOwnValue]
      | none =>
          obtain rfl : Value.float (Float.ofInt number) = value := by
            simpa [ofJson, fits] using imported
          have noInteger : ∀ integer : Int64, integer.toInt ≠ number := by
            rintro integer rfl
            simp [Number.fit?_toInt] at fits
          have different : (Value.float (Float.ofInt number)).toJson ≠ .ok (.integer number) := by
            rw [Value.float, toJson]
            split
            · simp
            · simp
          simp [different, noInteger, Json.parts, Json.HasOwnValue]
  | float amount =>
      obtain rfl : Value.float amount = value := by simpa [ofJson] using imported
      cases finite : amount.isFinite with
      | true => simp [toJson, Value.float, Json.parts, Json.HasOwnValue, finite]
      | false => simp [toJson, Value.float, Json.parts, Json.HasOwnValue, finite]
  | string text =>
      obtain rfl : Value.string text = value := by simpa [ofJson] using imported
      simp [toJson, Json.parts, Json.HasOwnValue]
  | array items ih =>
      rcases ofJson_array_eq_ok_iff.mp imported with ⟨values, mapped, rfl⟩
      calc (Value.array values).toJson = .ok (.array items)
        _ ↔ values.mapM toJson = .ok (items.map id) := by simp [toJson_array_eq_ok_iff]
        _ ↔ ∀ item ∈ items, ∀ part ∈ item.parts, part.HasOwnValue :=
          Error.mapM_results_iff mapped ih
        _ ↔ ∀ part ∈ (Json.array items).parts, part.HasOwnValue := by
          simp [Json.forall_mem_parts_array, Json.HasOwnValue]
  | object entries => simp [ofJson] at imported

/--
Values and JSON trees are exchanged without loss. A value has a tree unless a function or a float that
is no number occurs in it, and reading this tree gives the value with its instants as texts. A tree
has a value unless an object occurs in it, and the tree of this value is the same one just where all
of its integers fit 64 bits and all of its floats are numbers.
-/
theorem json_exchange (value : Value) (json : Json) :
    (((∃ exported, value.toJson = .ok exported) ↔ ∀ part ∈ value.parts, part.HasOwnJson) ∧
      ∀ exported, value.toJson = .ok exported → ofJson exported = .ok value.withInstantTexts) ∧
    (((∃ imported, ofJson json = .ok imported) ↔
        ∀ part ∈ json.parts, ∀ entries, part ≠ .object entries) ∧
      ∀ imported, ofJson json = .ok imported →
        (imported.toJson = .ok json ↔ ∀ part ∈ json.parts, part.HasOwnValue)) := by
  refine ⟨⟨exists_toJson_iff value, ?_⟩, exists_ofJson_iff json, ?_⟩
  · intro exported ofValue
    exact ofJson_of_toJson ofValue
  · intro imported ofTree
    exact toJson_of_ofJson_iff ofTree

theorem json_exchange_mixed :
    (∃ json, (Value.array [.int 2, .float (Float.ofNat 2), .instant .epoch]).toJson = .ok json ∧
      ofJson json =
        .ok (.array [.int 2, .float (Float.ofNat 2), .string "1970-01-01T00:00:00Z"])) ∧
    ∃ value, ofJson (.array [.integer 9223372036854775808]) = .ok value ∧
      value.toJson ≠ .ok (.array [.integer 9223372036854775808]) := by
  rcases json_exchange (.array [.int 2, .float (Float.ofNat 2), .instant .epoch])
    (.array [.integer 9223372036854775808]) with ⟨⟨exports, readBack⟩, imports, writtenBack⟩
  constructor
  · have finite : (Float.ofNat 2).isFinite = true := by decide
    rcases exports.mpr (by simp [parts, allParts, int, float, HasOwnJson, finite]) with
      ⟨json, exported⟩
    exact ⟨json, exported, readBack json exported⟩
  · rcases imports.mpr (by simp [Json.parts, Json.allParts]) with ⟨value, imported⟩
    refine ⟨value, imported, ?_⟩
    rw [ne_eq, writtenBack value imported]
    intro fits
    rcases fits (.integer 9223372036854775808) (by simp [Json.parts, Json.allParts]) with
      ⟨integer, same⟩
    exact absurd same (Int.ne_of_lt (Int64.toInt_lt integer))

end Value

end MeteredRules
