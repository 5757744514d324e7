import CausalWeave.Json.Tree
import CausalWeave.Proofs.Json.Scanning

namespace CausalWeave.Json

mutual

def toTree : Json → Tree
  | null => .null
  | bool value => .bool value
  | whole value => .number (.ofInt value)
  | double value => .number (numeralOf value)
  | text value => .text (some value)
  | array items => .array (itemTrees items)
  | object fields => .object (fieldTrees fields)

def itemTrees : List Json → List Tree
  | [] => []
  | value :: rest => value.toTree :: itemTrees rest

def fieldTrees : List (String × Json) → List (Option String × Tree)
  | [] => []
  | (name, value) :: rest => (some name, value.toTree) :: fieldTrees rest

end

namespace Tree

/-- Wherever a value is expected, its tokens put its tree there. -/
def Parses (value : Json) : Prop :=
  ∀ (around : List Frame) (rest : List Token),
    run? (.value around) (value.tokens ++ rest) = run? (place value.toTree around) rest

theorem run?_cons {expectation next : Expectation} {token : Token}
    (taken : step? expectation token = some next) (rest : List Token) :
    run? expectation (token :: rest) = run? next rest := by
  rw [run?, taken]

/-- The first token of a value does not close the array in which it is the first item. -/
theorem run?_firstItem (value : Json) (others : List Json) (around : List Frame)
    (rest : List Token) :
    run? (.firstItem around) (itemTokens (value :: others) ++ rest) =
      run? (.value (.array [] :: around)) (itemTokens (value :: others) ++ rest) := by
  cases others <;> cases value <;> rfl

theorem run?_firstName (field : String × Json) (others : List (String × Json))
    (around : List Frame) (rest : List Token) :
    run? (.firstName around) (fieldTokens (field :: others) ++ rest) =
      run? (.name [] around) (fieldTokens (field :: others) ++ rest) := by
  cases others <;> rfl

theorem run?_items {value : Json} {others : List Json} (first : Parses value)
    (later : ∀ item ∈ others, Parses item) (read : List Tree) (around : List Frame)
    (rest : List Token) :
    run? (.value (.array read :: around)) (itemTokens (value :: others) ++ rest) =
      run? (place (.array (read.reverse ++ itemTrees (value :: others))) around) rest := by
  induction others generalizing value read with
  | nil =>
    simp only [itemTokens, List.append_assoc, List.singleton_append]
    rw [first, place, run?_cons rfl]
    simp [itemTrees]
  | cons next others ih =>
    obtain ⟨second, later⟩ := List.forall_mem_cons.mp later
    simp only [itemTokens, List.append_assoc, List.cons_append]
    rw [first, place, run?_cons rfl, ih second later]
    simp [itemTrees]

theorem run?_fields {field : String × Json} {others : List (String × Json)}
    (first : Parses field.2) (later : ∀ field ∈ others, Parses field.2)
    (read : List (Option String × Tree)) (around : List Frame) (rest : List Token) :
    run? (.name read around) (fieldTokens (field :: others) ++ rest) =
      run? (place (.object (read.reverse ++ fieldTrees (field :: others))) around) rest := by
  induction others generalizing field read with
  | nil =>
    simp only [fieldTokens, List.cons_append, List.append_assoc, List.nil_append]
    rw [run?_cons rfl, run?_cons rfl, first, place, run?_cons rfl]
    simp [fieldTrees]
  | cons next others ih =>
    obtain ⟨second, later⟩ := List.forall_mem_cons.mp later
    simp only [fieldTokens, List.cons_append, List.append_assoc]
    rw [run?_cons rfl, run?_cons rfl, first, place, run?_cons rfl, ih second later]
    simp [fieldTrees]

theorem parses (value : Json) : Parses value := by
  induction value with
  | null | bool | whole | double | text =>
    intro around rest
    rfl
  | array items ih =>
    intro around rest
    rw [tokens, List.cons_append, run?_cons rfl]
    cases items with
    | nil => rfl
    | cons value others =>
      obtain ⟨first, later⟩ := List.forall_mem_cons.mp ih
      rw [run?_firstItem, run?_items first later]
      rfl
  | object fields ih =>
    intro around rest
    rw [tokens, List.cons_append, run?_cons rfl]
    cases fields with
    | nil => rfl
    | cons field others =>
      obtain ⟨first, later⟩ := List.forall_mem_cons.mp ih
      rw [run?_firstName, run?_fields first later]
      rfl

theorem parse?_compactText {value : Json} (discrete : value.Discrete) :
    parse? value.compactText = some value.toTree := by
  have placed := parses value [] []
  rw [List.append_nil] at placed
  rw [parse?, Token.scan_compactText discrete, Option.bind_some, placed]
  rfl

end Tree

theorem ofNumeral?_ofInt {value : Int} (inBounds : isWhole value = true) :
    ofNumeral? (.ofInt value) = some (whole value) := by
  simp [ofNumeral?, Numeral.whole?_ofInt, inBounds]

/-- A value is read back if its depth is within the levels that may be nested. -/
def ReadsBack (value : Json) : Prop :=
  ∀ levels, ofTree? levels value.toTree = if value.depth ≤ levels then some value else none

theorem mapM_itemTrees {items : List Json} (each : ∀ item ∈ items, ReadsBack item) (levels : Nat) :
    (itemTrees items).mapM (ofTree? levels) =
      if itemsDepth items ≤ levels then some items else none := by
  induction items with
  | nil => rfl
  | cons value others ih =>
    obtain ⟨first, later⟩ := List.forall_mem_cons.mp each
    simp only [itemTrees, List.mapM_cons, first levels, ih later, itemsDepth, Nat.max_le]
    by_cases fits : value.depth ≤ levels
    · by_cases othersFit : itemsDepth others ≤ levels <;> simp [fits, othersFit]
    · simp [fits]

theorem mapM_fieldTrees {fields : List (String × Json)}
    (each : ∀ field ∈ fields, ReadsBack field.2) (levels : Nat) :
    ((fieldTrees fields).mapM fun member => do return (← member.1, ← ofTree? levels member.2)) =
      if fieldsDepth fields ≤ levels then some fields else none := by
  induction fields with
  | nil => rfl
  | cons field others ih =>
    obtain ⟨first, later⟩ := List.forall_mem_cons.mp each
    simp only [fieldTrees, List.mapM_cons, first levels, ih later, fieldsDepth, Nat.max_le]
    by_cases fits : field.2.depth ≤ levels
    · by_cases othersFit : fieldsDepth others ≤ levels <;> simp [fits, othersFit]
    · simp [fits]

theorem readsBack {value : Json} (wellFormed : value.WellFormed) (discrete : value.Discrete) :
    ReadsBack value := by
  induction value with
  | null | bool | text =>
    intro levels
    simp [toTree, ofTree?, depth]
  | whole value =>
    intro levels
    simp [toTree, ofTree?, depth, ofNumeral?_ofInt (wellFormed_whole.mp wellFormed)]
  | double value => exact absurd discrete not_discrete_double
  | array items ih =>
    rw [wellFormed_array] at wellFormed
    rw [discrete_array] at discrete
    have each : ∀ item ∈ items, ReadsBack item := fun item present =>
      ih item present (wellFormed item present) (discrete item present)
    intro levels
    cases levels with
    | zero => simp [toTree, ofTree?, depth]
    | succ levels =>
      rw [toTree, ofTree?, mapM_itemTrees each, depth]
      by_cases fits : itemsDepth items ≤ levels <;> simp [fits]
  | object fields ih =>
    rw [wellFormed_object] at wellFormed
    rw [discrete_object] at discrete
    obtain ⟨ascending, wellFormed⟩ := wellFormed
    have each : ∀ field ∈ fields, ReadsBack field.2 := fun field present =>
      ih field present (wellFormed field present) (discrete field present)
    intro levels
    cases levels with
    | zero => simp [toTree, ofTree?, depth]
    | succ levels =>
      rw [toTree, ofTree?, mapM_fieldTrees each, depth]
      by_cases fits : fieldsDepth fields ≤ levels <;>
        simp [fits, sortFields_of_ascending ascending]

end CausalWeave.Json
