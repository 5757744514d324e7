import CausalWeave.Json
import Mathlib.Data.List.Induction

namespace CausalWeave.Json

theorem sizeOf_lt_of_field {fields : List (String × Json)} {field : String × Json}
    (member : field ∈ fields) :
    sizeOf field.2 < sizeOf fields := by
  have smaller := List.sizeOf_lt_of_mem member
  obtain ⟨name, value⟩ := field
  simp only [Prod.mk.sizeOf_spec] at smaller ⊢
  omega

/-- To prove a property of a container, it may be assumed of the values in it. -/
@[elab_as_elim, induction_eliminator]
theorem induction {motive : Json → Prop} (null : motive null) (bool : ∀ value, motive (bool value))
    (whole : ∀ value, motive (whole value)) (double : ∀ value, motive (double value))
    (text : ∀ value, motive (text value))
    (array : ∀ items, (∀ item ∈ items, motive item) → motive (array items))
    (object : ∀ fields, (∀ field ∈ fields, motive field.2) → motive (object fields)) :
    (value : Json) → motive value
  | .null => null
  | .bool value => bool value
  | .whole value => whole value
  | .double value => double value
  | .text value => text value
  | .array items =>
    array items fun item _ => induction null bool whole double text array object item
  | .object fields =>
    object fields fun field _ => induction null bool whole double text array object field.2
termination_by value => sizeOf value
decreasing_by
  · have smaller := List.sizeOf_lt_of_mem ‹_ ∈ items›
    simp only [Json.array.sizeOf_spec]
    omega
  · have smaller := sizeOf_lt_of_field ‹_ ∈ fields›
    simp only [Json.object.sizeOf_spec]
    omega

mutual

def everywhere (test : Json → Bool) : Json → Bool
  | array items => test (array items) && itemsEverywhere test items
  | object fields => test (object fields) && fieldsEverywhere test fields
  | scalar => test scalar

def itemsEverywhere (test : Json → Bool) : List Json → Bool
  | [] => true
  | value :: rest => everywhere test value && itemsEverywhere test rest

def fieldsEverywhere (test : Json → Bool) : List (String × Json) → Bool
  | [] => true
  | (_, value) :: rest => everywhere test value && fieldsEverywhere test rest

end

section Everywhere

variable {test : Json → Bool}

theorem itemsEverywhere_iff {items : List Json} :
    itemsEverywhere test items = true ↔ ∀ item ∈ items, item.everywhere test = true := by
  induction items with
  | nil => simp [itemsEverywhere]
  | cons value rest ih => simp [itemsEverywhere, ih]

theorem fieldsEverywhere_iff {fields : List (String × Json)} :
    fieldsEverywhere test fields = true ↔ ∀ field ∈ fields, field.2.everywhere test = true := by
  induction fields with
  | nil => simp [fieldsEverywhere]
  | cons field rest ih => simp only [fieldsEverywhere, Bool.and_eq_true, ih, List.forall_mem_cons]

theorem everywhere_array {items : List Json} :
    (array items).everywhere test = true ↔
      test (array items) = true ∧ ∀ item ∈ items, item.everywhere test = true := by
  rw [everywhere, Bool.and_eq_true, itemsEverywhere_iff]

theorem everywhere_object {fields : List (String × Json)} :
    (object fields).everywhere test = true ↔
      test (object fields) = true ∧ ∀ field ∈ fields, field.2.everywhere test = true := by
  rw [everywhere, Bool.and_eq_true, fieldsEverywhere_iff]

end Everywhere

def isDouble : Json → Bool
  | double _ => true
  | _ => false

def Discrete (value : Json) : Prop :=
  value.everywhere (!·.isDouble) = true

instance (value : Json) : Decidable value.Discrete :=
  inferInstanceAs (Decidable (_ = true))

@[simp]
theorem discrete_null : null.Discrete := rfl

@[simp]
theorem discrete_bool {value : Bool} : (bool value).Discrete := rfl

@[simp]
theorem discrete_whole {value : Int} : (whole value).Discrete := rfl

@[simp]
theorem discrete_text {value : String} : (text value).Discrete := rfl

theorem not_discrete_double {value : Double} : ¬(double value).Discrete := by
  simp [Discrete, everywhere, isDouble]

@[simp]
theorem discrete_array {items : List Json} :
    (array items).Discrete ↔ ∀ item ∈ items, item.Discrete := by
  simp [Discrete, everywhere_array, isDouble]

@[simp]
theorem discrete_object {fields : List (String × Json)} :
    (object fields).Discrete ↔ ∀ field ∈ fields, field.2.Discrete := by
  simp [Discrete, everywhere_object, isDouble]

/-- The names of fields ascend, so that none occurs twice. -/
def Ascending (fields : List (String × α)) : Prop :=
  fields.Pairwise fun first second => compare first.1 second.1 = .lt

instance (fields : List (String × α)) : Decidable (Ascending fields) :=
  inferInstanceAs (Decidable (fields.Pairwise _))

/-- Whether a value is held as the values are that were read: whole numbers are in bounds and
fields in order. -/
def isOrderly : Json → Bool
  | whole value => isWhole value
  | object fields => decide (Ascending fields)
  | _ => true

def WellFormed (value : Json) : Prop :=
  value.everywhere isOrderly = true

instance (value : Json) : Decidable value.WellFormed :=
  inferInstanceAs (Decidable (_ = true))

@[simp]
theorem wellFormed_text {value : String} : (text value).WellFormed := rfl

theorem wellFormed_whole {value : Int} : (whole value).WellFormed ↔ isWhole value = true := by
  simp [WellFormed, everywhere, isOrderly]

theorem wellFormed_array {items : List Json} :
    (array items).WellFormed ↔ ∀ item ∈ items, item.WellFormed := by
  simp [WellFormed, everywhere_array, isOrderly]

theorem wellFormed_object {fields : List (String × Json)} :
    (object fields).WellFormed ↔ Ascending fields ∧ ∀ field ∈ fields, field.2.WellFormed := by
  simp [WellFormed, everywhere_object, isOrderly]

theorem setField_of_after {fields : List (String × α)} {name : String} (value : α)
    (after : ∀ field ∈ fields, compare field.1 name = .lt) :
    setField name value fields = fields ++ [(name, value)] := by
  induction fields with
  | nil => rfl
  | cons field rest ih =>
    obtain ⟨first, others⟩ := List.forall_mem_cons.mp after
    have greater : compare name field.1 = .gt := Std.OrientedCmp.gt_iff_lt.mpr first
    simp only [setField, greater, ih others, List.cons_append]

/-- Fields that ascend are in their order already. -/
theorem sortFields_of_ascending {fields : List (String × α)} (ascending : Ascending fields) :
    sortFields fields = fields := by
  unfold sortFields
  induction fields using List.reverseRecOn with
  | nil => rfl
  | append_singleton earlier field ih =>
    obtain ⟨before, -, after⟩ := List.pairwise_append.mp ascending
    rw [List.foldl_append, ih before]
    exact setField_of_after field.2 fun other present => after other present field (by simp)

end CausalWeave.Json
