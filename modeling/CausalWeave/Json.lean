import CausalWeave.Double.Shortest

/-! Whole numbers and doubles are told apart. The fields of an object are in the order in which they are
written; in a value that was read it is the order of their names. -/

namespace CausalWeave

inductive Json where
  | null
  | bool (value : Bool)
  | whole (value : Int)
  | double (value : Double)
  | text (value : String)
  | array (items : List Json)
  | object (fields : List (String × Json))

namespace Json

/-- The whole numbers that are not read as doubles. -/
def isWhole (value : Int) : Bool :=
  Int64.minValue.toInt ≤ value && value < UInt64.size

/-- Sets a field among fields in ascending order of their names. -/
def setField (name : String) (value : α) : List (String × α) → List (String × α)
  | [] => [(name, value)]
  | (other, held) :: rest =>
    match compare name other with
    | .lt => (name, value) :: (other, held) :: rest
    | .eq => (name, value) :: rest
    | .gt => (other, held) :: setField name value rest

/-- The fields in ascending order of their names; the last value of a repeated name stays. -/
def sortFields (fields : List (String × α)) : List (String × α) :=
  fields.foldl (fun sorted field => setField field.1 field.2 sorted) []

mutual

/-- Whether two values are the same. A whole number is never a double, and the two zeros among
the doubles are one number. -/
def same : Json → Json → Bool
  | null, null => true
  | bool first, bool second => first == second
  | whole first, whole second => first == second
  | double first, double second => first.same second
  | text first, text second => first == second
  | array first, array second => sameItems first second
  | object first, object second => sameFields first second
  | _, _ => false

def sameItems : List Json → List Json → Bool
  | [], [] => true
  | first :: rest, second :: others => same first second && sameItems rest others
  | _, _ => false

def sameFields : List (String × Json) → List (String × Json) → Bool
  | [], [] => true
  | (name, first) :: rest, (other, second) :: others =>
    name == other && same first second && sameFields rest others
  | _, _ => false

end

mutual

theorem same_refl : (value : Json) → value.same value = true
  | null => rfl
  | bool _ | whole _ | text _ => by simp [same]
  | double value => by simp [same, Double.same_refl]
  | array items => by simp [same, sameItems_refl items]
  | object fields => by simp [same, sameFields_refl fields]

private theorem sameItems_refl : (items : List Json) → sameItems items items = true
  | [] => rfl
  | value :: rest => by simp [sameItems, same_refl value, sameItems_refl rest]

private theorem sameFields_refl : (fields : List (String × Json)) → sameFields fields fields = true
  | [] => rfl
  | (name, value) :: rest => by simp [sameFields, same_refl value, sameFields_refl rest]

end

mutual

/-- How many arrays and objects are nested in a value: none in a scalar. -/
def depth : Json → Nat
  | array items => itemsDepth items + 1
  | object fields => fieldsDepth fields + 1
  | _ => 0

def itemsDepth : List Json → Nat
  | [] => 0
  | value :: rest => max value.depth (itemsDepth rest)

def fieldsDepth : List (String × Json) → Nat
  | [] => 0
  | (_, value) :: rest => max value.depth (fieldsDepth rest)

end

end Json
end CausalWeave
