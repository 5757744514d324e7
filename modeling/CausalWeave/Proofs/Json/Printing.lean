import CausalWeave.Json.Printer
import CausalWeave.Proofs.Json.Contents
import CausalWeave.Proofs.Json.Numeral

namespace CausalWeave.Json

/-- No control character occurs, and so no line ends. -/
def OneLine (chars : List Char) : Prop :=
  ∀ c ∈ chars, 0x20 ≤ c.toNat

instance (chars : List Char) : Decidable (OneLine chars) :=
  List.decidableBAll _ chars

theorem OneLine.append {first second : List Char} (one : OneLine first) (other : OneLine second) :
    OneLine (first ++ second) :=
  List.forall_mem_append.mpr ⟨one, other⟩

theorem OneLine.cons {c : Char} {chars : List Char} (visible : 0x20 ≤ c.toNat)
    (one : OneLine chars) : OneLine (c :: chars) :=
  List.forall_mem_cons.mpr ⟨visible, one⟩

theorem visible_hexDigit : ∀ digit < 16, 0x20 ≤ (hexDigit digit).toNat := by
  decide

theorem oneLine_escaped (c : Char) : OneLine (escaped c) := by
  unfold escaped
  split
  case h_8 =>
    by_cases control : c.toNat < 0x20
    · have high := visible_hexDigit (c.toNat / 16) (by omega)
      have low := visible_hexDigit (c.toNat % 16) (by omega)
      simp [OneLine, control, high, low]
    · rw [if_neg control]
      exact List.forall_mem_singleton.mpr (Nat.not_lt.mp control)
  all_goals decide

theorem oneLine_quoted (value : String) : OneLine (quoted value) := by
  have content : OneLine (value.toList.flatMap escaped) := by
    intro c present
    obtain ⟨plain, -, inside⟩ := List.mem_flatMap.mp present
    exact oneLine_escaped plain c inside
  exact .append (.cons (by decide) content) (by decide)

theorem oneLine_toString (value : Int) : OneLine (toString value).toList := by
  intro c present
  rcases Numeral.mem_toString present with digit | rfl
  · simp only [Char.isDigit, Bool.and_eq_true, decide_eq_true_eq, UInt32.le_iff_toNat_le] at digit
    exact Nat.le_trans (by decide) digit.1
  · decide

theorem oneLine_compactItems {items : List Json} (each : ∀ item ∈ items, OneLine item.compactText) :
    OneLine (compactItems items) := by
  induction items with
  | nil => decide
  | cons value others ih =>
    obtain ⟨first, later⟩ := List.forall_mem_cons.mp each
    cases others with
    | nil => exact first.append (by decide)
    | cons next others => exact first.append (.cons (by decide) (ih later))

theorem oneLine_compactFields {fields : List (String × Json)}
    (each : ∀ field ∈ fields, OneLine field.2.compactText) : OneLine (compactFields fields) := by
  induction fields with
  | nil => decide
  | cons field others ih =>
    obtain ⟨first, later⟩ := List.forall_mem_cons.mp each
    have named := (oneLine_quoted field.1).append (.cons (c := ':') (by decide) first)
    cases others with
    | nil => exact named.append (by decide)
    | cons next others =>
      have more := named.append (.cons (c := ',') (by decide) (ih later))
      simpa [compactFields] using more

theorem oneLine_compactText {value : Json} (discrete : value.Discrete) :
    OneLine value.compactText := by
  induction value with
  | null => decide
  | bool value => cases value <;> decide
  | whole value => exact oneLine_toString value
  | double value => exact absurd discrete not_discrete_double
  | text value => exact oneLine_quoted value
  | array items ih =>
    rw [discrete_array] at discrete
    exact .cons (by decide) (oneLine_compactItems fun item present =>
      ih item present (discrete item present))
  | object fields ih =>
    rw [discrete_object] at discrete
    exact .cons (by decide) (oneLine_compactFields fun field present =>
      ih field present (discrete field present))

end CausalWeave.Json
