import CausalWeave.Proofs.Atom.Encoding
import CausalWeave.Proofs.Json.Printing
import CausalWeave.Sequence

namespace CausalWeave.Sequence

open Json

theorem linesFrom_append {chars : List Char} (one : OneLine chars) (line rest : List Char) :
    linesFrom line (chars ++ rest) = linesFrom (chars.reverse ++ line) rest := by
  induction chars generalizing line with
  | nil => rfl
  | cons c chars ih =>
    obtain ⟨visible, one⟩ := List.forall_mem_cons.mp one
    have inside : c ≠ '\n' := by
      rintro rfl
      contradiction
    rw [List.cons_append, linesFrom, if_neg inside, ih one]
    simp

theorem withoutReturn_of_oneLine {line : List Char} (one : OneLine line) :
    withoutReturn line = line := by
  unfold withoutReturn
  split
  · have visible := one '\r' (by simp)
    contradiction
  · rfl

theorem linesFrom_line {line : List Char} (one : OneLine line) (rest : List Char) :
    linesFrom [] (line ++ '\n' :: rest) = line :: linesFrom [] rest := by
  have reversed : OneLine line.reverse := fun c present => one c (List.mem_reverse.mp present)
  rw [linesFrom_append one, List.append_nil, linesFrom, if_pos rfl,
    withoutReturn_of_oneLine reversed, List.reverse_reverse]

/-- Written atoms are lines of their own. -/
theorem linesFrom_encodeLines {atoms : List Atom}
    (portable : ∀ atom ∈ atoms, atom.payload.Portable) :
    linesFrom [] (encodeLines atoms) = atoms.map fun atom => atom.toJson.compactText := by
  induction atoms with
  | nil => rfl
  | cons atom others ih =>
    obtain ⟨first, later⟩ := List.forall_mem_cons.mp portable
    have one := oneLine_compactText (Atom.discrete_toJson first)
    have split : encodeLines (atom :: others) =
        atom.toJson.compactText ++ '\n' :: encodeLines others := by
      simp [encodeLines]
    rw [split, linesFrom_line one, ih later, List.map_cons]

theorem isSkipped_toJson (atom : Atom) : isSkipped atom.toJson.compactText = false := by
  rfl

/-- Reading stops at the first atom that is nested too deep; its line is counted from the first. -/
theorem decodeLines_toJson {atoms : List Atom}
    (portable : ∀ atom ∈ atoms, atom.payload.Portable) (number : Nat) :
    decodeLines number (atoms.map fun atom => atom.toJson.compactText) =
      match atoms.findIdx? (fun atom => Payload.nestingLimit < atom.payload.depth) with
      | none => .ok atoms
      | some index => .error { line := number + index } := by
  induction atoms generalizing number with
  | nil => rfl
  | cons atom others ih =>
    obtain ⟨first, later⟩ := List.forall_mem_cons.mp portable
    rw [List.map_cons, decodeLines, isSkipped_toJson, if_neg Bool.false_ne_true,
      Atom.parse?_toJson first, List.findIdx?_cons, ih later]
    by_cases deep : Payload.nestingLimit < atom.payload.depth
    · simp [deep, Nat.not_le.mpr deep]
    · rw [if_pos (Nat.not_lt.mp deep)]
      cases found : others.findIdx? (fun atom => Payload.nestingLimit < atom.payload.depth) with
      | none => simp [deep, Except.map]
      | some index => simp [deep, Except.map, Nat.add_assoc, Nat.add_comm 1]

/-- Reading what was written gives the atoms back if no payload is nested too deep.
Otherwise it fails at the line of the first payload that is; the header is the first line. -/
theorem decode_encode (atoms : List Atom)
    (portable : ∀ atom ∈ atoms, atom.payload.Portable) :
    decode (encode atoms) =
      match atoms.findIdx? (fun atom => Payload.nestingLimit < atom.payload.depth) with
      | none => .ok atoms
      | some index => .error { line := index + 2 } := by
  have headed : OneLine header.toList := by decide
  have skipped : isSkipped header.toList = true := by decide
  rw [decode, encode, String.toList_ofList, lines, linesFrom_line headed, decodeLines, if_pos skipped,
    linesFrom_encodeLines portable, decodeLines_toJson portable]
  simp only [Nat.add_comm]

def nested : Nat → Json
  | 0 => .null
  | levels + 1 => .array [nested levels]

theorem depth_nested (levels : Nat) : (nested levels).depth = levels := by
  induction levels with
  | zero => rfl
  | succ levels ih => simp [nested, depth, itemsDepth, ih]

theorem portable_nested (levels : Nat) : Payload.Portable (.json (nested levels)) := by
  induction levels with
  | zero => decide
  | succ levels ih =>
    constructor
    · simp [nested, wellFormed_array, ih.1]
    · simp [nested, ih.2]

/-- An atom whose texts would end lines, open comments or close texts if they were not escaped, and
whose numbers are the least and greatest of all. -/
def hostile (value : Json) : Atom where
  id := { site := { name := "# \"\\\r\n\x01é😀" }, timestamp := 18446744073709551615,
          priority := -2147483648 }
  cause := some { site := { name := "" }, timestamp := 0, priority := 2147483647 }
  payload := .json (.object [("", .whole (-9223372036854775808)), ("\"", .text "\r\n#"),
    ("a", .object [("b", .array [.whole 18446744073709551615, value])])])

theorem portable_hostile {value : Json} (portable : Payload.Portable (.json value)) :
    (hostile value).payload.Portable := by
  have least : isWhole (-9223372036854775808) = true := by decide
  have greatest : isWhole 18446744073709551615 = true := by decide
  have names : compare "" "\"" = .lt ∧ compare "" "a" = .lt ∧ compare "\"" "a" = .lt := by
    decide +kernel
  obtain ⟨wellFormed, discrete⟩ := portable
  constructor
  · simp [wellFormed_object, wellFormed_array, wellFormed_whole, wellFormed, least, greatest,
      Ascending, names]
  · simp [discrete]

theorem depth_hostile (value : Json) : (hostile value).payload.depth = value.depth + 3 := by
  simp [hostile, depth, fieldsDepth, itemsDepth]

theorem decode_encode_at_limit :
    decode (encode [hostile (nested 122)]) = .ok [hostile (nested 122)] ∧
      decode (encode [hostile (nested 0), hostile (nested 122), hostile (nested 123),
        hostile (nested 124)]) = .error { line := 4 } := by
  have portable (levels : Nat) := portable_hostile (portable_nested levels)
  constructor
  · rw [decode_encode _ (by simp [portable])]
    simp [List.findIdx?_cons, depth_hostile, depth_nested, Payload.nestingLimit, Json.nestingLimit]
  · rw [decode_encode _ (by simp [portable])]
    simp [List.findIdx?_cons, depth_hostile, depth_nested, Payload.nestingLimit, Json.nestingLimit]

end CausalWeave.Sequence
