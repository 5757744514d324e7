import CausalWeave.Proofs.Sequence.Reencoding

/-! Every line is read by itself, so texts may stand one behind the other if the first ends with a whole line. -/

namespace CausalWeave.Sequence

/-- No line is left open at the end of a text. -/
def Ended (text : String) : Prop :=
  text = "" ∨ text.toList.getLast? = some '\n'

instance (text : String) : Decidable (Ended text) :=
  inferInstanceAs (Decidable (_ ∨ _))

theorem ended_encode (atoms : List Atom) : Ended (encode atoms) := by
  right
  rw [encode, String.toList_ofList]
  cases atoms using List.reverseRecOn with
  | nil => rfl
  | append_singleton atoms atom => simp [encodeLines, List.getLast?_append, List.getLast?_cons]

/-- A line feed ends the line that has begun, so what follows it is divided by itself. -/
theorem linesFrom_append_cons (line chars rest : List Char) :
    linesFrom line (chars ++ '\n' :: rest) = linesFrom line (chars ++ ['\n']) ++ linesFrom [] rest := by
  induction chars generalizing line with
  | nil => simp [linesFrom]
  | cons c chars ih =>
    simp only [List.cons_append, linesFrom]
    split
    · rw [ih, List.cons_append]
    · rw [ih]

theorem length_linesFrom (line chars : List Char) :
    (linesFrom line (chars ++ ['\n'])).length = (chars ++ ['\n']).count '\n' := by
  induction chars generalizing line with
  | nil => simp [linesFrom]
  | cons c chars ih =>
    simp only [List.cons_append, linesFrom, List.count_cons]
    by_cases feed : c = '\n'
    · simp [feed, ih]
    · simp [feed, ih]

/-- The lines of two texts, of which the first leaves no line open and has a line for each line feed. -/
theorem Ended.lines_append {text : String} (ended : Ended text) (rest : List Char) :
    lines (text.toList ++ rest) = lines text.toList ++ lines rest ∧
      (lines text.toList).length = text.toList.count '\n' := by
  rcases ended with rfl | ended
  · exact ⟨rfl, rfl⟩
  · obtain ⟨chars, whole⟩ := List.getLast?_eq_some_iff.mp ended
    rw [whole, List.append_assoc]
    exact ⟨linesFrom_append_cons [] chars rest, length_linesFrom [] chars⟩

/-- What two texts are read as, one behind the other, when the first has so many lines. The first failure
counts; in the second text it is at a line that stands behind the lines of the first. -/
def readInTurn (before : Nat) :
    Except DecodeError (List Atom) → Except DecodeError (List Atom) → Except DecodeError (List Atom)
  | .error failed, _ => .error failed
  | .ok _, .error failed => .error { line := failed.line + before }
  | .ok atoms, .ok others => .ok (atoms ++ others)

/-- Lines are read alike wherever they stand; only the number in a failure is another. -/
theorem decodeLines_succ (number : Nat) (lines : List (List Char)) :
    decodeLines (number + 1) lines = readInTurn 1 (.ok []) (decodeLines number lines) := by
  induction lines generalizing number with
  | nil => rfl
  | cons line rest ih =>
    simp only [decodeLines]
    split
    · exact ih (number + 1)
    · cases Atom.parse? line with
      | none => rfl
      | some atom =>
        simp only [ih (number + 1)]
        cases decodeLines (number + 1) rest <;> rfl

/-- Reading ends at a line of the first ones that is no atom, or goes on behind them. -/
theorem decodeLines_append (number : Nat) (first second : List (List Char)) :
    decodeLines number (first ++ second) =
      readInTurn first.length (decodeLines number first) (decodeLines number second) := by
  induction first generalizing number with
  | nil =>
    rw [List.nil_append, decodeLines]
    cases decodeLines number second <;> rfl
  | cons line first ih =>
    have later : decodeLines (number + 1) (first ++ second) = readInTurn (first.length + 1)
        (decodeLines (number + 1) first) (decodeLines number second) := by
      rw [ih, decodeLines_succ number second]
      cases decodeLines (number + 1) first with
      | error failed => rfl
      | ok atoms =>
        cases decodeLines number second with
        | error failed => simp [readInTurn, Nat.add_assoc, Nat.add_comm 1]
        | ok others => rfl
    simp only [List.cons_append, decodeLines, List.length_cons]
    split
    · exact later
    · cases Atom.parse? line with
      | none => rfl
      | some atom =>
        simp only [later]
        cases decodeLines (number + 1) first <;> cases decodeLines number second <;> rfl

theorem Ended.decode_append {first : String} (ended : Ended first) (second : String) :
    decode (first ++ second) =
      readInTurn (first.toList.count '\n') (decode first) (decode second) := by
  obtain ⟨divided, length⟩ := ended.lines_append second.toList
  rw [decode, String.toList_append, divided, decodeLines_append, length]
  rfl

/-- Written atoms are read back if none is nested too deep. -/
theorem decode_encode_of_shallow {atoms : List Atom}
    (plain : ∀ atom ∈ atoms, atom.payload.Portable ∧ atom.payload.depth ≤ Payload.nestingLimit) :
    decode (encode atoms) = .ok atoms := by
  have portable : ∀ atom ∈ atoms, atom.payload.Portable := fun atom member => (plain atom member).1
  have shallow : atoms.findIdx? (fun atom => Payload.nestingLimit < atom.payload.depth) = none := by
    apply List.findIdx?_eq_none_iff.mpr
    intro atom member
    simpa using (plain atom member).2
  have skipped : isSkipped header.toList = true := by decide
  rw [decode, lines_encode portable, decodeLines, if_pos skipped, decodeLines_toJson portable, shallow]

/-- Reading goes line by line: behind a text whose last line is ended, another text is read as it is by
itself, unless the first fails. So written sequences, each with its header, may follow one another. -/
theorem decode_concatenated :
    (∀ first second : String, Ended first → decode (first ++ second) =
      readInTurn (first.toList.count '\n') (decode first) (decode second)) ∧
    ∀ sequences : List (List Atom),
      (∀ atoms ∈ sequences, ∀ atom ∈ atoms,
        atom.payload.Portable ∧ atom.payload.depth ≤ Payload.nestingLimit) →
        decode (String.join (sequences.map encode)) = .ok sequences.flatten := by
  constructor
  · exact fun first second ended => ended.decode_append second
  · intro sequences plain
    induction sequences with
    | nil => rfl
    | cons atoms others ih =>
      obtain ⟨first, later⟩ := List.forall_mem_cons.mp plain
      rw [List.map_cons, String.join_cons, (ended_encode atoms).decode_append,
        decode_encode_of_shallow first, ih later]
      rfl

def wholeText : String := "#\r\n\u2003\n[[\"a\",7]]\r\n"

def wholeAtom : Atom where
  id := { site := ⟨"a"⟩, timestamp := 7 }

def brokenText : String := "\r\n[[\"a\"\n"

theorem decode_concatenated_broken :
    decode (wholeText ++ wholeText) = .ok [wholeAtom, wholeAtom] ∧
      decode (wholeText ++ brokenText) = .error { line := 5 } ∧
      decode (brokenText ++ wholeText) = .error { line := 2 } ∧
      decode (String.join ([[hostile (nested 122)], [], [wholeAtom]].map encode)) =
        .ok [hostile (nested 122), wholeAtom] := by
  have read : decode wholeText = .ok [wholeAtom] := by
    set_option maxRecDepth 1000 in
    rfl
  have failed : decode brokenText = .error { line := 2 } := by
    rfl
  obtain ⟨behind, written⟩ := decode_concatenated
  refine ⟨?_, ?_, ?_, ?_⟩
  · rw [behind wholeText wholeText (by decide), read]
    rfl
  · rw [behind wholeText brokenText (by decide), read, failed]
    rfl
  · rw [behind brokenText wholeText (by decide), failed]
    rfl
  · apply written [[hostile (nested 122)], [], [wholeAtom]]
    have plain : wholeAtom.payload.Portable ∧ wholeAtom.payload.depth ≤ Payload.nestingLimit := by decide
    have within : 125 ≤ Payload.nestingLimit := by decide
    simp [portable_hostile, portable_nested, depth_hostile, depth_nested, plain, within]

end CausalWeave.Sequence
