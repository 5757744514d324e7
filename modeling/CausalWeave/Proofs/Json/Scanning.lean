import CausalWeave.Json.Printer
import CausalWeave.Proofs.Json.Contents
import CausalWeave.Proofs.Json.Numeral

namespace CausalWeave.Json

namespace Token

/-- A character that completes no token. -/
theorem scanFrom_inside {mode next : Mode} {c : Char} (taken : step mode c = some ([], next))
    (done : List Token) (rest : List Char) :
    scanFrom done mode (c :: rest) = scanFrom done next rest := by
  rw [scanFrom, taken]
  rfl

theorem scanFrom_mark {c : Char} {token : Token} (mark : start c = some ([token], .between))
    (done : List Token) (rest : List Char) :
    scanFrom done .between (c :: rest) = scanFrom (token :: done) .between rest := by
  rw [scanFrom, step, mark]
  rfl

/-- What may follow a word or a number: anything that is no part of either. -/
def Ends (rest : List Char) : Prop :=
  ∀ c ∈ rest.head?, c.isLower = false ∧ isNumberChar c = false

theorem ends_nil : Ends [] := by
  simp [Ends]

theorem ends_cons {c : Char} (other : c.isLower = false ∧ isNumberChar c = false)
    (rest : List Char) : Ends (c :: rest) := by
  simpa [Ends] using other

/-- A token that its own last character does not end is complete before what ends it. -/
theorem scanFrom_pending {mode : Mode} {token : Token} {rest : List Char}
    (last : finish mode = some [token])
    (ended : ∀ c ∈ rest.head?, step mode c = endBefore (some token) c) (done : List Token) :
    scanFrom done mode rest = scanFrom (token :: done) .between rest := by
  cases rest with
  | nil =>
    simp only [scanFrom, last]
    simp [finish]
  | cons c rest =>
    have between : step .between c = start c := rfl
    cases begun : start c with
    | none => simp only [scanFrom, ended c rfl, between, endBefore, begun]
    | some found => simp [scanFrom, ended c rfl, between, endBefore, begun]

theorem scanFrom_word {letters : List Char} {token : Token} {rest : List Char}
    (word : ofWord? letters.reverse = some token) (ends : Ends rest) (done : List Token) :
    scanFrom done (.word letters) rest = scanFrom (token :: done) .between rest := by
  apply scanFrom_pending
  · simp [finish, word]
  · intro c first
    simp [step, (ends c first).1, word]

theorem scanFrom_numberChars {chars : List Char} (number : ∀ c ∈ chars, isNumberChar c = true)
    (done : List Token) (read rest : List Char) :
    scanFrom done (.number read) (chars ++ rest) =
      scanFrom done (.number (chars.reverse ++ read)) rest := by
  induction chars generalizing read with
  | nil => rfl
  | cons c chars ih =>
    obtain ⟨first, others⟩ := List.forall_mem_cons.mp number
    have taken : step (.number read) c = some ([], .number (c :: read)) := by
      simp [step, first]
    rw [List.cons_append, scanFrom_inside taken, ih others]
    simp

theorem scanFrom_number {chars rest : List Char} {numeral : Numeral}
    (read : Numeral.ofChars? chars.reverse = some numeral) (ends : Ends rest) (done : List Token) :
    scanFrom done (.number chars) rest = scanFrom (.number numeral :: done) .between rest := by
  apply scanFrom_pending
  · simp [finish, read]
  · intro c first
    simp [step, (ends c first).2, read]

theorem isLower_of_isDigit {c : Char} (digit : c.isDigit = true) : c.isLower = false := by
  have most : c.val ≤ 57 := by
    simp only [Char.isDigit, Bool.and_eq_true, decide_eq_true_eq] at digit
    exact digit.2
  rw [Bool.eq_false_iff]
  intro lower
  obtain ⟨least, -⟩ := Bool.and_eq_true_iff.mp lower
  exact absurd (UInt32.le_trans (of_decide_eq_true least) most) (by decide)

theorem start_of_digit {c : Char} (digit : c.isDigit = true) : start c = some ([], .number [c]) := by
  have notBlank : isBlank c = false := by
    rw [Bool.eq_false_iff]
    intro blank
    simp only [isBlank, Bool.or_eq_true, beq_iff_eq] at blank
    rcases blank with ((rfl | rfl) | rfl) | rfl <;> contradiction
  have notLower := isLower_of_isDigit digit
  unfold start
  split
  case h_8 => simp [notBlank, notLower, digit]
  all_goals contradiction

theorem start_of_number {c : Char} (first : c.isDigit = true ∨ c = '-') :
    start c = some ([], .number [c]) := by
  rcases first with digit | rfl
  · exact start_of_digit digit
  · rfl

theorem scanFrom_whole (value : Int) {rest : List Char} (ends : Ends rest) (done : List Token) :
    scanFrom done .between ((toString value).toList ++ rest) =
      scanFrom (.number (.ofInt value) :: done) .between rest := by
  have written : ∀ c ∈ (toString value).toList, c.isDigit = true ∨ c = '-' :=
    fun c present => Numeral.mem_toString present
  have read := Numeral.ofChars?_toString value
  cases chars : (toString value).toList with
  | nil =>
    rw [chars] at read
    contradiction
  | cons c others =>
    rw [chars] at read written
    obtain ⟨first, later⟩ := List.forall_mem_cons.mp written
    have taken : step .between c = some ([], .number [c]) := start_of_number first
    have number : ∀ c ∈ others, isNumberChar c = true := by
      intro c present
      rcases later c present with digit | rfl
      · simp [isNumberChar, digit]
      · rfl
    have whole : (others.reverse ++ [c]).reverse = c :: others := by simp
    rw [List.cons_append, scanFrom_inside taken, scanFrom_numberChars number]
    exact scanFrom_number (whole ▸ read) ends _

theorem hexValue?_hexDigit : ∀ digit < 16, hexValue? (hexDigit digit) = some digit := by
  decide

/-- A text that was read so far without escapes that miss their other half. -/
def readSoFar (read : List Char) : PartialText where
  chars := some read

theorem pushUnit_toNat {c : Char} (control : c.toNat < 0x20) (read : List Char) :
    (readSoFar read).pushUnit c.toNat = readSoFar (c :: read) := by
  have first : ¬(0xD800 ≤ c.toNat ∧ c.toNat < 0xDC00) := by omega
  have second : ¬(0xDC00 ≤ c.toNat ∧ c.toNat < 0xE000) := by omega
  rw [PartialText.pushUnit, if_neg first, if_neg second, Char.ofNat_toNat]
  rfl

theorem scanFrom_control {c : Char} (control : c.toNat < 0x20) (done : List Token)
    (read rest : List Char) :
    scanFrom done (.text (readSoFar read))
        ('\\' :: 'u' :: '0' :: '0' :: hexDigit (c.toNat / 16) :: hexDigit (c.toNat % 16) :: rest) =
      scanFrom done (.text (readSoFar (c :: read))) rest := by
  have high := hexValue?_hexDigit (c.toNat / 16) (by omega)
  have low := hexValue?_hexDigit (c.toNat % 16) (by omega)
  have value : 16 * (c.toNat / 16) + c.toNat % 16 = c.toNat := by omega
  calc
    _ = scanFrom done (.unit (readSoFar read) 2 0)
          (hexDigit (c.toNat / 16) :: hexDigit (c.toNat % 16) :: rest) := rfl
    _ = scanFrom done (.unit (readSoFar read) 1 (c.toNat / 16)) (hexDigit (c.toNat % 16) :: rest) := by
      apply scanFrom_inside
      simp [step, high]
    _ = scanFrom done (.text ((readSoFar read).pushUnit c.toNat)) rest := by
      apply scanFrom_inside
      simp [step, low, value]
    _ = scanFrom done (.text (readSoFar (c :: read))) rest := by rw [pushUnit_toNat control]

theorem scanFrom_escaped (c : Char) (done : List Token) (read rest : List Char) :
    scanFrom done (.text (readSoFar read)) (escaped c ++ rest) =
      scanFrom done (.text (readSoFar (c :: read))) rest := by
  unfold escaped
  split
  case h_8 quote backslash _ _ _ _ _ =>
    by_cases control : c.toNat < 0x20
    · rw [if_pos control]
      exact scanFrom_control control done read rest
    · rw [if_neg control]
      have taken : step (.text (readSoFar read)) c = some ([], .text (readSoFar (c :: read))) := by
        rw [step, if_neg quote, if_neg backslash, if_neg control]
        rfl
      exact scanFrom_inside taken done rest
  all_goals rfl

theorem scanFrom_content (chars : List Char) (done : List Token) (read rest : List Char) :
    scanFrom done (.text (readSoFar read)) (chars.flatMap escaped ++ '"' :: rest) =
      scanFrom (.text (some (String.ofList (read.reverse ++ chars))) :: done) .between rest := by
  induction chars generalizing read with
  | nil =>
    rw [List.append_nil]
    rfl
  | cons c chars ih =>
    rw [List.flatMap_cons, List.append_assoc, scanFrom_escaped, ih]
    simp

theorem scanFrom_quoted (value : String) (done : List Token) (rest : List Char) :
    scanFrom done .between (quoted value ++ rest) =
      scanFrom (.text (some value) :: done) .between rest := by
  have content := scanFrom_content value.toList done [] rest
  rw [List.reverse_nil, List.nil_append, String.ofList_toList] at content
  rw [← content, quoted]
  simp only [List.cons_append, List.append_assoc]
  rfl

end Token

/-- The number that the text of a double is read as. -/
def numeralOf (value : Double) : Numeral :=
  (Numeral.ofChars? value.text).getD (.ofInt 0)

mutual

def tokens : Json → List Token
  | null => [.null]
  | bool value => [.bool value]
  | whole value => [.number (.ofInt value)]
  | double value => [.number (numeralOf value)]
  | text value => [.text (some value)]
  | array items => .openArray :: itemTokens items
  | object fields => .openObject :: fieldTokens fields

def itemTokens : List Json → List Token
  | [] => [.closeArray]
  | [value] => value.tokens ++ [.closeArray]
  | value :: next :: rest => value.tokens ++ .comma :: itemTokens (next :: rest)

def fieldTokens : List (String × Json) → List Token
  | [] => [.closeObject]
  | [(name, value)] => .text (some name) :: .colon :: value.tokens ++ [.closeObject]
  | (name, value) :: next :: rest =>
    .text (some name) :: .colon :: value.tokens ++ .comma :: fieldTokens (next :: rest)

end

namespace Token

/-- Whatever ends a value, its text is read as its tokens. -/
def Scans (value : Json) : Prop :=
  ∀ (done : List Token) (rest : List Char), Ends rest →
    scanFrom done .between (value.compactText ++ rest) =
      scanFrom (value.tokens.reverse ++ done) .between rest

theorem scanFrom_items {items : List Json} (each : ∀ item ∈ items, Scans item)
    (done : List Token) (rest : List Char) :
    scanFrom done .between (compactItems items ++ rest) =
      scanFrom ((itemTokens items).reverse ++ done) .between rest := by
  induction items generalizing done with
  | nil => rfl
  | cons value others ih =>
    obtain ⟨first, later⟩ := List.forall_mem_cons.mp each
    cases others with
    | nil =>
      have closed := ends_cons (c := ']') (by decide) rest
      rw [compactItems, List.append_assoc, List.singleton_append, first done _ closed,
        scanFrom_mark rfl, itemTokens, List.reverse_append]
      rfl
    | cons next others =>
      have parted := ends_cons (c := ',') (by decide) (compactItems (next :: others) ++ rest)
      rw [compactItems, List.append_assoc, List.cons_append, first done _ parted,
        scanFrom_mark rfl, ih later, itemTokens]
      simp

theorem scanFrom_fields {fields : List (String × Json)} (each : ∀ field ∈ fields, Scans field.2)
    (done : List Token) (rest : List Char) :
    scanFrom done .between (compactFields fields ++ rest) =
      scanFrom ((fieldTokens fields).reverse ++ done) .between rest := by
  induction fields generalizing done with
  | nil => rfl
  | cons field others ih =>
    obtain ⟨first, later⟩ := List.forall_mem_cons.mp each
    cases others with
    | nil =>
      have closed := ends_cons (c := '}') (by decide) rest
      rw [compactFields, List.append_assoc, List.append_assoc, scanFrom_quoted, List.cons_append,
        scanFrom_mark rfl, List.singleton_append, first _ _ closed,
        scanFrom_mark rfl, fieldTokens]
      simp
    | cons next others =>
      have parted := ends_cons (c := ',') (by decide) (compactFields (next :: others) ++ rest)
      rw [compactFields, List.append_assoc, List.append_assoc, scanFrom_quoted, List.cons_append,
        scanFrom_mark rfl, List.cons_append, first _ _ parted,
        scanFrom_mark rfl, ih later, fieldTokens]
      simp

theorem scans_of_discrete {value : Json} (discrete : value.Discrete) : Scans value := by
  induction value with
  | null =>
    intro done rest ends
    have word : ofWord? ['l', 'l', 'u', 'n'].reverse = some .null := rfl
    exact scanFrom_word word ends done
  | bool value =>
    intro done rest ends
    cases value with
    | true =>
      have word : ofWord? ['e', 'u', 'r', 't'].reverse = some (.bool true) := rfl
      exact scanFrom_word word ends done
    | false =>
      have word : ofWord? ['e', 's', 'l', 'a', 'f'].reverse = some (.bool false) := rfl
      exact scanFrom_word word ends done
  | whole value =>
    intro done rest ends
    exact scanFrom_whole value ends done
  | double value => exact absurd discrete not_discrete_double
  | text value =>
    intro done rest ends
    exact scanFrom_quoted value done rest
  | array items ih =>
    intro done rest ends
    rw [discrete_array] at discrete
    rw [compactText, List.cons_append, scanFrom_mark rfl,
      scanFrom_items fun item present => ih item present (discrete item present)]
    simp [tokens]
  | object fields ih =>
    intro done rest ends
    rw [discrete_object] at discrete
    rw [compactText, List.cons_append, scanFrom_mark rfl,
      scanFrom_fields fun field present => ih field present (discrete field present)]
    simp [tokens]

theorem scan_compactText {value : Json} (discrete : value.Discrete) :
    scan value.compactText = some value.tokens := by
  have all := scans_of_discrete discrete [] [] ends_nil
  rw [List.append_nil] at all
  rw [scan, all]
  simp [scanFrom, finish]

end Token
end CausalWeave.Json
