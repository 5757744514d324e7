import CausalWeave.Json.Token

namespace CausalWeave.Json.Numeral

def digitValue (c : Char) : Nat :=
  c.toNat - '0'.toNat

theorem leadingDigits_of_digits {chars : List Char} (digits : ∀ c ∈ chars, c.isDigit = true) :
    leadingDigits chars = (chars.map digitValue, []) := by
  induction chars with
  | nil => rfl
  | cons c rest ih =>
    have first : digit? c = some (digitValue c) := by
      simp [digit?, digitValue, digits c List.mem_cons_self]
    have others := ih fun c present => digits c (List.mem_cons_of_mem _ present)
    simp only [leadingDigits, first, others, List.map_cons]

theorem numberOfDigits_map (chars : List Char) :
    numberOfDigits (chars.map digitValue) = Nat.ofDigitChars 10 chars 0 := by
  unfold numberOfDigits Nat.ofDigitChars
  exact List.foldl_map

/-- The digits of a number, which begin with zero only if that is all. -/
def digitsOf (number : Nat) : List Nat :=
  (Nat.toDigits 10 number).map digitValue

theorem numberOfDigits_digitsOf (number : Nat) : numberOfDigits (digitsOf number) = number := by
  rw [digitsOf, numberOfDigits_map, Nat.ofDigitChars_ten_toDigits]

theorem digitsOf_ne_nil (number : Nat) : digitsOf number ≠ [] := by
  simp [digitsOf, Nat.toDigits_ne_nil]

theorem digitsOf_of_lt {number : Nat} (small : number < 10) : digitsOf number = [number] := by
  rw [digitsOf, Nat.toDigits_of_lt_base small]
  have value : digitValue number.digitChar = number := by
    rw [digitValue, Nat.toNat_digitChar_of_lt_ten small]
    exact Nat.add_sub_cancel_left ..
  simp [value]

theorem head?_digitsOf_append (number : Nat) (others : List Nat) :
    (digitsOf number ++ others).head? = (digitsOf number).head? := by
  cases written : digitsOf number with
  | nil => exact absurd written (digitsOf_ne_nil number)
  | cons _ _ => rfl

theorem digitsOf_of_le {number : Nat} (large : 10 ≤ number) :
    digitsOf number = digitsOf (number / 10) ++ [number % 10] := by
  rw [← digitsOf_of_lt (Nat.mod_lt number (by decide)), digitsOf,
    Nat.toDigits_of_base_le (by decide) large, List.map_append]
  rw [digitsOf, digitsOf, Nat.toDigits_of_lt_base (Nat.mod_lt number (by decide))]

theorem head?_digitsOf {number : Nat} (positive : 0 < number) :
    (digitsOf number).head? ≠ some 0 := by
  induction number using Nat.strongRecOn with
  | ind number ih =>
    by_cases small : number < 10
    · rw [digitsOf_of_lt small]
      simp [Nat.ne_of_gt positive]
    · rw [digitsOf_of_le (Nat.not_lt.mp small), head?_digitsOf_append]
      exact ih (number / 10) (by omega) (by omega)

theorem isDigit_of_mem_toDigits {number : Nat} {c : Char} (present : c ∈ Nat.toDigits 10 number) :
    c.isDigit = true :=
  Nat.isDigit_of_mem_toDigits (by decide) (by decide) present

theorem leadingDigits_toDigits (number : Nat) :
    leadingDigits (Nat.toDigits 10 number) = (digitsOf number, []) :=
  leadingDigits_of_digits fun _ present => isDigit_of_mem_toDigits present

def ofInt (value : Int) : Numeral where
  negative := value < 0
  whole := digitsOf value.natAbs
  fraction := none
  power := none

/-- What refuses a numeral, no digits or a zero before others, is true of no number. -/
theorem digitsOf_accepted (number : Nat) :
    ¬((digitsOf number).isEmpty = true ∨
      (digitsOf number).head? = some 0 ∧ (digitsOf number).length ≠ 1) := by
  rintro (empty | ⟨zero, long⟩)
  · exact digitsOf_ne_nil number (List.isEmpty_iff.mp empty)
  · rcases Nat.eq_zero_or_pos number with rfl | positive
    · exact long (by rw [digitsOf_of_lt (by decide)]; rfl)
    · exact head?_digitsOf positive zero

theorem toList_toString (value : Int) :
    (toString value).toList = (if value < 0 then ['-'] else []) ++ Nat.toDigits 10 value.natAbs := by
  rw [Int.toString_eq_repr, Int.repr_eq_if]
  by_cases negative : value < 0
  · rw [if_neg (Int.not_le.mpr negative), if_pos negative, String.toList_append, Nat.toList_repr]
    have magnitude : (-value).toNat = value.natAbs := by omega
    rw [magnitude]
    rfl
  · rw [if_pos (Int.not_lt.mp negative), if_neg negative, Nat.toList_repr]
    have magnitude : value.toNat = value.natAbs := by omega
    rw [magnitude]
    rfl

theorem mem_toString {value : Int} {c : Char} (present : c ∈ (toString value).toList) :
    c.isDigit = true ∨ c = '-' := by
  rw [toList_toString, List.mem_append] at present
  rcases present with sign | digit
  · by_cases negative : value < 0
    · rw [if_pos negative] at sign
      exact .inr (List.mem_singleton.mp sign)
    · rw [if_neg negative] at sign
      cases sign
  · exact .inl (isDigit_of_mem_toDigits digit)

theorem sign_toDigits (number : Nat) :
    sign (Nat.toDigits 10 number) = (false, Nat.toDigits 10 number) := by
  unfold sign
  split
  case h_1 rest written =>
    have minus : '-' ∈ Nat.toDigits 10 number := by simp [written]
    exact absurd (isDigit_of_mem_toDigits minus) (by decide)
  case h_2 => rfl

theorem ofChars?_toString (value : Int) : ofChars? (toString value).toList = some (ofInt value) := by
  have signed : sign (toString value).toList = (decide (value < 0), Nat.toDigits 10 value.natAbs) := by
    rw [toList_toString]
    by_cases negative : value < 0
    · simp [negative, sign]
    · simp [negative, sign_toDigits]
  unfold ofChars?
  simp only [signed, leadingDigits_toDigits, if_neg (digitsOf_accepted value.natAbs)]
  rfl

theorem whole?_ofInt (value : Int) : (ofInt value).whole? = some value := by
  unfold whole?
  simp only [ofInt, numberOfDigits_digitsOf]
  by_cases negative : value < 0
  · obtain ⟨less, magnitude⟩ : ∃ less : Nat, value.natAbs = less + 1 :=
      ⟨value.natAbs - 1, by omega⟩
    rw [decide_eq_true negative, magnitude]
    exact congrArg some (by omega)
  · rw [decide_eq_false negative]
    exact congrArg some (by omega)

end CausalWeave.Json.Numeral
