import CausalWeave.AtomId
import CausalWeave.Proofs.Json.Numeral
import Std.Data.String.ToInt
import Std.Data.String.ToNat

/-! A site may be named like a complete id, and its name is written as it is. But what follows the last
separator are numbers, so that a shown id is that of one atom. -/

namespace CausalWeave

private theorem append_cons_inj_of_notMem_right {separator : α} {left right left' right' : List α}
    (absent : separator ∉ right) (absent' : separator ∉ right')
    (same : left ++ separator :: right = left' ++ separator :: right') :
    left = left' ∧ right = right' := by
  rcases List.append_eq_append_iff.mp same with ⟨more, rfl, behind⟩ | ⟨more, rfl, behind⟩
  · cases more with
    | nil => simpa using behind
    | cons first more =>
      rw [List.cons_append, List.cons.injEq] at behind
      exact absurd (by simp [behind.2]) absent
  · cases more with
    | nil => simpa [eq_comm] using behind
    | cons first more =>
      rw [List.cons_append, List.cons.injEq] at behind
      exact absurd (by simp [behind.2]) absent'

theorem exists_append_of_notMem {separator : α} {words rest front tail : List α} (absent : separator ∉ words)
    (same : words ++ rest = front ++ separator :: tail) :
    ∃ inner, front = words ++ inner ∧ rest = inner ++ separator :: tail := by
  rcases List.append_eq_append_iff.mp same with ⟨inner, whole, left⟩ | ⟨inner, whole, separated⟩
  · exact ⟨inner, whole, left⟩
  · cases inner with
    | nil => exact ⟨[], by simpa using whole.symm, by simpa using separated.symm⟩
    | cons first inner =>
      rw [List.cons_append, List.cons.injEq] at separated
      obtain ⟨rfl, _⟩ := separated
      exact absurd (by simp [whole]) absent

/-- A site that is not named like an id. -/
def Site.Bare (site : Site) : Prop :=
  '@' ∉ site.name.toList

instance (site : Site) : Decidable site.Bare :=
  inferInstanceAs (Decidable ('@' ∉ site.name.toList))

namespace AtomId

def shownNumbers (id : AtomId) : List Char :=
  Nat.toDigits 10 id.timestamp.toNat ++
    if id.priority = 0 then [] else '^' :: id.priority.toInt.repr.toList

theorem toList_shown (id : AtomId) :
    id.shown.toList = id.site.name.toList ++ '@' :: id.shownNumbers := by
  unfold shown shownNumbers
  split <;> simp

theorem notMem_toDigits {mark : Char} (no_digit : mark.isDigit = false) (number : Nat) :
    mark ∉ Nat.toDigits 10 number := by
  intro present
  simp [Json.Numeral.isDigit_of_mem_toDigits present] at no_digit

theorem notMem_repr {mark : Char} (no_digit : mark.isDigit = false) (no_sign : mark ≠ '-')
    (value : Int) : mark ∉ value.repr.toList := by
  intro present
  rw [← Int.toString_eq_repr] at present
  rcases Json.Numeral.mem_toString present with digit | sign
  · simp [digit] at no_digit
  · exact no_sign sign

theorem mem_shownNumbers {id : AtomId} (present : mark ∈ id.shownNumbers) :
    mark.isDigit = true ∨ mark = '^' ∨ mark = '-' := by
  unfold shownNumbers at present
  rcases List.mem_append.mp present with digit | priority
  · exact .inl (Json.Numeral.isDigit_of_mem_toDigits digit)
  · split at priority
    · simp at priority
    · rcases List.mem_cons.mp priority with caret | value
      · exact .inr (.inl caret)
      · rw [← Int.toString_eq_repr] at value
        rcases Json.Numeral.mem_toString value with digit | sign
        · exact .inl digit
        · exact .inr (.inr sign)

theorem at_notMem_shownNumbers (id : AtomId) : '@' ∉ id.shownNumbers := by
  intro present
  simpa using mem_shownNumbers present

/-- A shown id ends with a number. -/
theorem exists_getLast?_shown (id : AtomId) : ∃ mark ∈ '@' :: id.shownNumbers,
    id.shown.toList.getLast? = some mark := by
  refine ⟨('@' :: id.shownNumbers).getLast (by simp), List.getLast_mem _, ?_⟩
  rw [toList_shown, List.getLast?_append, List.getLast?_eq_some_getLast (by simp), Option.some_or]

/-- A priority of zero is not shown, so that it is told from the others by the missing mark. -/
theorem shownNumbers_inj {first second : AtomId} (same : first.shownNumbers = second.shownNumbers) :
    first.timestamp = second.timestamp ∧ first.priority = second.priority := by
  have unmarked : ∀ number : Nat, '^' ∉ Nat.toDigits 10 number := notMem_toDigits rfl
  have unmarked' : ∀ value : Int, '^' ∉ value.repr.toList := notMem_repr rfl (by decide)
  have timestamp : ∀ {number number' : Nat}, Nat.toDigits 10 number = Nat.toDigits 10 number' →
      number = number' := by
    intro number number' digits
    rw [← Nat.toList_repr, ← Nat.toList_repr, String.toList_inj] at digits
    exact Nat.repr_injective digits
  unfold shownNumbers at same
  by_cases plain : first.priority = 0 <;> by_cases plain' : second.priority = 0
  · simp only [plain, plain', if_true, List.append_nil] at same
    exact ⟨UInt64.toNat_inj.mp (timestamp same), plain.trans plain'.symm⟩
  · simp only [plain, plain', if_true, if_false, List.append_nil] at same
    exact absurd (by simp [same]) (unmarked first.timestamp.toNat)
  · simp only [plain, plain', if_true, if_false, List.append_nil] at same
    exact absurd (by simp [← same]) (unmarked second.timestamp.toNat)
  · simp only [plain, plain', if_false] at same
    obtain ⟨digits, value⟩ := append_cons_inj_of_notMem_right (unmarked' _) (unmarked' _) same
    have priority := Int.repr_injective (String.toList_inj.mp value)
    exact ⟨UInt64.toNat_inj.mp (timestamp digits), Int32.toInt_inj.mp priority⟩

theorem shown_injective : Function.Injective shown := by
  intro first second same
  have split := congrArg String.toList same
  rw [toList_shown, toList_shown] at split
  obtain ⟨name, numbers⟩ := append_cons_inj_of_notMem_right first.at_notMem_shownNumbers
    second.at_notMem_shownNumbers split
  obtain ⟨timestamp, priority⟩ := shownNumbers_inj numbers
  have site : first.site = second.site := congrArg Site.mk (String.toList_inj.mp name)
  cases first
  cases second
  simp_all

/-- The id with a text in front of the name of its site. -/
def behind (text : String) (id : AtomId) : AtomId :=
  { id with site := ⟨text ++ id.site.name⟩ }

@[simp] theorem behind_shown (text : String) (id : AtomId) : (id.behind text).shown = text ++ id.shown := by
  unfold behind shown
  split <;> simp only [String.append_assoc]

theorem eq_behind {id other : AtomId} (same : id.shown = text ++ other.shown) : id = other.behind text :=
  shown_injective (same.trans (behind_shown text other).symm)

theorem exists_behind {id : AtomId} {front : List Char} (name : id.site.name.toList = text.toList ++ front) :
    ∃ inner : AtomId, id = inner.behind text := by
  have whole : text ++ String.ofList front = id.site.name := by
    rw [← String.toList_inj, String.toList_append, String.toList_ofList, name]
  refine ⟨{ id with site := ⟨String.ofList front⟩ }, ?_⟩
  simp only [behind, whole]

theorem exists_behind_of_append {id : AtomId} {rest tail : List Char} (unmarked : '@' ∉ text.toList)
    (same : text.toList ++ rest = id.shown.toList ++ tail) :
    ∃ inner : AtomId, id = inner.behind text ∧ rest = inner.shown.toList ++ tail := by
  obtain ⟨inner, rfl⟩ : ∃ inner : AtomId, id = inner.behind text := by
    rw [toList_shown, List.append_assoc] at same
    obtain ⟨front, name, _⟩ := exists_append_of_notMem unmarked same
    exact exists_behind name
  rw [behind_shown, String.toList_append, List.append_assoc] at same
  exact ⟨inner, rfl, List.append_cancel_left same⟩

/-- Words in front of which a shown id is at its end, unless they belong to the name of its site. -/
structure Bounds (words : String) : Prop where
  apart : ∃ mark ∈ words.toList.head?, mark.isDigit = false ∧ mark ≠ '^' ∧ mark ≠ '-'
  unmarked : '@' ∉ words.toList

theorem Bounds.exists_cons (bounds : Bounds words) : ∃ mark rest, words.toList = mark :: rest ∧
    mark ≠ '@' ∧ ∀ id : AtomId, mark ∉ id.shownNumbers := by
  obtain ⟨mark, first, no_digit, no_caret, no_sign⟩ := bounds.apart
  obtain ⟨rest, whole⟩ := List.head?_eq_some_iff.mp first
  refine ⟨mark, rest, whole, ?_, ?_⟩
  · rintro rfl
    exact bounds.unmarked (by simp [whole])
  · intro id present
    rcases mem_shownNumbers present with digit | caret | sign
    · simp [digit] at no_digit
    · exact no_caret caret
    · exact no_sign sign

/-- A shown id that begins with another one and with words behind it has them in the name of its site. -/
theorem exists_behind_of_longer {id other : AtomId} {more rest tail : List Char} (bounds : Bounds words)
    (present : more ≠ []) (longer : other.shown.toList = id.shown.toList ++ more)
    (follows : words.toList ++ rest = more ++ tail) :
    ∃ middle : AtomId, other = middle.behind (id.shown ++ words) ∧
      rest = middle.shown.toList ++ tail := by
  obtain ⟨mark, words', begins, no_at, no_number⟩ := bounds.exists_cons
  -- The last separator of the longer id cannot stand in the shorter one, since what follows it are numbers.
  obtain ⟨front, name, divided⟩ : ∃ front, other.site.name.toList = id.shown.toList ++ front ∧
      more = front ++ '@' :: other.shownNumbers := by
    rw [toList_shown other] at longer
    rcases List.append_eq_append_iff.mp longer with ⟨front, short, divided⟩ | ⟨front, name, divided⟩
    · obtain ⟨first, more', rfl⟩ := List.exists_cons_of_ne_nil present
      have numeric : mark ∈ '@' :: other.shownNumbers := by
        rw [begins, List.cons_append, List.cons_append, List.cons.injEq] at follows
        simp [divided, follows.1]
      rcases List.mem_cons.mp numeric with at_mark | number
      · exact absurd at_mark no_at
      · exact absurd number (no_number other)
    · exact ⟨front, name, divided⟩
  obtain ⟨inner, rfl, _⟩ : ∃ inner, front = words.toList ++ inner ∧ _ := by
    rw [divided, List.append_assoc] at follows
    exact exists_append_of_notMem bounds.unmarked follows
  rw [← List.append_assoc, ← String.toList_append] at name
  obtain ⟨middle, rfl⟩ := exists_behind name
  refine ⟨middle, rfl, ?_⟩
  rw [behind_shown, String.toList_append, String.toList_append, List.append_assoc,
    List.append_cancel_left_eq] at longer
  rw [← longer, List.append_assoc, List.append_cancel_left_eq] at follows
  exact follows

/-- Where two texts begin with shown ids, these are one id, or one of them stands with the words behind it in
front of the site of the other. -/
theorem shown_append_cases {id other : AtomId} {rest rest' : List Char} (bounds : Bounds words)
    (bounds' : Bounds words')
    (same : id.shown.toList ++ (words.toList ++ rest) = other.shown.toList ++ (words'.toList ++ rest')) :
    (id = other ∧ words.toList ++ rest = words'.toList ++ rest') ∨
      (∃ middle : AtomId, other = middle.behind (id.shown ++ words) ∧
        rest = middle.shown.toList ++ (words'.toList ++ rest')) ∨
      ∃ middle : AtomId, id = middle.behind (other.shown ++ words') ∧
        rest' = middle.shown.toList ++ (words.toList ++ rest) := by
  by_cases equal : id = other
  · subst equal
    exact .inl ⟨rfl, List.append_cancel_left same⟩
  have differ : id.shown.toList ≠ other.shown.toList :=
    fun shown => equal (shown_injective (String.toList_inj.mp shown))
  rcases List.append_eq_append_iff.mp same with ⟨more, longer, follows⟩ | ⟨more, longer, follows⟩
  · refine .inr (.inl (exists_behind_of_longer bounds ?_ longer follows))
    rintro rfl
    exact differ (by simp [longer])
  · refine .inr (.inr (exists_behind_of_longer bounds' ?_ longer follows))
    rintro rfl
    exact differ (by simp [longer])

/-- Two pairs that one text shows, with the words between the ids of a pair. The text holds three ids, the
last two or the first two of which may be one. -/
inductive Reread (words : String) : AtomId × AtomId → AtomId × AtomId → Prop where
  | intro (first middle last : AtomId) :
    Reread words (first, last.behind (middle.shown ++ words)) (middle.behind (first.shown ++ words), last)

theorem pair_cases {words : String} (bounds : Bounds words) {id cause other cause' : AtomId}
    (same : id.shown.toList ++ (words.toList ++ cause.shown.toList) =
      other.shown.toList ++ (words.toList ++ cause'.shown.toList)) :
    (id = other ∧ cause = cause') ∨ Reread words (id, cause) (other, cause') ∨
      Reread words (other, cause') (id, cause) := by
  have last : ∀ {middle first second : AtomId}, first.shown.toList = middle.shown.toList ++
      (words.toList ++ second.shown.toList) → first = second.behind (middle.shown ++ words) := by
    intro middle first second shown
    rw [← List.append_assoc, ← String.toList_append, ← String.toList_append, String.toList_inj] at shown
    exact eq_behind shown
  rcases shown_append_cases bounds bounds same with
    ⟨rfl, causes⟩ | ⟨middle, rfl, rest⟩ | ⟨middle, rfl, rest⟩
  · exact .inl ⟨rfl, shown_injective (String.toList_inj.mp (List.append_cancel_left causes))⟩
  · rw [last rest]
    exact .inr (.inl (.intro id middle cause'))
  · rw [last rest]
    exact .inr (.inr (.intro other middle cause))

theorem Reread.same_text {words : String} {pair other : AtomId × AtomId} (reread : Reread words pair other) :
    pair.1.shown ++ words ++ pair.2.shown = other.1.shown ++ words ++ other.2.shown := by
  cases reread
  simp only [behind_shown, String.append_assoc]

theorem not_bare_behind {first middle : AtomId} {words : String} :
    ¬ (middle.behind (first.shown ++ words)).site.Bare := by
  simp [Site.Bare, behind, toList_shown]

theorem not_bare_behind_of_not_bare {id : AtomId} (marked : ¬ id.site.Bare) (text : String) :
    ¬ (id.behind text).site.Bare := by
  intro bare
  refine marked fun present => bare ?_
  simp [behind, present]

theorem Reread.not_bare {words : String} {pair other : AtomId × AtomId} (reread : Reread words pair other) :
    ¬ pair.2.site.Bare ∧ ¬ other.1.site.Bare := by
  cases reread
  exact ⟨not_bare_behind, not_bare_behind⟩

end AtomId

theorem append_same_text (front : String) {left words right left' right' : String}
    (same : left ++ words ++ right = left' ++ words ++ right') :
    front ++ left ++ words ++ right = front ++ left' ++ words ++ right' := by
  have texts := congrArg (front ++ ·) same
  simpa only [String.append_assoc] using texts

/-- Without blanks, what stands in front of words ends at their first blank. -/
theorem cut_inj {words : String} {left left' rest rest' : List Char} (blank : ' ' ∈ words.toList)
    (whole : ' ' ∉ left) (whole' : ' ' ∉ left')
    (same : left ++ (words.toList ++ rest) = left' ++ (words.toList ++ rest')) :
    left = left' ∧ rest = rest' := by
  obtain ⟨front, words', begins, first⟩ := List.eq_append_cons_of_mem blank
  have sizes : left.length = left'.length := by
    rw [begins, List.append_assoc, List.append_assoc, ← List.append_assoc left,
      ← List.append_assoc left'] at same
    obtain ⟨inner, longer, _⟩ := exists_append_of_notMem (by simp [whole, first]) same
    obtain ⟨inner', longer', _⟩ := exists_append_of_notMem (by simp [whole', first]) same.symm
    have sizes := congrArg List.length longer
    have sizes' := congrArg List.length longer'
    simp only [List.length_append] at sizes sizes'
    omega
  obtain ⟨equal, texts⟩ := List.append_inj same sizes
  exact ⟨equal, List.append_cancel_left texts⟩

theorem number_inj {words : String} {number number' : Nat} {rest rest' : List Char}
    (blank : ' ' ∈ words.toList)
    (same : (toString number).toList ++ (words.toList ++ rest) =
      (toString number').toList ++ (words.toList ++ rest')) :
    number = number' ∧ rest = rest' := by
  have whole : ∀ number : Nat, ' ' ∉ (toString number).toList := by
    intro number
    rw [Nat.toString_eq_repr, Nat.toList_repr]
    exact AtomId.notMem_toDigits rfl number
  obtain ⟨digits, rest⟩ := cut_inj blank (whole number) (whole number') same
  exact ⟨Nat.repr_injective (String.toList_inj.mp digits), rest⟩

end CausalWeave
