import CausalWeave.Oracle.Violation
import CausalWeave.Proofs.AtomId.Shown

namespace CausalWeave.Oracle

/-- What a list of ids shows behind its first one. -/
def following (ids : List AtomId) : List Char :=
  ids.flatMap fun id => ", ".toList ++ id.shown.toList

theorem following_cons (id : AtomId) (ids : List AtomId) :
    following (id :: ids) = ", ".toList ++ id.shown.toList ++ following ids := rfl

/-- The name of the other id's site begins with this id, shown as in a list. -/
def ListedIn (id other : AtomId) : Prop :=
  ∃ words ∈ [",", "]"], ∃ middle : AtomId, other = middle.behind (id.shown ++ words)

/-- An id of one list is a part of an id of the other one. -/
def Entangled (ids others : List AtomId) : Prop :=
  ∃ id ∈ ids, ∃ other ∈ others, ListedIn id other ∨ ListedIn other id

theorem Entangled.mono {ids ids' others others' : List AtomId} (entangled : Entangled ids others)
    (kept : ids ⊆ ids') (kept' : others ⊆ others') : Entangled ids' others' := by
  obtain ⟨id, present, other, present', listed⟩ := entangled
  exact ⟨id, kept present, other, kept' present', listed⟩

theorem Entangled.exists_not_bare {ids others : List AtomId} (entangled : Entangled ids others) :
    ∃ id ∈ ids ++ others, ¬ id.site.Bare := by
  obtain ⟨id, present, other, present', listed⟩ := entangled
  rcases listed with ⟨words, _, middle, rfl⟩ | ⟨words, _, middle, rfl⟩
  · exact ⟨_, List.mem_append_right _ present', AtomId.not_bare_behind⟩
  · exact ⟨_, List.mem_append_left _ present, AtomId.not_bare_behind⟩

namespace Violation

theorem toList_idsText_cons (id : AtomId) (ids : List AtomId) :
    (idsText (id :: ids)).toList = '[' :: (id.shown.toList ++ (following ids ++ [']'])) := by
  have row : ∀ id : AtomId, (", ".intercalate ((id :: ids).map AtomId.shown)).toList =
      id.shown.toList ++ following ids := by
    induction ids with
    | nil => simp [following]
    | cons next ids ih =>
      intro id
      rw [List.map_cons, List.map_cons, String.intercalate_cons_cons, ← List.map_cons]
      simp only [String.toList_append, ih next, following, List.flatMap_cons, List.append_assoc]
  unfold idsText
  rw [String.toList_append, String.toList_append, row, List.append_assoc, List.append_assoc]
  rfl

/-- Behind an id of a list there is a comma or the bracket at the end. -/
theorem exists_words (ids : List AtomId) (rest : List Char) :
    ∃ words ∈ [",", "]"], ∃ tail, following ids ++ ']' :: rest = words.toList ++ tail := by
  cases ids with
  | nil => exact ⟨"]", by simp, rest, rfl⟩
  | cons next ids =>
    exact ⟨",", by simp, " ".toList ++ (next.shown.toList ++ (following ids ++ ']' :: rest)), by
      simp [following]⟩

theorem bounds_of_mem {words : String} (listed : words ∈ [",", "]"]) : AtomId.Bounds words := by
  simp only [List.mem_cons, List.not_mem_nil, or_false] at listed
  rcases listed with rfl | rfl
  · exact ⟨⟨',', rfl, by decide⟩, by decide⟩
  · exact ⟨⟨']', rfl, by decide⟩, by decide⟩

theorem following_cases {ids others : List AtomId} {rest rest' : List Char}
    (same : following ids ++ ']' :: rest = following others ++ ']' :: rest') :
    (ids = others ∧ rest = rest') ∨ Entangled ids others := by
  induction ids generalizing others with
  | nil =>
    cases others with
    | nil =>
      injection same with _ rest
      exact .inl ⟨rfl, rest⟩
    | cons other others =>
      injection same with mark
      exact absurd mark (by decide)
  | cons id ids ih =>
    cases others with
    | nil =>
      injection same with mark
      exact absurd mark (by decide)
    | cons other others =>
      simp only [following_cons, List.append_assoc, List.append_cancel_left_eq] at same
      obtain ⟨words, listed, tail, begins⟩ := exists_words ids rest
      obtain ⟨words', listed', tail', begins'⟩ := exists_words others rest'
      rw [begins, begins'] at same
      rcases AtomId.shown_append_cases (bounds_of_mem listed) (bounds_of_mem listed') same with
        ⟨rfl, tails⟩ | ⟨middle, whole, _⟩ | ⟨middle, whole, _⟩
      · rw [← begins, ← begins'] at tails
        rcases ih tails with ⟨rfl, rest⟩ | entangled
        · exact .inl ⟨rfl, rest⟩
        · exact .inr (entangled.mono (by simp) (by simp))
      · exact .inr ⟨id, by simp, other, by simp, .inl ⟨words, listed, middle, whole⟩⟩
      · exact .inr ⟨id, by simp, other, by simp, .inr ⟨words', listed', middle, whole⟩⟩

theorem shown_following_cases {id other : AtomId} {ids others : List AtomId} {rest rest' : List Char}
    (same : id.shown.toList ++ (following ids ++ ']' :: rest) =
      other.shown.toList ++ (following others ++ ']' :: rest')) :
    (id :: ids = other :: others ∧ rest = rest') ∨ Entangled (id :: ids) (other :: others) := by
  apply following_cases
  simp only [following_cons, List.append_assoc, same]

/-- A list that is shown empty where another one begins with an id. -/
theorem at_notMem_of_nil {text : List Char} {id : AtomId} {rest : List Char} (absent : '@' ∉ text) :
    text ≠ id.shown.toList ++ rest := by
  rintro rfl
  exact absent (by simp [AtomId.toList_shown])

theorem idsText_cases {ids others : List AtomId} (same : idsText ids = idsText others) :
    ids = others ∨ Entangled ids others := by
  have texts := congrArg String.toList same
  cases ids with
  | nil =>
    cases others with
    | nil => exact .inl rfl
    | cons other others =>
      rw [toList_idsText_cons] at texts
      injection texts with _ row
      exact absurd row (at_notMem_of_nil (by decide))
  | cons id ids =>
    cases others with
    | nil =>
      rw [toList_idsText_cons] at texts
      injection texts with _ row
      exact absurd row.symm (at_notMem_of_nil (by decide))
    | cons other others =>
      rw [toList_idsText_cons, toList_idsText_cons, List.cons.injEq] at texts
      rcases shown_following_cases texts.2 with ⟨equal, _⟩ | entangled
      · exact .inl equal
      · exact .inr entangled

def listsText (onlyInFirst onlyInSecond : List AtomId) : String :=
  idsText onlyInFirst ++ ", only_in_b=" ++ idsText onlyInSecond

/-- Two violations with one message. -/
inductive Reread : Violation → Violation → Prop where
  | causalOrder (replica : Nat) {atom cause atom' cause' : AtomId}
    (reread : AtomId.Reread " without " (atom, cause) (atom', cause')) :
    Reread (.causalOrder replica atom cause) (.causalOrder replica atom' cause')
  | contiguity (replica : Nat) {atom cause atom' cause' : AtomId}
    (reread : AtomId.Reread " outside the subtree of " (atom, cause) (atom', cause')) :
    Reread (.contiguity replica atom cause) (.contiguity replica atom' cause')
  | convergence (first second : Nat) (firstDigest secondDigest : String)
    {onlyInFirst onlyInSecond onlyInFirst' onlyInSecond' : List AtomId}
    (same : listsText onlyInFirst onlyInSecond = listsText onlyInFirst' onlyInSecond')
    (entangled : Entangled (onlyInFirst ++ onlyInSecond) (onlyInFirst' ++ onlyInSecond')) :
    Reread (.convergence first second firstDigest secondDigest onlyInFirst onlyInSecond)
      (.convergence first second firstDigest secondDigest onlyInFirst' onlyInSecond')
  | emptyFirst (first second : Nat) (firstDigest secondDigest : String)
    {onlyInSecond ids onlyInSecond' : List AtomId} (id : AtomId)
    (same : listsText [] onlyInSecond = listsText (id.behind "], only_in_b=[" :: ids) onlyInSecond')
    (entangled : Entangled onlyInSecond (id :: ids)) :
    Reread (.convergence first second firstDigest secondDigest [] onlyInSecond)
      (.convergence first second firstDigest secondDigest (id.behind "], only_in_b=[" :: ids) onlyInSecond')

theorem toList_listsText_cons (id : AtomId) (ids onlyInSecond : List AtomId) :
    (listsText (id :: ids) onlyInSecond).toList = '[' :: (id.shown.toList ++ (following ids ++
      ']' :: (", only_in_b=".toList ++ (idsText onlyInSecond).toList))) := by
  unfold listsText
  simp only [String.toList_append, toList_idsText_cons, List.cons_append, List.nil_append, List.append_assoc]

theorem toList_listsText_nil_cons (id : AtomId) (ids : List AtomId) :
    (listsText [] (id :: ids)).toList =
      '[' :: ("], only_in_b=[".toList ++ (id.shown.toList ++ (following ids ++ [']']))) := by
  unfold listsText
  rw [String.toList_append, String.toList_append, toList_idsText_cons]
  rfl

/-- The name of a site may begin as the second list does behind an empty first one. -/
theorem emptyFirst_cases {other : AtomId} {onlyInSecond others onlyInSecond' : List AtomId}
    (same : listsText [] onlyInSecond = listsText (other :: others) onlyInSecond') :
    ∃ id : AtomId, other = id.behind "], only_in_b=[" ∧ Entangled onlyInSecond (id :: others) := by
  have texts := congrArg String.toList same
  rw [toList_listsText_cons] at texts
  cases onlyInSecond with
  | nil =>
    injection texts with _ row
    exact absurd row (at_notMem_of_nil (by decide))
  | cons id ids =>
    rw [toList_listsText_nil_cons, List.cons.injEq] at texts
    obtain ⟨inner, rfl, row⟩ := AtomId.exists_behind_of_append (by decide) texts.2
    refine ⟨inner, rfl, ?_⟩
    rcases shown_following_cases row with ⟨_, rest⟩ | entangled
    · exact absurd (List.append_eq_nil_iff.mp rest.symm).1 (by decide)
    · exact entangled

theorem listsText_cases {onlyInFirst onlyInSecond onlyInFirst' onlyInSecond' : List AtomId}
    (same : listsText onlyInFirst onlyInSecond = listsText onlyInFirst' onlyInSecond') :
    (onlyInFirst = onlyInFirst' ∧ onlyInSecond = onlyInSecond') ∨
      Entangled (onlyInFirst ++ onlyInSecond) (onlyInFirst' ++ onlyInSecond') ∨
      (∃ id ids, onlyInFirst = [] ∧ onlyInFirst' = AtomId.behind "], only_in_b=[" id :: ids ∧
        Entangled onlyInSecond (id :: ids)) ∨
      ∃ id ids, onlyInFirst' = [] ∧ onlyInFirst = AtomId.behind "], only_in_b=[" id :: ids ∧
        Entangled onlyInSecond' (id :: ids) := by
  have second : ∀ {ids : List AtomId}, idsText onlyInSecond = idsText onlyInSecond' →
      (ids = ids ∧ onlyInSecond = onlyInSecond') ∨
        Entangled (ids ++ onlyInSecond) (ids ++ onlyInSecond') := by
    intro ids texts
    rcases idsText_cases texts with equal | entangled
    · exact .inl ⟨rfl, equal⟩
    · exact .inr (entangled.mono (by simp) (by simp))
  cases onlyInFirst with
  | nil =>
    cases onlyInFirst' with
    | nil =>
      rcases second ((String.append_right_inj _).mp same) with equal | entangled
      · exact .inl equal
      · exact .inr (.inl entangled)
    | cons other others =>
      obtain ⟨id, rfl, entangled⟩ := emptyFirst_cases same
      exact .inr (.inr (.inl ⟨id, others, rfl, rfl, entangled⟩))
  | cons id ids =>
    cases onlyInFirst' with
    | nil =>
      obtain ⟨inner, rfl, entangled⟩ := emptyFirst_cases same.symm
      exact .inr (.inr (.inr ⟨inner, ids, rfl, rfl, entangled⟩))
    | cons other others =>
      have texts := congrArg String.toList same
      rw [toList_listsText_cons, toList_listsText_cons, List.cons.injEq] at texts
      rcases shown_following_cases texts.2 with ⟨equal, rest⟩ | entangled
      · rw [equal]
        rcases second (String.toList_inj.mp (List.append_cancel_left rest)) with equal | entangled
        · exact .inl equal
        · exact .inr (.inl entangled)
      · exact .inr (.inl (entangled.mono (by simp) (by simp)))

def digests : Violation → List String
  | convergence _ _ firstDigest secondDigest _ _ => [firstDigest, secondDigest]
  | commutativity _ expected actual => [expected, actual]
  | idempotence _ before after => [before, after]
  | causalOrder _ _ _ | contiguity _ _ _ | pendingNotDrained _ _ => []

/-- Each digest that is shown is one word, as the digests of weaves are. -/
def HasWholeDigests (violation : Violation) : Prop :=
  ∀ digest ∈ violation.digests, ' ' ∉ digest.toList

instance (violation : Violation) : Decidable violation.HasWholeDigests :=
  inferInstanceAs (Decidable (∀ digest ∈ violation.digests, ' ' ∉ digest.toList))

def initials : Violation → List Char
  | convergence _ _ _ _ _ _ => ['C', 'o', 'n', 'v']
  | commutativity _ _ _ => ['C', 'o', 'm', 'm']
  | idempotence _ _ _ => ['I', 'd', 'e', 'm']
  | causalOrder _ _ _ => ['C', 'a', 'u', 's']
  | contiguity _ _ _ => ['C', 'o', 'n', 't']
  | pendingNotDrained _ _ => ['P', 'e', 'n', 'd']

theorem take_message (violation : Violation) : violation.message.toList.take 4 = violation.initials := by
  cases violation <;>
    (unfold message; simp only [String.toList_append, List.append_assoc]; rfl)

theorem convergence_cases {first second first' second' : Nat}
    {firstDigest secondDigest firstDigest' secondDigest' : String}
    {onlyInFirst onlyInSecond onlyInFirst' onlyInSecond' : List AtomId}
    (whole : (convergence first second firstDigest secondDigest onlyInFirst onlyInSecond).HasWholeDigests)
    (whole' : (convergence first' second' firstDigest' secondDigest' onlyInFirst'
      onlyInSecond').HasWholeDigests)
    (same : (convergence first second firstDigest secondDigest onlyInFirst onlyInSecond).message =
      (convergence first' second' firstDigest' secondDigest' onlyInFirst' onlyInSecond').message) :
    first = first' ∧ second = second' ∧ firstDigest = firstDigest' ∧ secondDigest = secondDigest' ∧
      listsText onlyInFirst onlyInSecond = listsText onlyInFirst' onlyInSecond' := by
  have texts := congrArg String.toList same
  unfold message at texts
  simp only [String.toList_append, List.append_assoc, List.append_cancel_left_eq] at texts
  obtain ⟨first, texts⟩ := number_inj (by decide) texts
  obtain ⟨second, texts⟩ := number_inj (by decide) texts
  obtain ⟨digest, texts⟩ := cut_inj (by decide) (whole firstDigest (by simp [digests]))
    (whole' firstDigest' (by simp [digests])) texts
  obtain ⟨digest', texts⟩ := cut_inj (by decide) (whole secondDigest (by simp [digests]))
    (whole' secondDigest' (by simp [digests])) texts
  refine ⟨first, second, String.toList_inj.mp digest, String.toList_inj.mp digest', ?_⟩
  unfold listsText
  rw [← String.toList_inj]
  simp only [← List.append_assoc, List.append_cancel_right_eq] at texts
  simpa only [String.toList_append] using texts

theorem commutativity_cases {permutation permutation' : Nat} {expected actual expected' actual' : String}
    (whole : (commutativity permutation expected actual).HasWholeDigests)
    (whole' : (commutativity permutation' expected' actual').HasWholeDigests)
    (same : (commutativity permutation expected actual).message =
      (commutativity permutation' expected' actual').message) :
    commutativity permutation expected actual = commutativity permutation' expected' actual' := by
  have texts := congrArg String.toList same
  unfold message at texts
  simp only [String.toList_append, List.append_assoc, List.append_cancel_left_eq] at texts
  obtain ⟨number, texts⟩ := number_inj (by decide) texts
  obtain ⟨digest, digest'⟩ := cut_inj (by decide) (whole actual (by simp [digests]))
    (whole' actual' (by simp [digests])) texts
  rw [number, String.toList_inj.mp digest, String.toList_inj.mp digest']

/-- Behind the atom there are too few blanks for the words to stand there once more. -/
theorem idempotence_words {before after : String} {rest : List Char} {middle : AtomId}
    (whole : (idempotence atom before after).HasWholeDigests) :
    before.toList ++ (" -> ".toList ++ (after.toList ++ ")".toList)) ≠
      middle.shown.toList ++ (" was not a no-op (".toList ++ rest) := by
  intro texts
  have blanks := congrArg (List.count ' ') texts
  have words : List.count ' ' " was not a no-op (".toList = 5 := by decide
  have arrow : List.count ' ' " -> ".toList = 2 := by decide
  have bracket : List.count ' ' ")".toList = 0 := by decide
  simp only [List.count_append, words, arrow, bracket,
    List.count_eq_zero_of_not_mem (whole before (by simp [digests])),
    List.count_eq_zero_of_not_mem (whole after (by simp [digests]))] at blanks
  omega

theorem idempotence_cases {atom atom' : AtomId} {before after before' after' : String}
    (whole : (idempotence atom before after).HasWholeDigests)
    (whole' : (idempotence atom' before' after').HasWholeDigests)
    (same : (idempotence atom before after).message = (idempotence atom' before' after').message) :
    idempotence atom before after = idempotence atom' before' after' := by
  have texts := congrArg String.toList same
  unfold message at texts
  simp only [String.toList_append, List.append_assoc, List.append_cancel_left_eq] at texts
  have bounds : AtomId.Bounds " was not a no-op (" := ⟨⟨' ', rfl, by decide⟩, by decide⟩
  rcases AtomId.shown_append_cases bounds bounds texts with
    ⟨rfl, rest⟩ | ⟨middle, _, rest⟩ | ⟨middle, _, rest⟩
  · obtain ⟨digest, rest⟩ := cut_inj (by decide) (whole before (by simp [digests]))
      (whole' before' (by simp [digests])) (List.append_cancel_left rest)
    rw [String.toList_inj.mp digest, String.toList_inj.mp (List.append_cancel_right rest)]
  · exact absurd rest (idempotence_words whole)
  · exact absurd rest (idempotence_words whole')

theorem causalOrder_cases {replica replica' : Nat} {atom cause atom' cause' : AtomId}
    (same : (causalOrder replica atom cause).message = (causalOrder replica' atom' cause').message) :
    causalOrder replica atom cause = causalOrder replica' atom' cause' ∨
      Reread (.causalOrder replica atom cause) (.causalOrder replica' atom' cause') ∨
      Reread (.causalOrder replica' atom' cause') (.causalOrder replica atom cause) := by
  have texts := congrArg String.toList ((String.append_left_inj _).mp same)
  simp only [String.toList_append, List.append_assoc, List.append_cancel_left_eq] at texts
  obtain ⟨rfl, pairs⟩ := number_inj (by decide) texts
  rcases AtomId.pair_cases ⟨⟨' ', rfl, by decide⟩, by decide⟩ pairs with ⟨rfl, rfl⟩ | reread | reread
  · exact .inl rfl
  · exact .inr (.inl (.causalOrder replica reread))
  · exact .inr (.inr (.causalOrder replica reread))

theorem contiguity_cases {replica replica' : Nat} {atom cause atom' cause' : AtomId}
    (same : (contiguity replica atom cause).message = (contiguity replica' atom' cause').message) :
    contiguity replica atom cause = contiguity replica' atom' cause' ∨
      Reread (.contiguity replica atom cause) (.contiguity replica' atom' cause') ∨
      Reread (.contiguity replica' atom' cause') (.contiguity replica atom cause) := by
  have texts := congrArg String.toList same
  unfold message at texts
  simp only [String.toList_append, List.append_assoc, List.append_cancel_left_eq] at texts
  obtain ⟨rfl, pairs⟩ := number_inj (by decide) texts
  rcases AtomId.pair_cases ⟨⟨' ', rfl, by decide⟩, by decide⟩ pairs with ⟨rfl, rfl⟩ | reread | reread
  · exact .inl rfl
  · exact .inr (.inl (.contiguity replica reread))
  · exact .inr (.inr (.contiguity replica reread))

theorem pendingNotDrained_cases {replica waiting replica' waiting' : Nat}
    (same : (pendingNotDrained replica waiting).message = (pendingNotDrained replica' waiting').message) :
    pendingNotDrained replica waiting = pendingNotDrained replica' waiting' := by
  have texts := congrArg String.toList same
  unfold message at texts
  simp only [String.toList_append, List.append_assoc, List.append_cancel_left_eq] at texts
  obtain ⟨number, texts⟩ := number_inj (by decide) texts
  have count := Nat.repr_injective (String.toList_inj.mp (List.append_cancel_right texts))
  rw [number, count]

theorem Reread.same_message {first second : Violation} (reread : Reread first second) :
    first.message = second.message := by
  cases reread with
  | causalOrder replica reread => exact congrArg (· ++ " before it") (append_same_text _ reread.same_text)
  | contiguity replica reread => exact append_same_text _ reread.same_text
  | convergence _ _ _ _ same => exact congrArg (· ++ ")") (append_same_text _ same)
  | emptyFirst _ _ _ _ _ same => exact congrArg (· ++ ")") (append_same_text _ same)

theorem message_eq_iff {first second : Violation} (whole : first.HasWholeDigests)
    (whole' : second.HasWholeDigests) : first.message = second.message ↔
      first = second ∨ Reread first second ∨ Reread second first := by
  constructor
  · intro same
    have letters : first.initials = second.initials := by
      rw [← take_message, ← take_message, same]
    cases first with
    | convergence number number' digest digest' onlyInFirst onlyInSecond =>
      cases second with
      | convergence =>
        obtain ⟨rfl, rfl, rfl, rfl, lists⟩ := convergence_cases whole whole' same
        rcases listsText_cases lists with
          ⟨rfl, rfl⟩ | entangled | ⟨id, ids, rfl, rfl, entangled⟩ | ⟨id, ids, rfl, rfl, entangled⟩
        · exact .inl rfl
        · exact .inr (.inl (.convergence number number' digest digest' lists entangled))
        · exact .inr (.inl (.emptyFirst number number' digest digest' id lists entangled))
        · exact .inr (.inr (.emptyFirst number number' digest digest' id lists.symm entangled))
      | _ => exact absurd letters (by simp [initials])
    | commutativity =>
      cases second with
      | commutativity => exact .inl (commutativity_cases whole whole' same)
      | _ => exact absurd letters (by simp [initials])
    | idempotence =>
      cases second with
      | idempotence => exact .inl (idempotence_cases whole whole' same)
      | _ => exact absurd letters (by simp [initials])
    | causalOrder =>
      cases second with
      | causalOrder => exact causalOrder_cases same
      | _ => exact absurd letters (by simp [initials])
    | contiguity =>
      cases second with
      | contiguity => exact contiguity_cases same
      | _ => exact absurd letters (by simp [initials])
    | pendingNotDrained =>
      cases second with
      | pendingNotDrained => exact .inl (pendingNotDrained_cases same)
      | _ => exact absurd letters (by simp [initials])
  · rintro (rfl | reread | reread)
    · rfl
    · exact reread.same_message
    · exact reread.same_message.symm

def ids : Violation → List AtomId
  | convergence _ _ _ _ onlyInFirst onlyInSecond => onlyInFirst ++ onlyInSecond
  | idempotence atom _ _ => [atom]
  | causalOrder _ atom cause | contiguity _ atom cause => [atom, cause]
  | commutativity _ _ _ | pendingNotDrained _ _ => []

theorem Reread.exists_not_bare {first second : Violation} (reread : Reread first second) :
    ∃ id ∈ first.ids ++ second.ids, ¬ id.site.Bare := by
  cases reread with
  | @causalOrder replica atom cause atom' cause' reread =>
    exact ⟨cause, by simp [ids], reread.not_bare.1⟩
  | @contiguity replica atom cause atom' cause' reread =>
    exact ⟨cause, by simp [ids], reread.not_bare.1⟩
  | convergence _ _ _ _ _ entangled => exact entangled.exists_not_bare
  | emptyFirst _ _ _ _ id _ entangled =>
    obtain ⟨other, present, marked⟩ := entangled.exists_not_bare
    rcases List.mem_append.mp present with inside | inside
    · exact ⟨other, by simp [ids, inside], marked⟩
    · rcases List.mem_cons.mp inside with rfl | inside
      · exact ⟨other.behind "], only_in_b=[", by simp [ids], AtomId.not_bare_behind_of_not_bare marked _⟩
      · exact ⟨other, by simp [ids, inside], marked⟩

/-- Where no site is named like an id, the message names the atoms. -/
theorem eq_of_message {first second : Violation} (whole : first.HasWholeDigests)
    (whole' : second.HasWholeDigests) (bare : ∀ id ∈ first.ids ++ second.ids, id.site.Bare)
    (same : first.message = second.message) : first = second := by
  rcases (message_eq_iff whole whole').mp same with equal | reread | reread
  · exact equal
  · obtain ⟨id, present, marked⟩ := reread.exists_not_bare
    exact absurd (bare id present) marked
  · obtain ⟨id, present, marked⟩ := reread.exists_not_bare
    exact absurd (bare id (by simpa [or_comm] using present)) marked

end Violation

end CausalWeave.Oracle
