import CausalWeave.Proofs.AtomId.Shown
import CausalWeave.Refusal

namespace CausalWeave.Refusal

/-- Two refusals with one message. That of a cycle has the refused id at both ends, so that one id both begins
and ends with the other. -/
inductive Reread : Refusal → Refusal → Prop where
  | full (limit : Nat) {id cause other cause' : AtomId}
    (reread : AtomId.Reread " waiting on " (id, cause) (other, cause')) :
    Reread (.pendingBufferFull limit id cause) (.pendingBufferFull limit other cause')
  | cycle (first middle last next : AtomId)
    (around : first.shown ++ " waits on " ++ middle.shown =
      next.shown ++ ", which already waits on " ++ first.shown) :
    Reread
      (.causalCycle first
        ((next.behind (last.shown ++ ", which already waits on ")).behind (middle.shown ++ " waits on ")))
      (.causalCycle (middle.behind (first.shown ++ " waits on ")) last)

private theorem bounds_waits : AtomId.Bounds " waits on " := ⟨⟨' ', rfl, by decide⟩, by decide⟩

private theorem bounds_already : AtomId.Bounds ", which already waits on " :=
  ⟨⟨',', rfl, by decide⟩, by decide⟩

private theorem bounds_waiting : AtomId.Bounds " waiting on " := ⟨⟨' ', rfl, by decide⟩, by decide⟩

theorem reread_cycle {first middle cause last : AtomId}
    (causes : cause.shown.toList ++ (", which already waits on ".toList ++ first.shown.toList) =
      middle.shown.toList ++ (" waits on ".toList ++ (last.shown.toList ++
        (", which already waits on ".toList ++ (middle.behind (first.shown ++ " waits on ")).shown.toList)))) :
    Reread (.causalCycle first cause) (.causalCycle (middle.behind (first.shown ++ " waits on ")) last) := by
  -- The id at the end of the one text is a part of the id at the end of the other.
  have ends : ∀ front, first.shown.toList ≠
      front ++ (middle.behind (first.shown ++ " waits on ")).shown.toList := by
    intro front same
    have sizes := congrArg List.length same
    have words : 0 < " waits on ".length := by decide
    simp only [AtomId.behind_shown, String.toList_append, List.length_append, String.length_toList] at sizes
    omega
  rcases AtomId.shown_append_cases bounds_already bounds_waits causes with
    ⟨_, words⟩ | ⟨_, _, short⟩ | ⟨inner, rfl, rest⟩
  · injection words with comma
    exact absurd comma (by decide)
  · simp only [← List.append_assoc] at short
    exact absurd short (ends _)
  rcases AtomId.shown_append_cases bounds_already bounds_already rest with
    ⟨_, words⟩ | ⟨next, rfl, around⟩ | ⟨_, _, short⟩
  · exact absurd (List.append_cancel_left words).symm (ends [])
  · refine .cycle first middle last next ?_
    rw [AtomId.behind_shown] at around
    simpa only [← String.toList_inj, String.toList_append, List.append_assoc] using around
  · simp only [← List.append_assoc] at short
    exact absurd short (ends _)

theorem cycle_cases {id cause other cause' : AtomId}
    (same : (causalCycle id cause).message = (causalCycle other cause').message) :
    (id = other ∧ cause = cause') ∨ Reread (.causalCycle id cause) (.causalCycle other cause') ∨
      Reread (.causalCycle other cause') (.causalCycle id cause) := by
  have texts := congrArg String.toList same
  unfold message at texts
  simp only [String.toList_append, List.append_assoc, List.append_cancel_left_eq] at texts
  rcases AtomId.shown_append_cases bounds_waits bounds_waits texts with
    ⟨rfl, causes⟩ | ⟨middle, rfl, rest⟩ | ⟨middle, rfl, rest⟩
  · have shown := List.append_cancel_right (List.append_cancel_left causes)
    exact .inl ⟨rfl, AtomId.shown_injective (String.toList_inj.mp shown)⟩
  · exact .inr (.inl (reread_cycle rest))
  · exact .inr (.inr (reread_cycle rest))

theorem Reread.same_message {first second : Refusal} (reread : Reread first second) :
    first.message = second.message := by
  cases reread with
  | full limit reread => exact append_same_text _ reread.same_text
  | cycle first middle last next around =>
    have texts := congrArg String.toList around
    simp only [String.toList_append, List.append_assoc] at texts
    rw [← String.toList_inj]
    unfold message
    simp only [AtomId.behind_shown, String.toList_append, List.append_assoc]
    rw [texts]

def initial : Refusal → Char
  | identityCollision _ => 'i'
  | selfCausation _ | causalCycle _ _ => 'a'
  | clockExhausted _ => 'l'
  | pendingBufferFull _ _ _ => 'p'

theorem head?_message (refusal : Refusal) : refusal.message.toList.head? = some refusal.initial := by
  cases refusal <;>
    (unfold message; simp only [String.toList_append, List.append_assoc]; rfl)

theorem selfCausation_ne_causalCycle (itself id cause : AtomId) :
    (selfCausation itself).message ≠ (causalCycle id cause).message := by
  intro same
  have ends := congrArg (fun text => text.toList.getLast?) same
  unfold message at ends
  obtain ⟨mark, number, last⟩ := id.exists_getLast?_shown
  have letter : " names itself as its cause".toList.getLast? = some 'e' := by decide
  simp only [String.toList_append, List.getLast?_append, last, letter, Option.some_or,
    Option.some.injEq] at ends
  subst ends
  rcases List.mem_cons.mp number with separator | number
  · exact absurd separator (by decide)
  · exact absurd (AtomId.mem_shownNumbers number) (by decide)

theorem full_cases {limit limit' : Nat} {id cause other cause' : AtomId}
    (same : (pendingBufferFull limit id cause).message = (pendingBufferFull limit' other cause').message) :
    pendingBufferFull limit id cause = pendingBufferFull limit' other cause' ∨
      Reread (.pendingBufferFull limit id cause) (.pendingBufferFull limit' other cause') ∨
      Reread (.pendingBufferFull limit' other cause') (.pendingBufferFull limit id cause) := by
  have texts := congrArg String.toList same
  unfold message at texts
  simp only [String.toList_append, List.append_assoc, List.append_cancel_left_eq] at texts
  obtain ⟨rfl, pairs⟩ := number_inj (by decide) texts
  rcases AtomId.pair_cases bounds_waiting pairs with ⟨rfl, rfl⟩ | reread | reread
  · exact .inl rfl
  · exact .inr (.inl (.full limit reread))
  · exact .inr (.inr (.full limit reread))

theorem message_eq_iff (first second : Refusal) : first.message = second.message ↔
    first = second ∨ Reread first second ∨ Reread second first := by
  constructor
  · intro same
    have letters : first.initial = second.initial := by
      rw [← Option.some.injEq, ← head?_message, ← head?_message, same]
    cases first with
    | identityCollision id =>
      cases second with
      | identityCollision other =>
        rw [AtomId.shown_injective ((String.append_right_inj _).mp same)]
        exact .inl rfl
      | _ => exact absurd letters (by simp [initial])
    | selfCausation id =>
      cases second with
      | selfCausation other =>
        have shown := (String.append_right_inj _).mp ((String.append_left_inj _).mp same)
        rw [AtomId.shown_injective shown]
        exact .inl rfl
      | causalCycle other cause => exact absurd same (selfCausation_ne_causalCycle id other cause)
      | _ => exact absurd letters (by simp [initial])
    | causalCycle id cause =>
      cases second with
      | selfCausation other => exact absurd same.symm (selfCausation_ne_causalCycle other id cause)
      | causalCycle other cause' =>
        rcases cycle_cases same with ⟨rfl, rfl⟩ | reread
        · exact .inl rfl
        · exact .inr reread
      | _ => exact absurd letters (by simp [initial])
    | clockExhausted site =>
      cases second with
      | clockExhausted other =>
        have name := (String.append_right_inj _).mp ((String.append_left_inj _).mp same)
        exact .inl (congrArg clockExhausted (congrArg Site.mk name))
      | _ => exact absurd letters (by simp [initial])
    | pendingBufferFull limit id cause =>
      cases second with
      | pendingBufferFull limit' other cause' => exact full_cases same
      | _ => exact absurd letters (by simp [initial])
  · rintro (rfl | reread | reread)
    · rfl
    · exact reread.same_message
    · exact reread.same_message.symm

def ids : Refusal → List AtomId
  | identityCollision id | selfCausation id => [id]
  | causalCycle id cause | pendingBufferFull _ id cause => [id, cause]
  | clockExhausted _ => []

theorem Reread.exists_not_bare {first second : Refusal} (reread : Reread first second) :
    (∃ id ∈ first.ids, ¬ id.site.Bare) ∧ ∃ id ∈ second.ids, ¬ id.site.Bare := by
  cases reread with
  | @full limit id cause other cause' reread =>
    exact ⟨⟨cause, by simp [ids], reread.not_bare.1⟩, other, by simp [ids], reread.not_bare.2⟩
  | cycle first middle last next =>
    exact ⟨⟨_, List.mem_cons_of_mem _ (List.mem_singleton_self _), AtomId.not_bare_behind⟩,
      _, List.mem_cons_self, AtomId.not_bare_behind⟩

/-- Where no site is named like an id, the message names the atoms. -/
theorem eq_of_message {first second : Refusal} (bare : ∀ id ∈ first.ids, id.site.Bare)
    (same : first.message = second.message) : first = second := by
  rcases (message_eq_iff first second).mp same with equal | reread | reread
  · exact equal
  · obtain ⟨id, present, marked⟩ := reread.exists_not_bare.1
    exact absurd (bare id present) marked
  · obtain ⟨id, present, marked⟩ := reread.exists_not_bare.2
    exact absurd (bare id present) marked

end CausalWeave.Refusal
