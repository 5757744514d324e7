import CausalWeave.Proofs.Weave.Linearization

namespace CausalWeave.Weave

/-- No other atom is woven under the key of an atom, and the atom is not its own cause. -/
def Admissible (weave : Weave) (atom : Atom) : Prop :=
  (∀ other ∈ weave.toList, other.id.key ≠ atom.id.key) ∧ atom.cause ≠ some atom.id

namespace Sound

variable {weave : Weave} (sound : weave.Sound)

include sound

theorem exists_position {atom : Atom} (woven : atom ∈ weave.toList) :
    ∃ index, weave.position? atom.id = some index ∧ weave.toList[index]? = some atom := by
  obtain ⟨forest, holds⟩ := sound
  rw [holds.toList_eq] at woven ⊢
  obtain ⟨handle, member⟩ := Forest.mem_atoms.mp woven
  obtain ⟨_, _, index, _, stands, located⟩ := holds.locate?_of_mem member
  exact ⟨index, by simp [position?, located], by simp [Forest.atoms, stands]⟩

theorem isSome_position? (id : AtomId) : (weave.position? id).isSome = weave.contains id := by
  by_cases woven : weave.contains id = true
  · obtain ⟨atom, member, rfl⟩ := sound.contains_iff.mp woven
    obtain ⟨index, found, _⟩ := sound.exists_position member
    rw [found, woven]
    rfl
  · obtain ⟨forest, holds⟩ := sound
    have unknown : weave.locate? id = none := by
      apply holds.locate?_eq_none
      intro atom member same
      exact woven (holds.contains_iff.mpr ⟨atom, member, same⟩)
    rw [Bool.not_eq_true] at woven
    simp [position?, unknown, woven]

/-- Finding a position inverts the access by index. -/
theorem position?_eq_some_iff {id : AtomId} {index : Nat} :
    weave.position? id = some index ↔ ∃ atom, weave.toList[index]? = some atom ∧ atom.id = id := by
  constructor
  · intro found
    have woven : weave.contains id = true := by
      rw [← sound.isSome_position?, found]
      rfl
    obtain ⟨atom, member, rfl⟩ := sound.contains_iff.mp woven
    obtain ⟨place, here, stands⟩ := sound.exists_position member
    rw [found, Option.some.injEq] at here
    exact ⟨atom, here ▸ stands, rfl⟩
  · rintro ⟨atom, stands, rfl⟩
    obtain ⟨place, found, here⟩ := sound.exists_position (List.mem_of_getElem? stands)
    have inside : index < weave.toList.length := (List.getElem?_eq_some_iff.mp stands).1
    rw [found, (List.getElem?_inj inside sound.nodup_ids.of_map).mp (stands.trans here.symm)]

theorem of_inserted {atom : Atom} (inserted : weave.insert atom = .ok (.inserted position, later)) :
    later.Sound ∧ ∃ before after, weave.toList = before ++ after ∧ before.length = position ∧
      later.toList = before ++ atom :: after := by
  have attempt := sound.attempt atom
  rw [inserted] at attempt
  cases attempt with
  | inserted _ _ _ _ sound before after order placed =>
    exact ⟨sound, before, after, order, rfl, placed⟩

/-- An atom against which nothing stands is placed or handed back, as its cause is woven or not. -/
theorem admission (atom : Atom) :
    weave.Admissible atom ∧ (∀ cause ∈ atom.cause, weave.contains cause = true) ∧
        (∃ position later, weave.insert atom = .ok (.inserted position, later)) ∨
      weave.Admissible atom ∧ (∃ cause, atom.cause = some cause ∧ weave.contains cause = false) ∧
        weave.insert atom = .ok (.causeMissing, weave) ∨
      ¬ weave.Admissible atom ∧ (weave.insert atom = .ok (.alreadyPresent, weave) ∨
        ∃ why, weave.insert atom = .error why) := by
  have attempt := sound.attempt atom
  generalize weave.insert atom = result at attempt
  cases attempt with
  | selfCausation caused =>
    right; right
    exact ⟨fun admissible => admissible.2 caused, .inr ⟨_, rfl⟩⟩
  | identityCollision _ other woven key _ =>
    right; right
    exact ⟨fun admissible => admissible.1 other woven key, .inr ⟨_, rfl⟩⟩
  | alreadyPresent _ other woven same =>
    have key := congrArg AtomId.key (Atom.id_eq_of_same same)
    right; right
    exact ⟨fun admissible => admissible.1 other woven key, .inl rfl⟩
  | causeMissing apart fresh cause caused missing =>
    right; left
    exact ⟨⟨fresh, apart⟩, ⟨cause, caused, missing⟩, rfl⟩
  | inserted apart fresh causal =>
    left
    exact ⟨⟨fresh, apart⟩, causal, _, _, rfl⟩

theorem insert_eq_causeMissing_iff {atom : Atom} {later : Weave} :
    weave.insert atom = .ok (.causeMissing, later) ↔ later = weave ∧ weave.Admissible atom ∧
      ∃ cause, atom.cause = some cause ∧ weave.contains cause = false := by
  rcases sound.admission atom with
    ⟨_, causal, _, _, answer⟩ | ⟨admissible, missing, answer⟩ | ⟨refused, answer | ⟨_, answer⟩⟩
  · simp only [answer, Except.ok.injEq, Prod.mk.injEq, reduceCtorEq, false_and, false_iff]
    rintro ⟨_, _, cause, caused, missing⟩
    simp [causal cause caused] at missing
  · simp only [answer, Except.ok.injEq, Prod.mk.injEq, true_and]
    exact ⟨fun same => ⟨same.symm, admissible, missing⟩, fun known => known.1.symm⟩
  · simp [answer, refused]
  · simp [answer, refused]

theorem exists_inserted_iff {atom : Atom} :
    (∃ position later, weave.insert atom = .ok (.inserted position, later)) ↔
      weave.Admissible atom ∧ ∀ cause ∈ atom.cause, weave.contains cause = true := by
  rcases sound.admission atom with
    ⟨admissible, causal, placed⟩ | ⟨_, ⟨cause, caused, missing⟩, answer⟩ |
      ⟨refused, answer | ⟨_, answer⟩⟩
  · exact ⟨fun _ => ⟨admissible, causal⟩, fun _ => placed⟩
  · simp [answer, caused, missing]
  · simp [answer, refused]
  · simp [answer, refused]

end Sound

/-- What a weave answers about the place of an atom, and what an insertion answers by it. -/
structure Locates (weave : Weave) : Prop where
  found : ∀ id, (weave.position? id).isSome = weave.contains id
  woven : ∀ id, weave.contains id = true ↔ ∃ atom ∈ weave.toList, atom.id = id
  position : ∀ id index, weave.position? id = some index ↔
    ∃ atom, weave.toList[index]? = some atom ∧ atom.id = id
  missing : ∀ atom later, weave.insert atom = .ok (.causeMissing, later) ↔
    later = weave ∧ weave.Admissible atom ∧
      ∃ cause, atom.cause = some cause ∧ weave.contains cause = false
  placed : ∀ atom, (∃ position later, weave.insert atom = .ok (.inserted position, later)) ↔
    weave.Admissible atom ∧ ∀ cause ∈ atom.cause, weave.contains cause = true
  inserted : ∀ atom position later, weave.insert atom = .ok (.inserted position, later) →
    position ≤ weave.toList.length ∧ later.toList = weave.toList.insertIdx position atom ∧
      later.position? atom.id = some position

/-- Whatever calls have built a weave, its atoms are found where they stand, only atoms with a cause
that is not woven are handed back for it, and an insertion answers with the index of the new atom. An
observer does not change any answer. -/
theorem Session.positions_found [Observer σ] [Observer τ] (observer : σ) (calls : List Call) :
    let weave := (after observer calls).weave
    weave.Locates ∧ ∀ (listener : τ) atom,
      (weave.insertObserved listener atom).map (fun (placement, later, _) => (placement, later)) =
        weave.insert atom := by
  intro weave
  have sound : weave.Sound := (faithful_after observer calls).sound
  constructor
  · constructor
    case found => exact sound.isSome_position?
    case woven => exact fun _ => sound.contains_iff
    case position => exact fun _ _ => sound.position?_eq_some_iff
    case missing => exact fun _ _ => sound.insert_eq_causeMissing_iff
    case placed => exact fun _ => sound.exists_inserted_iff
    case inserted =>
      intro atom position later inserted
      obtain ⟨grown, before, after, order, rfl, placed⟩ := sound.of_inserted inserted
      refine ⟨by simp [order], by rw [placed, order, insertIdx_append], ?_⟩
      exact grown.position?_eq_some_iff.mpr ⟨atom, by simp [placed], rfl⟩
  · intro listener atom
    unfold insertObserved
    split <;> simp_all [Except.map]

end CausalWeave.Weave
