import CausalWeave.PendingBuffer
import CausalWeave.Proofs.Chains
import Mathlib.Data.List.Perm.Lattice

namespace CausalWeave.PendingBuffer

theorem mem_atoms {buffer : PendingBuffer} {atom : Atom} :
    atom ∈ buffer.atoms ↔ ∃ cause, atom ∈ buffer.bucket cause := by
  simp only [atoms, bucket, List.mem_flatMap, Std.HashMap.getD_eq_getD_getElem?]
  constructor
  · rintro ⟨⟨cause, held⟩, found, member⟩
    rw [Std.HashMap.mem_toList_iff_getElem?_eq_some] at found
    exact ⟨cause, by simpa [found] using member⟩
  · rintro ⟨cause, member⟩
    cases found : buffer.waiting[cause]? with
    | none => simp [found] at member
    | some held =>
      exact ⟨(cause, held), Std.HashMap.mem_toList_iff_getElem?_eq_some.mpr found,
        by simpa [found] using member⟩

theorem bucket_push (buffer : PendingBuffer) (cause : AtomId) (atom : Atom) (other : AtomId) :
    (buffer.push cause atom).bucket other =
      if cause = other then buffer.bucket other ++ [atom] else buffer.bucket other := by
  simp only [push, bucket, Std.HashMap.getD_insert, beq_iff_eq]
  split
  · rename_i same
    rw [same]
  · rfl

theorem bucket_take (buffer : PendingBuffer) (cause other : AtomId) :
    (buffer.take cause).2.bucket other = if cause = other then [] else buffer.bucket other := by
  simp only [take, bucket, Std.HashMap.getD_erase, beq_iff_eq]

private theorem getElem?_foldl_erase (taken : List Atom) (causes : Std.HashMap AtomId AtomId)
    (id : AtomId) :
    (taken.foldl (fun causes atom => causes.erase atom.id) causes)[id]? =
      if ∃ atom ∈ taken, atom.id = id then none else causes[id]? := by
  induction taken generalizing causes with
  | nil => simp
  | cons first rest ih =>
    rw [List.foldl_cons, ih, Std.HashMap.getElem?_erase]
    by_cases same : first.id = id
    · simp [same]
    · simp [same]

theorem causes_take (buffer : PendingBuffer) (cause id : AtomId) :
    (buffer.take cause).2.causes[id]? =
      if ∃ atom ∈ buffer.bucket cause, atom.id = id then none else buffer.causes[id]? :=
  getElem?_foldl_erase _ _ _

/-- Every atom waits in the bucket of its cause, which is not the atom itself, the table of causes
has all held atoms in it, each once, and nothing else, and no atom is counted twice or left out. -/
structure Sound (buffer : PendingBuffer) : Prop where
  caused : ∀ cause, ∀ atom ∈ buffer.bucket cause, atom.cause = some cause
  apart : ∀ atom ∈ buffer.atoms, atom.cause ≠ some atom.id
  distinct : (buffer.atoms.map (·.id)).Nodup
  registered : ∀ id cause, buffer.causes[id]? = some cause ↔ NamesCause buffer.atoms id cause
  size_eq : buffer.size = buffer.atoms.length

theorem sound_empty (limit : Option Nat) : Sound { limit } := by
  refine ⟨?_, ?_, ?_, ?_, ?_⟩ <;> simp [bucket, atoms, NamesCause]

namespace Sound

variable {buffer : PendingBuffer} (sound : buffer.Sound)

include sound

theorem mem_bucket {atom : Atom} {cause : AtomId} :
    atom ∈ buffer.bucket cause ↔ atom ∈ buffer.atoms ∧ atom.cause = some cause := by
  constructor
  · intro member
    exact ⟨mem_atoms.mpr ⟨cause, member⟩, sound.caused cause atom member⟩
  · rintro ⟨member, caused⟩
    obtain ⟨other, present⟩ := mem_atoms.mp member
    have same := (sound.caused other atom present).symm.trans caused
    rwa [Option.some.inj same] at present

theorem exists_cause {atom : Atom} (held : atom ∈ buffer.atoms) :
    ∃ cause, atom.cause = some cause := by
  obtain ⟨cause, member⟩ := mem_atoms.mp held
  exact ⟨cause, sound.caused cause atom member⟩

theorem eq_of_id {first second : Atom} (member : first ∈ buffer.atoms)
    (present : second ∈ buffer.atoms) (same : first.id = second.id) : first = second :=
  List.inj_on_of_nodup_map sound.distinct member present same

theorem contains_iff {id : AtomId} :
    buffer.contains id = true ↔ ∃ atom ∈ buffer.atoms, atom.id = id := by
  rw [contains, Std.HashMap.contains_eq_isSome_getElem?, Option.isSome_iff_exists]
  simp only [sound.registered]
  constructor
  · rintro ⟨cause, atom, member, same, _⟩
    exact ⟨atom, member, same⟩
  · rintro ⟨atom, member, same⟩
    obtain ⟨cause, caused⟩ := sound.exists_cause member
    exact ⟨cause, atom, member, same, caused⟩

theorem atoms_eq_nil (empty : buffer.size = 0) : buffer.atoms = [] := by
  rwa [sound.size_eq, List.length_eq_zero_iff] at empty

theorem push {atom : Atom} {cause : AtomId} (caused : atom.cause = some cause)
    (apart : cause ≠ atom.id) (fresh : ∀ other ∈ buffer.atoms, other.id ≠ atom.id) :
    (buffer.push cause atom).Sound := by
  have held := buffer.atoms_push_perm cause atom
  constructor
  case caused =>
    intro other member present
    rw [bucket_push] at present
    split at present
    · rename_i same
      rcases List.mem_append.mp present with old | new
      · exact sound.caused other member old
      · rw [List.mem_singleton.mp new, caused, same]
    · exact sound.caused other member present
  case apart =>
    intro other present
    rcases List.mem_cons.mp (held.mem_iff.mp present) with same | old
    · rw [same, caused]
      intro equal
      exact apart (Option.some.inj equal)
    · exact sound.apart other old
  case distinct =>
    rw [(held.map _).nodup_iff, List.map_cons, List.nodup_cons]
    refine ⟨?_, sound.distinct⟩
    intro taken
    obtain ⟨other, member, same⟩ := List.mem_map.mp taken
    exact fresh other member same
  case registered =>
    intro id other
    have names : NamesCause (buffer.push cause atom).atoms id other ↔
        atom.id = id ∧ atom.cause = some other ∨ NamesCause buffer.atoms id other := by
      simp [NamesCause, held.mem_iff]
    rw [names, ← sound.registered]
    simp only [PendingBuffer.push, Std.HashMap.getElem?_insert, beq_iff_eq]
    by_cases same : atom.id = id
    · have absent : buffer.causes[id]? ≠ some other := by
        intro found
        obtain ⟨waiting, member, equal, _⟩ := (sound.registered id other).mp found
        exact fresh waiting member (equal.trans same.symm)
      simp [same, caused, absent]
    · simp [same]
  case size_eq => rw [held.length_eq, List.length_cons, ← sound.size_eq, PendingBuffer.push]

theorem take (cause : AtomId) : (buffer.take cause).2.Sound := by
  have held := buffer.atoms_take_perm cause
  have remains : ∀ atom ∈ (buffer.take cause).2.atoms, atom ∈ buffer.atoms := by
    intro atom member
    exact held.mem_iff.mpr (List.mem_append_right _ member)
  have unique := sound.distinct
  rw [(held.map _).nodup_iff, List.map_append] at unique
  constructor
  case caused =>
    intro other atom present
    rw [bucket_take] at present
    split at present
    · simp at present
    · exact sound.caused other atom present
  case apart =>
    intro atom present
    exact sound.apart atom (remains atom present)
  case distinct => exact unique.of_append_right
  case registered =>
    intro id other
    rw [causes_take]
    split
    · rename_i taken
      obtain ⟨first, member, same⟩ := taken
      simp only [reduceCtorEq, false_iff]
      rintro ⟨second, present, equal, _⟩
      exact List.disjoint_of_nodup_append unique (List.mem_map.mpr ⟨first, member, same⟩)
        (List.mem_map.mpr ⟨second, present, equal⟩)
    · rename_i kept
      rw [sound.registered]
      constructor
      · rintro ⟨atom, member, same, names⟩
        rcases List.mem_append.mp (held.mem_iff.mp member) with taken | rest
        · exact absurd ⟨atom, taken, same⟩ kept
        · exact ⟨atom, rest, same, names⟩
      · rintro ⟨atom, member, same, names⟩
        exact ⟨atom, remains atom member, same, names⟩
  case size_eq =>
    have counted := held.length_eq
    rw [List.length_append, ← sound.size_eq] at counted
    simp only [PendingBuffer.take] at counted ⊢
    omega

theorem transGen_of_reaches {target current : AtomId}
    (reached : buffer.reaches target steps current = true) :
    Relation.TransGen (NamesCause buffer.atoms) current target := by
  induction steps generalizing current with
  | zero => simp [reaches] at reached
  | succ steps ih =>
    rw [reaches] at reached
    cases found : buffer.causes[current]? with
    | none => simp [found] at reached
    | some next =>
      have names := (sound.registered current next).mp found
      simp only [found, Bool.or_eq_true, beq_iff_eq] at reached
      rcases reached with here | later
      · exact .single (here ▸ names)
      · exact .head names (ih later)

section Acyclic

variable (acyclic : Acyclic buffer.atoms)

include acyclic

theorem reaches_of_descends {target current : AtomId}
    (enough : chainLength buffer.atoms current ≤ steps)
    (descends : Descends buffer.atoms current target) :
    buffer.reaches target steps current = true := by
  induction steps generalizing current with
  | zero =>
    obtain ⟨next, names, _⟩ := Relation.TransGen.head'_iff.mp descends
    have shorter := acyclic.chainLength_lt names
    omega
  | succ steps ih =>
    obtain ⟨next, names, further⟩ := Relation.TransGen.head'_iff.mp descends
    have shorter := acyclic.chainLength_lt names
    simp only [reaches, (sound.registered current next).mpr names, Bool.or_eq_true, beq_iff_eq]
    rcases Relation.reflTransGen_iff_eq_or_transGen.mp further with same | later
    · exact .inl same.symm
    · exact .inr (ih (by omega) later)

/-- Without cycles the bounded walk finds all to which the causes lead. -/
theorem leadsTo_iff {cause id : AtomId} :
    buffer.leadsTo cause id = true ↔ Descends buffer.atoms cause id := by
  constructor
  · exact sound.transGen_of_reaches
  · intro descends
    apply sound.reaches_of_descends acyclic _ descends
    rw [sound.size_eq]
    exact chainLength_le cause

end Acyclic
end Sound

/-- All that holding an atom back can come to. -/
inductive Answer (buffer : PendingBuffer) (atom : Atom) :
    Except Refusal (Bool × PendingBuffer) → Prop where
  | root (uncaused : atom.cause = none) : Answer buffer atom (.ok (false, buffer))
  | selfCausation (caused : atom.cause = some atom.id) :
      Answer buffer atom (.error (.selfCausation atom.id))
  | alreadyHeld (other : Atom) (held : other ∈ buffer.atoms) (same : other.same atom = true) :
      Answer buffer atom (.ok (false, buffer))
  | identityCollision (other : Atom) (held : other ∈ buffer.atoms) (id : other.id = atom.id)
      (different : other.same atom = false) :
      Answer buffer atom (.error (.identityCollision atom.id))
  | causalCycle (cause : AtomId) (caused : atom.cause = some cause)
      (fresh : ∀ other ∈ buffer.atoms, other.id ≠ atom.id)
      (cycle : buffer.leadsTo cause atom.id = true) :
      Answer buffer atom (.error (.causalCycle atom.id cause))
  | full (cause : AtomId) (caused : atom.cause = some cause)
      (fresh : ∀ other ∈ buffer.atoms, other.id ≠ atom.id)
      (acyclic : buffer.leadsTo cause atom.id = false) (limit : Nat)
      (bounded : buffer.limit = some limit) (reached : limit ≤ buffer.size) :
      Answer buffer atom (.error (.pendingBufferFull limit atom.id cause))
  | held (cause : AtomId) (caused : atom.cause = some cause) (apart : cause ≠ atom.id)
      (fresh : ∀ other ∈ buffer.atoms, other.id ≠ atom.id)
      (acyclic : buffer.leadsTo cause atom.id = false)
      (room : ∀ limit ∈ buffer.limit, buffer.size < limit) :
      Answer buffer atom (.ok (true, buffer.push cause atom))

/-- Holding an atom back does one of the seven things. -/
theorem Sound.answer {buffer : PendingBuffer} (sound : buffer.Sound) (atom : Atom) :
    buffer.Answer atom (buffer.hold atom) := by
  cases caused : atom.cause with
  | none =>
    have root : buffer.Answer atom (.ok (false, buffer)) := .root caused
    simpa [hold, caused] using root
  | some cause =>
    simp only [hold, caused]
    by_cases apart : cause = atom.id
    · have circular : buffer.Answer atom (.error (.selfCausation atom.id)) :=
        .selfCausation (apart ▸ caused)
      simpa [apart] using circular
    simp only [apart, if_false]
    by_cases known : buffer.contains atom.id = true
    · obtain ⟨other, held, id⟩ := sound.contains_iff.mp known
      cases same : other.same atom with
      | true =>
        have here : other ∈ buffer.bucket cause :=
          sound.mem_bucket.mpr ⟨held, (Atom.cause_eq_of_same same).trans caused⟩
        have some_same : (buffer.bucket cause).any (·.same atom) = true :=
          List.any_eq_true.mpr ⟨other, here, same⟩
        simpa [known, some_same] using Answer.alreadyHeld other held same
      | false =>
        have none_same : (buffer.bucket cause).any (·.same atom) = false := by
          rw [List.any_eq_false]
          intro third present agree
          have inside := (sound.mem_bucket.mp present).1
          have equal := sound.eq_of_id inside held ((Atom.id_eq_of_same agree).trans id.symm)
          simp [equal ▸ agree] at same
        simpa [known, none_same] using Answer.identityCollision other held id same
    have fresh : ∀ other ∈ buffer.atoms, other.id ≠ atom.id := by
      intro other held id
      exact known (sound.contains_iff.mpr ⟨other, held, id⟩)
    simp only [Bool.not_eq_true] at known
    cases cycle : buffer.leadsTo cause atom.id with
    | true => simpa [known] using Answer.causalCycle cause caused fresh cycle
    | false =>
      cases reached : buffer.limit.filter (· ≤ buffer.size) with
      | none =>
        have room : ∀ limit ∈ buffer.limit, buffer.size < limit := by
          intro limit bounded
          simpa using Option.filter_eq_none_iff.mp reached limit bounded
        simpa [known] using Answer.held cause caused apart fresh cycle room
      | some limit =>
        obtain ⟨bounded, filled⟩ := Option.filter_eq_some_iff.mp reached
        simpa [known] using Answer.full cause caused fresh cycle limit bounded (by simpa using filled)

/-- A second delivery is recognized wherever the first one waits. -/
theorem Sound.hold_eq_false_iff {buffer : PendingBuffer} (sound : buffer.Sound) {atom : Atom}
    (caused : atom.cause = some cause) (apart : cause ≠ atom.id) :
    (∃ later, buffer.hold atom = .ok (false, later)) ↔ ∃ other ∈ buffer.atoms, other.same atom = true := by
  have answer := sound.answer atom
  have taken : ∀ other ∈ buffer.atoms, other.same atom = true →
      ¬ ∀ third ∈ buffer.atoms, third.id ≠ atom.id := by
    intro other held same fresh
    exact fresh other held (Atom.id_eq_of_same same)
  generalize buffer.hold atom = answered at answer
  cases answer with
  | root uncaused => simp [caused] at uncaused
  | selfCausation circular =>
    rw [caused, Option.some.injEq] at circular
    exact absurd circular apart
  | alreadyHeld other held same => simpa using ⟨other, held, same⟩
  | identityCollision other held id different =>
    simp only [reduceCtorEq, exists_false, false_iff]
    rintro ⟨third, present, same⟩
    rw [sound.eq_of_id present held ((Atom.id_eq_of_same same).trans id.symm), different] at same
    simp at same
  | causalCycle _ _ fresh _ =>
    simp only [reduceCtorEq, exists_false, false_iff]
    rintro ⟨other, held, same⟩
    exact taken other held same fresh
  | full _ _ fresh _ _ _ _ =>
    simp only [reduceCtorEq, exists_false, false_iff]
    rintro ⟨other, held, same⟩
    exact taken other held same fresh
  | held _ _ _ fresh _ _ =>
    simp only [Except.ok.injEq, Prod.mk.injEq, Bool.true_eq_false, false_and, exists_false, false_iff]
    rintro ⟨other, held, same⟩
    exact taken other held same fresh

/-- An atom that must wait collides with a held one of another content under its id. -/
theorem Sound.hold_eq_collision_iff {buffer : PendingBuffer} (sound : buffer.Sound)
    {atom : Atom} (caused : atom.cause = some cause) (apart : cause ≠ atom.id) :
    buffer.hold atom = .error (.identityCollision atom.id) ↔
      ∃ other ∈ buffer.atoms, other.id = atom.id ∧ other.same atom = false := by
  have answer := sound.answer atom
  generalize buffer.hold atom = answered at answer
  cases answer with
  | root uncaused => simp [caused] at uncaused
  | selfCausation circular =>
    rw [caused, Option.some.injEq] at circular
    exact absurd circular apart
  | alreadyHeld other held same =>
    simp only [reduceCtorEq, false_iff]
    rintro ⟨third, present, id, different⟩
    have equal := sound.eq_of_id held present ((Atom.id_eq_of_same same).trans id.symm)
    simp [← equal, same] at different
  | identityCollision other held id different => simpa using ⟨other, held, id, different⟩
  | causalCycle _ _ fresh _ =>
    simp only [Except.error.injEq, reduceCtorEq, false_iff]
    rintro ⟨other, held, id, _⟩
    exact fresh other held id
  | full _ _ fresh _ _ _ _ =>
    simp only [Except.error.injEq, reduceCtorEq, false_iff]
    rintro ⟨other, held, id, _⟩
    exact fresh other held id
  | held _ _ _ fresh _ _ =>
    simp only [reduceCtorEq, false_iff]
    rintro ⟨other, held, id, _⟩
    exact fresh other held id

/-- An atom is held back if none has its id, none waits for it and there is room. -/
theorem Sound.hold_of_unheld {buffer : PendingBuffer} (sound : buffer.Sound) {atom : Atom}
    (caused : atom.cause = some cause) (apart : cause ≠ atom.id)
    (unheld : ∀ other ∈ buffer.atoms, other.id ≠ atom.id ∧ other.cause ≠ some atom.id)
    (room : ∀ limit ∈ buffer.limit, buffer.atoms.length < limit) :
    buffer.hold atom = .ok (true, buffer.push cause atom) := by
  have answer := sound.answer atom
  generalize buffer.hold atom = answered at answer
  cases answer with
  | root uncaused => simp [caused] at uncaused
  | selfCausation circular =>
    rw [caused, Option.some.injEq] at circular
    exact absurd circular apart
  | alreadyHeld other held same => exact absurd (Atom.id_eq_of_same same) (unheld other held).1
  | identityCollision other held id => exact absurd id (unheld other held).1
  | causalCycle _ _ _ cycle =>
    obtain ⟨_, _, other, held, _, awaits⟩ :=
      Relation.TransGen.tail'_iff.mp (sound.transGen_of_reaches cycle)
    exact absurd awaits (unheld other held).2
  | full _ _ _ _ limit bounded reached =>
    have free := room limit bounded
    rw [sound.size_eq] at reached
    omega
  | held named caused' =>
    rw [caused, Option.some.injEq] at caused'
    rw [← caused']

end CausalWeave.PendingBuffer
