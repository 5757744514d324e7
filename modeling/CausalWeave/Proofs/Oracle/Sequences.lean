import CausalWeave.Oracle
import CausalWeave.Proofs.Weave.Subtree

namespace CausalWeave.Oracle

open CausalWeave.Simulation (Snapshot)

private theorem lastIndexFrom?_eq_none {id : AtomId} {atoms : List Atom}
    (absent : ∀ atom ∈ atoms, atom.id ≠ id) (index : Nat) : lastIndexFrom? id index atoms = none := by
  induction atoms generalizing index with
  | nil => rfl
  | cons atom rest ih =>
    have later := ih (fun other member => absent other (by simp [member])) (index + 1)
    simp [lastIndexFrom?, later, absent atom (by simp)]

theorem lastIndexFrom?_of_append {before after : List Atom} {atom : Atom}
    (last : ∀ other ∈ after, other.id ≠ atom.id) (index : Nat) :
    lastIndexFrom? atom.id index (before ++ atom :: after) = some (index + before.length) := by
  induction before generalizing index with
  | nil => simp [lastIndexFrom?, lastIndexFrom?_eq_none last]
  | cons first rest ih =>
    rw [List.cons_append, lastIndexFrom?, ih]
    simp only [List.length_cons, Option.some.injEq]
    omega

private theorem append_of_getElem? {items : List α} (found : items[index]? = some item) :
    ∃ before after, items = before ++ item :: after ∧ before.length = index := by
  obtain ⟨inside, rfl⟩ := List.getElem?_eq_some_iff.mp found
  refine ⟨items.take index, items.drop (index + 1), ?_, by simp; omega⟩
  rw [← List.drop_eq_getElem_cons inside, List.take_append_drop]

/-- Where every cause stands before its effects, the check of causes finds nothing. -/
theorem causalityOf_eq_nil {snapshot : Snapshot} (distinct : (snapshot.sequence.map (·.id)).Nodup)
    (causal : ∀ before atom after, snapshot.sequence = before ++ atom :: after →
      ∀ cause ∈ atom.cause, ∃ parent ∈ before, parent.id = cause) : causalityOf snapshot = [] := by
  rw [causalityOf, List.filterMap_eq_nil_iff]
  rintro ⟨atom, index⟩ member
  have found : snapshot.sequence[index]? = some atom := List.mem_zipIdx_iff_getElem?.mp member
  cases caused : atom.cause with
  | none => simp [caused]
  | some cause =>
    obtain ⟨before, after, order, length⟩ := append_of_getElem? found
    obtain ⟨parent, present, rfl⟩ := causal before atom after order cause caused
    obtain ⟨first, second, rfl⟩ := List.append_of_mem present
    have stands : snapshot.sequence = first ++ parent :: (second ++ atom :: after) := by
      simpa using order
    rw [stands, List.map_append, List.map_cons] at distinct
    have last : ∀ other ∈ second ++ atom :: after, other.id ≠ parent.id := by
      intro other later equal
      have apart := (List.nodup_cons.mp distinct.of_append_right).1
      exact apart (equal ▸ List.mem_map.mpr ⟨other, later, rfl⟩)
    have position : lastIndexFrom? parent.id 0 snapshot.sequence = some (0 + first.length) := by
      rw [stands]
      exact lastIndexFrom?_of_append last 0
    have sooner : first.length < index := by
      rw [← length, List.length_append, List.length_cons]
      omega
    simp [caused, position, sooner]

/-- An atom with the id stands in the part, and all that follows it there descends from it. -/
def OpenAfter (atoms part : List Atom) (id : AtomId) : Prop :=
  ∃ outside parent below, part = outside ++ parent :: below ∧ parent.id = id ∧
    ∀ other ∈ below, Descends atoms other.id id

/-- The cause of every atom comes before it, and all that stands in between descends from the cause. -/
def Contiguous (sequence : List Atom) : Prop :=
  ∀ before atom after, sequence = before ++ atom :: after → ∀ cause ∈ atom.cause,
    OpenAfter sequence before cause

theorem OpenAfter.exists_mem {atoms part : List Atom} {id : AtomId} (opened : OpenAfter atoms part id) :
    ∃ parent ∈ part, parent.id = id := by
  obtain ⟨outside, parent, below, rfl, same, _⟩ := opened
  exact ⟨parent, by simp, same⟩

/-- One more atom is open itself and leaves open what it descends from. -/
theorem openAfter_concat {atoms part : List Atom} {atom : Atom} {id : AtomId} :
    OpenAfter atoms (part ++ [atom]) id ↔
      id = atom.id ∨ OpenAfter atoms part id ∧ Descends atoms atom.id id := by
  constructor
  · rintro ⟨outside, parent, below, split, same, descends⟩
    rcases List.eq_nil_or_concat' below with rfl | ⟨below, last, rfl⟩
    · obtain ⟨_, here⟩ := List.append_inj' split rfl
      rw [List.singleton_inj] at here
      exact .inl (by rw [← same, here])
    · rw [← List.cons_append, ← List.append_assoc] at split
      obtain ⟨earlier, here⟩ := List.append_inj' split rfl
      rw [List.singleton_inj] at here
      refine .inr ⟨⟨outside, parent, below, earlier, same, ?_⟩, ?_⟩
      · exact fun other member => descends other (List.mem_append_left _ member)
      · exact descends atom (by simp [here])
  · rintro (rfl | ⟨⟨outside, parent, below, rfl, same, descends⟩, further⟩)
    · exact ⟨part, atom, [], rfl, rfl, by simp⟩
    · refine ⟨outside, parent, below ++ [atom], by simp, same, ?_⟩
      intro other member
      rcases List.mem_append.mp member with earlier | last
      · exact descends other earlier
      · rw [List.mem_singleton.mp last]
        exact further

/-- Where the walk stands after a part in which it has found nothing wrong. The open ids descend one from
the next. -/
structure Walked (atoms part : List Atom) (ancestors : List AtomId) : Prop where
  rooted : ∀ atom ∈ part, Rooted atoms atom
  mem_iff : ∀ id, id ∈ ancestors ↔ OpenAfter atoms part id
  nested : ancestors.Pairwise fun inner outer => Descends atoms inner outer

theorem walked_nil (atoms : List Atom) : Walked atoms [] [] where
  rooted := by simp
  mem_iff id := by simp [OpenAfter]
  nested := .nil

section Step

variable {atoms : List Atom} (distinct : (atoms.map (·.id)).Nodup) {atom : Atom} (member : atom ∈ atoms)

include distinct member

/-- An atom descends from its cause and from what the cause descends from. -/
theorem descends_iff {id : AtomId} :
    Descends atoms atom.id id ↔ ∃ cause ∈ atom.cause, cause = id ∨ Descends atoms cause id := by
  rw [Descends, Relation.TransGen.head'_iff]
  constructor
  · rintro ⟨cause, names, further⟩
    refine ⟨cause, names.cause_eq distinct member rfl, ?_⟩
    rcases Relation.reflTransGen_iff_eq_or_transGen.mp further with same | descends
    · exact .inl same.symm
    · exact .inr descends
  · rintro ⟨cause, caused, further⟩
    refine ⟨cause, ⟨atom, member, rfl, caused⟩, ?_⟩
    rcases further with rfl | descends
    · exact .refl
    · exact descends.to_reflTransGen

namespace Walked

variable {part : List Atom}

theorem root (walked : Walked atoms part ancestors) (uncaused : atom.cause = none) :
    Walked atoms (part ++ [atom]) [atom.id] where
  rooted other present := by
    rcases List.mem_append.mp present with earlier | last
    · exact walked.rooted other earlier
    · rw [List.mem_singleton.mp last]
      exact .root member uncaused
  mem_iff id := by
    rw [openAfter_concat, descends_iff distinct member]
    simp [uncaused]
  nested := List.pairwise_singleton ..

/-- An atom ends the subtrees inside that of its cause. -/
theorem effect {inner outer : List AtomId} (walked : Walked atoms part (inner ++ cause :: outer))
    (caused : atom.cause = some cause) : Walked atoms (part ++ [atom]) (atom.id :: cause :: outer) := by
  obtain ⟨_, within, crossing⟩ := List.pairwise_append.mp walked.nested
  have beyond := (List.pairwise_cons.mp within).1
  obtain ⟨parent, before, rfl⟩ := ((walked.mem_iff cause).mp (by simp)).exists_mem
  have parent_rooted := walked.rooted parent before
  have descends : ∀ {id}, Descends atoms atom.id id ↔ parent.id = id ∨ Descends atoms parent.id id := by
    intro id
    simp [descends_iff distinct member, caused]
  constructor
  case rooted =>
    intro other present
    rcases List.mem_append.mp present with earlier | last
    · exact walked.rooted other earlier
    · rw [List.mem_singleton.mp last]
      exact .effect parent_rooted member caused
  case mem_iff =>
    intro id
    rw [openAfter_concat, ← walked.mem_iff, descends]
    constructor
    · simp only [List.mem_cons]
      rintro (here | rfl | outside)
      · exact .inl here
      · exact .inr ⟨by simp, .inl rfl⟩
      · exact .inr ⟨by simp [outside], .inr (beyond id outside)⟩
    · rintro (here | ⟨opened, above⟩)
      · simp [here]
      · rcases List.mem_append.mp opened with inside | kept
        · -- What is open inside descends from the cause, so the cause does not descend from it.
          have below := crossing id inside parent.id (by simp)
          refine absurd ?_ (parent_rooted.not_onCycle distinct)
          rcases above with rfl | above
          · exact below
          · exact above.trans below
        · exact List.mem_cons_of_mem _ kept
  case nested =>
    apply List.pairwise_cons.mpr ⟨?_, within⟩
    intro id opened
    rw [descends]
    rcases List.mem_cons.mp opened with rfl | outside
    · exact .inl rfl
    · exact .inr (beyond id outside)

end Walked
end Step

private theorem dropWhile_cases (ancestors : List AtomId) (cause : AtomId) :
    (cause ∉ ancestors ∧ ancestors.dropWhile (· != cause) = []) ∨
      ∃ inner outer, ancestors = inner ++ cause :: outer ∧
        ancestors.dropWhile (· != cause) = cause :: outer := by
  induction ancestors with
  | nil => exact .inl ⟨List.not_mem_nil, rfl⟩
  | cons id rest ih =>
    by_cases here : id = cause
    · exact .inr ⟨[], rest, by simp [here], by simp [here]⟩
    · rcases ih with ⟨absent, none⟩ | ⟨inner, outer, rfl, found⟩
      · exact .inl ⟨by simp [Ne.symm here, absent], by simpa [here] using none⟩
      · exact .inr ⟨id :: inner, outer, rfl, by simpa [here] using found⟩

private theorem forall_split_cons {holds : List Atom → Atom → Prop} {first : Atom} {rest : List Atom} :
    (∀ before atom after, first :: rest = before ++ atom :: after → holds before atom) ↔
      holds [] first ∧
        ∀ before atom after, rest = before ++ atom :: after → holds (first :: before) atom := by
  constructor
  · intro all
    refine ⟨all [] first rest rfl, ?_⟩
    rintro before atom after rfl
    exact all (first :: before) atom after rfl
  · rintro ⟨here, later⟩ before atom after split
    cases before with
    | nil =>
      obtain ⟨rfl, _⟩ := List.cons.inj split
      exact here
    | cons head before =>
      rw [List.cons_append, List.cons.injEq] at split
      rw [← split.1]
      exact later before atom after split.2

/-- The walk through the rest finds nothing wrong just when the cause of each atom is open there. -/
theorem Walked.contiguityFrom_eq_nil_iff {atoms part rest : List Atom} {ancestors : List AtomId}
    (distinct : (atoms.map (·.id)).Nodup) (order : atoms = part ++ rest)
    (walked : Walked atoms part ancestors) (replica : Nat) :
    contiguityFrom replica ancestors rest = [] ↔
      ∀ before atom after, rest = before ++ atom :: after → ∀ cause ∈ atom.cause,
        OpenAfter atoms (part ++ before) cause := by
  induction rest generalizing part ancestors with
  | nil => simp [contiguityFrom]
  | cons atom rest ih =>
    have member : atom ∈ atoms := by simp [order]
    have further : ∀ {ancestors}, Walked atoms (part ++ [atom]) ancestors →
        (contiguityFrom replica ancestors rest = [] ↔
          ∀ before other after, rest = before ++ other :: after → ∀ cause ∈ other.cause,
            OpenAfter atoms (part ++ atom :: before) cause) := by
      intro ancestors walked
      simpa using ih (by simp [order]) walked
    rw [forall_split_cons, contiguityFrom, List.append_nil]
    cases caused : atom.cause with
    | none => simpa using further (walked.root distinct member caused)
    | some cause =>
      rcases dropWhile_cases ancestors cause with ⟨absent, none⟩ | ⟨inner, outer, rfl, found⟩
      · simp [none, ← walked.mem_iff, absent]
      · simpa [found, ← walked.mem_iff] using further (walked.effect distinct member caused)

theorem contiguityFrom_eq_nil_iff {sequence : List Atom} (distinct : (sequence.map (·.id)).Nodup)
    (replica : Nat) : contiguityFrom replica [] sequence = [] ↔ Contiguous sequence :=
  (walked_nil sequence).contiguityFrom_eq_nil_iff distinct rfl replica

theorem Contiguous.causal {sequence : List Atom} (contiguous : Contiguous sequence) :
    ∀ before atom after, sequence = before ++ atom :: after →
      ∀ cause ∈ atom.cause, ∃ parent ∈ before, parent.id = cause :=
  fun before atom after split cause caused =>
    (contiguous before atom after split cause caused).exists_mem

theorem contiguity_eq_nil_iff {states : List Snapshot}
    (distinct : ∀ state ∈ states, (state.sequence.map (·.id)).Nodup) :
    contiguity states = [] ↔ ∀ state ∈ states, Contiguous state.sequence := by
  rw [contiguity, List.flatMap_eq_nil_iff]
  exact forall₂_congr fun state member => contiguityFrom_eq_nil_iff (distinct state member) state.number

theorem causality_eq_nil {states : List Snapshot}
    (distinct : ∀ state ∈ states, (state.sequence.map (·.id)).Nodup)
    (contiguous : ∀ state ∈ states, Contiguous state.sequence) : causality states = [] := by
  rw [causality, List.flatMap_eq_nil_iff]
  intro state member
  exact causalityOf_eq_nil (distinct state member) (contiguous state member).causal

/-- The check of subtrees passes sequences just when each cause comes before its effects with nothing but
its descendants in between, and then the check of causes passes them, too. -/
theorem contiguity_decides {states : List Snapshot}
    (distinct : ∀ state ∈ states, (state.sequence.map (·.id)).Nodup) :
    (∀ state ∈ states, contiguity [state] = [] ↔ Contiguous state.sequence) ∧
      (contiguity states = [] ↔ ∀ state ∈ states, Contiguous state.sequence) ∧
      (contiguity states = [] → causality states = []) := by
  have together := contiguity_eq_nil_iff distinct
  refine ⟨?alone, together, fun passes => causality_eq_nil distinct (together.mp passes)⟩
  intro state member
  have alone : ∀ other ∈ [state], (other.sequence.map (·.id)).Nodup := by
    simpa using distinct state member
  simpa using contiguity_eq_nil_iff alone

/-- Two siblings, the first of which has a child, and the same with the child cut off from its parent. -/
theorem contiguity_decides_split :
    let root : Atom := { id := { site := ⟨"A"⟩, timestamp := 1 } }
    let first : Atom := { id := { site := ⟨"A"⟩, timestamp := 2 }, cause := some root.id }
    let second : Atom := { id := { site := ⟨"A"⟩, timestamp := 3 }, cause := some root.id }
    let below : Atom := { id := { site := ⟨"B"⟩, timestamp := 3 }, cause := some first.id }
    Contiguous [root, first, below, second] ∧ ¬ Contiguous [root, first, second, below] := by
  intro root first second below
  let whole : Snapshot :=
    { number := 0, site := ⟨"A"⟩, digest := "", sequence := [root, first, below, second], pending := 0 }
  let split := { whole with sequence := [root, first, second, below] }
  have distinct : ∀ state ∈ [whole, split], (state.sequence.map (·.id)).Nodup := by decide
  have decides := (contiguity_decides distinct).1
  refine ⟨(decides whole (by simp)).mp (by decide), ?_⟩
  rw [← decides split (by simp)]
  decide

/-- Of atoms that share an id the last one counts as the cause, so the check of causes is the stricter one
where ids are repeated. -/
example :
    let root : Atom := { id := { site := ⟨"A"⟩, timestamp := 1 } }
    let child : Atom := { id := { site := ⟨"A"⟩, timestamp := 2 }, cause := some root.id }
    let state : Snapshot :=
      { number := 0, site := ⟨"A"⟩, digest := "", sequence := [root, child, root], pending := 0 }
    contiguity [state] = [] ∧ causality [state] = [.causalOrder 0 child.id root.id] := by
  decide

theorem contiguous_toList {weave : Weave} (sound : weave.Sound) : Contiguous weave.toList := by
  intro before atom after split cause caused
  obtain ⟨parent, present, rfl⟩ := sound.cause_before split caused
  have woven : atom ∈ weave.toList := by simp [split]
  have parent_woven : parent ∈ weave.toList := by simp [split, present]
  obtain ⟨outside, run, others, order, _, _, descendants⟩ := sound.subtree parent_woven
  have inside : atom ∈ run := (descendants atom).mpr ⟨woven, .single ⟨atom, woven, rfl, caused⟩⟩
  obtain ⟨below, later, rfl⟩ := List.append_of_mem inside
  have distinct := sound.nodup_ids.of_map
  have same : before ++ atom :: after = (outside ++ parent :: below) ++ atom :: (later ++ others) := by
    rw [← split, order]
    simp
  rw [split, List.nodup_middle, List.nodup_cons, List.mem_append, not_or] at distinct
  obtain ⟨rfl, _, _⟩ := (List.append_cons_inj_of_notMem distinct.1.1 distinct.1.2).mp same
  refine ⟨outside, parent, below, rfl, rfl, ?_⟩
  intro other member
  exact ((descendants other).mp (by simp [member])).2

end CausalWeave.Oracle
