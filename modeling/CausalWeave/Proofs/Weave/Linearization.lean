import CausalWeave.Proofs.Weave.Insertion
import Mathlib.Data.List.Induction

namespace CausalWeave.Weave

inductive Call where
  | insert (atom : Atom)
  | insertObserved (atom : Atom)

def Call.atom : Call → Atom
  | insert atom => atom
  | insertObserved atom => atom

structure Session (σ : Type u) where
  weave : Weave := {}
  observer : σ
  /-- The atoms for which a call answered that it wove them, in the order of the calls. -/
  woven : List Atom := []

namespace Session

variable [Observer σ]

def call (session : Session σ) : Call → Session σ
  | .insert atom =>
    match session.weave.insert atom with
    | .error _ => session
    | .ok (.inserted _, weave) => { session with weave, woven := session.woven ++ [atom] }
    | .ok (_, weave) => { session with weave }
  | .insertObserved atom =>
    match session.weave.insertObserved session.observer atom with
    | .error _ => session
    | .ok (.inserted _, weave, observer) =>
      { weave, observer, woven := session.woven ++ [atom] }
    | .ok (_, weave, observer) => { session with weave, observer }

def after (observer : σ) (calls : List Call) : Session σ :=
  calls.foldl call { observer }

/-- Whether an atom can join the atoms that are woven: its key is new, and its cause is among them
and not the atom itself. -/
def admits (woven : List Atom) (atom : Atom) : Bool :=
  atom.cause != some atom.id && woven.all (·.id.key != atom.id.key) &&
    atom.cause.all fun cause => woven.any (·.id == cause)

/-- The weave is sound and has the woven atoms in it. -/
structure Faithful (session : Session σ) : Prop where
  sound : session.weave.Sound
  members : session.weave.toList.Perm session.woven

omit [Observer σ] in
private theorem Faithful.admits_iff {session : Session σ} (faithful : session.Faithful)
    (atom : Atom) : admits session.woven atom = true ↔ atom.cause ≠ some atom.id ∧
      (∀ other ∈ session.weave.toList, other.id.key ≠ atom.id.key) ∧
        ∀ cause ∈ atom.cause, session.weave.contains cause = true := by
  simp only [admits, Bool.and_eq_true, bne_iff_ne, List.all_eq_true, Option.all_eq_true,
    List.any_eq_true, beq_iff_eq, faithful.sound.contains_iff, faithful.members.mem_iff,
    and_assoc, Option.mem_def]

/-- A call weaves its atom if it can be admitted, and otherwise changes no atom. -/
theorem Faithful.call {session : Session σ} (faithful : session.Faithful) (call : Call) :
    (session.call call).Faithful ∧ (session.call call).woven =
      if admits session.woven call.atom then session.woven ++ [call.atom] else session.woven := by
  have attempt := faithful.sound.attempt call.atom
  have admitted := faithful.admits_iff call.atom
  generalize outcome : session.weave.insert call.atom = result at attempt
  cases attempt with
  | selfCausation caused =>
    have refused : admits session.woven call.atom = false := by
      simpa [caused] using admitted
    cases call <;> simp_all [Session.call, insertObserved, Call.atom]
  | identityCollision apart other woven key different =>
    have refused : admits session.woven call.atom = false := by
      rw [← Bool.not_eq_true, admitted]
      intro admitted
      exact admitted.2.1 other woven key
    cases call <;> simp_all [Session.call, insertObserved, Call.atom]
  | alreadyPresent apart other woven same =>
    have refused : admits session.woven call.atom = false := by
      rw [← Bool.not_eq_true, admitted]
      intro admitted
      exact admitted.2.1 other woven (congrArg AtomId.key (Atom.id_eq_of_same same))
    cases call <;> simp_all [Session.call, insertObserved, Call.atom]
  | causeMissing apart fresh cause caused missing =>
    have refused : admits session.woven call.atom = false := by
      rw [← Bool.not_eq_true, admitted]
      intro admitted
      simp [admitted.2.2 cause caused] at missing
    cases call <;> simp_all [Session.call, insertObserved, Call.atom]
  | inserted apart fresh causal later sound before after order placed =>
    have accepted : admits session.woven call.atom = true := admitted.mpr ⟨apart, fresh, causal⟩
    have members : later.toList.Perm (session.woven ++ [call.atom]) := by
      have old := faithful.members
      rw [order] at old
      rw [placed]
      exact (List.perm_middle.trans (old.cons _)).trans (List.perm_append_singleton _ _).symm
    cases call <;> simp only [Call.atom] at outcome accepted members <;>
      simpa [Session.call, insertObserved, outcome, accepted, Call.atom] using ⟨sound, members⟩

omit [Observer σ] in
theorem faithful_start (observer : σ) : Faithful { observer } :=
  ⟨sound_empty, .nil⟩

private theorem after_concat (observer : σ) (calls : List Call) (call : Call) :
    after observer (calls ++ [call]) = (after observer calls).call call := by
  simp [after]

theorem faithful_after (observer : σ) (calls : List Call) : (after observer calls).Faithful := by
  induction calls using List.reverseRecOn with
  | nil => exact faithful_start observer
  | append_singleton calls call ih =>
    rw [after_concat]
    exact (ih.call call).1

/-- Which atoms are woven shows in the calls alone. -/
theorem woven_after (observer : σ) (calls : List Call) :
    (after observer calls).woven = (calls.map Call.atom).foldl
      (fun woven atom => if admits woven atom then woven ++ [atom] else woven) [] := by
  induction calls using List.reverseRecOn with
  | nil => rfl
  | append_singleton calls call ih =>
    rw [after_concat, ((faithful_after observer calls).call call).2, ih]
    simp

omit [Observer σ] in
private theorem Faithful.nodup_woven {session : Session σ} (faithful : session.Faithful) :
    (session.woven.map (·.id)).Nodup :=
  (faithful.members.map _).nodup_iff.mp faithful.sound.nodup_ids

private theorem canonical_after (observer : σ) (calls : List Call) :
    (after observer calls).weave.toList = canonicalOrder (after observer calls).woven := by
  have faithful := faithful_after observer calls
  rw [← faithful.sound.canonicalOrder_toList]
  apply canonicalOrder_congr faithful.sound.nodup_ids faithful.nodup_woven
  intro atom
  exact faithful.members.mem_iff

/-- After any calls the sequence is the canonical order of the atoms woven so far, and calls that
weave the same set of atoms lead to the same sequence. -/
theorem toList_after_eq_canonicalOrder [Observer τ] (observer : σ) (other : τ)
    (calls others : List Call) :
    (after observer calls).weave.toList = canonicalOrder (after observer calls).woven ∧
      ((∀ atom, atom ∈ (after observer calls).woven ↔ atom ∈ (after other others).woven) →
        (after observer calls).weave.toList = (after other others).weave.toList) := by
  refine ⟨canonical_after observer calls, ?_⟩
  intro same
  rw [canonical_after observer calls, canonical_after other others]
  exact canonicalOrder_congr (faithful_after observer calls).nodup_woven
    (faithful_after other others).nodup_woven same

/-- Two children that arrive in either order, the second time around between an atom that is its own
cause, an atom whose cause has another priority, and a repetition. -/
theorem toList_after_swapped :
    let root : Atom := { id := { site := ⟨"a"⟩, timestamp := 1 } }
    let first : Atom := { id := { site := ⟨"a"⟩, timestamp := 2 }, cause := some root.id }
    let second : Atom := { id := { site := ⟨"b"⟩, timestamp := 2 }, cause := some root.id }
    let circular : Atom :=
      { id := { site := ⟨"c"⟩, timestamp := 9 }
        cause := some { site := ⟨"c"⟩, timestamp := 9 } }
    let mistaken : Atom :=
      { id := { site := ⟨"c"⟩, timestamp := 3 }
        cause := some { root.id with priority := 1 } }
    (after () [.insert root, .insert first, .insert second]).weave.toList =
      (after ({} : Recorder) [.insertObserved root, .insert circular, .insertObserved second,
        .insert mistaken, .insert second, .insertObserved first]).weave.toList := by
  intro root first second circular mistaken
  apply (toList_after_eq_canonicalOrder _ _ _ _).2
  intro atom
  rw [woven_after, woven_after]
  change atom ∈ [root, first, second] ↔ atom ∈ [root, second, first]
  simp only [List.mem_cons]
  tauto

end Session

/-- A weave that some calls have built. What an observer makes of the calls does not show in it. -/
def Reachable (weave : Weave) : Prop :=
  ∃ calls : List Call, (Session.after () calls).weave = weave

theorem Reachable.sound {weave : Weave} (reachable : weave.Reachable) : weave.Sound := by
  obtain ⟨calls, rfl⟩ := reachable
  exact (Session.faithful_after () calls).sound

end CausalWeave.Weave
