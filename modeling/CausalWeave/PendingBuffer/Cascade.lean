import CausalWeave.PendingBuffer

namespace CausalWeave

structure Landing where
  id : AtomId
  /-- Its index in the order when it was woven. -/
  position : Nat
deriving DecidableEq

/-- What one arrival set free, in order. -/
structure Release where
  woven : List Landing := []
  /-- Why the weave refused some of the atoms; these are held no longer. -/
  rejected : List Refusal := []

def Release.isEmpty (release : Release) : Bool :=
  release.woven.isEmpty && release.rejected.isEmpty

/-- A cascade under way. -/
structure Cascade (σ : Type u) where
  weave : Weave
  observer : σ
  buffer : PendingBuffer
  release : Release := {}
  /-- The woven ids whose followers are still to be taken up, the oldest one first. -/
  woken : List AtomId

namespace Cascade

variable [Observer σ]

/-- Takes up one atom that was waiting. It goes back when its cause is not woven after all. -/
def settle (cascade : Cascade σ) (atom : Atom) : Cascade σ :=
  match atom.cause.filter fun cause => !cascade.weave.contains cause with
  | some cause => { cascade with buffer := cascade.buffer.push cause atom }
  | none =>
    match cascade.weave.insertObserved cascade.observer atom with
    | .error why =>
      { cascade with
        release := { cascade.release with rejected := cascade.release.rejected ++ [why] } }
    | .ok (.inserted position, weave, observer) =>
      { cascade with
        weave, observer
        release := { cascade.release with
          woven := cascade.release.woven ++ [{ id := atom.id, position }] }
        woken := cascade.woken ++ [atom.id] }
    | .ok _ => cascade

/-- Takes up all that waits on one woken id. -/
def follow (cascade : Cascade σ) (cause : AtomId) (others : List AtomId) : Cascade σ :=
  (cascade.buffer.take cause).1.foldl settle
    { cascade with buffer := (cascade.buffer.take cause).2, woken := others }

/-- How many atoms and woken ids there are to take up. -/
def remaining (cascade : Cascade σ) : Nat :=
  cascade.buffer.atoms.length + cascade.woken.length

omit [Observer σ] in
private theorem length_push (buffer : PendingBuffer) (cause : AtomId) (atom : Atom) :
    (buffer.push cause atom).atoms.length = buffer.atoms.length + 1 := by
  simpa using (buffer.atoms_push_perm cause atom).length_eq

private theorem remaining_settle_le (cascade : Cascade σ) (atom : Atom) :
    (cascade.settle atom).remaining ≤ cascade.remaining + 1 := by
  unfold settle
  split
  · simp only [remaining, length_push]
    omega
  · split <;> simp only [remaining, List.length_append, List.length_singleton] <;> omega

private theorem remaining_foldl_settle_le (atoms : List Atom) (cascade : Cascade σ) :
    (atoms.foldl settle cascade).remaining ≤ cascade.remaining + atoms.length := by
  induction atoms generalizing cascade with
  | nil => simp
  | cons atom rest ih =>
    have step := remaining_settle_le cascade atom
    have later := ih (cascade.settle atom)
    simp only [List.foldl_cons, List.length_cons]
    omega

theorem remaining_follow_lt (cascade : Cascade σ) (cause : AtomId) (others : List AtomId)
    (woken : cascade.woken = cause :: others) :
    (cascade.follow cause others).remaining < cascade.remaining := by
  have taken := (cascade.buffer.atoms_take_perm cause).length_eq
  have followed := remaining_foldl_settle_le (cascade.buffer.take cause).1
    { cascade with buffer := (cascade.buffer.take cause).2, woken := others }
  simp only [List.length_append] at taken
  simp only [follow]
  simp only [remaining, woken, List.length_cons] at followed ⊢
  omega

def run (cascade : Cascade σ) : Cascade σ :=
  match _ : cascade.woken with
  | [] => cascade
  | cause :: others => (cascade.follow cause others).run
termination_by cascade.remaining
decreasing_by exact remaining_follow_lt cascade cause others ‹cascade.woken = cause :: others›

end Cascade

/-- Sets free what waits on an id that has just been woven. -/
def PendingBuffer.release [Observer σ] (buffer : PendingBuffer) (weave : Weave) (observer : σ)
    (id : AtomId) : Cascade σ :=
  Cascade.run { weave, observer, buffer, woken := [id] }

end CausalWeave
