import CausalWeave.Weave
import Std.Data.HashMap.Lemmas

/-! Atoms that wait are held in buckets, one for each missing cause. Beside the buckets the buffer knows the
cause of every atom it holds, so that the causes an atom would wait behind can be followed. -/

namespace CausalWeave

structure PendingBuffer where
  /-- The atoms that wait on a cause, in the order of their arrival. -/
  waiting : Std.HashMap AtomId (List Atom) := ∅
  /-- The cause on which each held atom waits. -/
  causes : Std.HashMap AtomId AtomId := ∅
  /-- How many atoms are held, counted as they come and go. -/
  size : Nat := 0
  /-- How many atoms may be held. -/
  limit : Option Nat := none

namespace PendingBuffer

def bucket (buffer : PendingBuffer) (cause : AtomId) : List Atom :=
  buffer.waiting.getD cause []

/-- All held atoms, bucket by bucket. -/
def atoms (buffer : PendingBuffer) : List Atom :=
  buffer.waiting.toList.flatMap (·.2)

def awaited (buffer : PendingBuffer) : List AtomId :=
  buffer.waiting.keys

def contains (buffer : PendingBuffer) (id : AtomId) : Bool :=
  buffer.causes.contains id

/-- Holds an atom under its cause. -/
def push (buffer : PendingBuffer) (cause : AtomId) (atom : Atom) : PendingBuffer where
  waiting := buffer.waiting.insert cause (buffer.bucket cause ++ [atom])
  causes := buffer.causes.insert atom.id cause
  size := buffer.size + 1
  limit := buffer.limit

/-- The atoms that wait on a cause, in the order of their arrival, and the buffer without them. -/
def take (buffer : PendingBuffer) (cause : AtomId) : List Atom × PendingBuffer :=
  let taken := buffer.bucket cause
  (taken,
    { waiting := buffer.waiting.erase cause
      causes := taken.foldl (fun causes atom => causes.erase atom.id) buffer.causes
      size := buffer.size - taken.length
      limit := buffer.limit })

/-- Whether some atom is reached from an id in at least one and at most `steps` steps to the cause
of a held atom. -/
def reaches (buffer : PendingBuffer) (target : AtomId) : Nat → AtomId → Bool
  | 0, _ => false
  | steps + 1, current =>
    match buffer.causes[current]? with
    | none => false
    | some next => next == target || buffer.reaches target steps next

/-- Whether the causes of held atoms lead from a cause to an id. Held atoms form no cycle, so one
step for each is enough. -/
def leadsTo (buffer : PendingBuffer) (cause id : AtomId) : Bool :=
  buffer.reaches id buffer.size cause

/-- Holds an atom back until its cause arrives. The answer is false for an atom that is held
already and for a root, which waits on nothing. -/
def hold (buffer : PendingBuffer) (atom : Atom) : Except Refusal (Bool × PendingBuffer) :=
  match atom.cause with
  | none => .ok (false, buffer)
  | some cause =>
    if cause = atom.id then .error (.selfCausation atom.id)
    else if buffer.contains atom.id then
      if (buffer.bucket cause).any (·.same atom) then .ok (false, buffer)
      else .error (.identityCollision atom.id)
    else if buffer.leadsTo cause atom.id then .error (.causalCycle atom.id cause)
    else
      match buffer.limit.filter (· ≤ buffer.size) with
      | some limit => .error (.pendingBufferFull limit atom.id cause)
      | none => .ok (true, buffer.push cause atom)

private theorem flatMap_insert_perm (table : Std.HashMap AtomId (List Atom)) (cause : AtomId)
    (held : List Atom) :
    ((table.insert cause held).toList.flatMap (·.2)).Perm
      (held ++ (table.erase cause).toList.flatMap (·.2)) := by
  have same : (table.insert cause held).Equiv ((table.erase cause).insert cause held) := by
    apply Std.HashMap.Equiv.of_forall_getElem?_eq
    intro id
    simp only [Std.HashMap.getElem?_insert, Std.HashMap.getElem?_erase]
    split <;> rfl
  have others : (table.erase cause).toList.filter (fun entry => decide ¬(cause == entry.1) = true)
      = (table.erase cause).toList := by
    apply List.filter_eq_self.mpr
    intro entry member
    have found := Std.HashMap.mem_toList_iff_getElem?_eq_some.mp member
    rw [Std.HashMap.getElem?_erase] at found
    by_cases equal : cause == entry.1
    · simp [equal] at found
    · simpa using equal
  have entries := same.toList_perm.trans Std.HashMap.toList_insert_perm
  rw [others] at entries
  simpa using entries.flatMap_right (·.2)

private theorem flatMap_erase_perm (table : Std.HashMap AtomId (List Atom)) (cause : AtomId) :
    (table.toList.flatMap (·.2)).Perm
      (table.getD cause [] ++ (table.erase cause).toList.flatMap (·.2)) := by
  rw [Std.HashMap.getD_eq_getD_getElem?]
  cases found : table[cause]? with
  | none =>
    have same : table.Equiv (table.erase cause) := by
      apply Std.HashMap.Equiv.of_forall_getElem?_eq
      intro id
      rw [Std.HashMap.getElem?_erase]
      split
      · rename_i equal
        rw [← eq_of_beq equal, found]
      · rfl
    simpa using same.toList_perm.flatMap_right (·.2)
  | some held =>
    have same : table.Equiv (table.insert cause held) := by
      apply Std.HashMap.Equiv.of_forall_getElem?_eq
      intro id
      rw [Std.HashMap.getElem?_insert]
      split
      · rename_i equal
        rw [← eq_of_beq equal, found]
      · rfl
    exact (same.toList_perm.flatMap_right (·.2)).trans (flatMap_insert_perm table cause held)

theorem atoms_push_perm (buffer : PendingBuffer) (cause : AtomId) (atom : Atom) :
    (buffer.push cause atom).atoms.Perm (atom :: buffer.atoms) := by
  have pushed := flatMap_insert_perm buffer.waiting cause (buffer.bucket cause ++ [atom])
  have held := flatMap_erase_perm buffer.waiting cause
  refine pushed.trans ?_
  rw [List.append_assoc, List.singleton_append]
  exact List.perm_middle.trans (held.symm.cons atom)

theorem atoms_take_perm (buffer : PendingBuffer) (cause : AtomId) :
    buffer.atoms.Perm ((buffer.take cause).1 ++ (buffer.take cause).2.atoms) :=
  flatMap_erase_perm buffer.waiting cause

end PendingBuffer
end CausalWeave
