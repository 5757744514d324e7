import CausalWeave.Proofs.Cascade
import Mathlib.Data.List.Induction

namespace CausalWeave.PendingBuffer

@[simp] theorem atoms_empty (limit : Option Nat) : atoms { limit } = [] := by
  simp [atoms]

theorem getElem?_waiting_push (buffer : PendingBuffer) (cause : AtomId) (atom : Atom)
    (other : AtomId) : (buffer.push cause atom).waiting[other]? =
      if cause = other then some (buffer.bucket cause ++ [atom]) else buffer.waiting[other]? := by
  simp only [push, Std.HashMap.getElem?_insert, beq_iff_eq]

theorem getElem?_waiting_take (buffer : PendingBuffer) (cause other : AtomId) :
    (buffer.take cause).2.waiting[other]? =
      if cause = other then none else buffer.waiting[other]? := by
  simp only [take, Std.HashMap.getElem?_erase, beq_iff_eq]

theorem bucket_eq_getD (buffer : PendingBuffer) (cause : AtomId) :
    buffer.bucket cause = buffer.waiting[cause]?.getD [] :=
  Std.HashMap.getD_eq_getD_getElem?

/-- The buffer after all but some of the atoms that waited on a cause have left it. -/
def keeping (buffer : PendingBuffer) (cause : AtomId) (kept : List Atom) : PendingBuffer :=
  kept.foldl (fun buffer atom => buffer.push cause atom) (buffer.take cause).2

theorem keeping_concat (buffer : PendingBuffer) (cause : AtomId) (kept : List Atom) (atom : Atom) :
    buffer.keeping cause (kept ++ [atom]) = (buffer.keeping cause kept).push cause atom := by
  simp [keeping]

@[simp] theorem limit_keeping (buffer : PendingBuffer) (cause : AtomId) (kept : List Atom) :
    (buffer.keeping cause kept).limit = buffer.limit := by
  induction kept using List.reverseRecOn with
  | nil => rfl
  | append_singleton kept atom ih => rw [keeping_concat, push, ih]

theorem bucket_keeping (buffer : PendingBuffer) (cause : AtomId) (kept : List Atom)
    (other : AtomId) :
    (buffer.keeping cause kept).bucket other = if cause = other then kept else buffer.bucket other := by
  induction kept using List.reverseRecOn with
  | nil => exact bucket_take buffer cause other
  | append_singleton kept atom ih =>
    rw [keeping_concat, bucket_push, ih]
    by_cases same : cause = other <;> simp [same]

theorem getElem?_waiting_keeping (buffer : PendingBuffer) (cause : AtomId) (kept : List Atom)
    (other : AtomId) : (buffer.keeping cause kept).waiting[other]? =
      if cause = other then (if kept = [] then none else some kept) else buffer.waiting[other]? := by
  induction kept using List.reverseRecOn with
  | nil =>
    simp only [if_true]
    exact getElem?_waiting_take buffer cause other
  | append_singleton kept atom ih =>
    rw [keeping_concat, getElem?_waiting_push, bucket_keeping, ih]
    by_cases same : cause = other <;> simp [same]

/-- A sound buffer without empty buckets, whose atoms form no cycle and are no more than may wait. -/
structure Orderly (buffer : PendingBuffer) : Prop where
  sound : buffer.Sound
  filled : ∀ (cause : AtomId) (held : List Atom), buffer.waiting[cause]? = some held → held ≠ []
  acyclic : Acyclic buffer.atoms
  bounded : ∀ limit ∈ buffer.limit, buffer.size ≤ limit

theorem orderly_empty (limit : Option Nat) : Orderly { limit } where
  sound := sound_empty limit
  filled := by simp
  acyclic := by simpa using acyclic_nil
  bounded := by simp

section Sound

variable {buffer : PendingBuffer} (sound : buffer.Sound)

include sound

theorem Sound.bucket_nodup (cause : AtomId) : (buffer.bucket cause).Nodup := by
  have distinct := sound.distinct
  rw [((buffer.atoms_take_perm cause).map _).nodup_iff, List.map_append] at distinct
  exact distinct.of_append_left.of_map _

/-- Only atoms that were in the bucket go back to it, so no atom is held twice. -/
theorem Sound.keeping {cause : AtomId} {kept : List Atom}
    (sublist : kept.Sublist (buffer.bucket cause)) : (buffer.keeping cause kept).Sound := by
  induction kept using List.reverseRecOn with
  | nil => exact sound.take cause
  | append_singleton kept atom ih =>
    have earlier : kept.Sublist (buffer.bucket cause) :=
      (List.sublist_append_left kept [atom]).trans sublist
    obtain ⟨member, caused⟩ := sound.mem_bucket.mp (sublist.subset (by simp : atom ∈ kept ++ [atom]))
    rw [keeping_concat]
    apply (ih earlier).push caused
    · intro same
      exact sound.apart atom member (same ▸ caused)
    · intro other held same
      obtain ⟨named, present⟩ := mem_atoms.mp held
      rw [bucket_keeping] at present
      split at present
      · have once := (sound.bucket_nodup cause).sublist sublist
        have inside := (sound.mem_bucket.mp (earlier.subset present)).1
        rw [sound.eq_of_id inside member same] at present
        exact List.disjoint_of_nodup_append once present (by simp)
      · rename_i apart
        obtain ⟨inside, named_cause⟩ := sound.mem_bucket.mp present
        rw [sound.eq_of_id inside member same, caused] at named_cause
        exact apart (Option.some.inj named_cause)

omit sound in
theorem mem_of_mem_keeping {cause : AtomId} {kept : List Atom}
    (sublist : kept.Sublist (buffer.bucket cause)) :
    ∀ atom ∈ (buffer.keeping cause kept).atoms, atom ∈ buffer.atoms := by
  intro atom held
  obtain ⟨named, present⟩ := mem_atoms.mp held
  rw [bucket_keeping] at present
  split at present
  · exact mem_atoms.mpr ⟨cause, sublist.subset present⟩
  · exact mem_atoms.mpr ⟨named, present⟩

end Sound

/-- A buffer in order that holds only what another one holds, in the order of that one. -/
structure Remnant (buffer later : PendingBuffer) : Prop where
  orderly : later.Orderly
  sublist : ∀ cause, (later.bucket cause).Sublist (buffer.bucket cause)
  limit : later.limit = buffer.limit

namespace Remnant

variable {buffer later last : PendingBuffer}

theorem refl (orderly : buffer.Orderly) : buffer.Remnant buffer :=
  ⟨orderly, fun _ => .refl _, rfl⟩

theorem trans (remnant : buffer.Remnant later) (further : later.Remnant last) :
    buffer.Remnant last where
  orderly := further.orderly
  sublist cause := (further.sublist cause).trans (remnant.sublist cause)
  limit := further.limit.trans remnant.limit

theorem subset (remnant : buffer.Remnant later) : ∀ atom ∈ later.atoms, atom ∈ buffer.atoms := by
  intro atom held
  obtain ⟨cause, present⟩ := mem_atoms.mp held
  exact mem_atoms.mpr ⟨cause, (remnant.sublist cause).subset present⟩

end Remnant

namespace Orderly

variable {buffer : PendingBuffer} (orderly : buffer.Orderly)

include orderly

theorem remnant_keeping {cause : AtomId} {kept : List Atom}
    (sublist : kept.Sublist (buffer.bucket cause)) : buffer.Remnant (buffer.keeping cause kept) := by
  have sound := orderly.sound.keeping sublist
  have subset := mem_of_mem_keeping sublist
  refine ⟨?orderly, ?sublist, limit_keeping buffer cause kept⟩
  case sublist =>
    intro other
    rw [bucket_keeping]
    split
    · rename_i same
      exact same ▸ sublist
    · exact .refl _
  case orderly =>
    refine ⟨sound, ?filled, orderly.acyclic.subset subset, ?bounded⟩
    case filled =>
      intro other held found
      rw [getElem?_waiting_keeping] at found
      split at found
      · split at found
        · simp at found
        · simp_all
      · exact orderly.filled other held found
    case bounded =>
      intro limit bound
      have fewer : (buffer.keeping cause kept).atoms.length ≤ buffer.atoms.length := by
        simpa using (sound.distinct.subperm (List.map_subset (·.id) subset)).length_le
      rw [limit_keeping] at bound
      rw [sound.size_eq]
      exact fewer.trans (orderly.sound.size_eq ▸ orderly.bounded limit bound)

theorem remnant_take (cause : AtomId) : buffer.Remnant (buffer.take cause).2 :=
  orderly.remnant_keeping (List.nil_sublist _)

/-- A buffer stays in order when it holds back an atom that closes no cycle and for which there is
room. -/
theorem push {atom : Atom} {cause : AtomId} (caused : atom.cause = some cause)
    (apart : cause ≠ atom.id) (fresh : ∀ other ∈ buffer.atoms, other.id ≠ atom.id)
    (onward : buffer.leadsTo cause atom.id = false)
    (room : ∀ limit ∈ buffer.limit, buffer.size < limit) : (buffer.push cause atom).Orderly := by
  have held := buffer.atoms_push_perm cause atom
  refine ⟨orderly.sound.push caused apart fresh, ?filled, ?acyclic, room⟩
  case filled =>
    intro other found
    rw [getElem?_waiting_push]
    split
    · rintro ⟨⟩
      simp
    · exact orderly.filled other found
  case acyclic =>
    have closed : Acyclic (atom :: buffer.atoms) := by
      apply orderly.acyclic.cons caused apart
      rw [← orderly.sound.leadsTo_iff orderly.acyclic, onward]
      simp
    exact closed.subset fun other => held.mem_iff.mp

end Orderly
end PendingBuffer

namespace Cascade

variable [Observer σ]

theorem buffer_settle (cascade : Cascade σ) {atom : Atom} (caused : atom.cause = some cause) :
    (cascade.settle atom).buffer = cascade.buffer ∨
      (cascade.settle atom).buffer = cascade.buffer.push cause atom := by
  unfold settle
  split
  · rename_i named goes
    obtain ⟨names, _⟩ := Option.filter_eq_some_iff.mp goes
    rw [caused, Option.some.injEq] at names
    exact .inr (by rw [names])
  · left
    split <;> rfl

theorem exists_kept (cascade : Cascade σ) {atoms : List Atom}
    (caused : ∀ atom ∈ atoms, atom.cause = some cause) :
    ∃ kept : List Atom, kept.Sublist atoms ∧ (atoms.foldl settle cascade).buffer =
      kept.foldl (fun buffer atom => buffer.push cause atom) cascade.buffer := by
  induction atoms generalizing cascade with
  | nil => exact ⟨[], .refl _, rfl⟩
  | cons atom rest ih =>
    have later := fun other member => caused other (List.mem_cons_of_mem _ member)
    obtain ⟨kept, sublist, folded⟩ := ih (cascade.settle atom) later
    rcases cascade.buffer_settle (caused atom (by simp)) with left | back
    · exact ⟨kept, sublist.cons _, by rw [List.foldl_cons, folded, left]⟩
    · exact ⟨atom :: kept, sublist.cons_cons _, by rw [List.foldl_cons, folded, back, List.foldl_cons]⟩

/-- Following a woken id leaves the other buckets alone. -/
theorem buffer_follow (cascade : Cascade σ) (sound : cascade.buffer.Sound) (cause : AtomId)
    (others : List AtomId) : ∃ kept : List Atom, kept.Sublist (cascade.buffer.bucket cause) ∧
      (cascade.follow cause others).buffer = cascade.buffer.keeping cause kept :=
  exists_kept _ fun atom member => sound.caused cause atom member

theorem remnant_follow {buffer : PendingBuffer} {cascade : Cascade σ}
    (remnant : buffer.Remnant cascade.buffer) (cause : AtomId) (others : List AtomId) :
    buffer.Remnant (cascade.follow cause others).buffer := by
  obtain ⟨kept, sublist, followed⟩ := cascade.buffer_follow remnant.orderly.sound cause others
  rw [followed]
  exact remnant.trans (remnant.orderly.remnant_keeping sublist)

theorem remnant_run (cascade : Cascade σ) (orderly : cascade.buffer.Orderly) :
    cascade.buffer.Remnant cascade.run.buffer := by
  let remains (later : Cascade σ) := cascade.buffer.Remnant later.buffer
  have kept : remains cascade.run ∧ cascade.run.woken = [] := by
    apply run_induction (PendingBuffer.Remnant.refl orderly)
    intro later cause others _ remnant
    exact remnant_follow remnant cause others
  exact kept.1

end Cascade

namespace PendingBuffer

/-- What can be asked of a buffer. The weave into which atoms are set free may be any one. -/
inductive Call where
  | hold (atom : Atom)
  | take (cause : AtomId)
  | release {σ : Type} [Observer σ] (weave : Weave) (observer : σ) (id : AtomId)

def perform (buffer : PendingBuffer) : Call → PendingBuffer
  | .hold atom =>
    match buffer.hold atom with
    | .error _ => buffer
    | .ok (_, later) => later
  | .take cause => (buffer.take cause).2
  | @Call.release _ _ weave observer id => (buffer.release weave observer id).buffer

/-- The atom that a call adds to those that wait, if it adds one. -/
def newcomers (buffer : PendingBuffer) : Call → List Atom
  | .hold atom =>
    match buffer.hold atom with
    | .ok (true, _) => [atom]
    | _ => []
  | _ => []

theorem Orderly.remnant_release {buffer : PendingBuffer} (orderly : buffer.Orderly) [Observer σ]
    (weave : Weave) (observer : σ) (id : AtomId) :
    buffer.Remnant (buffer.release weave observer id).buffer :=
  Cascade.remnant_run { weave, observer, buffer, woken := [id] } orderly

/-- A call adds no atom and some of those that waited may leave, or it adds one and all stay. -/
theorem Orderly.step {buffer : PendingBuffer} (orderly : buffer.Orderly) (call : Call) :
    (buffer.Remnant (buffer.perform call) ∧ buffer.newcomers call = []) ∨
      ∃ atom cause, atom.cause = some cause ∧ (∀ other ∈ buffer.atoms, other.id ≠ atom.id) ∧
        buffer.newcomers call = [atom] ∧ buffer.perform call = buffer.push cause atom ∧
        (buffer.push cause atom).Orderly := by
  cases call with
  | hold atom =>
    have answer := orderly.sound.answer atom
    simp only [perform, newcomers]
    generalize buffer.hold atom = answered at answer
    cases answer with
    | held cause caused apart fresh onward room =>
      exact .inr ⟨atom, cause, caused, fresh, rfl, rfl, orderly.push caused apart fresh onward room⟩
    | _ => exact .inl ⟨.refl orderly, rfl⟩
  | take cause => exact .inl ⟨orderly.remnant_take cause, rfl⟩
  | release weave observer id => exact .inl ⟨orderly.remnant_release weave observer id, rfl⟩

def after (limit : Option Nat) (calls : List Call) : PendingBuffer :=
  calls.foldl perform { limit }

def Reachable (buffer : PendingBuffer) : Prop :=
  ∃ limit calls, after limit calls = buffer

theorem after_concat (limit : Option Nat) (calls : List Call) (call : Call) :
    after limit (calls ++ [call]) = (after limit calls).perform call := by
  simp [after]

theorem orderly_after (limit : Option Nat) (calls : List Call) :
    (after limit calls).Orderly ∧ (after limit calls).limit = limit := by
  induction calls using List.reverseRecOn with
  | nil => exact ⟨orderly_empty limit, rfl⟩
  | append_singleton calls call ih =>
    rw [after_concat]
    rcases ih.1.step call with ⟨remnant, _⟩ | ⟨atom, cause, _, _, _, pushed, orderly⟩
    · exact ⟨remnant.orderly, remnant.limit.trans ih.2⟩
    · rw [pushed]
      exact ⟨orderly, ih.2⟩

theorem Reachable.orderly {buffer : PendingBuffer} (reachable : buffer.Reachable) :
    buffer.Orderly := by
  obtain ⟨limit, calls, rfl⟩ := reachable
  exact (orderly_after limit calls).1

end PendingBuffer
end CausalWeave
