import CausalWeave.Proofs.PendingBuffer.Reachable

namespace CausalWeave.PendingBuffer

/-- A buffer and the atoms that it holds, in the order in which they came. -/
structure Line where
  buffer : PendingBuffer
  atoms : List Atom := []

/-- Atoms that are held no longer leave the line, and an atom that is held back joins it at its end. -/
def Line.call (line : Line) (call : Call) : Line :=
  let later := line.buffer.perform call
  { buffer := later
    atoms := line.atoms.filter (later.contains ·.id) ++ line.buffer.newcomers call }

def line (limit : Option Nat) (calls : List Call) : Line :=
  calls.foldl Line.call { buffer := { limit } }

def arrivals (limit : Option Nat) (calls : List Call) : List Atom :=
  (line limit calls).atoms

private theorem line_concat (limit : Option Nat) (calls : List Call) (call : Call) :
    line limit (calls ++ [call]) = (line limit calls).call call := by
  simp [line]

theorem buffer_line (limit : Option Nat) (calls : List Call) :
    (line limit calls).buffer = after limit calls := by
  induction calls using List.reverseRecOn with
  | nil => rfl
  | append_singleton calls call ih => rw [line_concat, after_concat, ← ih, Line.call]

private theorem filter_eq_of_sublist {kept list : List α} (sublist : kept.Sublist list)
    (unique : list.Nodup) {test : α → Bool}
    (passes : ∀ item ∈ list, test item = true ↔ item ∈ kept) : list.filter test = kept := by
  have all : kept.filter test = kept := by
    apply List.filter_eq_self.mpr
    intro item member
    exact (passes item (sublist.subset member)).mpr member
  have inside : kept.Sublist (list.filter test) := all ▸ sublist.filter test
  have outside : ∀ item ∈ list.filter test, item ∈ kept := by
    intro item member
    obtain ⟨present, passed⟩ := List.mem_filter.mp member
    exact (passes item present).mp passed
  exact (inside.eq_of_length_le ((unique.filter test).subperm outside).length_le).symm

section Remnant

variable {buffer later : PendingBuffer} (sound : buffer.Sound) (remnant : buffer.Remnant later)

include sound remnant

theorem Remnant.contains_iff {atom : Atom} (held : atom ∈ buffer.atoms) :
    later.contains atom.id = true ↔ atom ∈ later.atoms := by
  rw [remnant.orderly.sound.contains_iff]
  constructor
  · rintro ⟨other, present, same⟩
    rwa [← sound.eq_of_id (remnant.subset other present) held same]
  · intro present
    exact ⟨atom, present, rfl⟩

theorem Remnant.filter_bucket (cause : AtomId) :
    (buffer.bucket cause).filter (later.contains ·.id) = later.bucket cause := by
  apply filter_eq_of_sublist (remnant.sublist cause) (sound.bucket_nodup cause)
  intro atom member
  obtain ⟨held, caused⟩ := sound.mem_bucket.mp member
  rw [remnant.contains_iff sound held, remnant.orderly.sound.mem_bucket, and_iff_left caused]

end Remnant

/-- The line has all held atoms in it, and each bucket is the part of it that waits on one cause. -/
structure Line.Faithful (line : Line) : Prop where
  orderly : line.buffer.Orderly
  members : line.atoms.Perm line.buffer.atoms
  bucket : ∀ cause, line.buffer.bucket cause = line.atoms.filter (·.cause = some cause)

theorem Line.Faithful.call {line : Line} (faithful : line.Faithful) (call : Call) :
    (line.call call).Faithful := by
  have orderly := faithful.orderly
  have unique : line.atoms.Nodup :=
    faithful.members.nodup_iff.mpr (orderly.sound.distinct.of_map _)
  unfold Line.call
  rcases orderly.step call with ⟨remnant, none_new⟩ | ⟨atom, cause, caused, fresh, new, pushed, grown⟩
  · rw [none_new]
    simp only [List.append_nil]
    refine ⟨remnant.orderly, ?members, ?bucket⟩
    case members =>
      apply (List.perm_ext_iff_of_nodup (unique.filter _) (remnant.orderly.sound.distinct.of_map _)).mpr
      intro atom
      rw [List.mem_filter, faithful.members.mem_iff]
      constructor
      · rintro ⟨held, stays⟩
        exact (remnant.contains_iff orderly.sound held).mp stays
      · intro stays
        have held := remnant.subset atom stays
        exact ⟨held, (remnant.contains_iff orderly.sound held).mpr stays⟩
    case bucket =>
      intro cause
      rw [← remnant.filter_bucket orderly.sound, faithful.bucket, List.filter_filter, List.filter_filter]
      simp only [Bool.and_comm]
  · have held := line.buffer.atoms_push_perm cause atom
    have stay : line.atoms.filter ((line.buffer.push cause atom).contains ·.id) = line.atoms := by
      apply List.filter_eq_self.mpr
      intro other member
      have present := List.mem_cons_of_mem atom (faithful.members.mem_iff.mp member)
      exact grown.sound.contains_iff.mpr ⟨other, held.mem_iff.mpr present, rfl⟩
    simp only [pushed, new, stay]
    refine ⟨grown, ?members, ?bucket⟩
    case members =>
      exact (List.perm_append_singleton _ _).trans ((faithful.members.cons atom).trans held.symm)
    case bucket =>
      intro other
      rw [bucket_push, faithful.bucket, List.filter_append]
      by_cases same : cause = other <;> simp [caused, same]

theorem faithful_line (limit : Option Nat) (calls : List Call) : (line limit calls).Faithful := by
  induction calls using List.reverseRecOn with
  | nil => exact ⟨orderly_empty limit, by simp [line], by simp [line, bucket]⟩
  | append_singleton calls call ih =>
    rw [line_concat]
    exact ih.call call

theorem arrivals_perm (limit : Option Nat) (calls : List Call) :
    (arrivals limit calls).Perm (after limit calls).atoms := by
  have members := (faithful_line limit calls).members
  rwa [buffer_line] at members

private theorem arrivals_concat (limit : Option Nat) (calls : List Call) (call : Call) :
    arrivals limit (calls ++ [call]) =
      (arrivals limit calls).filter ((after limit (calls ++ [call])).contains ·.id) ++
        (after limit calls).newcomers call := by
  rw [after_concat, ← buffer_line, arrivals, line_concat]
  rfl

/-- An atom joins the line if none in it has its id, none waits for it and there is room. -/
theorem arrivals_hold {limit : Option Nat} {calls : List Call} {atom : Atom}
    (caused : atom.cause = some cause) (apart : cause ≠ atom.id)
    (unheld : ∀ other ∈ arrivals limit calls, other.id ≠ atom.id ∧ other.cause ≠ some atom.id)
    (room : ∀ bound ∈ limit, (arrivals limit calls).length < bound) :
    arrivals limit (calls ++ [.hold atom]) = arrivals limit calls ++ [atom] := by
  have members := arrivals_perm limit calls
  have ⟨orderly, bound⟩ := orderly_after limit calls
  have holds := orderly.sound.hold_of_unheld caused apart
    (fun other held => unheld other (members.mem_iff.mpr held))
    (by rw [bound, ← members.length_eq]; exact room)
  have stay : (arrivals limit calls).filter ((after limit (calls ++ [.hold atom])).contains ·.id) =
      arrivals limit calls := by
    apply List.filter_eq_self.mpr
    intro other member
    apply (orderly_after limit _).1.sound.contains_iff.mpr
    refine ⟨other, ?_, rfl⟩
    simp only [after_concat, perform, holds]
    rw [((after limit calls).atoms_push_perm cause atom).mem_iff]
    exact List.mem_cons_of_mem _ (members.mem_iff.mp member)
  simp only [arrivals_concat, stay, newcomers, holds]

/-- Atoms for which there is room wait in the order in which they are offered, unless an id comes twice
or an atom comes after one that waits for it. -/
theorem arrivals_offered {limit : Option Nat} (atoms : List Atom)
    (caused : ∀ atom ∈ atoms, atom.cause ≠ none ∧ atom.cause ≠ some atom.id)
    (apart : atoms.Pairwise fun earlier later =>
      earlier.id ≠ later.id ∧ earlier.cause ≠ some later.id)
    (room : ∀ bound ∈ limit, atoms.length ≤ bound) :
    arrivals limit (atoms.map .hold) = atoms := by
  induction atoms using List.reverseRecOn with
  | nil => rfl
  | append_singleton atoms atom ih =>
    obtain ⟨earlier, _, unheld⟩ := List.pairwise_append.mp apart
    have shorter : ∀ bound ∈ limit, atoms.length < bound := by
      intro bound bounded
      simpa [Nat.succ_le_iff] using room bound bounded
    have line := ih (fun other member => caused other (List.mem_append_left _ member)) earlier
      fun bound bounded => (shorter bound bounded).le
    obtain ⟨uncaused, circular⟩ := caused atom (by simp)
    obtain ⟨cause, named⟩ := Option.ne_none_iff_exists'.mp uncaused
    have distinct : cause ≠ atom.id := fun same => circular (same ▸ named)
    rw [List.map_append, List.map_singleton, arrivals_hold named distinct] <;> rw [line]
    · exact fun other member => unheld other member atom (by simp)
    · exact shorter

theorem Orderly.mem_awaited {buffer : PendingBuffer} (orderly : buffer.Orderly) {cause : AtomId} :
    cause ∈ buffer.awaited ↔ ∃ atom ∈ buffer.atoms, atom.cause = some cause := by
  rw [awaited, Std.HashMap.mem_keys, Std.HashMap.mem_iff_isSome_getElem?, Option.isSome_iff_exists]
  constructor
  · rintro ⟨held, found⟩
    obtain ⟨atom, member⟩ := List.exists_mem_of_ne_nil held (orderly.filled cause held found)
    have here : atom ∈ buffer.bucket cause := by simpa [bucket_eq_getD, found] using member
    exact ⟨atom, orderly.sound.mem_bucket.mp here⟩
  · rintro ⟨atom, member, caused⟩
    have here := orderly.sound.mem_bucket.mpr ⟨member, caused⟩
    rw [bucket_eq_getD] at here
    cases found : buffer.waiting[cause]? with
    | none => simp [found] at here
    | some held => exact ⟨held, rfl⟩

/-- After any calls no id is held twice, the table of causes has the held ids with their causes in it
and no others, no bucket is empty or holds an atom of another cause, the count is that of all atoms in
the buckets and within the limit, and the awaited causes are those of the held atoms, once each. So an
atom that must wait is known as a second delivery, or collides, exactly if such an atom waits anywhere,
and all that waits on a cause is taken in the order of arrival and leaves nothing behind. -/
theorem books_agree (limit : Option Nat) (calls : List Call) :
    let buffer := after limit calls
    (buffer.atoms.map (·.id)).Nodup ∧
      (∀ id cause, buffer.causes[id]? = some cause ↔
        ∃ atom ∈ buffer.atoms, atom.id = id ∧ atom.cause = some cause) ∧
      (∀ cause (held : List Atom), buffer.waiting[cause]? = some held →
        held ≠ [] ∧ ∀ atom ∈ held, atom.cause = some cause) ∧
      (buffer.size = buffer.atoms.length ∧ ∀ bound ∈ limit, buffer.size ≤ bound) ∧
      (buffer.awaited.Nodup ∧
        ∀ cause, cause ∈ buffer.awaited ↔ ∃ atom ∈ buffer.atoms, atom.cause = some cause) ∧
      (∀ (atom : Atom) (cause : AtomId), atom.cause = some cause → cause ≠ atom.id →
        ((∃ later, buffer.hold atom = .ok (false, later)) ↔
            ∃ other ∈ buffer.atoms, other.same atom = true) ∧
          (buffer.hold atom = .error (.identityCollision atom.id) ↔
            ∃ other ∈ buffer.atoms, other.id = atom.id ∧ other.same atom = false)) ∧
      (arrivals limit calls).Perm buffer.atoms ∧
      ∀ cause, (buffer.take cause).1 = (arrivals limit calls).filter (·.cause = some cause) ∧
        (∀ other, (buffer.take cause).2.waiting[other]? =
          if cause = other then none else buffer.waiting[other]?) ∧
        (∀ id, (buffer.take cause).2.causes[id]? =
          if ∃ atom ∈ (buffer.take cause).1, atom.id = id then none else buffer.causes[id]?) ∧
        (buffer.take cause).2.size + (buffer.take cause).1.length = buffer.size := by
  intro buffer
  obtain ⟨orderly, bound⟩ := orderly_after limit calls
  have sound := orderly.sound
  have faithful := faithful_line limit calls
  have same_buffer := buffer_line limit calls
  refine ⟨sound.distinct, sound.registered, ?buckets, ⟨sound.size_eq, ?bounded⟩,
    ⟨Std.HashMap.nodup_keys, fun _ => orderly.mem_awaited⟩, ?answers, ?line, ?taken⟩
  case buckets =>
    intro cause held found
    refine ⟨orderly.filled cause held found, ?_⟩
    have here : buffer.bucket cause = held := by simp [bucket_eq_getD, found]
    exact here ▸ sound.caused cause
  case bounded => exact bound ▸ orderly.bounded
  case answers =>
    intro atom cause caused apart
    exact ⟨sound.hold_eq_false_iff caused apart, sound.hold_eq_collision_iff caused apart⟩
  case line =>
    exact arrivals_perm limit calls
  case taken =>
    intro cause
    have bucket := faithful.bucket cause
    rw [same_buffer] at bucket
    refine ⟨bucket, getElem?_waiting_take buffer cause, causes_take buffer cause, ?_⟩
    have counted := (buffer.atoms_take_perm cause).length_eq
    rw [List.length_append] at counted
    rw [(sound.take cause).size_eq, sound.size_eq, counted, Nat.add_comm]

/-- Two atoms wait on one cause and a third on another. The second is offered again, and then with
another cause; when the third is taken, it leaves a full buffer. -/
theorem books_agree_when_full :
    let root : AtomId := { site := ⟨"a"⟩, timestamp := 1 }
    let first : Atom := { id := { site := ⟨"b"⟩, timestamp := 2 }, cause := some root }
    let second : Atom := { id := { site := ⟨"c"⟩, timestamp := 2 }, cause := some root }
    let third : Atom := { id := { site := ⟨"d"⟩, timestamp := 3 }, cause := some first.id }
    let forged : Atom := { second with cause := some third.id }
    let buffer := after (some 3) [.hold first, .hold third, .hold second]
    buffer.size = 3 ∧ (∃ later, buffer.hold second = .ok (false, later)) ∧
      buffer.hold forged = .error (.identityCollision second.id) ∧
      (buffer.take root).1 = [first, second] ∧ (buffer.take root).2.size = 1 := by
  intro root first second third forged buffer
  have order : arrivals (some 3) [.hold first, .hold third, .hold second] = [first, third, second] :=
    arrivals_offered [first, third, second] (by decide) (by decide) (by simp)
  have agree := books_agree (some 3) [.hold first, .hold third, .hold second]
  obtain ⟨_, _, _, ⟨counted, _⟩, _, answers, members, taken⟩ := agree
  rw [order] at members taken
  have waits : second ∈ buffer.atoms := members.mem_iff.mp (by simp)
  have full : buffer.size = 3 := by rw [counted, ← members.length_eq]; rfl
  have two : (buffer.take root).1 = [first, second] := (taken root).1
  have left : (buffer.take root).2.size + (buffer.take root).1.length = 3 :=
    (taken root).2.2.2.trans full
  refine ⟨full, ?_, ?_, two, ?_⟩
  · exact (answers second root rfl (by decide)).1.mpr ⟨second, waits, second.same_refl⟩
  · exact (answers forged third.id rfl (by decide)).2.mpr ⟨second, waits, rfl, by decide⟩
  · simp only [two, List.length_cons, List.length_nil] at left
    omega

end CausalWeave.PendingBuffer
