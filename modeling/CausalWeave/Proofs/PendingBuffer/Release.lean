import CausalWeave.Proofs.PendingBuffer.Bookkeeping
import CausalWeave.Proofs.Weave.Linearization

namespace CausalWeave

/-- Ids of which each is that of an atom of the list, whose cause is one of the first ids or of the
ids before it. -/
inductive Spreads (atoms : List Atom) (first : List AtomId) : List AtomId → Prop where
  | start : Spreads atoms first []
  | next {ids : List AtomId} {atom : Atom} {cause : AtomId} (earlier : Spreads atoms first ids)
      (member : atom ∈ atoms) (caused : atom.cause = some cause) (reached : cause ∈ first ++ ids) :
      Spreads atoms first (ids ++ [atom.id])

namespace Spreads

variable {atoms : List Atom} {first ids : List AtomId}

theorem exists_cause (spreads : Spreads atoms first ids) {earlier later : List AtomId} {id : AtomId}
    (split : ids = earlier ++ id :: later) :
    ∃ atom ∈ atoms, atom.id = id ∧ ∃ cause ∈ first ++ earlier, atom.cause = some cause := by
  induction spreads generalizing later with
  | start => simp at split
  | @next ids atom cause before member caused reached ih =>
    -- The last id was the last to be reached; all others are among the ids before it.
    rcases List.eq_nil_or_concat' later with rfl | ⟨between, last, rfl⟩
    · obtain ⟨rfl, same⟩ := List.append_inj' split rfl
      exact ⟨atom, member, by simpa using same, cause, reached, caused⟩
    · rw [← List.cons_append, ← List.append_assoc] at split
      exact ih (List.append_inj' split rfl).1

theorem descends (spreads : Spreads atoms first ids) {id : AtomId} (member : id ∈ ids) :
    ∃ ancestor ∈ first, Descends atoms id ancestor := by
  induction spreads generalizing id with
  | start => simp at member
  | @next ids atom cause _ held caused reached ih =>
    rcases List.mem_append.mp member with old | new
    · exact ih old
    · have names : NamesCause atoms id cause := ⟨atom, held, (List.mem_singleton.mp new).symm, caused⟩
      rcases List.mem_append.mp reached with here | further
      · exact ⟨cause, here, .single names⟩
      · obtain ⟨ancestor, here, descends⟩ := ih further
        exact ⟨ancestor, here, .head names descends⟩

end Spreads

namespace Cascade

variable [Observer σ] {start cascade : Cascade σ}

def reached (start cascade : Cascade σ) : List AtomId :=
  start.woken ++ cascade.release.woven.map (·.id)

/-- The cascade has come from its start to where it is along the causes of the atoms that waited there,
and has some of them in hand. Only buckets of ids that it has reached were opened. -/
structure Course (start cascade : Cascade σ) (inHand : List Atom) : Prop where
  spreads : Spreads start.buffer.atoms start.woken (cascade.release.woven.map (·.id))
  woken : ∀ id ∈ cascade.woken, id ∈ reached start cascade
  untouched : ∀ cause ∉ reached start cascade,
    cascade.buffer.waiting[cause]? = start.buffer.waiting[cause]?
  taken : ∀ atom ∈ inHand, atom ∈ start.buffer.atoms ∧
    ∃ cause ∈ reached start cascade, atom.cause = some cause

namespace Course

variable {atom : Atom} {inHand : List Atom}

omit [Observer σ] in
/-- An atom that lands is reached, and so is all that waits on it from then on. -/
private theorem settle_landed (course : Course start cascade (atom :: inHand)) (weave : Weave)
    (observer : σ) (position : Nat) :
    Course start
      { cascade with
        weave, observer
        release := { cascade.release with
          woven := cascade.release.woven ++ [{ id := atom.id, position : Landing }] }
        woken := cascade.woken ++ [atom.id] } inHand := by
  obtain ⟨member, cause, reached_cause, caused⟩ := course.taken atom (by simp)
  refine ⟨?spreads, ?woken, ?untouched, ?taken⟩ <;>
    simp only [reached, List.map_append, List.map_cons, List.map_nil, ← List.append_assoc]
  case spreads => exact course.spreads.next member caused reached_cause
  case woken =>
    intro id present
    exact List.mem_append.mpr ((List.mem_append.mp present).imp_left (course.woken id))
  case untouched =>
    intro cause beyond
    exact course.untouched cause fun inside => beyond (List.mem_append_left _ inside)
  case taken =>
    intro other present
    obtain ⟨held, cause, inside, caused⟩ := course.taken other (by simp [present])
    exact ⟨held, cause, List.mem_append_left _ inside, caused⟩

theorem settle (course : Course start cascade (atom :: inHand)) :
    Course start (cascade.settle atom) inHand := by
  obtain ⟨member, cause, inside, caused⟩ := course.taken atom (by simp)
  have later := fun other present => course.taken other (List.mem_cons_of_mem atom present)
  unfold Cascade.settle
  split
  case h_1 named goes =>
    obtain ⟨names, _⟩ := Option.filter_eq_some_iff.mp goes
    rw [caused, Option.some.injEq] at names
    refine ⟨course.spreads, course.woken, ?_, later⟩
    intro other beyond
    have apart : ¬ named = other := by
      rintro rfl
      exact beyond (names ▸ inside)
    simpa [PendingBuffer.getElem?_waiting_push, apart] using course.untouched other beyond
  case h_2 =>
    split
    · exact ⟨course.spreads, course.woken, course.untouched, later⟩
    · exact course.settle_landed _ _ _
    · exact ⟨course.spreads, course.woken, course.untouched, later⟩

theorem foldl_settle (course : Course start cascade inHand) :
    Course start (inHand.foldl Cascade.settle cascade) [] := by
  induction inHand generalizing cascade with
  | nil => exact course
  | cons atom inHand ih => exact ih course.settle

theorem follow (course : Course start cascade []) (remnant : start.buffer.Remnant cascade.buffer)
    (next : cascade.woken = cause :: others) : Course start (cascade.follow cause others) [] := by
  have woken := course.woken
  rw [next] at woken
  suffices opened : Course start
      { cascade with buffer := (cascade.buffer.take cause).2, woken := others }
      (cascade.buffer.take cause).1 from opened.foldl_settle
  refine ⟨course.spreads, fun id member => woken id (by simp [member]), ?untouched, ?taken⟩
  case untouched =>
    intro other beyond
    have apart : ¬ cause = other := by
      rintro rfl
      exact beyond (woken cause (by simp))
    simpa [PendingBuffer.getElem?_waiting_take, apart] using course.untouched other beyond
  case taken =>
    intro atom member
    obtain ⟨held, caused⟩ := remnant.orderly.sound.mem_bucket.mp member
    exact ⟨remnant.subset atom held, cause, woken cause (by simp), caused⟩

theorem run (start : Cascade σ) (orderly : start.buffer.Orderly) (released : start.release = {}) :
    Course start start.run [] ∧ start.buffer.Remnant start.run.buffer := by
  let came (cascade : Cascade σ) :=
    Course start cascade [] ∧ start.buffer.Remnant cascade.buffer
  have kept : came start.run ∧ start.run.woken = [] := by
    apply run_induction
    · refine ⟨⟨?_, ?_, fun _ _ => rfl, by simp⟩, .refl orderly⟩
      · simpa [released] using Spreads.start
      · exact fun id member => List.mem_append_left _ member
    · rintro cascade cause others next ⟨course, remnant⟩
      exact ⟨course.follow remnant next, remnant_follow remnant cause others⟩
  exact kept.1

end Course

/-- No atom moves while the cause of all of them is missing. -/
theorem foldl_settle_of_missing {atoms : List Atom} (missing : cascade.weave.contains cause = false)
    (caused : ∀ atom ∈ atoms, atom.cause = some cause) : atoms.foldl settle cascade =
      { cascade with
        buffer := atoms.foldl (fun buffer atom => buffer.push cause atom) cascade.buffer } := by
  induction atoms generalizing cascade with
  | nil => rfl
  | cons atom rest ih =>
    have goes : atom.cause.filter (fun cause => !cascade.weave.contains cause) = some cause := by
      simp [caused atom (by simp), Option.filter, missing]
    have back : cascade.settle atom = { cascade with buffer := cascade.buffer.push cause atom } := by
      rw [settle, goes]
    rw [List.foldl_cons, back]
    exact ih missing fun other member => caused other (by simp [member])

end Cascade

namespace PendingBuffer

/-- Buffers with the same atoms in the same order in each bucket, the same table of causes and the same
numbers. -/
structure Alike (first second : PendingBuffer) : Prop where
  waiting : first.waiting.Equiv second.waiting
  causes : first.causes.Equiv second.causes
  size : first.size = second.size
  limit : first.limit = second.limit

/-- In sound buffers the buckets decide about the rest. -/
theorem Sound.alike {first second : PendingBuffer} (sound : first.Sound) (also : second.Sound)
    (waiting : first.waiting.Equiv second.waiting) (limit : first.limit = second.limit) :
    first.Alike second := by
  have members : first.atoms.Perm second.atoms := waiting.toList_perm.flatMap_right _
  refine ⟨waiting, ?causes, ?size, limit⟩
  case causes =>
    apply Std.HashMap.Equiv.of_forall_getElem?_eq
    intro id
    apply Option.ext
    intro cause
    rw [sound.registered, also.registered]
    simp only [NamesCause, members.mem_iff]
  case size => rw [sound.size_eq, also.size_eq, members.length_eq]

theorem Orderly.keeping_bucket {buffer : PendingBuffer} (orderly : buffer.Orderly) (cause : AtomId) :
    (buffer.keeping cause (buffer.bucket cause)).Alike buffer := by
  have sublist : (buffer.bucket cause).Sublist (buffer.bucket cause) := .refl _
  apply (orderly.sound.keeping sublist).alike orderly.sound _ (limit_keeping _ _ _)
  apply Std.HashMap.Equiv.of_forall_getElem?_eq
  intro other
  rw [getElem?_waiting_keeping]
  split
  · rename_i same
    subst same
    rw [bucket_eq_getD]
    cases found : buffer.waiting[cause]? with
    | none => simp
    | some held => simpa using orderly.filled cause held found
  · rfl

/-- An id that is not woven sets nothing free. -/
theorem Sound.release_of_missing [Observer σ] {buffer : PendingBuffer} (sound : buffer.Sound)
    {weave : Weave} {id : AtomId} (missing : weave.contains id = false) (observer : σ) :
    buffer.release weave observer id =
      { weave, observer, buffer := buffer.keeping id (buffer.bucket id), woken := [] } := by
  have back : Cascade.follow { weave, observer, buffer, woken := [id] } id [] =
      { weave, observer, buffer := buffer.keeping id (buffer.bucket id), woken := [] } :=
    Cascade.foldl_settle_of_missing missing (sound.caused id)
  rw [release, Cascade.run_of_next rfl, back, Cascade.run_of_ended rfl]

/-- What came of a woven id that set atoms free. The atoms that waited are still there, were woven one
after another, were refused for an atom under their key, or were woven before. -/
structure Outcome [Observer σ] (buffer : PendingBuffer) (weave : Weave) (observer : σ) (id : AtomId)
    (ledger : Cascade.Ledger) (result : Cascade σ) : Prop where
  accounted : buffer.atoms.Perm (ledger.landings.map (·.1) ++
    (ledger.refused ++ (ledger.repeated ++ result.buffer.atoms)))
  grown : Grows weave.toList ledger.landings result.weave.toList
  observed : result.observer = ledger.landings.foldl
    (fun observer landing => Observer.notice observer (landing.1.placedAt landing.2)) observer
  released : result.release.woven =
    ledger.landings.map fun landing => { id := landing.1.id, position := landing.2 }
  rejected : result.release.rejected = ledger.refused.map fun atom => .identityCollision atom.id
  collided : ∀ atom ∈ ledger.refused, ∃ other ∈ result.weave.toList,
    other.id.key = atom.id.key ∧ other.same atom = false
  repeated : ∀ atom ∈ ledger.repeated, ∃ other ∈ weave.toList, other.same atom = true
  caused : ∀ earlier landing later, ledger.landings = earlier ++ landing :: later →
    ∃ cause, landing.1.cause = some cause ∧
      (weave.contains cause = true ∨ cause ∈ earlier.map (·.1.id))
  waiting : ∀ cause, result.buffer.waiting[cause]? =
    if cause = id ∨ cause ∈ ledger.landings.map (·.1.id) then none else buffer.waiting[cause]?

section Woven

variable [Observer σ] {buffer : PendingBuffer} {weave : Weave} {observer : σ} {id : AtomId}
  {ledger : Cascade.Ledger} {result : Cascade σ}

private theorem waiting_reached {start : Cascade σ} (accounts : ledger.Accounts start result [])
    (ended : result.woken = []) (orderly : result.buffer.Orderly)
    (reached : cause ∈ start.woken ∨ cause ∈ ledger.landings.map (·.1.id)) :
    result.buffer.waiting[cause]? = none := by
  cases found : result.buffer.waiting[cause]? with
  | none => rfl
  | some held =>
    have listed : cause ∈ result.buffer.awaited :=
      Std.HashMap.mem_keys.mpr (Std.HashMap.mem_iff_isSome_getElem?.mpr (by simp [found]))
    obtain ⟨atom, member, caused⟩ := orderly.mem_awaited.mp listed
    have woken := accounts.awaited atom member cause caused reached
    simp [ended] at woken

private theorem spreads_landings {start : Cascade σ} (accounts : ledger.Accounts start result [])
    (course : Cascade.Course start result []) :
    Spreads start.buffer.atoms start.woken (ledger.landings.map (·.1.id)) := by
  have spreads := course.spreads
  rwa [accounts.landed, List.map_map] at spreads

private theorem outcome_of_accounts (orderly : buffer.Orderly) (woven : weave.contains id = true)
    (accounts : ledger.Accounts { weave, observer, buffer, woken := [id] } result [])
    (ended : result.woken = [])
    (course : Cascade.Course { weave, observer, buffer, woken := [id] } result [])
    (remnant : buffer.Remnant result.buffer) : Outcome buffer weave observer id ledger result where
  accounted := by simpa using accounts.accounted
  grown := accounts.grown
  observed := accounts.observed
  released := accounts.landed
  rejected := accounts.rejected
  collided := accounts.collided
  repeated := accounts.present_at_start orderly.sound
  caused := by
    intro earlier landing later split
    have ids : ledger.landings.map (·.1.id) =
        earlier.map (·.1.id) ++ landing.1.id :: later.map (·.1.id) := by simp [split]
    obtain ⟨atom, member, same, cause, reached, caused⟩ :=
      (spreads_landings accounts course).exists_cause ids
    have present : landing.1 ∈ buffer.atoms := accounts.accounted.mem_iff.mpr (by simp [split])
    rw [orderly.sound.eq_of_id member present same] at caused
    refine ⟨cause, caused, ?_⟩
    rcases List.mem_append.mp reached with first | landed
    · exact .inl (List.mem_singleton.mp first ▸ woven)
    · exact .inr landed
  waiting := by
    intro cause
    have listed : cause ∈ Cascade.reached { weave, observer, buffer, woken := [id] } result ↔
        cause = id ∨ cause ∈ ledger.landings.map (·.1.id) := by
      simp [Cascade.reached, accounts.landed]
    split
    · rename_i reached
      exact waiting_reached accounts ended remnant.orderly (by simpa using reached)
    · rename_i beyond
      exact course.untouched cause (beyond ∘ listed.mp)

theorem Orderly.exists_outcome (orderly : buffer.Orderly) (held : weave.Sound)
    (woven : weave.contains id = true) (observer : σ) : ∃ ledger : Cascade.Ledger,
      Outcome buffer weave observer id ledger (buffer.release weave observer id) ∧
        Spreads buffer.atoms [id] (ledger.landings.map (·.1.id)) ∧
        (Coherent (weave.toList ++ buffer.atoms) → ledger.refused = []) := by
  obtain ⟨ledger, accounts, ended⟩ := orderly.sound.accounts_release held woven observer
  obtain ⟨course, remnant⟩ :=
    Cascade.Course.run { weave, observer, buffer, woken := [id] } orderly rfl
  exact ⟨ledger, outcome_of_accounts orderly woven accounts ended course remnant,
    spreads_landings accounts course, accounts.refused_eq_nil⟩

private theorem mem_ids {landings : List (Atom × Nat)} (landed : atom ∈ landings.map (·.1)) :
    atom.id ∈ landings.map (·.1.id) := by
  obtain ⟨landing, member, rfl⟩ := List.mem_map.mp landed
  exact List.mem_map.mpr ⟨landing, member, rfl⟩

namespace Outcome

variable (outcome : Outcome buffer weave observer id ledger result)

include outcome

theorem repeated_eq_nil (held : weave.Sound)
    (unwoven : ∀ atom ∈ buffer.atoms, weave.contains atom.id = false) : ledger.repeated = [] := by
  apply List.eq_nil_iff_forall_not_mem.mpr
  intro atom member
  have waited : atom ∈ buffer.atoms := outcome.accounted.mem_iff.mpr (by simp [member])
  obtain ⟨other, present, same⟩ := outcome.repeated atom member
  have woven := held.contains_iff.mpr ⟨other, present, Atom.id_eq_of_same same⟩
  simp [unwoven atom waited] at woven

/-- An atom that waits on the id or on an atom that was set free does not stay. -/
theorem leaves (orderly : buffer.Orderly) (caused : atom.cause = some cause)
    (reached : cause = id ∨ cause ∈ ledger.landings.map (·.1.id)) : atom ∉ result.buffer.atoms := by
  intro stays
  obtain ⟨named, present⟩ := mem_atoms.mp stays
  rw [bucket_eq_getD, outcome.waiting] at present
  split at present
  · simp at present
  · rename_i beyond
    rw [← bucket_eq_getD] at present
    have names := (orderly.sound.mem_bucket.mp present).2
    rw [caused, Option.some.injEq] at names
    exact beyond (names ▸ reached)

/-- When no atom is refused or was woven before, those are set free that descend from the id. -/
theorem landed_iff (orderly : buffer.Orderly)
    (spreads : Spreads buffer.atoms [id] (ledger.landings.map (·.1.id)))
    (refused : ledger.refused = []) (repeated : ledger.repeated = []) (atom : Atom)
    (waits : atom ∈ buffer.atoms) :
    atom ∈ ledger.landings.map (·.1) ↔ Descends buffer.atoms atom.id id := by
  have lands : ∀ other ∈ buffer.atoms, ∀ cause, other.cause = some cause →
      cause = id ∨ cause ∈ ledger.landings.map (·.1.id) → other ∈ ledger.landings.map (·.1) := by
    intro other waits cause caused reached
    have gone := outcome.leaves orderly caused reached
    have places := outcome.accounted.mem_iff.mp waits
    simpa [refused, repeated, gone] using places
  constructor
  · intro landed
    obtain ⟨ancestor, first, descends⟩ := spreads.descends (mem_ids landed)
    exact List.mem_singleton.mp first ▸ descends
  · intro descends
    generalize same : atom.id = descendant at descends
    induction descends using Relation.TransGen.head_induction_on generalizing atom with
    | single names =>
      exact lands atom waits id (names.cause_eq orderly.sound.distinct waits same) (.inl rfl)
    | head names further ih =>
      obtain ⟨_, ⟨parent, member, rfl, _⟩, _⟩ := Relation.TransGen.head'_iff.mp further
      have parent_landed := mem_ids (ih parent member rfl)
      have caused := names.cause_eq orderly.sound.distinct waits same
      exact lands atom waits parent.id caused (.inr parent_landed)

end Outcome
end Woven

/-- Whatever was asked of a buffer and a weave, an id that is not woven sets nothing free. From a woven
one the cascade comes to an end, and every atom that waited is still there, was woven after its cause,
was refused once, or was there already; no bucket of the id or of an id woven with it is left, and all
others are as they were. If no contents collide and no waiting atom is woven, exactly those atoms are
set free that descend from the id. -/
theorem Reachable.release_frees_descendants [Observer σ] {buffer : PendingBuffer}
    (reachable : buffer.Reachable) {weave : Weave} (built : weave.Reachable) (observer : σ)
    (id : AtomId) :
    let result := buffer.release weave observer id
    result.woken = [] ∧
      (weave.contains id = false → result.buffer.Alike buffer ∧ result.weave = weave ∧
        result.observer = observer ∧ result.release = {}) ∧
      (weave.contains id = true → ∃ ledger : Cascade.Ledger,
        Outcome buffer weave observer id ledger result ∧
          (Coherent (weave.toList ++ buffer.atoms) →
            (∀ atom ∈ buffer.atoms, weave.contains atom.id = false) →
              ledger.refused = [] ∧ ledger.repeated = [] ∧ ∀ atom ∈ buffer.atoms,
                atom ∈ ledger.landings.map (·.1) ↔ Descends buffer.atoms atom.id id)) := by
  intro result
  have orderly := reachable.orderly
  refine ⟨?ended, ?missing, ?woven⟩
  case ended => exact (Cascade.run_induction (motive := fun _ => True) trivial (by simp)).2
  case missing =>
    intro missing
    have kept : result = _ := orderly.sound.release_of_missing missing observer
    rw [kept]
    exact ⟨orderly.keeping_bucket id, rfl, rfl, rfl⟩
  case woven =>
    intro woven
    obtain ⟨ledger, outcome, spreads, accepts⟩ := orderly.exists_outcome built.sound woven observer
    refine ⟨ledger, outcome, ?_⟩
    intro coherent unwoven
    have refused := accepts coherent
    have repeated := outcome.repeated_eq_nil built.sound unwoven
    exact ⟨refused, repeated, outcome.landed_iff orderly spreads refused repeated⟩

/-- A root sets an atom free that waits on it, and with it the one that waits on that. An atom that
waits on an unknown id stays. -/
theorem release_frees_chain :
    let root : Atom := { id := { site := ⟨"a"⟩, timestamp := 1 } }
    let first : Atom := { id := { site := ⟨"b"⟩, timestamp := 2 }, cause := some root.id }
    let second : Atom := { id := { site := ⟨"c"⟩, timestamp := 3 }, cause := some first.id }
    let unknown : AtomId := { site := ⟨"e"⟩, timestamp := 8 }
    let stranger : Atom := { id := { site := ⟨"d"⟩, timestamp := 9 }, cause := some unknown }
    let buffer := after none [.hold first, .hold stranger, .hold second]
    let weave := (Weave.Session.after () [.insert root]).weave
    let result := buffer.release weave () root.id
    buffer.Reachable ∧ weave.Reachable ∧ weave.contains root.id = true ∧
      (first.id ∈ result.release.woven.map (·.id) ∧ second.id ∈ result.release.woven.map (·.id)) ∧
      result.release.rejected = [] ∧ stranger ∈ result.buffer.atoms := by
  intro root first second unknown stranger buffer weave result
  have reachable : buffer.Reachable := ⟨_, _, rfl⟩
  have built : weave.Reachable := ⟨_, rfl⟩
  have order : arrivals none [.hold first, .hold stranger, .hold second] = [first, stranger, second] :=
    arrivals_offered [first, stranger, second] (by decide) (by decide) (by simp)
  have held : [first, stranger, second].Perm buffer.atoms := order ▸ arrivals_perm _ _
  have woven : weave.toList = [root] := by
    have members := (Weave.Session.faithful_after () [.insert root]).members
    rw [Weave.Session.woven_after] at members
    exact List.perm_singleton.mp members
  have contains : weave.contains root.id = true :=
    built.sound.contains_iff.mpr ⟨root, by simp [woven], rfl⟩
  have coherent : Coherent (weave.toList ++ buffer.atoms) := by
    have apart : ([root, first, stranger, second].map (·.id.key)).Nodup := by decide
    apply (coherent_of_unique apart).of_within
    exact within_of_subset fun atom => by simp [woven, ← held.mem_iff]
  have unwoven : ∀ atom ∈ buffer.atoms, weave.contains atom.id = false := by
    intro atom member
    rw [← Bool.not_eq_true, built.sound.contains_iff, woven]
    revert atom
    simp only [← held.mem_iff]
    decide
  have frees := reachable.release_frees_descendants built () root.id
  obtain ⟨ledger, outcome, descendants⟩ := frees.2.2 contains
  obtain ⟨refused, repeated, landed⟩ := descendants coherent unwoven
  have names : NamesCause buffer.atoms first.id root.id := ⟨first, by simp [← held.mem_iff], rfl, rfl⟩
  have onward : NamesCause buffer.atoms second.id first.id :=
    ⟨second, by simp [← held.mem_iff], rfl, rfl⟩
  have landed_first := (landed first (by simp [← held.mem_iff])).mpr (.single names)
  have landed_second := (landed second (by simp [← held.mem_iff])).mpr (.head onward (.single names))
  have beyond : ¬ (unknown = root.id ∨ unknown ∈ ledger.landings.map (·.1.id)) := by
    rintro (same | woken)
    · exact absurd same (by decide)
    · obtain ⟨landing, member, same⟩ := List.mem_map.mp woken
      have waited : landing.1 ∈ [first, stranger, second] :=
        (held.trans outcome.accounted).mem_iff.mpr (List.mem_append_left _ (List.mem_map_of_mem member))
      revert same
      generalize landing.1 = atom at waited
      revert atom
      decide
  have stays : stranger ∈ result.buffer.atoms := by
    have here : stranger ∈ buffer.bucket unknown :=
      reachable.orderly.sound.mem_bucket.mpr ⟨by simp [← held.mem_iff], rfl⟩
    rw [bucket_eq_getD, ← (outcome.waiting unknown).trans (if_neg beyond), ← bucket_eq_getD] at here
    exact mem_atoms.mpr ⟨unknown, here⟩
  refine ⟨reachable, built, contains, ?_, ?_, stays⟩
  · rw [outcome.released, List.map_map]
    exact ⟨mem_ids landed_first, mem_ids landed_second⟩
  · rw [outcome.rejected, refused, List.map_nil]

end PendingBuffer
end CausalWeave
