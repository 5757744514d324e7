import CausalWeave.Proofs.Replica.Block
import CausalWeave.Proofs.Weave.Newest
import Mathlib.Data.List.Permutation

namespace CausalWeave.Replica

/-- An atom has landed behind the subtrees of those siblings that had a higher priority, and right behind its
cause, or first of all, if there were none. The cause has stayed in its place. -/
structure Lands (weave later : Weave) (atom : Atom) (first : Nat) : Prop where
  base : weave.firstIndex? atom.cause = some first
  counted : ∀ sibling ∈ weave.effects atom.cause, (weave.descendantCount? sibling).isSome
  stands : later.toList[first +
    weave.extentAbove (weave.effects atom.cause) atom.id.priority]? = some atom
  position : later.position? atom.id =
    some (first + weave.extentAbove (weave.effects atom.cause) atom.id.priority)
  unmoved : ∀ cause ∈ atom.cause, later.position? cause = weave.position? cause
  adjacent : (∀ sibling ∈ weave.effects atom.cause, sibling.priority ≤ atom.id.priority) →
    later.position? atom.id = some first

variable [Observer σ] {replica : Replica σ} {atom : Atom}

theorem Sound.exists_inserted (sound : replica.Sound)
    (outcome : (replica.receive atom).1 = .ok (.woven position released)) :
    ∃ placed, replica.weave.insert atom = .ok (.inserted position, placed) := by
  have attempt := sound.weave.attempt atom
  simp only [Replica.receive, Weave.insertObserved] at outcome
  generalize replica.weave.insert atom = result at attempt outcome
  cases attempt with
  | selfCausation => simp at outcome
  | identityCollision => simp at outcome
  | alreadyPresent => simp at outcome
  | causeMissing =>
    dsimp only at outcome
    split at outcome <;> simp at outcome
  | inserted _ _ _ placed _ before =>
    simp only [Except.ok.injEq, Reception.woven.injEq] at outcome
    exact ⟨placed, by rw [outcome.1]⟩

omit [Observer σ] in
/-- What stands before the index at which an atom comes in stays where it is. -/
theorem Sound.position?_before {later : Replica σ} {landings : List Landing} {run : List Atom}
    (sound : replica.Sound) (grown : later.Sound)
    (block : Block replica later atom position landings run) {id : AtomId} {index : Nat}
    (found : replica.weave.position? id = some index) (before : index < position) :
    later.weave.position? id = some index := by
  obtain ⟨other, stands, same⟩ := sound.weave.position?_eq_some_iff.mp found
  have inside : index < replica.weave.toList.length := (List.getElem?_eq_some_iff.mp stands).1
  apply grown.weave.position?_eq_some_iff.mpr
  refine ⟨other, ?_, same⟩
  rw [block.sequence, List.getElem?_append_left (by rw [List.length_take]; omega),
    List.getElem?_take_of_lt before, stands]

omit [Observer σ] in
theorem Sound.lands {later : Replica σ} {landings : List Landing} {run : List Atom}
    (sound : replica.Sound) (grown : later.Sound)
    (newest : ∀ other ∈ replica.weave.toList, other.id.timestamp < atom.id.timestamp)
    (inserted : replica.weave.insert atom = .ok (.inserted position, placed))
    (block : Block replica later atom position landings run) :
    ∃ first, Lands replica.weave later.weave atom first := by
  have causal := (sound.weave.exists_inserted_iff.mp ⟨position, placed, inserted⟩).2
  obtain ⟨first, base, rfl⟩ := sound.weave.placed_newest newest inserted
  refine ⟨first, base, ?counted, ?stands, block.position, ?unmoved, ?adjacent⟩
  case counted =>
    intro sibling member
    obtain ⟨other, woven, rfl, _⟩ := ((sound.weave.listsEffects causal).members sibling).mp member
    obtain ⟨_, _, encloses⟩ := sound.weave.encloses woven
    simp [encloses.counted]
  case stands =>
    obtain ⟨other, stands, same⟩ := grown.weave.position?_eq_some_iff.mp block.position
    have here : atom ∈ later.weave.toList := by simp [block.sequence]
    rwa [eq_of_key grown.weave.nodup_keys (List.mem_of_getElem? stands) here
      (congrArg AtomId.key same)] at stands
  case unmoved =>
    intro cause caused
    rw [show atom.cause = some cause from caused, Weave.firstIndex?, Option.map_eq_some_iff] at base
    obtain ⟨index, found, rfl⟩ := base
    have before : index < index + 1 +
        replica.weave.extentAbove (replica.weave.effects atom.cause) atom.id.priority := by
      omega
    rw [found, sound.position?_before grown block found before]
  case adjacent =>
    intro lower
    rw [block.position, Weave.extentAbove_eq_zero lower, Nat.add_zero]

/-- While the clock has timestamps left, an atom that a replica creates below a woven cause or as a root is
woven with the next one, and lands behind the siblings of a higher priority. -/
theorem Reachable.create_lands (reachable : replica.Reachable)
    (room : replica.clock.latest.toNat < UInt64.size - 1) {cause : Option AtomId}
    (causal : ∀ id ∈ cause, replica.weave.contains id = true) (payload : Payload)
    (priority : Int32) :
    ∃ timestamp later first, timestamp.toNat = replica.clock.latest.toNat + 1 ∧
      replica.create cause payload priority =
        (.ok (replica.authored timestamp cause payload priority), later) ∧
      Lands replica.weave later.weave (replica.authored timestamp cause payload priority) first := by
  have sound := reachable.sound
  cases tick : replica.clock.tick with
  | none =>
    rw [LamportClock.tick_eq_none_iff] at tick
    omega
  | some next =>
    obtain ⟨timestamp, clock⟩ := next
    obtain ⟨issued, _⟩ := LamportClock.toNat_of_tick tick
    obtain ⟨recent, _⟩ := LamportClock.lt_of_tick tick
    have ticked := sound.ticked recent
    obtain ⟨position, released, later, received, _⟩ :=
      sound.weaves_authored recent causal payload priority
    have created := create_of_tick tick cause payload priority
    have outcome := congrArg Prod.fst received
    obtain ⟨placed, inserted⟩ := ticked.exists_inserted outcome
    obtain ⟨run, block⟩ := ticked.block (ticked.encounter _) outcome
    have grown := ticked.receive (replica.authored timestamp cause payload priority)
    rw [received] at created block grown
    have newest : ∀ other ∈ (replica.ticked timestamp).weave.toList,
        other.id.timestamp < (replica.authored timestamp cause payload priority).id.timestamp := by
      intro other woven
      exact UInt64.lt_of_le_of_lt (sound.heard other (List.mem_append_left _ woven)) recent
    obtain ⟨first, lands⟩ := ticked.lands grown newest inserted block
    exact ⟨timestamp, later, first, issued, created, lands⟩

/-- A text has a tombstone with a note below it and an older reply, and an atom waits for the id that is
created next. The new reply stands behind the tombstone and its note, before the older one. -/
theorem create_lands_behind_tombstone :
    let text : Atom := { id := { site := ⟨"a"⟩, timestamp := 1 } }
    let tombstone : Atom :=
      { id := { site := ⟨"b"⟩, timestamp := 2, priority := 1 }, cause := some text.id }
    let note : Atom := { id := { site := ⟨"a"⟩, timestamp := 3 }, cause := some tombstone.id }
    let reply : Atom := { id := { site := ⟨"b"⟩, timestamp := 4 }, cause := some text.id }
    let early : Atom :=
      { id := { site := ⟨"c"⟩, timestamp := 1, priority := 9 }
        cause := some { site := ⟨"x"⟩, timestamp := 5 } }
    let replica := after ⟨"x"⟩ .unbounded ()
      [.receive text, .receive tombstone, .receive note, .receive reply, .receive early]
    replica.Reachable ∧ replica.clock.latest.toNat < UInt64.size - 1 ∧
      replica.weave.contains text.id = true ∧
      ∃ atom later, replica.create (some text.id) .empty 0 = (.ok atom, later) ∧
        later.weave.toList[3]? = some atom ∧ later.weave.position? atom.id = some 3 := by
  intro text tombstone note reply early replica
  have reachable : replica.Reachable := ⟨_, _, _, _, rfl⟩
  have heard : replica.clock.latest = 4 := by
    dsimp +zetaDelta only
    cbv
  have room : replica.clock.latest.toNat < UInt64.size - 1 := by
    rw [heard]
    decide
  have woven : replica.weave.contains text.id = true := by
    dsimp +zetaDelta only
    cbv
  have causal : ∀ id ∈ some text.id, replica.weave.contains id = true := by simpa using woven
  obtain ⟨timestamp, later, first, _, created, lands⟩ := reachable.create_lands room causal .empty 0
  have base : replica.weave.firstIndex? (some text.id) = some 1 := by
    dsimp +zetaDelta only
    cbv
  have above : replica.weave.extentAbove (replica.weave.effects (some text.id)) 0 = 2 := by
    dsimp +zetaDelta only
    cbv
  have here : 1 = first := Option.some.inj (base.symm.trans lands.base)
  have stands : later.weave.toList[first +
      replica.weave.extentAbove (replica.weave.effects (some text.id)) 0]? = some _ :=
    lands.stands
  have position : later.weave.position? _ = some (first +
      replica.weave.extentAbove (replica.weave.effects (some text.id)) 0) :=
    lands.position
  rw [← here, above] at stands position
  exact ⟨reachable, room, woven, _, later, created, stands, position⟩

end CausalWeave.Replica
