import CausalWeave.Proofs.Causality
import CausalWeave.Simulation.Participant
import Std.Data.String.ToNat

namespace CausalWeave.Simulation

inductive History : List Atom → Prop where
  | nil : History []
  | author {authored : List Atom} {atom : Atom} (earlier : History authored)
      (fresh : ∀ other ∈ authored, other.id.key ≠ atom.id.key)
      (causal : ∀ cause ∈ atom.cause, ∃ parent ∈ authored,
        parent.id = cause ∧ cause.timestamp < atom.id.timestamp) :
      History (authored ++ [atom])

namespace History

theorem unique (history : History authored) : (authored.map (·.id.key)).Nodup := by
  induction history with
  | nil => exact .nil
  | @author authored atom _ fresh _ ih =>
    rw [List.map_append, List.nodup_append']
    refine ⟨ih, by simp, ?_⟩
    intro key earlier here
    obtain ⟨other, member, rfl⟩ := List.mem_map.mp earlier
    simp only [List.map_cons, List.map_nil, List.mem_singleton] at here
    exact fresh other member here

theorem parent (history : History authored) {atom : Atom} (member : atom ∈ authored)
    {cause : AtomId} (caused : atom.cause = some cause) :
    ∃ parent ∈ authored, parent.id = cause ∧ cause.timestamp < atom.id.timestamp := by
  induction history with
  | nil => simp at member
  | author _ _ causal ih =>
    rcases List.mem_append.mp member with earlier | here
    · obtain ⟨parent, present, rest⟩ := ih earlier
      exact ⟨parent, List.mem_append_left _ present, rest⟩
    · rw [List.mem_singleton.mp here] at caused ⊢
      obtain ⟨parent, present, rest⟩ := causal cause caused
      exact ⟨parent, List.mem_append_left _ present, rest⟩

/-- The chain of causes of every authored atom ends at a root. -/
theorem rooted (history : History authored) : ∀ atom ∈ authored, Rooted authored atom := by
  induction history with
  | nil => simp
  | @author authored atom _ _ causal ih =>
    have kept : ∀ other ∈ authored, Rooted (authored ++ [atom]) other := by
      intro other member
      apply (ih other member).mono
      intro _ present
      exact List.mem_append_left _ present
    intro other member
    rcases List.mem_append.mp member with earlier | here
    · exact kept other earlier
    rw [List.mem_singleton.mp here]
    cases caused : atom.cause with
    | none => exact .root (by simp) caused
    | some cause =>
      obtain ⟨parent, present, rfl, _⟩ := causal cause caused
      exact .effect (kept parent present) (by simp) caused

end History

/-- The name of the site of a participant. -/
def siteOf (number : Nat) : Site where
  name := "r" ++ toString number

theorem siteOf_injective {first second : Nat} (same : siteOf first = siteOf second) :
    first = second := by
  have names := congrArg Site.name same
  simp only [siteOf, String.append_right_inj] at names
  exact Nat.repr_injective names

end CausalWeave.Simulation
