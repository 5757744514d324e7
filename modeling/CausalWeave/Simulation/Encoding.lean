import CausalWeave.Atom.Encoding
import CausalWeave.Simulation

namespace CausalWeave

def Json.ofNat (value : Nat) : Json :=
  .whole value

def Json.ofList (write : α → Json) (items : List α) : Json :=
  .array (items.map write)

namespace Simulation

def Snapshot.toJson (snapshot : Snapshot) : Json :=
  .object
    [("id", .ofNat snapshot.number), ("site", .text snapshot.site.name),
      ("digest", .text snapshot.digest), ("sequence", .ofList Atom.toJson snapshot.sequence),
      ("pending", .ofNat snapshot.pending)]

def Arrival.toJson : Arrival → Json
  | woven position released =>
    .object
      [("woven", .object [("position", .ofNat position), ("released", .ofNat released)])]
  | duplicate => .text "duplicate"
  | deferred => .text "deferred"

def Event.toJson : Event → Json
  | emit replica atom =>
    .object [("event", .text "emit"), ("replica", .ofNat replica), ("atom", atom.toJson)]
  | send sender receiver atom dropped duplicated delay =>
    .object
      [("event", .text "send"), ("from", .ofNat sender), ("to", .ofNat receiver),
        ("atom", atom.toJson), ("dropped", .bool dropped), ("duplicated", .bool duplicated),
        ("delay_rounds", .ofNat delay)]
  | deliver sender receiver atom outcome =>
    .object
      [("event", .text "deliver"), ("from", .ofNat sender), ("to", .ofNat receiver),
        ("atom", atom.toJson), ("outcome", outcome.toJson)]
  | reorder messages => .object [("event", .text "reorder"), ("messages", .ofNat messages)]
  | partition replica isolated =>
    .object
      [("event", .text "partition"), ("replica", .ofNat replica), ("isolated", .bool isolated)]
  | reject replica atom why =>
    .object
      [("event", .text "reject"), ("replica", .ofNat replica), ("atom", atom.toJson),
        ("error", .text why.message)]
  | sync sender receiver woven =>
    .object
      [("event", .text "sync"), ("from", .ofNat sender), ("to", .ofNat receiver),
        ("woven", .ofNat woven)]

def TraceStep.toJson (step : TraceStep) : Json :=
  .object [("round", .ofNat step.round), ("kind", step.event.toJson)]

def Convergence.toJson (convergence : Convergence) : Json :=
  .object
    [("converged", .bool convergence.converged),
      ("divergent_replicas", .ofList Json.ofNat convergence.divergent),
      ("canonical_len", .ofNat convergence.canonicalLength),
      ("canonical_digest", .text convergence.canonicalDigest)]

def Outcome.toJson (outcome : Outcome) : Json :=
  .object
    [("trace", .ofList TraceStep.toJson outcome.trace),
      ("states", .ofList Snapshot.toJson outcome.states),
      ("convergence", outcome.convergence.toJson),
      ("interesting_state_reached", .bool outcome.interesting)]

end Simulation
end CausalWeave
