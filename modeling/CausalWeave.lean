import CausalWeave.AtomId
import CausalWeave.Double.Shortest
import CausalWeave.Generator
import CausalWeave.Json.Printer
import CausalWeave.Json.Token
import CausalWeave.Json.Tree
import CausalWeave.LamportClock
import CausalWeave.Main
import CausalWeave.Proofs.Forest
import CausalWeave.Refusal
import CausalWeave.Replica
import CausalWeave.Replica.Config.Loading
import CausalWeave.Sequence
import CausalWeave.Simulation
import CausalWeave.Simulation.Encoding
import CausalWeave.Weave.Digest
import CausalWeave.Proofs.CanonicalOrder
import CausalWeave.Proofs.Weave.Growth
import CausalWeave.Proofs.Weave.Insertion
import CausalWeave.Proofs.Causality
import CausalWeave.Proofs.Content
import CausalWeave.Proofs.PendingBuffer
import CausalWeave.Proofs.Weave.Linearization
import CausalWeave.Proofs.Cascade
import CausalWeave.Proofs.Replica.Reception
import CausalWeave.Proofs.Replica.Convergence
import CausalWeave.Proofs.Replica.Creation
import CausalWeave.Proofs.Replica.Recording
import CausalWeave.Proofs.Generator
import CausalWeave.Proofs.Simulation.History
import CausalWeave.Proofs.Simulation.Participant
import CausalWeave.Proofs.Simulation.Soundness
import CausalWeave.Proofs.Simulation.Agreement
import CausalWeave.Proofs.Oracle.Sequences
import CausalWeave.Proofs.Oracle.Convergence
import CausalWeave.Proofs.Oracle.Verdict
import CausalWeave.Proofs.Campaign
import CausalWeave.Proofs.Pruning
import CausalWeave.Proofs.Replica.Reachable
import CausalWeave.Proofs.Replica.Replay
import CausalWeave.Proofs.Weave.Subtree
import CausalWeave.Proofs.Replica.Block
import CausalWeave.Proofs.Chains
import CausalWeave.Proofs.Replica.Waiting
import CausalWeave.Proofs.Replica.Merging
import CausalWeave.Proofs.Replica.RelativeOrder
import CausalWeave.Proofs.Replica.Freshness
import CausalWeave.Proofs.Replica.Redelivery
import CausalWeave.Proofs.Atom.Encoding
import CausalWeave.Proofs.Json.Printing
import CausalWeave.Proofs.Json.Reading
import CausalWeave.Proofs.Sequence
import CausalWeave.Proofs.Sequence.Reencoding
import CausalWeave.Proofs.Replica.Collision
import CausalWeave.Proofs.Replica.Stillness
import CausalWeave.Proofs.Replica.Accounting
import CausalWeave.Proofs.Simulation.Network
import CausalWeave.Proofs.Simulation.Growth
import CausalWeave.Proofs.Simulation.Steps
import CausalWeave.Proofs.Simulation.Accounts
import CausalWeave.Proofs.Simulation.Interest
import CausalWeave.Proofs.PendingBuffer.Bookkeeping
import CausalWeave.Proofs.PendingBuffer.Cycles
import CausalWeave.Proofs.PendingBuffer.Release
import CausalWeave.Proofs.CommandLine
import CausalWeave.Proofs.Weave.Position
import CausalWeave.Proofs.Weave.Children
import CausalWeave.Proofs.Replica.LocalEdit
import CausalWeave.Proofs.Simulation.Knowledge
import CausalWeave.Proofs.Weave.Digest
import CausalWeave.Proofs.AtomId.Messages
import CausalWeave.Proofs.Sequence.Concatenation
import CausalWeave.Proofs.Weave.Walks
import CausalWeave.Proofs.Generator.Period
