import CausalWeave.Proofs.Simulation.Agreement
import Mathlib.Logic.Relation

namespace CausalWeave.Simulation

inductive Task where
  | drawPartition (round : Nat)
  | takeTurn (round sender : Nat)
  | deliverDue (round : Nat)
  | handOverRest (round : Nat)
  | exchange (round receiver sender : Nat)

structure Point where
  simulation : Simulation
  /-- The round in which messages are sent and handed over. -/
  round : Nat := 0
  /-- What is still to be sent in the turn that is being taken. -/
  outbox : List Message := []
  /-- What was taken from the network and is still to be handed over. -/
  inbox : List Message := []
  agenda : List Task

inductive Step : Point → Point → Prop where
  | send (simulation : Simulation) (round : Nat) (message : Message) (outbox inbox : List Message)
      (agenda : List Task) :
      Step { simulation, round, outbox := message :: outbox, inbox, agenda }
        { simulation := simulation.sendMessage round message, round, outbox, inbox, agenda }
  | handOver (simulation : Simulation) (round : Nat) (message : Message) (inbox : List Message)
      (agenda : List Task) :
      Step { simulation, round, inbox := message :: inbox, agenda }
        { simulation := simulation.handOver round message, round, inbox, agenda }
  | drawPartition (simulation : Simulation) (before round : Nat) (agenda : List Task) :
      Step { simulation, round := before, agenda := .drawPartition round :: agenda }
        { simulation := simulation.drawPartition round, round, agenda }
  | takeTurn (simulation : Simulation) (before round sender : Nat) (agenda : List Task) :
      Step { simulation, round := before, agenda := .takeTurn round sender :: agenda }
        { simulation := (simulation.beginTurn round sender).2, round
          outbox := (simulation.beginTurn round sender).1, agenda }
  | deliverDue (simulation : Simulation) (before round : Nat) (agenda : List Task) :
      Step { simulation, round := before, agenda := .deliverDue round :: agenda }
        { simulation := (simulation.beginDelivery round).2, round
          inbox := (simulation.beginDelivery round).1, agenda }
  | handOverRest (simulation : Simulation) (before round : Nat) (agenda : List Task) :
      Step { simulation, round := before, agenda := .handOverRest round :: agenda }
        { simulation := simulation.beginRest.2, round, inbox := simulation.beginRest.1, agenda }
  | exchange (simulation : Simulation) (before round receiver sender : Nat) (agenda : List Task) :
      Step { simulation, round := before, agenda := .exchange round receiver sender :: agenda }
        { simulation := simulation.exchange round receiver sender, round, agenda }

/-- One point comes after another one in a run. -/
abbrev Reaches : Point → Point → Prop :=
  Relation.ReflTransGen Step

def roundAgenda (count round : Nat) : List Task :=
  .drawPartition round :: ((List.range count).map (.takeTurn round ·) ++ [.deliverDue round])

def exchangeAgenda (round : Nat) (pairs : List (Nat × Nat)) : List Task :=
  pairs.map fun (receiver, sender) => .exchange round receiver sender

def closingAgenda (count round : Nat) : List Task :=
  .handOverRest round :: exchangeAgenda round (exchangePairs count)

namespace Point

def begin (simulation : Simulation) : Point where
  simulation
  agenda :=
    (List.range simulation.config.rounds).flatMap (roundAgenda simulation.participants.size) ++
      closingAgenda simulation.participants.size simulation.config.rounds

structure Ended (point : Point) : Prop where
  outbox : point.outbox = []
  inbox : point.inbox = []
  agenda : point.agenda = []

/-- The messages that were sent and not handed over yet. -/
def inTransit (point : Point) : List Message :=
  point.inbox ++ point.simulation.network.inFlight.map (·.message)

end Point

/-- The outcome of a run that ends here, and where the next run begins. -/
def close (simulation : Simulation) : Outcome × Simulation :=
  let states := simulation.participants.toList.map (·.snapshot)
  ({ trace := simulation.trace.toList
     states
     convergence := Convergence.ofSnapshots states
     interesting := simulation.interesting },
    { simulation with trace := #[] })

/-- Doing some tasks leads from one state to another one, whatever is to be done afterwards. -/
def Leads (tasks : List Task) (before after : Simulation) : Prop :=
  ∀ round agenda, ∃ later, Reaches { simulation := before, round, agenda := tasks ++ agenda }
    { simulation := after, round := later, agenda }

namespace Leads

theorem refl (simulation : Simulation) : Leads [] simulation simulation :=
  fun round _ => ⟨round, .refl⟩

theorem trans {tasks others : List Task} {first second third : Simulation}
    (leads : Leads tasks first second) (further : Leads others second third) :
    Leads (tasks ++ others) first third := by
  intro round agenda
  rw [List.append_assoc]
  obtain ⟨middle, reaches⟩ := leads round (others ++ agenda)
  obtain ⟨later, onward⟩ := further middle agenda
  exact ⟨later, reaches.trans onward⟩

theorem foldl {task : α → Task} {act : Simulation → α → Simulation}
    (leads : ∀ simulation item, Leads [task item] simulation (act simulation item)) (items : List α)
    (simulation : Simulation) : Leads (items.map task) simulation (items.foldl act simulation) := by
  induction items generalizing simulation with
  | nil => exact .refl simulation
  | cons item rest ih => exact (leads simulation item).trans (ih _)

end Leads

theorem reaches_sent (simulation : Simulation) (round : Nat) (messages : List Message)
    (agenda : List Task) :
    Reaches { simulation, round, outbox := messages, agenda }
      { simulation := messages.foldl (sendMessage round) simulation, round, agenda } := by
  induction messages generalizing simulation with
  | nil => exact .refl
  | cons message rest ih => exact .head (.send ..) (ih _)

theorem reaches_handedOver (simulation : Simulation) (round : Nat) (messages : List Message)
    (agenda : List Task) :
    Reaches { simulation, round, inbox := messages, agenda }
      { simulation := messages.foldl (fun simulation message => simulation.handOver round message)
          simulation
        round, agenda } := by
  induction messages generalizing simulation with
  | nil => exact .refl
  | cons message rest ih => exact .head (.handOver ..) (ih _)

theorem leads_takeTurn (simulation : Simulation) (round sender : Nat) :
    Leads [.takeTurn round sender] simulation (simulation.takeTurn round sender) := by
  intro before agenda
  rw [takeTurn_eq]
  exact ⟨round, .head (.takeTurn ..) (reaches_sent ..)⟩

theorem leads_handOverRest (simulation : Simulation) (round : Nat) :
    Leads [.handOverRest round] simulation (simulation.handOverRest round) := by
  intro before agenda
  exact ⟨round, .head (.handOverRest ..) (reaches_handedOver ..)⟩

theorem leads_exchanges (simulation : Simulation) (round : Nat) (pairs : List (Nat × Nat)) :
    Leads (exchangeAgenda round pairs) simulation (simulation.exchanges round pairs) :=
  .foldl (fun _ _ _ _ => ⟨round, .single (.exchange ..)⟩) pairs simulation

namespace Sound

variable {count : Nat} {earlier : List Atom} {simulation : Simulation}

theorem leads_playRound (sound : Sound count earlier simulation) (round : Nat) :
    Leads (roundAgenda count round) simulation (simulation.playRound round) := by
  have draws : Leads [.drawPartition round] simulation (simulation.drawPartition round) :=
    fun _ _ => ⟨round, .single (.drawPartition ..)⟩
  have turns := Leads.foldl (fun simulation sender => leads_takeTurn simulation round sender)
    (List.range count) (simulation.drawPartition round)
  have delivers : ∀ simulation : Simulation,
      Leads [.deliverDue round] simulation (simulation.deliverDue round) :=
    fun _ _ _ => ⟨round, .head (.deliverDue ..) (reaches_handedOver ..)⟩
  rw [Simulation.playRound, sound.size]
  exact draws.trans (turns.trans (delivers _))

theorem leads_playRounds (sound : Sound count earlier simulation) (rounds : List Nat) :
    Leads (rounds.flatMap (roundAgenda count)) simulation (rounds.foldl Simulation.playRound simulation) := by
  induction rounds generalizing simulation with
  | nil => exact .refl simulation
  | cons round rest ih => exact (sound.leads_playRound round).trans (ih (sound.playRound round))

/-- The points of a run lead to the state with which it ends. -/
theorem reaches_end (sound : Sound count earlier simulation) :
    ∃ last, Reaches (.begin simulation) last ∧ last.Ended ∧ simulation.run = last.simulation.close := by
  have whole := (sound.leads_playRounds (List.range simulation.config.rounds)).trans
    ((leads_handOverRest _ simulation.config.rounds).trans
      (leads_exchanges _ simulation.config.rounds (exchangePairs count)))
  obtain ⟨round, reaches⟩ := whole 0 []
  refine ⟨{ simulation := simulation.exchangedBefore (exchangePairs count), round, agenda := [] }, ?_,
    ⟨rfl, rfl, rfl⟩, sound.run_eq⟩
  simpa [Point.begin, closingAgenda, sound.size, exchangedBefore, Simulation.exchangeStart] using reaches

end Sound

end CausalWeave.Simulation
