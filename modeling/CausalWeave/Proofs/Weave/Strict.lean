import CausalWeave.Weave

/-! A walk through a weave gives some answer whatever it meets. A strict walk has none when it reads outside of
the arena or the order, or takes more steps than there are nodes. -/

namespace CausalWeave.Weave.Strict

/-- A handle and those of its ancestors, up to a node without a parent, in at most so many steps. -/
def lineage (nodes : Array Node) (handle : Handle) : Nat → Option (List Handle)
  | 0 => none
  | steps + 1 => do
    let node ← nodes[handle]?
    match node.parent with
    | none => return [handle]
    | some parent => return handle :: (← lineage nodes parent steps)

/-- A node above itself has no last ancestor, however many steps are allowed. -/
theorem lineage_of_circular {nodes : Array Node} {handle : Handle} {node : Node}
    (found : nodes[handle]? = some node) (circular : node.parent = some handle) (steps : Nat) :
    lineage nodes handle steps = none := by
  induction steps with
  | zero => rfl
  | succ steps ih => simp [lineage, found, circular, ih]

def findSibling? (weave : Weave) (start stop : Nat) (target : Handle) : Option (Option Nat) :=
  if start < stop then do
    let here ← weave.order[start]?
    if here = target then return some start
    else
      let node ← weave.nodes[here]?
      findSibling? weave (start + 1 + node.span) stop target
  else return none
termination_by stop - start

def descend? (weave : Weave) (start stop found : Nat) : List Handle → Option (Option Nat)
  | [] => return some found
  | target :: rest => do
    match ← findSibling? weave start stop target with
    | none => return none
    | some position =>
      let node ← weave.nodes[target]?
      descend? weave (position + 1) (position + 1 + node.span) position rest

def locate? (weave : Weave) (id : AtomId) : Option (Option (Handle × Nat)) :=
  match weave.holder? id with
  | none => return none
  | some handle => do
    let node ← weave.nodes[handle]?
    if node.atom.id = id then
      let path ← lineage weave.nodes handle weave.nodes.size
      let position ← descend? weave 0 weave.size 0 path.reverse
      return position.map (handle, ·)
    else return none

def siblings? (weave : Weave) : Option AtomId → Option (Option Siblings)
  | none => return some { parent := none, start := 0, stop := weave.size }
  | some cause => do
    match ← locate? weave cause with
    | none => return none
    | some (handle, position) =>
      let node ← weave.nodes[handle]?
      return some
        { parent := some handle, start := position + 1, stop := position + 1 + node.span }

def siblingIds (weave : Weave) (start stop : Nat) : Option (List AtomId) :=
  if start < stop then do
    let node ← weave.nodeAt? start
    return node.atom.id :: (← siblingIds weave (start + 1 + node.span) stop)
  else return []
termination_by stop - start

def children (weave : Weave) (id : AtomId) : Option (List AtomId) := do
  match ← siblings? weave (some id) with
  | none => return []
  | some run => siblingIds weave run.start run.stop

def insertionIndex (weave : Weave) (start stop : Nat) (id : AtomId) : Option Nat :=
  if start < stop then do
    let sibling ← weave.nodeAt? start
    if id.siblingOrder sibling.atom.id = .lt then return start
    else insertionIndex weave (start + 1 + sibling.span) stop id
  else return start
termination_by stop - start

/-- Counts a descendant for a node and all its ancestors, in at most so many steps. -/
def count (nodes : Array Node) : Option Handle → Nat → Option (Array Node)
  | none, _ => return nodes
  | some _, 0 => none
  | some handle, steps + 1 => do
    let node ← nodes[handle]?
    count (nodes.modify handle grown) node.parent steps

def place (weave : Weave) (atom : Atom) (parent : Option Handle) (position : Nat) :
    Option Weave :=
  if position ≤ weave.size then do
    let added := weave.nodes.push { atom, parent, span := 0 }
    let nodes ← count added parent added.size
    return {
      nodes
      order := weave.order.insertIdxIfInBounds position weave.nodes.size
      index := weave.index.insert atom.id.key weave.nodes.size }
  else none

def insert (weave : Weave) (atom : Atom) : Option (Except Refusal (Placement × Weave)) :=
  if atom.cause = some atom.id then return .error (.selfCausation atom.id)
  else
    match weave.holder? atom.id with
    | some handle => do
      let node ← weave.nodes[handle]?
      return if node.atom.same atom then .ok (.alreadyPresent, weave)
        else .error (.identityCollision atom.id)
    | none => do
      match ← siblings? weave atom.cause with
      | none => return .ok (.causeMissing, weave)
      | some run =>
        let position ← insertionIndex weave run.start run.stop atom.id
        return .ok (.inserted position, ← place weave atom run.parent position)

end CausalWeave.Weave.Strict
