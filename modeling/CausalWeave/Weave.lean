import CausalWeave.Observer
import CausalWeave.Refusal
import Std.Data.HashMap

/-! Atoms stay where they are in an arena and the order lists their handles. A node counts its descendants,
which directly follow it. No position is stored: it is found from the root down, through the ancestors. -/

namespace CausalWeave

/-- The index of a node in the arena, which it keeps forever. -/
abbrev Handle := Nat

structure Node where
  atom : Atom
  parent : Option Handle
  /-- How many atoms descend from this one. -/
  span : Nat

structure Weave where
  nodes : Array Node := #[]
  /-- The handles in the order of the atoms. -/
  order : Array Handle := #[]
  index : Std.HashMap (Site × UInt64) Handle := ∅

/-- What became of an atom that broke no rule. -/
inductive Placement where
  | inserted (position : Nat)
  /-- An atom of the same content is woven already. -/
  | alreadyPresent
  /-- The weave does not hold the cause. -/
  | causeMissing
deriving DecidableEq

/-- A run of sibling subtrees in the order: `start ≤ index < stop`. -/
structure Siblings where
  parent : Option Handle
  start : Nat
  stop : Nat

namespace Weave

def empty : Weave := {}

def size (weave : Weave) : Nat :=
  weave.order.size

def span (weave : Weave) (handle : Handle) : Nat :=
  match weave.nodes[handle]? with
  | some node => node.span
  | none => 0

/-- The node that stands at an index of the order. -/
def nodeAt? (weave : Weave) (position : Nat) : Option Node :=
  weave.order[position]?.bind fun handle => weave.nodes[handle]?

def toList (weave : Weave) : List Atom :=
  weave.order.toList.filterMap fun handle => weave.nodes[handle]?.map (·.atom)

/-- The handle of the atom that has the site and the timestamp of an id, whatever its priority. -/
def holder? (weave : Weave) (id : AtomId) : Option Handle :=
  weave.index[id.key]?

/-- The handle of the atom with exactly this id. -/
def handle? (weave : Weave) (id : AtomId) : Option Handle :=
  (weave.holder? id).filter fun handle => weave.nodes[handle]?.any (·.atom.id == id)

def get? (weave : Weave) (id : AtomId) : Option Atom :=
  (weave.handle? id).bind fun handle => weave.nodes[handle]?.map (·.atom)

def contains (weave : Weave) (id : AtomId) : Bool :=
  (weave.handle? id).isSome

/-- A handle and those of its ancestors, up to the root. A node is younger than its parent, so the
handles descend. -/
def lineage (weave : Weave) (handle : Handle) : List Handle :=
  match weave.nodes[handle]?.bind (·.parent) with
  | none => [handle]
  | some parent => if parent < handle then handle :: weave.lineage parent else [handle]
termination_by handle

/-- The index of a node among the sibling subtrees from `start` up to `stop`. -/
def findSibling? (weave : Weave) (start stop : Nat) (target : Handle) : Option Nat :=
  if start < stop then
    match weave.order[start]? with
    | none => none
    | some here =>
      if here = target then some start
      else weave.findSibling? (start + 1 + weave.span here) stop target
  else none
termination_by stop - start

/-- The index of the last node of a path, of which each node is a child of the one before it and
the first is one of the siblings from `start` up to `stop`. -/
def descend? (weave : Weave) (start stop : Nat) : List Handle → Option Nat
  | [] => none
  | [target] => weave.findSibling? start stop target
  | target :: child :: rest =>
    match weave.findSibling? start stop target with
    | none => none
    | some position =>
      weave.descend? (position + 1) (position + 1 + weave.span target) (child :: rest)

/-- The handle and the index of an atom. Each level is searched among the siblings of one ancestor
only. -/
def locate? (weave : Weave) (id : AtomId) : Option (Handle × Nat) :=
  match weave.handle? id with
  | none => none
  | some handle =>
    (weave.descend? 0 weave.size (weave.lineage handle).reverse).map (handle, ·)

def position? (weave : Weave) (id : AtomId) : Option Nat :=
  (weave.locate? id).map (·.2)

def descendantCount? (weave : Weave) (id : AtomId) : Option Nat :=
  (weave.handle? id).map weave.span

/-- Where the children of a cause stand, or the roots when there is no cause; none when the cause
is not woven. -/
def siblings? (weave : Weave) : Option AtomId → Option Siblings
  | none => some { parent := none, start := 0, stop := weave.size }
  | some cause =>
    (weave.locate? cause).map fun (handle, position) =>
      { parent := some handle, start := position + 1, stop := position + 1 + weave.span handle }

/-- The ids of the sibling atoms from `start` up to `stop`; what descends from them is passed
over. -/
def siblingIds (weave : Weave) (start stop : Nat) : List AtomId :=
  if start < stop then
    match weave.nodeAt? start with
    | none => []
    | some node => node.atom.id :: weave.siblingIds (start + 1 + node.span) stop
  else []
termination_by stop - start

/-- The children of an atom in order; none when it is not woven. -/
def children (weave : Weave) (id : AtomId) : List AtomId :=
  match weave.siblings? (some id) with
  | none => []
  | some run => weave.siblingIds run.start run.stop

def roots (weave : Weave) : List AtomId :=
  weave.siblingIds 0 weave.size

/-- The first index from `start` up to `stop` at which the id comes before the sibling there, or
the end of the run when it comes after all of them. -/
def insertionIndex (weave : Weave) (start stop : Nat) (id : AtomId) : Nat :=
  if start < stop then
    match weave.nodeAt? start with
    | none => start
    | some sibling =>
      if id.siblingOrder sibling.atom.id = .lt then start
      else weave.insertionIndex (start + 1 + sibling.span) stop id
  else start
termination_by stop - start

/-- A node with one more descendant. -/
def grown (node : Node) : Node :=
  { node with span := node.span + 1 }

/-- The nodes after an atom was added below a parent: it is a descendant of the parent and of all
that the parent descends from. -/
def nodesWith (weave : Weave) (atom : Atom) (parent : Option Handle) : Array Node :=
  let ancestors := (parent.map weave.lineage).getD []
  let older := ancestors.foldl (fun nodes handle => nodes.modify handle grown) weave.nodes
  older.push { atom, parent, span := 0 }

def place (weave : Weave) (atom : Atom) (parent : Option Handle) (position : Nat) : Weave where
  nodes := weave.nodesWith atom parent
  order := weave.order.insertIdxIfInBounds position weave.nodes.size
  index := weave.index.insert atom.id.key weave.nodes.size

/-- Adds an atom. A second delivery changes nothing, and neither does an atom whose cause is not
woven. -/
def insert (weave : Weave) (atom : Atom) : Except Refusal (Placement × Weave) :=
  if atom.cause = some atom.id then .error (.selfCausation atom.id)
  else
    match weave.holder? atom.id with
    | some handle =>
      if weave.nodes[handle]?.any (·.atom.same atom) then .ok (.alreadyPresent, weave)
      else .error (.identityCollision atom.id)
    | none =>
      match weave.siblings? atom.cause with
      | none => .ok (.causeMissing, weave)
      | some run =>
        let position := weave.insertionIndex run.start run.stop atom.id
        .ok (.inserted position, weave.place atom run.parent position)

/-- Adds an atom and tells an observer where it landed, if it did. -/
def insertObserved [Observer σ] (weave : Weave) (observer : σ) (atom : Atom) :
    Except Refusal (Placement × Weave × σ) :=
  match weave.insert atom with
  | .error why => .error why
  | .ok (.inserted position, later) =>
    .ok (.inserted position, later, Observer.notice observer (atom.placedAt position))
  | .ok (placement, later) => .ok (placement, later, observer)

end Weave
end CausalWeave
