import CausalWeave.Toml.Scalar

/-! Tables come from headers, are implied by the headers of tables inside them, or come from dotted keys, and
only some of them may be added to. -/

namespace CausalWeave.Toml

/-- One step of a path: a key and, in an array of tables, the number of the table, from one. -/
structure Step where
  key : String
  element : Nat := 0
deriving DecidableEq

abbrev Path := List Step

/-- Where a table comes from. -/
inductive Origin where
  | header
  /-- Only tables inside this one have headers so far. -/
  | implied
  | dotted
deriving DecidableEq

inductive Entry where
  | value (value : Value)
  | table (origin : Origin)
  /-- An array with this many tables. -/
  | tables (count : Nat)
deriving DecidableEq

structure Document where
  /-- The last entry that was set at a path counts. -/
  entries : List (Path × Entry) := []
  /-- The table to which keys are added. -/
  current : Path := []

namespace Document

def entry? (document : Document) (path : Path) : Option Entry :=
  document.entries.lookup path

def set (document : Document) (path : Path) (entry : Entry) : Document :=
  { document with entries := (path, entry) :: document.entries }

/-- Where the table at a path comes from. The document itself and the tables of arrays count as
tables with headers. -/
def origin (document : Document) (path : Path) : Origin :=
  match document.entry? path with
  | some (.table origin) => origin
  | _ => .header

/-- Follows keys from a table and makes the tables that are missing. An array of tables stands for
its last table. Dotted keys do not lead into a table with a header. -/
def descend? (document : Document) (dotted : Bool) (path : Path) :
    List String → Option (Path × Document)
  | [] => some (path, document)
  | key :: rest =>
    let here := path ++ [{ key }]
    match document.entry? here with
    | none =>
      let origin := if dotted then Origin.dotted else .implied
      (document.set here (.table origin)).descend? dotted here rest
    | some (.value _) => none
    | some (.tables count) =>
      document.descend? dotted (path ++ [{ key, element := count }]) rest
    | some (.table origin) =>
      if dotted ∧ origin = .header then none else document.descend? dotted here rest

/-- Adds a value to the current table. The table that holds it comes from dotted keys exactly if
there are any before the last one. -/
def addValue? (document : Document) (dots : List String) (key : String) (value : Value) :
    Option Document :=
  match document.descend? true document.current dots with
  | none => none
  | some (path, document) =>
    let here := path ++ [{ key }]
    if document.origin path = .dotted ↔ dots.isEmpty then none
    else
      match document.entry? here with
      | none => some (document.set here (.value value))
      | some _ => none

/-- Goes on in the table of a header. Its own header may follow those of tables inside it. -/
def openTable? (document : Document) (parents : List String) (key : String) :
    Option Document :=
  match document.descend? false [] parents with
  | none => none
  | some (path, document) =>
    let here := path ++ [{ key }]
    match document.entry? here with
    | none | some (.table .implied) =>
      some { document.set here (.table .header) with current := here }
    | some _ => none

/-- Goes on in a new last table of an array. -/
def openElement? (document : Document) (parents : List String) (key : String) :
    Option Document :=
  match document.descend? false [] parents with
  | none => none
  | some (path, document) =>
    let here := path ++ [{ key }]
    let add (count : Nat) : Document :=
      { document.set here (.tables count) with current := path ++ [{ key, element := count }] }
    match document.entry? here with
    | none => some (add 1)
    | some (.tables count) => some (add (count + 1))
    | some _ => none

def root? (document : Document) (key : String) : Option Entry :=
  document.entry? [{ key }]

end Document
end CausalWeave.Toml
