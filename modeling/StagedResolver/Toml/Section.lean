/-
Tables while they are being put together.

A table is defined once: by a header, by dotted keys, or in place.  The tables
that a header or a dotted key leads through come into being on the way; those
of headers may still be defined by a header of their own, and those of dotted
keys may get further dotted keys.
-/
import StagedResolver.Entries
import StagedResolver.Toml.Basic

namespace StagedResolver.Toml

inductive Origin where
  | defined
  /-- On the way of a header. -/
  | passed
  /-- By dotted keys. -/
  | dotted
deriving DecidableEq, Inhabited

inductive Node where
  | value (content : Toml)
  | table (origin : Origin) (entries : List (String × Node))
  | tables (items : List (List (String × Node)))
deriving Inhabited

namespace Node

mutual

def toToml : Node → Toml
  | .value content => content
  | .table _ entries => .table (entriesToToml entries)
  | .tables items => .tables (tablesToToml items)

def entriesToToml : List (String × Node) → List (String × Toml)
  | [] => []
  | (key, node) :: rest => (key, toToml node) :: entriesToToml rest

def tablesToToml : List (List (String × Node)) → List (List (String × Toml))
  | [] => []
  | entries :: rest => entriesToToml entries :: tablesToToml rest

end

end Node

private def changeLast {α β : Type} (change : α → Option (β × α)) (items : List α) :
    Option (β × List α) := do
  let last ← items.getLast?
  let (result, changed) ← change last
  return (result, items.dropLast ++ [changed])

/-- Changes the table that a path leads to.  Missing tables come into being, an
array of tables leads to its last one, and no dotted key leads into a table that
is defined. -/
def changeAt {β : Type} (way : Origin)
    (change : Origin → Entries Node → Option (β × Entries Node)) :
    List String → Origin → Entries Node → Option (β × Entries Node)
  | [], origin, entries => change origin entries
  | key :: rest, _, entries =>
      match entries.find? key with
      | none => do
          let (result, inner) ← changeAt way change rest way []
          return (result, entries.put key (.table way inner))
      | some (.value _) => none
      | some (.tables items) => do
          let (result, changed) ← changeLast (changeAt way change rest .defined) items
          return (result, entries.put key (.tables changed))
      | some (.table origin inner) =>
          if way = .dotted ∧ origin = .defined then none
          else do
            let (result, changed) ← changeAt way change rest origin inner
            return (result, entries.put key (.table origin changed))

/-- Writes a value under a key that is still free.  Behind dotted keys, the table
has to be one of dotted keys. -/
def writeFresh (behind : Bool) (key : String) (content : Toml) (origin : Origin)
    (entries : Entries Node) : Option (Unit × Entries Node) :=
  if behind ∧ origin ≠ .dotted then none
  else if entries.has key then none
  else some ((), entries.put key (.value content))

private def writeEntry (entries : Entries Node) (path : List String) (content : Toml) :
    Option (Entries Node) := do
  let key ← path.getLast?
  let way := path.dropLast
  let (_, changed) ←
    changeAt .dotted (writeFresh (!way.isEmpty) key content) way .defined entries
  return changed

def writeEntries (entries : Entries Node) (definitions : List (List String × Toml)) :
    Option (Entries Node) :=
  definitions.foldlM (fun written definition =>
    writeEntry written definition.1 definition.2) entries

/-! ### Headers -/

private def takeTable (key : String) (_ : Origin) (entries : Entries Node) :
    Option (Entries Node × Entries Node) :=
  match entries.find? key with
  | none => some ([], entries)
  | some (.table .passed inner) =>
      some (inner, entries.filter fun entry => entry.1 ≠ key)
  | some _ => none

private def putTable (key : String) (table : Entries Node) (_ : Origin)
    (entries : Entries Node) : Option (Unit × Entries Node) :=
  some ((), entries.put key (.table .defined table))

private def openTables (key : String) (_ : Origin) (entries : Entries Node) :
    Option (Unit × Entries Node) :=
  match entries.find? key with
  | none => some ((), entries.put key (.tables []))
  | some (.tables _) => some ((), entries)
  | some _ => none

private def addTable (key : String) (table : Entries Node) (_ : Origin)
    (entries : Entries Node) : Option (Unit × Entries Node) :=
  match entries.find? key with
  | some (.tables items) => some ((), entries.put key (.tables (items ++ [table])))
  | _ => none

structure Section where
  path : List String
  isItem : Bool
  definitions : List (List String × Toml)
deriving Inhabited

private def addSection (root : Entries Node) (added : Section) : Option (Entries Node) := do
  let key ← added.path.getLast?
  let way := added.path.dropLast
  if added.isItem then
    let (_, opened) ← changeAt .passed (openTables key) way .defined root
    let table ← writeEntries [] added.definitions
    let (_, changed) ← changeAt .passed (addTable key table) way .defined opened
    return changed
  else
    let (taken, opened) ← changeAt .passed (takeTable key) way .defined root
    let table ← writeEntries taken added.definitions
    let (_, changed) ← changeAt .passed (putTable key table) way .defined opened
    return changed

def assemble (definitions : List (List String × Toml)) (sections : List Section) :
    Option (Entries Toml) := do
  let root ← writeEntries [] definitions
  let whole ← sections.foldlM addSection root
  return Node.entriesToToml whole

end StagedResolver.Toml
