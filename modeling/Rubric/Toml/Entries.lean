import Rubric.Toml.Basic

/-!
Tables of a document while it is being put together. Dotted keys and headers reach into tables
that exist already or make them on the way. What a later line may still do to a table depends on
how it came about, so each table remembers that.
-/
namespace Rubric.Toml

/-- How a table came about: from its own header, on the way to another header, or from dotted
keys. -/
inductive Origin where
  | header
  | passage
  | dotted
deriving Repr, DecidableEq

/-- An entry of a table. An inline table is a plain value, which nothing can be added to. -/
inductive Item where
  | value (value : Toml)
  | table (origin : Origin) (entries : List (String × Item))
  | tables (elements : List (List (String × Item)))
deriving Repr

abbrev Entries := List (String × Item)

/-- A dotted key: the tables on the way, and the last part. -/
structure Key where
  path : List String
  last : String
deriving Repr, DecidableEq

def Key.ofParts? (parts : List String) : Option Key :=
  parts.getLast?.map fun last => ⟨parts.dropLast, last⟩

namespace Entries

def get? (entries : Entries) (key : String) : Option Item :=
  (entries.find? fun entry => entry.1 == key).map Prod.snd

def put (entries : Entries) (key : String) (item : Item) : Entries :=
  if entries.any fun entry => entry.1 == key then
    entries.map fun entry => if entry.1 == key then (key, item) else entry
  else entries ++ [(key, item)]

/-- Puts an item at the end, in place of one that the key may have had. -/
def putLast (entries : Entries) (key : String) (item : Item) : Entries :=
  (entries.filter fun entry => entry.1 != key) ++ [(key, item)]

/-- Changes the entries of the table at a path. Tables that are missing on the way are made with
the given origin. In a list of tables the last one is meant. Dotted keys do not reach into a table
that has its own header. -/
def changeAt (making : Origin) (change : Origin → Entries → Option Entries) :
    List String → Origin → Entries → Option Entries
  | [], here, entries => change here entries
  | key :: path, _, entries =>
      match entries.get? key with
      | none =>
          (changeAt making change path making []).map fun inner =>
            entries.put key (.table making inner)
      | some (.value _) => none
      | some (.tables elements) =>
          match elements.getLast? with
          | none => none
          | some last =>
              (changeAt making change path .header last).map fun inner =>
                entries.put key (.tables (elements.dropLast ++ [inner]))
      | some (.table there inner) =>
          if making = .dotted ∧ there = .header then none
          else
            (changeAt making change path there inner).map fun inner =>
              entries.put key (.table there inner)

/-- Adds a new key to a table. A dotted key adds to tables made by dotted keys only. -/
def insertHere (key : Key) (value : Toml) (origin : Origin) (entries : Entries) :
    Option Entries :=
  if key.path ≠ [] ∧ origin ≠ .dotted then none
  else if (entries.get? key.last).isSome then none
  else some (entries.put key.last (.value value))

def insert (entries : Entries) (key : Key) (value : Toml) : Option Entries :=
  changeAt .dotted (insertHere key value) key.path .header entries

/-- What is in a header's table when the header is read: nothing, or what headers of deeper tables
have put there before. -/
def beneathHeader (last : String) : List String → Entries → Option Entries
  | [], entries =>
      match entries.get? last with
      | none => some []
      | some (.table .passage inner) => some inner
      | some _ => none
  | key :: path, entries =>
      match entries.get? key with
      | none => some []
      | some (.value _) => none
      | some (.tables elements) => elements.getLast?.bind (beneathHeader last path)
      | some (.table _ inner) => beneathHeader last path inner

/-- Puts a finished table under its header's key. It comes last, also if headers of deeper tables
have made the key before. -/
def placeTable (entries : Entries) (key : Key) (table : Entries) : Option Entries :=
  changeAt .passage (fun _ parent => some (parent.putLast key.last (.table .header table)))
    key.path .header entries

def appendTable (entries : Entries) (key : Key) (table : Entries) : Option Entries :=
  changeAt .passage
    (fun _ parent =>
      match parent.get? key.last with
      | none => some (parent.put key.last (.tables [table]))
      | some (.tables elements) => some (parent.put key.last (.tables (elements ++ [table])))
      | some _ => none)
    key.path .header entries

end Entries

mutual

def Item.toValue : Item → Toml
  | .value value => value
  | .table _ entries => .table (entriesValue entries)
  | .tables elements => .array (elementsValue elements)

def entriesValue : List (String × Item) → List (String × Toml)
  | [] => []
  | (key, item) :: rest => (key, item.toValue) :: entriesValue rest

def elementsValue : List (List (String × Item)) → List Toml
  | [] => []
  | entries :: rest => .table (entriesValue entries) :: elementsValue rest

end

end Rubric.Toml
