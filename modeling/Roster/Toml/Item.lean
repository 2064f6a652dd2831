/-!
# Tables

A document is a tree of tables.  A table is opened by its header, by the header of a table
inside it, or by a dotted key, and how it came about decides how it may be extended: a header
opens a table once and completes one that only headers below it have named; dotted keys extend
only tables that dotted keys made; values, arrays and inline tables are closed.
-/

namespace Roster
namespace Toml

inductive Origin where
  | header
  | implied
  | dotted
deriving Repr, DecidableEq

inductive Item where
  | text (value : String)
  | integer (value : Int)
  | boolean (value : Bool)
  | float
  | moment
  | array (items : List Item)
  | inline (entries : List (String × Item))
  | table (origin : Origin) (entries : List (String × Item))
  /-- An array of tables, its last element first. -/
  | tables (last : List (String × Item)) (earlier : List (List (String × Item)))

abbrev Entries := List (String × Item)

namespace Entries

def lookup? (entries : Entries) (key : String) : Option Item :=
  (List.find? (fun entry => entry.1 == key) entries).map (·.2)

/-- Replaces the item under a key that is present, or adds the key at the end. -/
def set (key : String) (item : Item) : Entries → Entries
  | [] => [(key, item)]
  | (k, i) :: rest => if k = key then (key, item) :: rest else (k, i) :: set key item rest

def insertNew? (key : String) (item : Item) (entries : Entries) : Option Entries :=
  match entries.lookup? key with
  | some _ => none
  | none => some (set key item entries)

/-- Changes the table at the end of a path, making the tables on the way that are missing.  A path
of dotted keys may not run through a table that has a header. -/
def alter? (origin : Origin) (f : Origin → Entries → Option Entries) :
    List String → Origin → Entries → Option Entries
  | [], here, entries => f here entries
  | key :: path, _, entries =>
      match entries.lookup? key with
      | none => do
          let inner ← alter? origin f path origin []
          return set key (.table origin inner) entries
      | some (.table here inner) =>
          if origin = .dotted ∧ here = .header then none
          else do
            let inner ← alter? origin f path here inner
            return set key (.table here inner) entries
      | some (.tables last earlier) => do
          let last ← alter? origin f path .header last
          return set key (.tables last earlier) entries
      | some _ => none

/-- Adds a value under a dotted key; the last table on its path must be one that dotted keys
made. -/
def addValue? (path : List String) (key : String) (item : Item) (entries : Entries) :
    Option Entries :=
  alter? .dotted
    (fun here inner =>
      if path.isEmpty || here = .dotted then insertNew? key item inner else none)
    path .header entries

def openTable? (path : List String) (key : String) (entries : Entries) : Option Entries :=
  alter? .implied
    (fun _ inner =>
      match inner.lookup? key with
      | none => some (set key (.table .header []) inner)
      | some (.table .implied below) => some (set key (.table .header below) inner)
      | some _ => none)
    path .header entries

def openElement? (path : List String) (key : String) (entries : Entries) : Option Entries :=
  alter? .implied
    (fun _ inner =>
      match inner.lookup? key with
      | none => some (set key (.tables [] []) inner)
      | some (.tables last earlier) => some (set key (.tables [] (last :: earlier)) inner)
      | some _ => none)
    path .header entries

/-- Changes the table that a header has opened, along the last elements of arrays. -/
def within? (header : List String) (f : Entries → Option Entries) (entries : Entries) :
    Option Entries :=
  alter? .implied (fun _ inner => f inner) header .header entries

end Entries
end Toml
end Roster
