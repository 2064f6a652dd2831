import Roster.Toml.Value

/-!
# Documents

A document is a sequence of lines: blank, a comment, a header that opens a table, or a key with
its value.  Keys belong to the table whose header came last.  A byte order mark at the start is
ignored.
-/

namespace Roster
namespace Toml

/-- What has been read of a document: its tables, and the path of the header in force. -/
structure Document where
  entries : Entries
  header : List String

namespace Document

def empty : Document := ⟨[], []⟩

def addValue? (doc : Document) (path : List String) (key : String) (item : Item) :
    Option Document := do
  let entries ← doc.entries.within? doc.header fun inner => inner.addValue? path key item
  return { doc with entries }

def openTable? (doc : Document) (path : List String) (key : String) : Option Document := do
  let entries ← doc.entries.openTable? path key
  return ⟨entries, path ++ [key]⟩

def openElement? (doc : Document) (path : List String) (key : String) : Option Document := do
  let entries ← doc.entries.openElement? path key
  return ⟨entries, path ++ [key]⟩

/-- Reads one line that is not blank, from its first character to its end. -/
def line? (doc : Document) : List Char → Option (Document × List Char)
  | '#' :: rest => do
      let rest ← lineRest? ('#' :: rest)
      return (doc, rest)
  | '[' :: '[' :: rest => do
      let ((path, last), rest) ← key rest
      let rest ← lineRest? (← close? ']' (← close? ']' rest))
      return (← doc.openElement? path last, rest)
  | '[' :: rest => do
      let ((path, last), rest) ← key rest
      let rest ← lineRest? (← close? ']' rest)
      return (← doc.openTable? path last, rest)
  | cs => do
      let ((path, last), rest) ← key cs
      let (item, rest) ← value (depthLimit - 1) (skipSpaces (← close? '=' rest))
      let rest ← lineRest? rest
      return (← doc.addValue? path last item, rest)

def lines? : Nat → Document → List Char → Option Document
  | fuel, doc, cs =>
      match skipSpaces cs with
      | [] => some doc
      | c :: rest =>
          match fuel with
          | 0 => none
          | fuel + 1 =>
              if c = '\n' then lines? fuel doc rest
              else
                match line? doc (c :: rest) with
                | some (doc, rest) => lines? fuel doc rest
                | none => none

def dropByteOrderMark : List Char → List Char
  | '\ufeff' :: rest => rest
  | cs => cs

def read? (text : List Char) : Option Entries :=
  let cs := unifyLineEnds (dropByteOrderMark text)
  (lines? cs.length empty cs).map (·.entries)

end Document
end Toml
end Roster
