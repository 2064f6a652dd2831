import Roster.Bytes.Hex

/-!
# Characters of a TOML text

The classes of characters that the grammar names, and the blanks, line ends and comments that
stand between its other parts.  A reader takes its part from the front of a text and gives the
rest, or gives nothing when the text does not begin with such a part.
-/

namespace Roster
namespace Toml

abbrev Reader (α : Type) := List Char → Option (α × List Char)

def isPlain (c : Char) : Bool :=
  c == '\t' || (0x20 ≤ c.toNat && c.toNat != 0x7F)

def isSpace (c : Char) : Bool :=
  c == ' ' || c == '\t'

def isBare (c : Char) : Bool :=
  ('a' ≤ c && c ≤ 'z') || ('A' ≤ c && c ≤ 'Z') || ('0' ≤ c && c ≤ '9') || c == '-' || c == '_'

def skipSpaces (cs : List Char) : List Char :=
  cs.dropWhile isSpace

def skipComment (cs : List Char) : List Char :=
  match cs with
  | '#' :: rest => rest.dropWhile isPlain
  | _ => cs

def unifyLineEnds : List Char → List Char
  | [] => []
  | '\r' :: '\n' :: rest => '\n' :: unifyLineEnds rest
  | c :: rest => c :: unifyLineEnds rest

def lineEnd? : List Char → Option (List Char)
  | [] => some []
  | c :: rest => if c = '\n' then some rest else none

/-- What may follow on a line after its content. -/
def lineRest? (cs : List Char) : Option (List Char) :=
  lineEnd? (skipComment (skipSpaces cs))

/-- Skips blanks, line ends and comments between the values of an array; `comment` tells whether
the text begins inside a comment. -/
def skipGap (comment : Bool) : List Char → List Char
  | [] => []
  | c :: rest =>
      if c = '\n' then skipGap false rest
      else if comment then
        if isPlain c then skipGap true rest else c :: rest
      else if c = '#' then skipGap true rest
      else if isSpace c then skipGap false rest
      else c :: rest

end Toml
end Roster
