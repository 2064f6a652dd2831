import Roster.Toml.Chars

/-!
# Quoted texts

TOML has four ways to quote a text: between single or triple quotation marks, where a backslash
begins an escape, and between single or triple apostrophes, where every character stands for
itself.  Only the triple forms may hold line feeds, and they lose a line feed right after their
opening quotes.

Writing takes the first form that can hold the text without an escape, preferring the single
marks, and falls back on escapes.
-/

namespace Roster
namespace Toml
namespace Quoted

/-! # Escapes -/

def scalar? (n : Nat) : Option Char :=
  if h : n.isValidChar then some (Char.ofNatAux n h) else none

def hexNumber? (digits : List Char) : Option Nat :=
  digits.foldlM (fun n c => (Bytes.hexValue? c).map (16 * n + ·)) 0

def escape? : Char → Option Char
  | 'b' => some '\x08'
  | 't' => some '\t'
  | 'n' => some '\n'
  | 'f' => some '\x0c'
  | 'r' => some '\r'
  | '"' => some '"'
  | '\\' => some '\\'
  | _ => none

/-! # Reading -/

def basicBody : Reader (List Char)
  | [] => none
  | c :: rest =>
      if c = '"' then some ([], rest)
      else if c = '\\' then
        match rest with
        | 'u' :: h1 :: h2 :: h3 :: h4 :: r => do
            let ch ← scalar? (← hexNumber? [h1, h2, h3, h4])
            (basicBody r).map fun (text, r) => (ch :: text, r)
        | 'U' :: h1 :: h2 :: h3 :: h4 :: h5 :: h6 :: h7 :: h8 :: r => do
            let ch ← scalar? (← hexNumber? [h1, h2, h3, h4, h5, h6, h7, h8])
            (basicBody r).map fun (text, r) => (ch :: text, r)
        | e :: r => do
            let ch ← escape? e
            (basicBody r).map fun (text, r) => (ch :: text, r)
        | [] => none
      else if isPlain c then (basicBody rest).map fun (text, r) => (c :: text, r)
      else none

/-- A backslash at the end of a line joins it to the next one and swallows all blanks between.
A text is read outside such a joint, or inside it before or after its first line feed. -/
inductive Joint where
  | outside
  | before
  | after
deriving DecidableEq

namespace Joint

def swallow? (joint : Joint) (c : Char) : Option Joint :=
  match joint with
  | outside => none
  | before => if c = '\n' then some after else if isSpace c then some before else none
  | after => if c = '\n' ∨ isSpace c then some after else none

end Joint

/-- The text up to three closing quotation marks; one or two more right before them belong to
the text. -/
def multilineBasicBody (joint : Joint) : Reader (List Char)
  | [] => none
  | c :: rest =>
      match joint.swallow? c with
      | some joint => multilineBasicBody joint rest
      | none =>
          if joint = .before then none
          else if c = '"' then
            match rest with
            | '"' :: '"' :: '"' :: '"' :: r => some (['"', '"'], r)
            | '"' :: '"' :: '"' :: r => some (['"'], r)
            | '"' :: '"' :: r => some ([], r)
            | _ => (multilineBasicBody .outside rest).map fun (text, r) => ('"' :: text, r)
          else if c = '\\' then
            match rest with
            | 'u' :: h1 :: h2 :: h3 :: h4 :: r => do
                let ch ← scalar? (← hexNumber? [h1, h2, h3, h4])
                (multilineBasicBody .outside r).map fun (text, r) => (ch :: text, r)
            | 'U' :: h1 :: h2 :: h3 :: h4 :: h5 :: h6 :: h7 :: h8 :: r => do
                let ch ← scalar? (← hexNumber? [h1, h2, h3, h4, h5, h6, h7, h8])
                (multilineBasicBody .outside r).map fun (text, r) => (ch :: text, r)
            | e :: r =>
                match Joint.before.swallow? e with
                | some joint => multilineBasicBody joint r
                | none => do
                    let ch ← escape? e
                    (multilineBasicBody .outside r).map fun (text, r) => (ch :: text, r)
            | [] => none
          else if isPlain c || c == '\n' then
            (multilineBasicBody .outside rest).map fun (text, r) => (c :: text, r)
          else none

def literalBody : Reader (List Char)
  | [] => none
  | '\'' :: rest => some ([], rest)
  | c :: rest =>
      if isPlain c then (literalBody rest).map fun (text, r) => (c :: text, r) else none

/-- The text up to three closing apostrophes; one or two more right before them belong to the
text. -/
def multilineLiteralBody : Reader (List Char)
  | [] => none
  | '\'' :: '\'' :: '\'' :: '\'' :: '\'' :: rest => some (['\'', '\''], rest)
  | '\'' :: '\'' :: '\'' :: '\'' :: rest => some (['\''], rest)
  | '\'' :: '\'' :: '\'' :: rest => some ([], rest)
  | c :: rest =>
      if isPlain c || c == '\n' then
        (multilineLiteralBody rest).map fun (text, r) => (c :: text, r)
      else none

def dropLineFeed : List Char → List Char
  | '\n' :: rest => rest
  | cs => cs

def read : Reader (List Char)
  | '"' :: '"' :: '"' :: rest => multilineBasicBody .outside (dropLineFeed rest)
  | '\'' :: '\'' :: '\'' :: rest => multilineLiteralBody (dropLineFeed rest)
  | '"' :: rest => basicBody rest
  | '\'' :: rest => literalBody rest
  | _ => none

/-- Reads a text in one of the two forms that a key may take. -/
def readKey : Reader (List Char)
  | '"' :: rest => basicBody rest
  | '\'' :: rest => literalBody rest
  | _ => none

/-! # Writing -/

inductive Form where
  | basic
  | literal
  | multilineBasic
  | multilineLiteral
deriving Repr, DecidableEq

def needsEscape (c : Char) : Bool :=
  (c.toNat < 0x20 && c != '\t' && c != '\n') || c.toNat == 0x7F

/-- Length of the longest run of a character; `run` is the length of the run before the text. -/
def longestRun (x : Char) (run : Nat) : List Char → Nat
  | [] => run
  | c :: rest => if c = x then longestRun x (run + 1) rest else max run (longestRun x 0 rest)

def chooseForm (text : List Char) : Form :=
  let control := text.any needsEscape
  let backslash := text.contains '\\'
  let lineFeed := text.contains '\n'
  let apostrophes := longestRun '\'' 0 text
  let quotes := longestRun '"' 0 text
  if !control && !backslash && quotes == 0 && !lineFeed then .basic
  else if !control && apostrophes == 0 && !lineFeed then .literal
  else if !control && !backslash && quotes ≤ 2 then .multilineBasic
  else if !control && apostrophes ≤ 2 then .multilineLiteral
  else if lineFeed then .multilineBasic
  else .basic

def hexUpper (n : Nat) : Char :=
  if n < 10 then Char.ofNat (48 + n) else Char.ofNat (55 + n)

def escaped (c : Char) : List Char :=
  if c = '\x08' then ['\\', 'b']
  else if c = '\t' then ['\\', 't']
  else if c = '\x0c' then ['\\', 'f']
  else if c = '\r' then ['\\', 'r']
  else if c = '\\' then ['\\', '\\']
  else if needsEscape c then
    ['\\', 'u', '0', '0', hexUpper (c.toNat / 16), hexUpper (c.toNat % 16)]
  else [c]

def basicChar (c : Char) : List Char :=
  if c = '\n' then ['\\', 'n'] else if c = '"' then ['\\', '"'] else escaped c

/-- A text between triple quotation marks; `run` counts the marks right before it, and every
third mark in a row is escaped. -/
def multilineBasicText (run : Nat) : List Char → List Char
  | [] => []
  | c :: rest =>
      if c = '"' then
        if run = 2 then '\\' :: '"' :: multilineBasicText 0 rest
        else '"' :: multilineBasicText (run + 1) rest
      else if c = '\n' then '\n' :: multilineBasicText 0 rest
      else escaped c ++ multilineBasicText 0 rest

/-- The line feed that a text with line feeds has after its opening triple quotes. -/
def opening (text : List Char) : List Char :=
  if text.contains '\n' then ['\n'] else []

def writeForm (form : Form) (text : List Char) : List Char :=
  match form with
  | .basic => '"' :: (text.flatMap basicChar ++ ['"'])
  | .literal => '\'' :: (text ++ ['\''])
  | .multilineBasic =>
      ['"', '"', '"'] ++ opening text ++ multilineBasicText 0 text ++ ['"', '"', '"']
  | .multilineLiteral =>
      ['\'', '\'', '\''] ++ opening text ++ text ++ ['\'', '\'', '\'']

def write (text : List Char) : List Char :=
  writeForm (chooseForm text) text

end Quoted
end Toml
end Roster
