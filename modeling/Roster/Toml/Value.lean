import Roster.Toml.Item
import Roster.Toml.Number
import Roster.Toml.Quoted

/-!
# Keys and values

A key is a path of names, bare or quoted, with points between them.  A value is a text, a
number, a boolean, a time, an array or an inline table; arrays and inline tables may be nested
to a depth below `depthLimit`, and a key has fewer parts than that.
-/

namespace Roster
namespace Toml

def depthLimit : Nat := 80

/-! # Keys -/

def bareName (cs : List Char) : Option (List Char × List Char) :=
  match cs.takeWhile isBare with
  | [] => none
  | name => some (name, cs.dropWhile isBare)

def name : Reader String := fun cs => do
  let cs := skipSpaces cs
  let (name, rest) ← Quoted.readKey cs <|> bareName cs
  return (String.ofList name, skipSpaces rest)

def names : Nat → Reader (List String)
  | 0, _ => none
  | fuel + 1, cs => do
      let (first, rest) ← name cs
      match rest with
      | '.' :: rest =>
          let (others, rest) ← names fuel rest
          return (first :: others, rest)
      | _ => return ([first], rest)

/-- A key as the path to its table and its last name. -/
def key (cs : List Char) : Option ((List String × String) × List Char) := do
  let (path, rest) ← names (depthLimit - 1) cs
  let last ← path.getLast?
  return ((path.dropLast, last), rest)

/-! # Values -/

/-- Items between separators, each read by `item`; a separator may follow the last one where
`trailing` allows it.  `fuel` bounds the number of items. -/
def separated {α : Type} (item : Reader α) (trailing : Bool) : Nat → Reader (List α)
  | 0, cs => some ([], cs)
  | fuel + 1, cs =>
      match item cs with
      | none => some ([], cs)
      | some (first, rest) =>
          match rest with
          | ',' :: rest' =>
              match separated item trailing fuel rest' with
              | some ([], _) => some ([first], if trailing then rest' else rest)
              | some (others, r) => some (first :: others, r)
              | none => none
          | _ => some ([first], rest)

def close? (c : Char) : List Char → Option (List Char)
  | d :: rest => if c = d then some rest else none
  | [] => none

def boolean : Reader Bool
  | 't' :: 'r' :: 'u' :: 'e' :: rest => some (true, rest)
  | 'f' :: 'a' :: 'l' :: 's' :: 'e' :: rest => some (false, rest)
  | _ => none

def scalar : Reader Item := fun cs =>
  ((Quoted.read cs).map fun (text, rest) => (.text (String.ofList text), rest)) <|>
  ((boolean cs).map fun (b, rest) => (.boolean b, rest)) <|>
  ((moment? cs).map fun rest => (.moment, rest)) <|>
  ((float? cs).map fun rest => (.float, rest)) <|>
  ((integer cs).map fun (n, rest) => (.integer n, rest))

def value : Nat → Reader Item
  | depth, '[' :: rest =>
      match depth with
      | 0 => none
      | depth + 1 => do
          let item := fun cs => do
            let (item, rest) ← value depth (skipGap false cs)
            return (item, skipGap false rest)
          let (items, rest) ← separated item true rest.length rest
          let rest ← close? ']' (skipGap false rest)
          return (.array items, rest)
  | depth, '\x7b' :: rest =>
      match depth with
      | 0 => none
      | depth + 1 => do
          let pair := fun cs => do
            let (key, rest) ← key cs
            let (item, rest) ← value depth (skipSpaces (← close? '=' rest))
            return ((key, item), skipSpaces rest)
          let (pairs, rest) ← separated pair false rest.length rest
          let entries ← pairs.foldlM
            (fun (entries : Entries) ((path, last), item) => entries.addValue? path last item) []
          let rest ← close? '\x7d' (skipSpaces rest)
          return (.inline entries, rest)
  | _, cs => scalar cs

end Toml
end Roster
