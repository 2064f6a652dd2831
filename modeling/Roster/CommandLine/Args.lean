import Roster.Text.Digits

/-!
# Arguments

The words of a command line: options with a long name and perhaps a letter, one command with its
own options, and the positional words of that command.  A value may be attached to its option or
be the next word; letters may be run together; after two dashes every word is positional.

An option may be given once at each level.  A value is looked at when the next option or
positional word comes, or at the end, so that an unknown word after it is found first.
-/

namespace Roster
namespace CommandLine

inductive Refusal where
  | help
  | version
  | nothingGiven
  | missingCommand
  | unknownCommand
  | unknownArgument
  | repeated
  | missingValue
  | badValue
  | unexpectedValue
  | missingArgument
deriving Repr, DecidableEq

namespace Refusal

def message : Refusal → String
  | help => "help was asked for"
  | version => "the version was asked for"
  | nothingGiven | missingCommand => "a command is needed: node, simulate or decode"
  | unknownCommand => "there is no such command"
  | unknownArgument => "an argument was not expected"
  | repeated => "an option was given more than once"
  | missingValue => "a value is needed for an option"
  | badValue => "a count must be a decimal number below 2^64"
  | unexpectedValue => "an option takes no value"
  | missingArgument => "the id is missing"

end Refusal

/-! # Options -/

inductive Role where
  | flag
  | help
  | version
  | path
  | count
deriving Repr, DecidableEq

namespace Role

def takesValue : Role → Bool
  | path | count => true
  | _ => false

end Role

structure Opt where
  long : String
  short : Option Char := none
  role : Role := .flag
deriving Repr, DecidableEq

structure Grammar where
  options : List Opt
  positionals : Nat := 0
  commands : List String := []

def countLimit : Nat := 18446744073709551616

/-- A count is written in decimal digits, perhaps after a plus sign. -/
def count? (text : String) : Option Nat :=
  let digits :=
    match text.toList with
    | '+' :: rest => rest
    | cs => cs
  if digits.isEmpty || !digits.all Text.isDigit then none
  else if Text.value digits < countLimit then some (Text.value digits)
  else none

def checkValue (role : Role) (value : String) : Except Refusal Unit :=
  match role with
  | .count => if (count? value).isSome then .ok () else .error .badValue
  | .path => if value.isEmpty then .error .missingValue else .ok ()
  | _ => .ok ()

/-! # Reading one level -/

structure Progress where
  given : List (String × String) := []
  positionals : List String := []
  /-- An option whose value has not been looked at, or has not come yet. -/
  pending : Option (Opt × Option String) := none

namespace Progress

def has (p : Progress) (opt : Opt) : Bool :=
  p.given.any (·.1 == opt.long)

def value? (p : Progress) (long : String) : Option String :=
  (p.given.find? (·.1 == long)).map (·.2)

def awaitsValue (p : Progress) : Bool :=
  match p.pending with
  | some (_, none) => true
  | _ => false

def take (p : Progress) (opt : Opt) (value : String) : Except Refusal Progress := do
  if p.has opt then throw .repeated
  checkValue opt.role value
  return { p with given := p.given ++ [(opt.long, value)], pending := none }

def resolve (p : Progress) : Except Refusal Progress :=
  match p.pending with
  | none => .ok p
  | some (_, none) => .error .missingValue
  | some (opt, some value) => p.take opt value

def meet (p : Progress) (opt : Opt) : Except Refusal Progress := do
  let p ← p.resolve
  match opt.role with
  | .help => throw .help
  | .version => throw .version
  | .flag => p.take opt ""
  | _ => return { p with pending := some (opt, none) }

def meetWith (p : Progress) (opt : Opt) (value : String) : Except Refusal Progress := do
  let p ← p.resolve
  p.take opt value

end Progress

namespace Grammar

/-- A word after two dashes: the long name of an option, perhaps with a value after an equals
sign. -/
def long (g : Grammar) (p : Progress) (word : List Char) : Except Refusal Progress :=
  let name := String.ofList (word.takeWhile (· ≠ '='))
  let value? :=
    match word.dropWhile (· ≠ '=') with
    | [] => none
    | _ :: value => some (String.ofList value)
  match g.options.find? (·.long = name), value? with
  | none, _ => .error .unknownArgument
  | some opt, none => p.meet opt
  | some opt, some value =>
      if opt.role.takesValue then p.meetWith opt value else .error .unexpectedValue

/-- A word after one dash: letters of options, the last of which may have its value attached. -/
def letters (g : Grammar) (p : Progress) : List Char → Except Refusal Progress
  | [] => .ok p
  | c :: rest =>
      match g.options.find? (·.short = some c) with
      | none => .error .unknownArgument
      | some opt =>
          if opt.role.takesValue then
            match rest with
            | [] => p.meet opt
            | '=' :: value => p.meetWith opt (String.ofList value)
            | value => p.meetWith opt (String.ofList value)
          else
            match p.meet opt with
            | .ok p => g.letters p rest
            | .error refusal => .error refusal

def positional (g : Grammar) (p : Progress) (plain : Bool) (word : String) :
    Except Refusal Progress := do
  if p.positionals.length < g.positionals then
    let p ← p.resolve
    return { p with positionals := p.positionals ++ [word] }
  else if g.commands.isEmpty || (plain && g.commands.contains word) then throw .unknownArgument
  else throw .unknownCommand

/-- Reads a level up to its end or to the name of a command, which it gives with the words after
it; `plain` tells that two dashes have been passed. -/
def read (g : Grammar) (p : Progress) (plain : Bool) :
    List String → Except Refusal (Progress × Option (String × List String))
  | [] => do
      let p ← p.resolve
      return (p, none)
  | word :: rest =>
      if plain then
        match g.positional p plain word with
        | .ok p => g.read p plain rest
        | .error refusal => .error refusal
      else if !p.awaitsValue && g.commands.contains word then .ok (p, some (word, rest))
      else
        let next : Except Refusal (Progress × Bool) :=
          match word.toList, p.pending with
          | ['-', '-'], _ => .ok (p, true)
          | '-' :: '-' :: name, _ => (g.long p name).map ((·, false))
          | '-' :: c :: cs, _ => (g.letters p (c :: cs)).map ((·, false))
          | _, some (opt, none) => .ok ({ p with pending := some (opt, some word) }, false)
          | _, _ => (g.positional p plain word).map ((·, false))
        match next with
        | .ok (p, plain) => g.read p plain rest
        | .error refusal => .error refusal

end Grammar

/-! # The commands -/

inductive Command where
  | node (config : Option String) (ids : Nat) (once : Bool)
  | simulate (nodes : Nat) (config : Option String)
  | decode (id : String)
deriving Repr, DecidableEq

namespace Command

/-- The path of the configuration file that the command is to use. -/
def configPath? : Command → Option String
  | node config _ _ => config
  | simulate _ config => config
  | decode _ => none

end Command

structure Invocation where
  command : Command
  verbose : Bool
  noColor : Bool
deriving Repr, DecidableEq

def sharedOptions : List Opt :=
  [ { long := "verbose", short := some 'v' },
    { long := "no-color" },
    { long := "help", short := some 'h', role := .help } ]

def configOption : Opt := { long := "config", short := some 'c', role := .path }

def commandNames : List String := ["node", "simulate", "decode", "help"]

def topGrammar : Grammar where
  options := sharedOptions ++ [{ long := "version", short := some 'V', role := .version }]
  commands := commandNames

def nodeGrammar : Grammar where
  options := sharedOptions ++
    [configOption, { long := "ids", role := .count }, { long := "once" }]

def simulateGrammar : Grammar where
  options := sharedOptions ++
    [{ long := "nodes", short := some 'n', role := .count }, configOption]

def decodeGrammar : Grammar where
  options := sharedOptions
  positionals := 1

def countOr (p : Progress) (long : String) (default : Nat) : Nat :=
  ((p.value? long).bind count?).getD default

def flagged (p : Progress) (long : String) : Bool :=
  (p.value? long).isSome

/-- What is asked for by the word `help` and the words after it. -/
def helpFor : List String → Refusal
  | [] => .help
  | [name] => if commandNames.contains name then .help else .unknownCommand
  | _ => .unknownCommand

def readCommand (name : String) (words : List String) : Except Refusal (Command × Progress) := do
  match name with
  | "node" =>
      let (p, _) ← nodeGrammar.read {} false words
      return (.node (p.value? "config") (countOr p "ids" 0) (flagged p "once"), p)
  | "simulate" =>
      let (p, _) ← simulateGrammar.read {} false words
      return (.simulate (countOr p "nodes" 3) (p.value? "config"), p)
  | "decode" =>
      let (p, _) ← decodeGrammar.read {} false words
      match p.positionals with
      | id :: _ => return (.decode id, p)
      | [] => throw .missingArgument
  | _ => throw (helpFor words)

def parse (words : List String) : Except Refusal Invocation := do
  let (top, command) ← topGrammar.read {} false words
  match command with
  | none => throw (if top.given.isEmpty then .nothingGiven else .missingCommand)
  | some (name, rest) =>
      let (command, p) ← readCommand name rest
      let given (long : String) : Bool := flagged top long || flagged p long
      return { command, verbose := given "verbose", noColor := given "no-color" }

end CommandLine
end Roster
