import LedgerRules.CommandLine.Option
/-!
# Reading the arguments

Arguments are read from left to right, first those before the command and then those after it.
The first of them that asks for help or for the version ends the reading, and so does the first
that does not fit. A value in an argument of its own is judged when the next option comes or the
arguments end.
-/

namespace LedgerRules.CommandLine

/-- Why reading ends without a command to carry out. -/
inductive Interruption where
  /-- Help is asked for. -/
  | help
  /-- The version is asked for. -/
  | version
  /-- The arguments do not fit. -/
  | misuse
deriving DecidableEq

/-- What an argument looks like. -/
inductive Argument where
  /-- Two dashes: no options follow. -/
  | separator
  /-- A long name, and a value after an equals sign. -/
  | long (name : String) (value : Option String)
  /-- Letters, the last of which may have a value behind it. -/
  | letters (letters : List Char)
  /-- A word. -/
  | word (text : String)
deriving DecidableEq

/-- What an argument looks like. A dash alone is a word. -/
def Argument.of (text : String) : Argument :=
  match text.toList with
  | ['-', '-'] => .separator
  | '-' :: '-' :: name =>
    match name.dropWhile (· ≠ '=') with
    | [] => .long (String.ofList name) none
    | _ :: value =>
      .long (String.ofList (name.takeWhile (· ≠ '='))) (some (String.ofList value))
  | '-' :: c :: cs => .letters (c :: cs)
  | _ => .word text

/-- What the arguments have given so far. -/
structure Given where
  /-- The options with their values, in order. -/
  values : List (OptionName × Value)
  /-- An option whose value has not been judged, or not been seen. -/
  pending : Option (Place × Option String)

namespace Given

/-- Nothing so far. -/
def nothing : Given := ⟨[], none⟩

/-- The values of an option. -/
def valuesOf (g : Given) (name : OptionName) : List Value :=
  (g.values.filter fun entry => entry.1 == name).map (·.2)

/-- Whether an option is given. -/
def has (g : Given) (name : OptionName) : Bool := !(g.valuesOf name).isEmpty

/-- The path that an option has been given. -/
def path? (g : Given) (name : OptionName) : Option String :=
  (g.valuesOf name).findSome? fun
    | .path file => some file
    | _ => none

/-- The numbers that an option has been given, in order. -/
def numbers (g : Given) (name : OptionName) : List Int64 :=
  (g.valuesOf name).filterMap fun
    | .number value => some value
    | _ => none

/-- Adds an option with its value. -/
def add (g : Given) (place : Place) (text : Option String) : Except Interruption Given :=
  match place.name.takes.value? text with
  | none => .error .misuse
  | some value =>
    match place.name with
    | .help => .error .help
    | .version => .error .version
    | name =>
      if g.has name && !place.many then .error .misuse
      else .ok { g with values := g.values ++ [(name, value)] }

/-- Judges the value that has not been judged. -/
def settle (g : Given) : Except Interruption Given :=
  match g.pending with
  | none => .ok g
  | some (place, text) => add { g with pending := none } place text

/-- Adds an option whose value, if it takes one, is still to come. -/
def await (g : Given) (place : Place) : Except Interruption Given := do
  let g ← g.settle
  if place.name.takes = .nothing then g.add place none
  else pure { g with pending := some (place, none) }

/-- Adds an option with a value attached to it. -/
def attach (g : Given) (place : Place) (text : String) : Except Interruption Given := do
  let g ← g.settle
  g.add place (some text)

/-- Adds the options of letters. An equals sign between a letter and its value is left out. -/
def addLetters (places : List Place) : Given → List Char → Except Interruption Given
  | g, [] => .ok g
  | g, c :: cs =>
    match places.find? fun place => place.letter = some c with
    | none => .error .misuse
    | some place =>
      if place.name.takes = .nothing then do addLetters places (← g.await place) cs
      else
        match cs with
        | [] => g.await place
        | '=' :: value => g.attach place (String.ofList value)
        | value => g.attach place (String.ofList value)

end Given

/-- What ends the options of a place. -/
inductive Ending where
  /-- The arguments end. -/
  | none
  /-- A word comes that is no value, with other arguments behind it. -/
  | word (text : String) (rest : List String)

/-- Reads arguments up to the first word that is no value. -/
def readOptions (places : List Place) : Given → List String → Except Interruption (Given × Ending)
  | g, [] => .ok (g, .none)
  | g, text :: rest =>
    match Argument.of text with
    -- No argument may follow two dashes, since none of them could be a value.
    | .separator => if rest.isEmpty then .ok (g, .none) else .error .misuse
    | .letters letters => do readOptions places (← g.addLetters places letters) rest
    | .long name value =>
      match places.find? fun place => place.name.long = name, value with
      | none, _ => .error .misuse
      | some place, none => do readOptions places (← g.await place) rest
      | some place, some value => do readOptions places (← g.attach place value) rest
    | .word text =>
      match g.pending with
      | some (place, none) => readOptions places { g with pending := some (place, some text) } rest
      | _ => .ok (g, .word text rest)

/-- Reads the arguments after a command, where no further word may stand. -/
def readAfter (command : CommandName) (arguments : List String) : Except Interruption Given := do
  match ← readOptions command.places Given.nothing arguments with
  | (g, .none) => g.settle
  | (_, .word _ _) => throw .misuse

/-- What the word `help` asks for: help on the program, or on one command. -/
def helpOn : List String → Interruption
  | [] => .help
  | [topic] => if topic = "help" ∨ (CommandName.ofWord? topic).isSome then .help else .misuse
  | _ => .misuse

/-- Reads all arguments: what stands before the command, the command, and what stands after it. -/
def readArguments (arguments : List String) :
    Except Interruption (Given × CommandName × Given) := do
  match ← readOptions beforeCommand Given.nothing arguments with
  | (_, .none) => throw .misuse
  | (g, .word text rest) =>
    match CommandName.ofWord? text with
    | some command =>
      -- A value right before the command is judged only after everything behind the command.
      let after ← readAfter command rest
      pure (← g.settle, command, after)
    | none => throw (if text = "help" then helpOn rest else .misuse)

end LedgerRules.CommandLine
