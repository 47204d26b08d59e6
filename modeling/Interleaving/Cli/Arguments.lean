/-!
# Arguments

How the words after a command's name are read as options and operands. An option is a long name
after two dashes or a letter after one. Its value is the rest of its word, with or without an equals
sign before it if the option is a letter, or else the next word. A word that begins with a dash is
never such a next word, and two dashes alone make all later words operands.
-/

namespace Interleaving.Cli

/-- Why there is no command to run. -/
inductive Refusal where
  /-- The arguments are wrong. -/
  | misuse
  /-- Help is asked for. -/
  | help
  /-- The version is asked for. -/
  | version
deriving DecidableEq

/-- An option of a command. -/
structure Switch where
  name : String
  letter : Option Char
  /-- Which values the option takes; none if it takes no value. -/
  accepts : Option (String → Bool)

/-- The options and operands that are given. -/
structure Arguments where
  /-- The options by name, with their values. -/
  values : List (String × String)
  operands : List String

/-- What a command takes: its options, and how many operands. -/
structure Usage where
  switches : List Switch
  operands : Nat

namespace Arguments

/-- No arguments. -/
def empty : Arguments := ⟨[], []⟩

/-- The value of an option that is given. -/
def value? (a : Arguments) (name : String) : Option String := a.values.lookup name

/-- Whether an option is given. -/
def has (a : Arguments) (name : String) : Bool := (a.value? name).isSome

/-- Adds an option. It must not be given twice. -/
def addValue (a : Arguments) (name value : String) : Except Refusal Arguments :=
  if a.has name then .error .misuse else .ok { a with values := (name, value) :: a.values }

/-- Adds an option whose value must be one that it takes. -/
def addChecked (a : Arguments) (name : String) (accepts : String → Bool) (value : String) :
    Except Refusal Arguments :=
  if accepts value then a.addValue name value else .error .misuse

/-- Adds an operand, of which there must not be too many. -/
def addOperand (u : Usage) (a : Arguments) (operand : String) : Except Refusal Arguments :=
  if a.operands.length < u.operands then .ok { a with operands := a.operands ++ [operand] }
  else .error .misuse

/-- What a word of the command line is. -/
inductive Word where
  | operand
  /-- Two dashes alone. -/
  | separator
  /-- A long name and what follows an equals sign. -/
  | long (name : String) (attached : Option String)
  /-- A letter and what follows it. -/
  | short (letter : Char) (attached : Option String)

/-- The rest of a word after a letter. An equals sign before a value does not belong to it. -/
def afterLetter : List Char → Option String
  | [] => none
  | '=' :: value => some (.ofList value)
  | value => some (.ofList value)

/-- Tells what a word is. -/
def Word.ofString (word : String) : Word :=
  match word.toList with
  | ['-', '-'] => .separator
  | '-' :: '-' :: rest =>
    match rest.dropWhile (· != '=') with
    | [] => .long (.ofList rest) none
    | _ :: value => .long (.ofList (rest.takeWhile (· != '='))) (some (.ofList value))
  | '-' :: letter :: rest => .short letter (afterLetter rest)
  | _ => .operand

/-- Takes note of an option. The answer tells whether the next word is its value. -/
def addSwitch (a : Arguments) (s : Switch) (attached : Option String) :
    Except Refusal (Arguments ⊕ (String → Except Refusal Arguments)) :=
  match s.accepts, attached with
  | some accepts, some value => (a.addChecked s.name accepts value).map .inl
  | some accepts, none => .ok (.inr (a.addChecked s.name accepts))
  | none, some _ => .error .misuse
  | none, none => (a.addValue s.name "").map .inl

/-- Reads one word as an option or an operand. -/
def addWord (u : Usage) (a : Arguments) (word : String) :
    Except Refusal (Arguments ⊕ (String → Except Refusal Arguments)) :=
  match Word.ofString word with
  | .operand | .separator => (a.addOperand u word).map .inl
  | .long name attached =>
    if name = "help" && attached.isNone then .error .help
    else
      match u.switches.find? (·.name == name) with
      | some s => a.addSwitch s attached
      | none => .error .misuse
  | .short letter attached =>
    if letter = 'h' then .error .help
    else
      match u.switches.find? (·.letter == some letter) with
      | some s => a.addSwitch s attached
      | none => .error .misuse

/-- Whether a word can be the value of the option before it. -/
def isValue (word : String) : Bool :=
  match Word.ofString word with
  | .operand => true
  | _ => false

/-- Reads words, after the arguments `a`. -/
def read (u : Usage) (a : Arguments) : List String → Except Refusal Arguments
  | [] => .ok a
  | "--" :: rest => rest.foldlM (addOperand u) a
  | word :: rest => do
    match ← a.addWord u word, rest with
    | .inl a, rest => read u a rest
    | .inr _, [] => throw .misuse
    | .inr add, value :: rest =>
      if isValue value then read u (← add value) rest else throw .misuse

/-- Reads the arguments of a command. -/
def parse (u : Usage) (words : List String) : Except Refusal Arguments := empty.read u words

end Arguments

end Interleaving.Cli
