import Concolic.Text.Cut

/-!
# Command lines

A command takes options and positional arguments. An option has a long name, and perhaps a letter; letters
can be joined after one hyphen. Its operands follow it, or one is joined to it. Two hyphens alone end the
options. An option is settled, and its operands are looked at, when the next one begins or the arguments
end.
-/

namespace Concolic

/-- Why arguments are refused, or that help was asked for. -/
inductive UsageError
  | displayHelp
  | argumentConflict
  | invalidValue
  | wrongNumberOfValues
  | tooManyValues
  | unknownArgument
  | missingArgument
  | unknownCommand
  deriving DecidableEq, Repr

namespace UsageError

def name : UsageError → String
  | displayHelp => "DisplayHelp"
  | argumentConflict => "ArgumentConflict"
  | invalidValue => "InvalidValue"
  | wrongNumberOfValues => "WrongNumberOfValues"
  | tooManyValues => "TooManyValues"
  | unknownArgument => "UnknownArgument"
  | missingArgument => "MissingRequiredArgument"
  | unknownCommand => "InvalidSubcommand"

end UsageError

/-- An option or a positional argument. -/
structure Parameter where
  name : String
  letter : Option Char
  /-- How many operands it has. -/
  operands : Nat
  /-- Whether an operand may look like an option. -/
  anyOperand : Bool
  repeatable : Bool
  /-- Which operands are valid. -/
  accepts : String → Bool

namespace Parameter

def switch (name : String) (letter : Option Char) : Parameter :=
  ⟨name, letter, 0, false, false, fun _ => true⟩

def single (name : String) (letter : Option Char) (accepts : String → Bool) : Parameter :=
  ⟨name, letter, 1, false, false, accepts⟩

def help : Parameter := switch "help" (some 'h')

end Parameter

structure Usage where
  options : List Parameter
  positionals : List Parameter
  /-- Options of which at most one may be given. -/
  exclusive : List String

/-- An occurrence of a parameter, with its operands. -/
structure Given where
  name : String
  operands : List String
  deriving DecidableEq, Repr

namespace Usage

/-- How far arguments have been read. -/
structure Progress where
  settled : List Given
  /-- An option or a positional that is not settled, with the operands so far. -/
  pending : Option (Parameter × List String)
  /-- Whether the next argument can be an operand of it. -/
  expecting : Bool
  /-- Whether two hyphens have ended the options. -/
  ended : Bool
  positionals : List Parameter

/-- The command's options, with the one for help. -/
def allOptions (u : Usage) : List Parameter :=
  u.options ++ [Parameter.help]

/-- Adds an occurrence. It must have all its operands, be the only one unless the parameter is repeatable,
and hold valid operands. -/
def addGiven (p : Parameter) (operands : List String) (settled : List Given) :
    Except UsageError (List Given) :=
  if operands.isEmpty && p.operands != 0 then .error .invalidValue
  else if operands.length ≠ p.operands then .error .wrongNumberOfValues
  else if !p.repeatable && settled.any fun g => g.name == p.name then .error .argumentConflict
  else if operands.all p.accepts then .ok (settled ++ [⟨p.name, operands⟩])
  else .error .invalidValue

/-- Settles what is pending. -/
def settle (s : Progress) : Except UsageError Progress :=
  match s.pending with
  | none => .ok s
  | some (p, operands) => do
    let settled ← addGiven p operands s.settled
    return { s with settled := settled, pending := none, expecting := false }

/-- Begins an option that has operands. One that is joined to it is its only one. -/
def beginOption (p : Parameter) (joined : Option String) (s : Progress) :
    Except UsageError Progress := do
  let s ← settle s
  match joined with
  | some operand => return { s with settled := ← addGiven p [operand] s.settled, expecting := false }
  | none => return { s with pending := some (p, []), expecting := true }

def takeSwitch (p : Parameter) (s : Progress) : Except UsageError Progress := do
  let s ← settle s
  if p.name = Parameter.help.name then .error .displayHelp
  else return { s with settled := ← addGiven p [] s.settled, expecting := false }

/-- Takes an option by its long name, with what follows an equals sign. -/
def takeLong (u : Usage) (name : List Char) (joined : Option (List Char)) (s : Progress) :
    Except UsageError Progress :=
  match u.allOptions.find? fun p => p.name.toList = name with
  | none => .error .unknownArgument
  | some p =>
    if p.operands ≠ 0 then beginOption p (joined.map String.ofList) s
    else if joined.isSome then .error .tooManyValues
    else takeSwitch p s

/-- Takes joined letters. What follows the letter of an option with operands is joined to it, without an
equals sign in front. -/
def takeLetters (u : Usage) : List Char → Progress → Except UsageError Progress
  | [], s => .ok s
  | c :: rest, s =>
    match u.allOptions.find? fun p => p.letter = some c with
    | none => .error .unknownArgument
    | some p =>
      if p.operands = 0 then do
        let s ← takeSwitch p s
        takeLetters u rest s
      else match rest with
        | [] => beginOption p none s
        | '=' :: operand => beginOption p (some (String.ofList operand)) s
        | operand => beginOption p (some (String.ofList operand)) s

def takePositional (argument : String) (s : Progress) : Except UsageError Progress :=
  match s.positionals with
  | [] => .error .unknownArgument
  | p :: rest => do
    let s ← settle s
    return { s with pending := some (p, [argument]), expecting := false, positionals := rest }

def takeOperand (argument : String) (s : Progress) : Progress :=
  match s.pending with
  | none => s
  | some (p, operands) =>
    { s with
      pending := some (p, operands ++ [argument])
      expecting := operands.length + 1 < p.operands }

def step (u : Usage) (s : Progress) (argument : String) : Except UsageError Progress :=
  -- An option that takes any operand takes this one before its form is looked at.
  let operandAnyway := s.expecting && (s.pending.map fun (p, _) => p.anyOperand) == some true
  if s.ended then takePositional argument s
  else if operandAnyway then .ok (takeOperand argument s)
  else match argument.toList with
    | ['-', '-'] => .ok { s with ended := true }
    | '-' :: '-' :: long =>
      match cut? '=' long with
      | some (name, joined) => takeLong u name (some joined) s
      | none => takeLong u long none s
    | '-' :: c :: letters => takeLetters u (c :: letters) s
    | _ => if s.expecting then .ok (takeOperand argument s) else takePositional argument s

/-- The parameters that arguments give, in order. -/
def read (u : Usage) (arguments : List String) : Except UsageError (List Given) := do
  let s ← arguments.foldlM u.step ⟨[], none, false, false, u.positionals⟩
  let s ← settle s
  let chosen := u.exclusive.filter fun name => s.settled.any fun g => g.name == name
  if 1 < chosen.length then .error .argumentConflict
  else if !s.positionals.isEmpty then .error .missingArgument
  else return s.settled

/-- The operands of all occurrences of a parameter. -/
def operandsOf (name : String) (given : List Given) : List String :=
  given.flatMap fun g => if g.name = name then g.operands else []

def has (name : String) (given : List Given) : Bool :=
  given.any fun g => g.name == name

end Usage

end Concolic
