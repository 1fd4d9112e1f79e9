import StepReplay.DecodeError
import StepReplay.Text.Similarity

set_option autoImplicit false

/-! # Parameters of the command line

The parameters, how each is spelled, and whether it takes a value. Some have a short spelling of
one letter beside the long one. All mistakes in the use of parameters are causes with one wording
each, and they name a parameter by all of its spellings. -/

namespace StepReplay.CommandLine

/-- A parameter of the command line. -/
inductive Parameter where
  | fixtures
  | work
  | bindings
  | mipsAddress
  | oracleAddress
  | gasLimit
  | sharedEnvironment
  | verbose
  | help
  deriving DecidableEq, Repr

namespace Parameter

/-- All parameters, in the order in which those that are not given are settled. -/
def all : List Parameter :=
  [fixtures, work, bindings, mipsAddress, oracleAddress, gasLimit, sharedEnvironment, verbose, help]

/-- The long spelling. -/
def long : Parameter → Text
  | fixtures => "--fixtures"
  | work => "--work"
  | bindings => "--bindings"
  | mipsAddress => "--mips-address"
  | oracleAddress => "--preimage-oracle-address"
  | gasLimit => "--gas-limit"
  | sharedEnvironment => "--shared-environment"
  | verbose => "--verbose"
  | help => "--help"

/-- The letter of the short spelling, if there is one. -/
def letter? : Parameter → Option CodePoint
  | fixtures => some (CodePoint.ofChar 'f')
  | work => some (CodePoint.ofChar 'w')
  | bindings => some (CodePoint.ofChar 'b')
  | verbose => some (CodePoint.ofChar 'v')
  | _ => none

/-- Whether a value has to follow. -/
def takesValue : Parameter → Bool
  | sharedEnvironment | verbose | help => false
  | _ => true

/-- The dash that spellings start with. -/
def dash : CodePoint := CodePoint.ofChar '-'

/-- The short spelling with a letter. -/
def short (letter : CodePoint) : Text := [dash, letter]

/-- The parameter with a long spelling. -/
def ofLong? (t : Text) : Option Parameter :=
  all.find? fun p => p.long = t

/-- The parameter with the short spelling of a letter. -/
def ofLetter? (c : CodePoint) : Option Parameter :=
  all.find? fun p => p.letter? = some c

/-- A spelling between quotes. -/
def quoted (spelling : Text) : Text :=
  "\x27" ++ spelling ++ "\x27"

/-- All spellings of a parameter. -/
def spellings (p : Parameter) : Text :=
  match p.letter? with
  | some c => quoted p.long ++ " / " ++ quoted (short c)
  | none => quoted p.long

end Parameter

/-- A mistake in the use of parameters. -/
inductive UsageError where
  | unknown (spelling : Text)
  | valueNeeded (spelling : Text)
  | valueRefused (spelling : Text)
  /-- A parameter that must be given is not. -/
  | missing (p : Parameter)
  | directoryMissing (p : Parameter) (directory : Text)
  | directoryIsFile (p : Parameter) (directory : Text)
  | notInteger (p : Parameter) (value : Text)
  | badAddress (p : Parameter) (e : DecodeError)
  /-- Arguments that belong to no parameter. -/
  | extra (arguments : List Text)

namespace UsageError

/-- The message of a value that a parameter cannot have. -/
def invalid (p : Parameter) (reason : Text) : Text :=
  "Invalid value for " ++ p.spellings ++ ": " ++ reason

/-- What is said of the known spellings that an unknown one may have been meant for. -/
def suggestion (spelling : Text) : Text :=
  match Text.closest spelling (Parameter.all.map Parameter.long) with
  | [] => []
  | [known] => " Did you mean " ++ Quoted.encode known ++ "?"
  | several =>
    let sorted := several.mergeSort Text.precedes
    " (Did you mean one of: " ++ Text.joined ", " (sorted.map Quoted.encode) ++ "?)"

/-- The message of a mistake. Suggestions are made for long spellings only. -/
def message : UsageError → Text
  | unknown spelling =>
    "No such option " ++ Quoted.encode spelling ++ "."
      ++ if spelling.take 2 = "--" then suggestion spelling else []
  | valueNeeded spelling => "Option " ++ Quoted.encode spelling ++ " requires an argument."
  | valueRefused spelling => "Option " ++ Quoted.encode spelling ++ " does not take a value."
  | missing p => "Missing option " ++ p.spellings ++ "."
  | directoryMissing p directory =>
    invalid p ("Directory " ++ Quoted.encode directory ++ " does not exist.")
  | directoryIsFile p directory =>
    invalid p ("Directory " ++ Quoted.encode directory ++ " is a file.")
  | notInteger p value => invalid p (Quoted.encode value ++ " is not a valid integer.")
  | badAddress p e => invalid p e.message
  | extra arguments =>
    let noun : Text :=
      if arguments.length = 1 then "Got unexpected extra argument ("
      else "Got unexpected extra arguments ("
    noun ++ Text.joined " " arguments ++ ")"

end UsageError

end StepReplay.CommandLine
