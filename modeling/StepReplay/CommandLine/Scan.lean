import StepReplay.CommandLine.Parameter

set_option autoImplicit false

/-! # Reading arguments

Arguments are read from the left. A long spelling may have its value behind an equals sign, a
short one directly behind its letter, and otherwise the next argument is the value, whatever it
looks like. Letters of parameters without a value may share one dash. Two dashes alone end the
parameters. What is no parameter is kept: it may stand between them, but nothing takes it. -/

namespace StepReplay.CommandLine

/-- What arguments say: the parameters given, with their values, and all other arguments, both in
order. -/
structure Scan where
  given : List (Parameter × Text) := []
  extra : List Text := []

namespace Scan

/-- The equals sign. -/
def equals : CodePoint := CodePoint.ofChar '='

/-- A long spelling and the value behind its first equals sign. -/
def splitLong (t : Text) : Text × Option Text :=
  let name := t.takeWhile (· ≠ equals)
  (name, if name.length < t.length then some (t.drop (name.length + 1)) else none)

/-- What one argument says: parameters with values, and one that waits for its value under the
spelling in which it was given. -/
abbrev Piece := List (Parameter × Text) × Option (Parameter × Text)

/-- The parameters of letters behind one dash. -/
def readLetters : Text → Except UsageError Piece
  | [] => .ok ([], none)
  | c :: rest => match Parameter.ofLetter? c with
    | none => .error (.unknown (Parameter.short c))
    | some p =>
      if p.takesValue then
        if rest.isEmpty then .ok ([], some (p, Parameter.short c)) else .ok ([(p, rest)], none)
      else (readLetters rest).map fun (given, waiting) => ((p, []) :: given, waiting)

/-- The parameter of a long spelling. -/
def readLong (p : Parameter) (spelling : Text) : Option Text → Except UsageError Piece
  | some value =>
    if p.takesValue then .ok ([(p, value)], none) else .error (.valueRefused spelling)
  | none => .ok (if p.takesValue then ([], some (p, spelling)) else ([(p, [])], none))

/-- The parameters of an argument that starts with a dash. -/
def readPiece (t : Text) : Except UsageError Piece :=
  let (spelling, value) := splitLong t
  match Parameter.ofLong? spelling with
  | some p => readLong p spelling value
  | none =>
    if t.take 2 = "--" then .error (.unknown spelling) else readLetters (t.drop 1)

/-- Whether an argument starts with a dash and goes on. -/
def isPiece (t : Text) : Bool :=
  t.head? = some Parameter.dash && 1 < t.length

/-- What is said before something else. -/
def after (given : List (Parameter × Text)) (s : Scan) : Scan :=
  { s with given := given ++ s.given }

/-- Reads arguments. -/
def read : List Text → Except UsageError Scan
  | [] => .ok {}
  | t :: rest =>
    if t = "--" then .ok { extra := rest }
    else if isPiece t then do
      match ← readPiece t with
      | (given, none) => return after given (← read rest)
      | (given, some (p, spelling)) => match rest with
        | [] => throw (.valueNeeded spelling)
        | value :: rest => return after (given ++ [(p, value)]) (← read rest)
    else (read rest).map fun s => { s with extra := t :: s.extra }

/-! ## Values -/

/-- Whether a parameter is given. -/
def holds (s : Scan) (p : Parameter) : Bool :=
  s.given.any fun entry => entry.1 = p

/-- The value of a parameter; the last one counts. -/
def value? (s : Scan) (p : Parameter) : Option Text :=
  (s.given.reverse.find? fun entry => entry.1 = p).map (·.2)

/-- The parameters in the order in which they are settled: those given in the order in which they
first came, then all others. -/
def order (s : Scan) : List Parameter :=
  let given := (s.given.map (·.1)).eraseDups
  given ++ Parameter.all.filter fun p => !given.contains p

end Scan

end StepReplay.CommandLine
