import TraceWeave.CommandLine.Parameter

/-!
# Reading arguments

An argument that begins with a hyphen names parameters: two hyphens go before a name, with the
value behind an equals sign or as the next argument, and one hyphen before letters, the last of
which may have its value right behind it. All other arguments, and all behind `--`, are targets.

A value is checked only when the next parameter or target comes, or the arguments end. So of two
faults the one that comes first is reported, except that an unknown name is reported at once.
-/

namespace TraceWeave.CommandLine

/-- What was found so far. -/
structure Matches where
  /-- The parameters given, each with its value; that of a switch is `true`. -/
  given : List (Parameter × String) := []
  target : Option String := none
  /-- A parameter that is not checked yet, with its value if it has come. -/
  pending : Option (Parameter × Option String) := none
deriving DecidableEq, Repr

namespace Matches

/-- The parameter was given. -/
def has (m : Matches) (p : Parameter) : Bool :=
  m.given.any (·.1 = p)

/-- The values of a parameter, in order. -/
def values (m : Matches) (p : Parameter) : List String :=
  (m.given.filter (·.1 = p)).map (·.2)

/-- The value of a parameter that stands at most once. -/
def value? (m : Matches) (p : Parameter) : Option String :=
  (m.values p).head?

/-- The switch is on. -/
def isOn (m : Matches) (p : Parameter) : Bool :=
  m.value? p = some "true"

/-- Takes a parameter with its value. -/
def add (m : Matches) (p : Parameter) (value : String) : Except Usage Matches := do
  if m.has p && !p.repeats then throw .conflict
  p.check value
  return { m with given := m.given ++ [(p, value)] }

/-- Takes the parameter that waits. -/
def settle (m : Matches) : Except Usage Matches :=
  match m.pending with
  | none => .ok m
  | some (_, none) => .error .valueInvalid
  | some (p, some value) => { m with pending := none }.add p value

/-- Takes a switch. -/
def switch (m : Matches) (p : Parameter) : Except Usage Matches := do
  let m ← m.settle
  match p with
  | .help => throw .help
  | .version => throw .version
  | _ => m.add p "true"

/-- Takes an option. Without a value it waits for the next argument. -/
def option (m : Matches) (p : Parameter) (value : Option String) : Except Usage Matches := do
  let m ← m.settle
  match value with
  | some value => m.add p value
  | none => return { m with pending := some (p, none) }

/-- Takes a target. -/
def word (m : Matches) (scope : Scope) (value : String) : Except Usage Matches := do
  if m.target.isSome || !scope.takesTarget then throw scope.excess
  let m ← m.settle
  return { m with target := some value }

/-- Takes what stands behind two hyphens. -/
def named (m : Matches) (scope : Scope) (body : List Char) : Except Usage Matches :=
  let name := body.takeWhile (· != '=')
  let value := match body.dropWhile (· != '=') with
    | [] => none
    | _ :: value => some (String.ofList value)
  match scope.ofLong? name with
  | none => .error .unknownArgument
  | some p =>
    if p.takesValue then m.option p value
    else if value.isSome then .error .valueUnexpected
    else m.switch p

/-- Takes letters behind a hyphen. -/
def letters (m : Matches) (scope : Scope) : List Char → Except Usage Matches
  | [] => .ok m
  | c :: rest =>
    match scope.ofShort? c with
    | none => .error .unknownArgument
    | some p =>
      if p.takesValue then
        match rest with
        | [] => m.option p none
        | '=' :: value => m.option p (some (String.ofList value))
        | value => m.option p (some (String.ofList value))
      else do (← m.switch p).letters scope rest

/-- Digits, with a point or a power of ten, behind the hyphen of a negative number. -/
def isNumber (seenPoint seenPower : Bool) : List Char → Bool
  | [] => true
  | c :: rest =>
    if c.isDigit then isNumber seenPoint seenPower rest
    else if c = '.' && !seenPoint && !seenPower then isNumber true seenPower rest
    else (c = 'e' || c = 'E') && !seenPower && !rest.isEmpty && isNumber seenPoint true rest

/-- The argument is the value that a parameter waits for, though it begins with a hyphen. -/
def takesNegative (m : Matches) (body : List Char) : Bool :=
  match m.pending with
  | some (p, none) =>
    p.allowsNegative && (body.take 1).all Char.isDigit && isNumber false false body
  | _ => false

/-- Takes an argument that names no parameter. -/
def plain (m : Matches) (scope : Scope) (argument : String) : Except Usage Matches :=
  match m.pending with
  | some (p, none) => .ok { m with pending := some (p, some argument) }
  | _ => m.word scope argument

/-- Takes an argument. -/
def take (m : Matches) (scope : Scope) (argument : String) : Except Usage Matches :=
  match argument.toList with
  | '-' :: '-' :: body => m.named scope body
  | '-' :: c :: rest =>
    if m.takesNegative (c :: rest) then m.plain scope argument else m.letters scope (c :: rest)
  | _ => m.plain scope argument

/-- Takes all arguments. -/
def takeAll (m : Matches) (scope : Scope) : List String → Except Usage Matches
  | [] => m.settle
  | argument :: rest => do
    if argument = "--" then (← rest.foldlM (fun m argument => m.word scope argument) m).settle
    else (← m.take scope argument).takeAll scope rest

/-- Takes environment variables for the parameters that were not given. -/
def takeVariables (m : Matches) (environment : String → Option String) :
    List Parameter → Except Usage Matches
  | [] => .ok m
  | p :: rest => do
    let value := (p.environmentName?.bind environment).filter fun _ => !m.has p
    let m ← value.elim (.ok m) (m.add p)
    m.takeVariables environment rest

/-- Reads the arguments and the environment of a part of the command line. -/
def read (environment : String → Option String) (scope : Scope) (arguments : List String) :
    Except Usage Matches := do
  let m ← takeAll {} scope arguments
  m.takeVariables environment scope.parameters

end Matches

end TraceWeave.CommandLine
