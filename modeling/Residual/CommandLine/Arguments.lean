/-!
# Command-line arguments

Options are read from left to right. An option stands for itself after two dashes by its long name,
or after one dash by its letter, in a row with others. A file name follows its option, or is joined
to it. Every option may be given once.

* `Arguments.parse`: the job that the arguments describe, or what else they ask for.
-/

namespace Residual.CommandLine

/-- An option that names a file. -/
inductive FileOption where
  | expr
  | binding
  | config
  deriving Repr, DecidableEq

/-- An option of either sort. -/
inductive OptionName where
  | file (o : FileOption)
  | json
  | debug
  | version
  | help
  deriving Repr, DecidableEq

def OptionName.ofLong? (name : List Char) : Option OptionName :=
  [("expr", file .expr), ("binding", file .binding), ("config", file .config), ("json", json),
   ("debug", debug), ("version", version), ("help", help)].lookup (String.ofList name)

def OptionName.ofLetter? (c : Char) : Option OptionName :=
  [('e', file .expr), ('b', file .binding), ('c', file .config), ('d', debug), ('V', version),
   ('h', help)].lookup c

/-- What to evaluate, and how to print the result. -/
structure Job where
  /-- The file of the expression; without one it is read from standard input. -/
  expr : Option String := none
  binding : Option String := none
  config : Option String := none
  json : Bool := false
  debug : Bool := false
  deriving Repr, DecidableEq

/-- Why there is no job. -/
inductive NoJob where
  | misuse
  | version
  | help
  deriving Repr, DecidableEq

namespace Job

/-- Sets a field that has no value yet. -/
def once (field : Option String) (value : String) : Except NoJob (Option String) :=
  if field.isSome || value == "" then throw .misuse else return some value

/-- Gives a file option its file. -/
def setFile (job : Job) (o : FileOption) (value : List Char) : Except NoJob Job := do
  let value := String.ofList value
  match o with
  | .expr => return { job with expr := ← once job.expr value }
  | .binding => return { job with binding := ← once job.binding value }
  | .config => return { job with config := ← once job.config value }

def setJson (job : Job) : Except NoJob Job :=
  if job.json then throw .misuse else return { job with json := true }

def setDebug (job : Job) : Except NoJob Job :=
  if job.debug then throw .misuse else return { job with debug := true }

end Job

/-- The options read so far, and the file option whose file comes next. -/
abbrev Progress := Job × Option FileOption

namespace Arguments

/-- Takes in a long option, with what follows an equals sign after it. -/
def takeLong (job : Job) (name : List Char) (value : Option (List Char)) :
    Except NoJob Progress :=
  match OptionName.ofLong? name, value with
  | some (.file o), some value => return (← job.setFile o value, none)
  | some (.file o), none => return (job, some o)
  | some .json, none => return (← job.setJson, none)
  | some .debug, none => return (← job.setDebug, none)
  | some .version, none => throw .version
  | some .help, none => throw .help
  | _, _ => throw .misuse

/-- Takes in a row of letters. What follows a file option is its file. -/
def takeLetters (job : Job) : List Char → Except NoJob Progress
  | [] => return (job, none)
  | c :: cs =>
    match OptionName.ofLetter? c with
    | some (.file o) =>
      match cs with
      | [] => return (job, some o)
      | '=' :: value => return (← job.setFile o value, none)
      | value => return (← job.setFile o value, none)
    | some .json => do takeLetters (← job.setJson) cs
    | some .debug => do takeLetters (← job.setDebug) cs
    | some .version => throw .version
    | some .help => throw .help
    | none => throw .misuse

/-- Takes in the rest of the arguments. Two dashes end the options, and nothing may follow. -/
def takeAll : Progress → List (List Char) → Except NoJob Job
  | (job, none), [] => return job
  | (_, some _), [] => throw .misuse
  | (job, some o), ['-'] :: rest => do takeAll (← job.setFile o ['-'], none) rest
  | (_, some _), ('-' :: _) :: _ => throw .misuse
  | (job, some o), value :: rest => do takeAll (← job.setFile o value, none) rest
  | (job, none), ['-', '-'] :: rest => if rest.isEmpty then return job else throw .misuse
  | (job, none), ('-' :: '-' :: option) :: rest => do
    let name := option.takeWhile (· ≠ '=')
    let value := (option.dropWhile (· ≠ '=')).tail?
    takeAll (← takeLong job name value) rest
  | (job, none), ('-' :: c :: cs) :: rest => do takeAll (← takeLetters job (c :: cs)) rest
  | (_, none), _ :: _ => throw .misuse

def parse (args : List String) : Except NoJob Job :=
  takeAll ({}, none) (args.map String.toList)

end Arguments

end Residual.CommandLine
