import ScriptedChat.Settings.Layers

/-!
# Parameters of the command line

A parameter is given by two hyphens, its name and one value, which stands in the next argument or after an
equals sign. It is given at most once. A value in an argument of its own is looked at when the next
parameter is read, or at the end.

* `Domain`, `Parameter`: what a parameter is called, the values that it takes, and what they mean.
* `Stop`: why arguments ask for nothing to be done.
* `readParameters`: the values at the beginning of arguments.
-/

namespace ScriptedChat.CommandLine

/-! ## Parameters -/

/-- One of the values that a parameter takes. -/
structure Choice where
  name : String
  /-- what it stands for; empty if the name says it -/
  about : String := ""
  deriving DecidableEq, Repr

/-- The values that a parameter takes. -/
inductive Domain where
  | text
  /-- a text that is not empty -/
  | path
  /-- a number up to the given one -/
  | number (most : Nat)
  | oneOf (choices : List Choice)
  deriving DecidableEq, Repr

/-- Whether a parameter takes a value. -/
def Domain.accepts (domain : Domain) (value : String) : Bool :=
  match domain with
  | .text => true
  | .path => value ≠ ""
  | .number most => (Settings.textNumber? value).any (· ≤ most)
  | .oneOf choices => choices.any fun choice => choice.name = value

/-- A parameter: its name, the values that it takes, and what it is for. -/
structure Parameter where
  name : String
  domain : Domain
  about : String := ""
  deriving DecidableEq, Repr

/-! ## Reading -/

/-- Pages of help. -/
inductive Page where
  | program (isDetailed : Bool)
  | serve
  | printConfig
  | help
  deriving DecidableEq, Repr

/-- Why arguments ask for nothing to be done: they are not well formed, or they ask for help. -/
inductive Stop where
  | misuse
  | help (page : Page)
  deriving DecidableEq, Repr

/-- Values of parameters by their names. -/
abbrev Values := List (String × String)

/-- What has been read of arguments: values, and the last parameter with a value that has not been looked
at. -/
structure Progress where
  values : Values := []
  waiting : Option (Parameter × String) := none
  deriving DecidableEq, Repr

/-- The values with one more: a parameter takes one value, out of its domain. -/
def addValue (values : Values) (parameter : Parameter) (value : String) : Except Stop Values :=
  if (values.lookup parameter.name).isNone && parameter.domain.accepts value then
    .ok (values ++ [(parameter.name, value)])
  else .error .misuse

/-- The values that have been read, with the one that waits. -/
def Progress.settle (progress : Progress) : Except Stop Values :=
  match progress.waiting with
  | none => .ok progress.values
  | some (parameter, value) => addValue progress.values parameter value

/-- Whether an argument can be the value of the parameter before it. -/
def isValue (argument : String) : Bool :=
  argument.toList.head? ≠ some '-' || argument = "-"

/-- What an argument is. -/
inductive Argument where
  /-- no parameter, or the mark of the end of all parameters -/
  | other
  | named (name : String) (value : Option String)
  /-- a letter after one hyphen -/
  | short (letter : Char)

/-- What an argument is. -/
def Argument.ofString (argument : String) : Argument :=
  match argument.toList with
  | ['-', '-'] => .other
  | '-' :: '-' :: body =>
    .named (String.ofList (body.takeWhile (· ≠ '=')))
      (match body.dropWhile (· ≠ '=') with
       | _ :: value => some (String.ofList value)
       | [] => none)
  | '-' :: letter :: _ => .short letter
  | _ => .other

/-- Reads parameters from the beginning of arguments: what has been read, and the arguments after the last
parameter. `page` is the page of help, in detail or not, which may be asked for among the parameters. -/
def readParameters (parameters : List Parameter) (page : Bool → Page) (progress : Progress) :
    List String → Except Stop (Progress × List String)
  | [] => .ok (progress, [])
  | argument :: arguments =>
    match Argument.ofString argument with
    | .other => .ok (progress, argument :: arguments)
    | .short letter =>
      if letter = 'h' then progress.settle.bind fun _ => .error (.help (page false))
      else .error .misuse
    | .named name value =>
      match parameters.find? fun parameter => parameter.name = name with
      | none =>
        if name = "help" && value.isNone then
          progress.settle.bind fun _ => .error (.help (page true))
        else .error .misuse
      | some parameter =>
        match progress.settle with
        | .error stop => .error stop
        | .ok values =>
          match value, arguments with
          | some value, arguments =>
            match addValue values parameter value with
            | .error stop => .error stop
            | .ok values => readParameters parameters page { values } arguments
          | none, value :: arguments =>
            if isValue value then
              readParameters parameters page { values, waiting := some (parameter, value) } arguments
            else .error .misuse
          | none, [] => .error .misuse

end ScriptedChat.CommandLine
