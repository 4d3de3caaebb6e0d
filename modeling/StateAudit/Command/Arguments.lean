/-! Command lines. An option takes its value from the same argument after an equals sign, or
from the arguments that follow; only an option for many paths takes more than one, and any
other option may stand once. What comes first decides: a misuse before a call for help is one. -/

namespace StateAudit.Command

inductive Format where
  | text
  | json
deriving DecidableEq

def Format.parse? : String → Option Format
  | "text" => some .text
  | "json" => some .json
  | _ => none

inductive Kind where
  | flag
  | path
  | paths
  | format
deriving DecidableEq

/-- A path is never empty. -/
def Kind.accepts (kind : Kind) (value : String) : Bool :=
  match kind with
  | .flag => false
  | .path => !value.isEmpty
  | .paths => !value.isEmpty
  | .format => (Format.parse? value).isSome

abbrev Options := List (String × Kind)

abbrev Given := List (String × List String)

inductive Request where
  | run (given : Given)
  | help
  | misuse

def valuesOf (given : Given) (name : String) : List String := (given.filter (·.1 == name)).flatMap (·.2)

def isGiven (given : Given) (name : String) : Bool := given.any (·.1 == name)

/-- Whether an argument can be a value: it is a lone dash or begins with none. -/
def isValue (argument : String) : Bool := argument == "-" || argument.toList.head? != some '-'

/-- The name and the value of an argument with an equals sign. -/
def splitEquals (argument : List Char) : List Char × Option (List Char) :=
  match argument.dropWhile (· != '=') with
  | [] => (argument, none)
  | _ :: value => (argument.takeWhile (· != '='), some value)

/-- Adds the values of one option; a second use is allowed only where many values are. -/
def record (kind : Kind) (name : String) (values : List String) (given : Given) : Option Given :=
  if !values.all kind.accepts then none
  else if kind ≠ .paths ∧ isGiven given name then none
  else some (given ++ [(name, values)])

def after (given : Option Given) (next : Given → Request) : Request :=
  match given with
  | none => .misuse
  | some given => next given

def scan (options : Options) (given : Given) : (fuel : Nat) → List String → Request
  | _, [] => .run given
  | 0, _ => .misuse
  | fuel + 1, argument :: rest =>
    if argument = "--" then (if rest.isEmpty then .run given else .misuse)
    else match argument.toList with
      | '-' :: '-' :: long =>
        let (name, attached) := splitEquals long
        let name := String.ofList name
        match options.lookup name, attached with
        | none, none => if name = "help" then .help else .misuse
        | none, some _ => .misuse
        | some .flag, some _ => .misuse
        | some .flag, none => after (record .flag name [] given) (scan options · fuel rest)
        | some kind, some value =>
          after (record kind name [String.ofList value] given) (scan options · fuel rest)
        | some .paths, none =>
          let values := rest.takeWhile isValue
          if values.isEmpty then .misuse
          else after (record .paths name values given) (scan options · fuel (rest.dropWhile isValue))
        | some kind, none =>
          match rest with
          | value :: rest =>
            if isValue value then after (record kind name [value] given) (scan options · fuel rest) else .misuse
          | [] => .misuse
      | '-' :: 'h' :: _ => .help
      | _ => .misuse

end StateAudit.Command
