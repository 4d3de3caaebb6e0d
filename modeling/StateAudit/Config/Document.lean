import StateAudit.Config
import StateAudit.Config.Error
import StateAudit.Decimal.Shortest
import StateAudit.Text.Quoted
import StateAudit.Toml.Document

/-! Settings from a TOML document. The entries are taken in their order, and the first one
that does not fit is the error; ranges are checked last. -/

namespace StateAudit.Config

open Toml

def describe : Value → String
  | .string text => s!"string {Text.quoted text}"
  | .integer value => s!"integer `{value}`"
  | .float value => s!"floating point `{Decimal.plain value}`"
  | .bool value => s!"boolean `{value}`"
  | .datetime _ => "map"
  | .array _ => "sequence"
  | .table _ _ => "map"
  | .tables _ => "sequence"

def wrongType (value : Value) (expected : String) : Except ConfigError α := .error (.wrongType (describe value) expected)

def count : Value → Except ConfigError Nat
  | .integer value =>
    if value < 0 then .error (.wrongValue (describe (.integer value)) "usize") else .ok value.toNat
  | value => wrongType value "usize"

def target : Value → Except ConfigError String
  | .string text => .ok text
  | value => wrongType value "a string"

def targets : Value → Except ConfigError (List String)
  | .array items => items.mapM target
  | .tables (first :: _) => wrongType (.table .header first) "a string"
  | .tables [] => .ok []
  | value => wrongType value "a sequence"

def graphOf : Entries → Except ConfigError (Dictionary (List String))
  | [] => .ok []
  | (source, value) :: rest =>
    match targets value with
    | .error error => .error error
    | .ok found => match graphOf rest with
      | .error error => .error error
      | .ok graph => .ok (Dictionary.insert source found graph)

/-- A graph is a table; a date reads as a table with its text for a value. -/
def graph : Value → Except ConfigError (Dictionary (List String))
  | .table _ entries => graphOf entries
  | .datetime text => wrongType (.string text) "a sequence"
  | value => wrongType value "a map"

def set (config : Config) (name : String) (value : Value) : Except ConfigError Config :=
  match name with
  | "top_k" => (count value).map fun found => { config with topK := found }
  | "recent_errors" => (count value).map fun found => { config with recentErrors := found }
  | "suggestion_limit" => (count value).map fun found => { config with suggestionLimit := found }
  | "display_limit" => (count value).map fun found => { config with displayLimit := found }
  | "transitions" => (graph value).map fun found => { config with transitions := some found }
  | name => .error (.unknownField name)

def ofEntries (config : Config) : Entries → Except ConfigError Config
  | [] => .ok config
  | (name, value) :: rest => match config.set name value with
    | .error error => .error error
    | .ok config => ofEntries config rest

def check (config : Config) : Except ConfigError Config :=
  match config.invalidKey? with
  | some key => .error (.outOfRange key)
  | none => .ok config

def ofToml (text : List Char) : Except ConfigError Config :=
  match Toml.parse? text with
  | none => .error .notToml
  | some entries => match ofEntries {} entries with
    | .error error => .error error
    | .ok config => config.check

end StateAudit.Config
