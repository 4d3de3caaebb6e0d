import StateAudit.Binary64.Basic

/-! TOML values. A table remembers how it came to be, which decides whether more keys may be
added to it. -/

namespace StateAudit.Toml

/-- How a table came to be: written in braces, opened by its header, passed through by the
header of a table inside it, or passed through by a dotted key. -/
inductive Origin where
  | inline
  | header
  | passed
  | dotted
deriving DecidableEq

inductive Value where
  | string (text : String)
  | integer (value : Int)
  | float (value : Binary64)
  | bool (value : Bool)
  /-- A date, a time or both, in its normal form. -/
  | datetime (text : String)
  | array (items : List Value)
  | table (origin : Origin) (entries : List (String × Value))
  /-- The tables that headers in double brackets opened, the last one first. -/
  | tables (items : List (List (String × Value)))

/-- Entries in the order in which their keys came. -/
abbrev Entries := List (String × Value)

namespace Entries

def replace (key : String) (value : Value) : Entries → Entries
  | [] => []
  | (other, held) :: rest =>
    if other = key then (key, value) :: rest else (other, held) :: replace key value rest

def remove (key : String) : Entries → Entries
  | [] => []
  | (other, held) :: rest => if other = key then rest else (other, held) :: remove key rest

/-- Changes the table at a path, which may pass through new tables. `change` is told whether
that table is one of dotted keys. A dotted path enters no table that has its own header. -/
def changeAt (dotted : Bool) (change : Bool → Entries → Option Entries) :
    (path : List String) → (inDotted : Bool) → Entries → Option Entries
  | [], inDotted, entries => change inDotted entries
  | key :: path, _, entries =>
    match entries.lookup key with
    | none =>
      (changeAt dotted change path dotted []).map fun child =>
        entries ++ [(key, .table (if dotted then .dotted else .passed) child)]
    | some (.table origin child) =>
      if origin = .inline ∨ (dotted ∧ origin = .header) then none
      else
        (changeAt dotted change path (origin = .dotted) child).map fun child =>
          replace key (.table origin child) entries
    | some (.tables items) =>
      match items with
      | [] => none
      | last :: others =>
        (changeAt dotted change path false last).map fun last =>
          replace key (.tables (last :: others)) entries
    | some _ => none

/-- Adds a value under a new key, in a table of the kind that the path makes. -/
def put (path : List String) (key : String) (value : Value) (entries : Entries) : Option Entries :=
  changeAt true (fun inDotted entries =>
    if inDotted = path.isEmpty then none
    else if (entries.lookup key).isSome then none
    else some (entries ++ [(key, value)])) path false entries

end Entries

end StateAudit.Toml
