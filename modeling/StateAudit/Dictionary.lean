/-! Dictionaries: pairs by strictly increasing key. -/

namespace StateAudit

abbrev Dictionary (α : Type) := List (String × α)

namespace Dictionary

def get? (entries : Dictionary α) (key : String) : Option α := entries.lookup key

def insert (key : String) (value : α) : Dictionary α → Dictionary α
  | [] => [(key, value)]
  | (other, held) :: rest =>
    if key < other then (key, value) :: (other, held) :: rest
    else if key = other then (key, value) :: rest
    else (other, held) :: insert key value rest

/-- Of pairs with one key the last is kept. -/
def ofList (entries : List (String × α)) : Dictionary α :=
  entries.foldl (fun read (key, value) => insert key value read) []

end Dictionary

/-- Texts in strictly increasing order. -/
abbrev Labels := List String

def Labels.insert (label : String) : Labels → Labels
  | [] => [label]
  | other :: rest =>
    if label < other then label :: other :: rest
    else if label = other then other :: rest
    else other :: insert label rest

end StateAudit
