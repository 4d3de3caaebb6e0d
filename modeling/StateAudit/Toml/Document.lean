import StateAudit.Toml.Parser

/-! Reading a TOML document. Pairs go into the table of the last header, and that table goes
into the document when the next header opens or the text ends. -/

namespace StateAudit.Toml

/-- The table that a header opened, still apart from the document. -/
structure Section where
  path : List String
  name : String
  repeated : Bool

structure Draft where
  document : Entries := []
  /-- The entries before the first header belong to no section. -/
  opened : Option Section := none
  current : Entries := []

namespace Draft

def close (draft : Draft) : Option Entries :=
  match draft.opened with
  | none => some draft.current
  | some opened =>
    Entries.changeAt false (fun _ entries =>
      match opened.repeated, entries.lookup opened.name with
      | false, none => some (entries ++ [(opened.name, .table .header draft.current)])
      | true, none => some (entries ++ [(opened.name, .tables [draft.current])])
      | true, some (.tables items) => some (entries.replace opened.name (.tables (draft.current :: items)))
      | _, _ => none) opened.path false draft.document

/-- Reads the entries at a path on which every table exists or is new. -/
def entriesAt : (path : List String) → Entries → Entries
  | [], entries => entries
  | name :: path, entries => match entries.lookup name with
    | some (.table _ child) => entriesAt path child
    | some (.tables items) => entriesAt path (items.head?.getD [])
    | _ => []

/-- Opens a table. One that longer headers passed through keeps its entries and moves to the end. -/
def openTable (path : List String) (name : String) (document : Entries) : Option Draft :=
  let held := match (entriesAt path document).lookup name with
    | some (.table .passed child) => child
    | _ => []
  (Entries.changeAt false (fun _ entries =>
    match entries.lookup name with
    | none => some entries
    | some (.table .passed _) => some (entries.remove name)
    | some _ => none) path false document).map fun document =>
      { document, opened := some { path, name, repeated := false }, current := held }

def openRepeated (path : List String) (name : String) (document : Entries) : Option Draft :=
  (Entries.changeAt false (fun _ entries =>
    match entries.lookup name with
    | none => some (entries ++ [(name, .tables [])])
    | some (.tables _) => some entries
    | some _ => none) path false document).map fun document =>
      { document, opened := some { path, name, repeated := true } }

end Draft

def header (draft : Draft) (text : List Char) : Option (Draft × List Char) :=
  draft.close.bind fun document =>
    match text with
    | '[' :: rest => (key rest).bind fun ((path, name), rest) =>
      match rest with
      | ']' :: ']' :: rest => do
        let rest ← lineEnd? rest
        let draft ← Draft.openRepeated path name document
        return (draft, rest)
      | _ => none
    | text => (key text).bind fun ((path, name), rest) =>
      match rest with
      | ']' :: rest => do
        let rest ← lineEnd? rest
        let draft ← Draft.openTable path name document
        return (draft, rest)
      | _ => none

def assignment (draft : Draft) (text : List Char) : Option (Draft × List Char) :=
  (Parser.pair (Parser.value nestingLimit) text).bind fun (((path, name), value), rest) => do
    let rest ← lineEnd? rest
    let current ← draft.current.put path name value
    return ({ draft with current }, rest)

def expressions (draft : Draft) : (fuel : Nat) → List Char → Option Entries
  | 0, _ => none
  | fuel + 1, text =>
    match skipBlanks text with
    | [] => draft.close
    | '#' :: rest => (lineEnd? ('#' :: rest)).bind (expressions draft fuel)
    | '[' :: rest => (header draft rest).bind fun (draft, rest) => expressions draft fuel rest
    | text => match lineBreak? text with
      | some rest => expressions draft fuel rest
      | none => (assignment draft text).bind fun (draft, rest) => expressions draft fuel rest

/-- The entries of a document, or nothing when the text is not TOML. A byte order mark may
come before the text. -/
def parse? (text : List Char) : Option Entries :=
  let text := match text with
    | '\uFEFF' :: rest => rest
    | text => text
  expressions {} (text.length + 1) text

end StateAudit.Toml
