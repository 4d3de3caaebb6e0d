/-! Columns of text. Widths count characters, and text wider than its column is kept whole. -/

namespace StateAudit.Text

def spaces (count : Nat) : String := String.ofList (List.replicate count ' ')

def alignLeft (width : Nat) (text : String) : String := text ++ spaces (width - text.length)

def alignRight (width : Nat) (text : String) : String := spaces (width - text.length) ++ text

def unlines (lines : List String) : String := String.join (lines.map (· ++ "\n"))

end StateAudit.Text
