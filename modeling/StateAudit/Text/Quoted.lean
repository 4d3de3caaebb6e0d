import StateAudit.Text.Unprintable

/-! Quoted text, in which every character can be seen. -/

namespace StateAudit.Text

def hexDigits (value : Nat) : List Char := Nat.toDigits 16 value

def quoteChar (char : Char) : List Char :=
  match char with
  | '\x00' => ['\\', '0']
  | '\t' => ['\\', 't']
  | '\n' => ['\\', 'n']
  | '\r' => ['\\', 'r']
  | '"' => ['\\', '"']
  | '\\' => ['\\', '\\']
  | char => if isUnprintable char then ['\\', 'u', '\x7b'] ++ hexDigits char.toNat ++ ['\x7d'] else [char]

def quoted (text : String) : String := String.ofList ('"' :: text.toList.flatMap quoteChar ++ ['"'])

end StateAudit.Text
