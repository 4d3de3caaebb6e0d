/-! Text as bytes. Reading accepts the shortest form of every Unicode scalar value
and nothing else, and reports where the first bad sequence begins. -/

namespace StateAudit

abbrev Bytes := List UInt8

namespace Utf8

def encodeChar (char : Char) : Bytes := String.utf8EncodeChar char

def encode (text : List Char) : Bytes := text.flatMap encodeChar

def size : List Char → Nat
  | [] => 0
  | char :: rest => char.utf8Size + size rest

def isContinuation (byte : UInt8) : Bool := 0x80 ≤ byte && byte < 0xC0

def scalar? (least value : Nat) : Option Char :=
  if least ≤ value ∧ value.isValidChar then some (Char.ofNat value) else none

def two? (a b : UInt8) : Option Char :=
  if 0xC0 ≤ a ∧ a < 0xE0 ∧ isContinuation b then
    scalar? 0x80 (a.toNat % 32 * 64 + b.toNat % 64)
  else none

def three? (a b c : UInt8) : Option Char :=
  if 0xE0 ≤ a ∧ a < 0xF0 ∧ isContinuation b ∧ isContinuation c then
    scalar? 0x800 (a.toNat % 16 * 4096 + b.toNat % 64 * 64 + c.toNat % 64)
  else none

def four? (a b c d : UInt8) : Option Char :=
  if 0xF0 ≤ a ∧ a < 0xF8 ∧ isContinuation b ∧ isContinuation c ∧ isContinuation d then
    scalar? 0x10000 (a.toNat % 8 * 262144 + b.toNat % 64 * 4096 + c.toNat % 64 * 64 + d.toNat % 64)
  else none

/-- Reads on with `index` bytes and the reversed characters of `read` behind it.
A failure is the index at which the first bad sequence begins. -/
def decodeFrom (index : Nat) (read : List Char) : Bytes → Except Nat (List Char)
  | [] => .ok read.reverse
  | a :: rest =>
    if a < 0x80 then decodeFrom (index + 1) (Char.ofNat a.toNat :: read) rest
    else match rest with
      | [] => .error index
      | b :: rest => match two? a b with
        | some char => decodeFrom (index + 2) (char :: read) rest
        | none => match rest with
          | [] => .error index
          | c :: rest => match three? a b c with
            | some char => decodeFrom (index + 3) (char :: read) rest
            | none => match rest with
              | [] => .error index
              | d :: rest => match four? a b c d with
                | some char => decodeFrom (index + 4) (char :: read) rest
                | none => .error index

def decode (bytes : Bytes) : Except Nat (List Char) := decodeFrom 0 [] bytes

def decode? (bytes : Bytes) : Option (List Char) := (decode bytes).toOption

end Utf8

end StateAudit
