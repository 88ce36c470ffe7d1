/-!
# Text in UTF-8

Bytes are read as UTF-8 character by character.  A sequence that is no character
is as long as it could still have become one, and at least one byte.  Reading
either stops at the first such sequence and says where it is, or puts one
replacement character in the place of each.
-/

namespace JavaUml.Text.Utf8

/-- Why a sequence of bytes is no character. -/
inductive Reason where
  | badStart
  | badContinuation
  | endOfData
  deriving DecidableEq, Repr

/-- The wording of a reason. -/
def Reason.message : Reason → String
  | badStart => "invalid start byte"
  | badContinuation => "invalid continuation byte"
  | endOfData => "unexpected end of data"

/-- A sequence that is no character: its place, its length and first byte. -/
structure Fault where
  position : Nat
  length : Nat
  first : UInt8
  reason : Reason
  deriving DecidableEq, Repr

/-- Two hexadecimal digits of a byte. -/
def hex (byte : UInt8) : String :=
  String.ofList [Nat.digitChar (byte.toNat / 16), Nat.digitChar (byte.toNat % 16)]

/-- The wording of a fault: one byte is shown, several are placed. -/
def Fault.message (fault : Fault) : String :=
  if fault.length = 1 then
    "'utf-8' codec can't decode byte 0x" ++ hex fault.first ++ " in position " ++
      toString fault.position ++ ": " ++ fault.reason.message
  else
    "'utf-8' codec can't decode bytes in position " ++ toString fault.position ++ "-" ++
      toString (fault.position + fault.length - 1) ++ ": " ++ fault.reason.message

/-- The number of bytes that follow a first byte. -/
def tailLength (first : Nat) : Option Nat :=
  if first < 0x80 then some 0
  else if 0xC2 ≤ first ∧ first ≤ 0xDF then some 1
  else if 0xE0 ≤ first ∧ first ≤ 0xEF then some 2
  else if 0xF0 ≤ first ∧ first ≤ 0xF4 then some 3
  else none

/-- The bytes that may follow a first byte directly. -/
def secondRange (first : Nat) : Nat × Nat :=
  if first = 0xE0 then (0xA0, 0xBF)
  else if first = 0xED then (0x80, 0x9F)
  else if first = 0xF0 then (0x90, 0xBF)
  else if first = 0xF4 then (0x80, 0x8F)
  else (0x80, 0xBF)

/-- The number that the first byte of a sequence contributes. -/
def firstBits (first : Nat) : Nat :=
  if first < 0x80 then first
  else if first < 0xE0 then first % 0x20
  else if first < 0xF0 then first % 0x10
  else first % 0x08

/-- What the front of a list of bytes holds. -/
inductive Reading where
  | character (c : Char) (length : Nat) (rest : List UInt8)
  | bad (length : Nat) (reason : Reason) (rest : List UInt8)

/-- Read bytes that must follow: how many are missing, which range the next one
lies in, the number so far and the bytes taken. -/
def readTail : Nat → Nat × Nat → Nat → Nat → List UInt8 → Reading
  | 0, _, value, taken, bytes => .character (Char.ofNat value) taken bytes
  | _ + 1, _, _, taken, [] => .bad taken .endOfData []
  | missing + 1, range, value, taken, byte :: bytes =>
      if range.1 ≤ byte.toNat ∧ byte.toNat ≤ range.2 then
        readTail missing (0x80, 0xBF) (value * 0x40 + byte.toNat % 0x40) (taken + 1) bytes
      else .bad taken .badContinuation (byte :: bytes)

/-- Read the character that starts with the given byte. -/
def readOne (first : UInt8) (bytes : List UInt8) : Reading :=
  match tailLength first.toNat with
  | none => .bad 1 .badStart bytes
  | some missing =>
      readTail missing (secondRange first.toNat) (firstBits first.toNat) 1 bytes

/-- Read all bytes, or stop at the first fault.  The bytes bound the steps. -/
def decodeFrom : Nat → Nat → List UInt8 → Except Fault (List Char)
  | 0, _, _ => .ok []
  | _ + 1, _, [] => .ok []
  | fuel + 1, position, first :: bytes =>
      match readOne first bytes with
      | .character c length rest => do
          let later ← decodeFrom fuel (position + length) rest
          .ok (c :: later)
      | .bad length reason _ => .error ⟨position, length, first, reason⟩

/-- The text of bytes in UTF-8. -/
def decode (bytes : List UInt8) : Except Fault String := do
  return String.ofList (← decodeFrom bytes.length 0 bytes)

/-- Read all bytes with a replacement character for every fault. -/
def replaceFrom : Nat → List UInt8 → List Char
  | 0, _ => []
  | _ + 1, [] => []
  | fuel + 1, first :: bytes =>
      match readOne first bytes with
      | .character c _ rest => c :: replaceFrom fuel rest
      | .bad _ _ rest => '�' :: replaceFrom fuel rest

/-- The text of bytes, with a replacement character for every fault. -/
def decodeReplacing (bytes : List UInt8) : String :=
  String.ofList (replaceFrom bytes.length bytes)

/-- The bytes of a text. -/
def encode (text : String) : List UInt8 :=
  text.toUTF8.data.toList

end JavaUml.Text.Utf8
