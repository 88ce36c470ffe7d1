import JavaUml.Text.Printable

/-!
# Quoted text

Text in quotes as messages show it.  The quotes are single unless the text holds
single quotes and no double ones; backslashes, quotes and characters that do not
show are escaped, the latter by their code.
-/

namespace JavaUml.Text

/-- A number as that many hexadecimal digits. -/
def hexDigits (width n : Nat) : List Char :=
  let digits := Nat.toDigits 16 n
  List.replicate (width - digits.length) '0' ++ digits

/-- A character by its code, in as few digits as there is a form for. -/
def coded (n : Nat) : List Char :=
  if n < 0x100 then ['\\', 'x'] ++ hexDigits 2 n
  else if n < 0x10000 then ['\\', 'u'] ++ hexDigits 4 n
  else ['\\', 'U'] ++ hexDigits 8 n

/-- A character inside the given quotes. -/
def quotedChar (quote c : Char) : List Char :=
  if c = quote ∨ c = '\\' then ['\\', c]
  else if c = '\n' then ['\\', 'n']
  else if c = '\r' then ['\\', 'r']
  else if c = '\t' then ['\\', 't']
  else if isShown c then [c]
  else coded c.toNat

/-- The quote that is used around a text. -/
def quoteFor (chars : List Char) : Char :=
  if chars.contains '\'' && !chars.contains '"' then '"' else '\''

/-- A text in quotes. -/
def quoted (text : String) : String :=
  let chars := text.toList
  let quote := quoteFor chars
  String.ofList (quote :: chars.flatMap (quotedChar quote) ++ [quote])

/-- Bytes in quotes.  Those of ASCII that show stand for themselves. -/
def quotedBytes (bytes : List UInt8) : String :=
  let chars := bytes.map fun byte => Char.ofNat byte.toNat
  let quote := quoteFor chars
  let one (c : Char) : List Char :=
    if c.toNat < 0x80 then quotedChar quote c else coded c.toNat
  String.ofList ('b' :: quote :: chars.flatMap one ++ [quote])

end JavaUml.Text
