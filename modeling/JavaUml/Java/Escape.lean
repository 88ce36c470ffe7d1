import JavaUml.Java.Token
import JavaUml.Text.Numeral

/-!
# Unicode escapes

A backslash with one or more `u` and a hexadecimal number stands for a
character.  Escapes are replaced throughout the text before it is cut into
tokens; a backslash that another one precedes starts none.

The number is read from the next four characters as a numeral may be written:
white space around it, a sign, a leading `0x` and single underscores between
digits are allowed.
-/

namespace JavaUml.Java.Escape

open JavaUml.Text

/-- The character of a number below `0x10000`.  Halves of a surrogate pair are
no characters and become the replacement character, which like them fits no
token outside a literal. -/
def character (n : Nat) : Char :=
  if 0xD800 ≤ n ∧ n ≤ 0xDFFF then '\uFFFD' else Char.ofNat n

/-- Replace escapes.  The first argument holds, in reverse, the text since the
last escape.  If nothing follows the `u`, that text is given twice. -/
def decodeFrom : Nat → List Char → List Char → Except Fault (List Char)
  | 0, kept, text => .ok (kept.reverse ++ text)
  | fuel + 1, kept, text =>
      match text with
      | '\\' :: 'u' :: rest =>
          match rest.dropWhile (· == 'u') with
          | [] => .ok (kept.reverse ++ kept.reverse ++ text)
          | number =>
              match readWhole 16 (number.take 4) with
              | .error _ => .error .rejected
              | .ok value =>
                  if value < 0 then .error .negativeEscape
                  else do
                    let later ← decodeFrom fuel [] (number.drop 4)
                    .ok (kept.reverse ++ character value.toNat :: later)
      | '\\' :: c :: rest => decodeFrom fuel (c :: '\\' :: kept) rest
      | c :: rest => decodeFrom fuel (c :: kept) rest
      | [] => .ok kept.reverse

/-- Replace the escapes of a text. -/
def decode (text : List Char) : Except Fault (List Char) :=
  decodeFrom text.length [] text

end JavaUml.Java.Escape
