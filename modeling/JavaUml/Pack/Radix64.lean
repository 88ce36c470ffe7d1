import JavaUml.Pack.FixedCode
import JavaUml.Text.Utf8

/-!
# Radix-64 text

Three bytes as four characters of an alphabet that is safe in addresses, and a
diagram's text packed for an address: deflated and written in that alphabet.
-/

namespace JavaUml.Pack

/-- The characters for the values `0` to `63`. -/
def alphabet : List Char :=
  "0123456789ABCDEFGHIJKLMNOPQRSTUVWXYZabcdefghijklmnopqrstuvwxyz-_".toList

/-- The character for the lowest six bits of a number. -/
def digit (n : Nat) : Char :=
  alphabet.getD (n % 64) '0'

/-- Three numbers as four characters.  Numbers above `255` reach into the
characters of their neighbours. -/
def group (first second third : Nat) : List Char :=
  [digit (first / 4),
   digit ((first % 4 * 16) ||| (second / 16)),
   digit ((second % 16 * 4) ||| (third / 64)),
   digit third]

/-- Bytes in groups of three; the last group is filled up with zeros. -/
def radix64 : List UInt8 → List Char
  | [] => []
  | [a] => group a.toNat 0 0
  | [a, b] => group a.toNat b.toNat 0
  | a :: b :: c :: rest => group a.toNat b.toNat c.toNat ++ radix64 rest

/-- A text packed for an address. -/
def packed (text : String) : String :=
  String.ofList (radix64 (deflate (Text.Utf8.encode text)))

end JavaUml.Pack
