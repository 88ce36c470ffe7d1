/-!
# White space

The white space of Unicode together with the four information separators, and
the removal of white space at the two ends of a text.  Texts that are taken
apart are lists of characters here and in the modules that build on this one.
-/

namespace JavaUml.Text

/-- White space of Unicode, the information separators `U+001C` to `U+001F`
included. -/
def isBlank (c : Char) : Bool :=
  let n := c.toNat
  (0x09 ≤ n && n ≤ 0x0D) || (0x1C ≤ n && n ≤ 0x20) || n == 0x85 || n == 0xA0 ||
    n == 0x1680 || (0x2000 ≤ n && n ≤ 0x200A) || n == 0x2028 || n == 0x2029 ||
    n == 0x202F || n == 0x205F || n == 0x3000

/-- Drop the white space at the front. -/
def trimLeft (text : List Char) : List Char :=
  text.dropWhile isBlank

/-- Drop the white space at the end. -/
def trimRight (text : List Char) : List Char :=
  (text.reverse.dropWhile isBlank).reverse

/-- Drop the white space at both ends. -/
def trim (text : List Char) : List Char :=
  trimRight (trimLeft text)

theorem length_trimLeft_le (text : List Char) :
    (trimLeft text).length ≤ text.length :=
  (List.dropWhile_sublist isBlank).length_le

theorem length_trimRight_le (text : List Char) :
    (trimRight text).length ≤ text.length := by
  have shorter := (List.dropWhile_sublist isBlank (l := text.reverse)).length_le
  simpa [trimRight] using shorter

theorem length_trim_le (text : List Char) : (trim text).length ≤ text.length :=
  Nat.le_trans (length_trimRight_le _) (length_trimLeft_le _)

end JavaUml.Text
