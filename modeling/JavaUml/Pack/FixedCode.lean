import JavaUml.Pack.Copies

/-!
# The fixed code

Literals and copies as the bits of one final deflate block with the fixed
Huffman code.  Numbers stand with their lowest bit first, code words with their
highest bit first, and bytes fill up from their lowest bit.
-/

namespace JavaUml.Pack

/-- The lowest `width` bits of a number, lowest first. -/
def lowBits : Nat → Nat → List Bool
  | 0, _ => []
  | width + 1, n => (n % 2 == 1) :: lowBits width (n / 2)

/-- A code word of a width, highest bit first. -/
def codeWord (width n : Nat) : List Bool :=
  (lowBits width n).reverse

/-- The code word of a literal, of the end mark `256` or of a length symbol. -/
def symbolBits (symbol : Nat) : List Bool :=
  if symbol < 144 then codeWord 8 (0x30 + symbol)
  else if symbol < 256 then codeWord 9 (0x190 + (symbol - 144))
  else if symbol < 280 then codeWord 7 (symbol - 256)
  else codeWord 8 (0xC0 + (symbol - 280))

/-- The least length of each length symbol from `257` on, and the number of
extra bits that follow it. -/
def lengthRows : List (Nat × Nat) :=
  [(3, 0), (4, 0), (5, 0), (6, 0), (7, 0), (8, 0), (9, 0), (10, 0),
   (11, 1), (13, 1), (15, 1), (17, 1), (19, 2), (23, 2), (27, 2), (31, 2),
   (35, 3), (43, 3), (51, 3), (59, 3), (67, 4), (83, 4), (99, 4), (115, 4),
   (131, 5), (163, 5), (195, 5), (227, 5), (258, 0)]

/-- The least distance of each distance symbol, and the number of extra bits
that follow it. -/
def distanceRows : List (Nat × Nat) :=
  [(1, 0), (2, 0), (3, 0), (4, 0), (5, 1), (7, 1), (9, 2), (13, 2), (17, 3), (25, 3),
   (33, 4), (49, 4), (65, 5), (97, 5), (129, 6), (193, 6), (257, 7), (385, 7),
   (513, 8), (769, 8), (1025, 9), (1537, 9), (2049, 10), (3073, 10), (4097, 11), (6145, 11),
   (8193, 12), (12289, 12), (16385, 13), (24577, 13)]

/-- The last row whose least value does not exceed `n`: its number, its number of
extra bits, and the excess of `n`.  The row in hand has the number `row`. -/
def rowOf (n : Nat) : Nat → Nat × Nat → List (Nat × Nat) → Nat × Nat × Nat
  | row, (least, extra), [] => (row, extra, n - least)
  | row, (least, extra), next :: rest =>
      if next.1 ≤ n then rowOf n (row + 1) next rest else (row, extra, n - least)

/-- The bits of a length. -/
def lengthBits (length : Nat) : List Bool :=
  let (symbol, extra, excess) := rowOf length 257 (3, 0) lengthRows.tail
  symbolBits symbol ++ lowBits extra excess

/-- The bits of a distance. -/
def distanceBits (distance : Nat) : List Bool :=
  let (symbol, extra, excess) := rowOf distance 0 (1, 0) distanceRows.tail
  codeWord 5 symbol ++ lowBits extra excess

/-- The bits of an item. -/
def Item.bits : Item → List Bool
  | literal byte => symbolBits byte.toNat
  | copy length distance => lengthBits length ++ distanceBits distance

/-- The symbol that ends a block. -/
def endMark : Nat := 256

/-- The bits of a final block with the fixed code. -/
def blockBits (content : List Item) : List Bool :=
  true :: true :: false :: (content.flatMap Item.bits ++ symbolBits endMark)

/-- The number whose bits are given, lowest first. -/
def numberOf : List Bool → Nat
  | [] => 0
  | bit :: rest => (if bit then 1 else 0) + 2 * numberOf rest

/-- Bits as bytes; the last byte is filled up with zeros. -/
def bytesOfBits : List Bool → List UInt8
  | [] => []
  | a :: b :: c :: d :: e :: f :: g :: h :: rest =>
      UInt8.ofNat (numberOf [a, b, c, d, e, f, g, h]) :: bytesOfBits rest
  | last => [UInt8.ofNat (numberOf last)]

/-- A byte sequence as one deflate block. -/
def deflate (content : List UInt8) : List UInt8 :=
  bytesOfBits (blockBits (items content))

end JavaUml.Pack
