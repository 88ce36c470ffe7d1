import JavaUml.Pack.Radix64
import Mathlib

/-!
# Reading packed texts

The inverse of packing, for any writer: characters of the alphabet as bytes, and
bytes as a raw deflate stream.  A stream is a sequence of blocks that are stored,
written in the fixed code, or written in a code of their own.  Reading ends with
the final block, so whatever follows it is of no account.

A prefix code is given by the lengths of its words alone.  Words of one length are
numbered in the order of their symbols, behind the words that extend shorter ones.
-/

namespace JavaUml.Pack

/-! ## Bits -/

/-- The bits of bytes, each with its lowest bit first. -/
def bitsOfBytes (bytes : List UInt8) : List Bool :=
  bytes.flatMap fun byte => (List.range 8).map byte.toNat.testBit

/-- Read a number of the given width, lowest bit first. -/
def readNumber : Nat → List Bool → Option (Nat × List Bool)
  | 0, bits => some (0, bits)
  | _ + 1, [] => none
  | width + 1, bit :: bits =>
      (readNumber width bits).map fun (n, rest) => (bit.toNat + 2 * n, rest)

/-- Read numbers of the given width. -/
def readNumbers (width : Nat) : Nat → List Bool → Option (List Nat × List Bool)
  | 0, bits => some ([], bits)
  | count + 1, bits => do
      let (n, bits) ← readNumber width bits
      let (later, bits) ← readNumbers width count bits
      return (n :: later, bits)

/-! ## Prefix codes -/

/-- A prefix code: for each length from one bit on, the symbols whose words have
that length, in order. -/
abbrev PrefixCode := List (List Nat)

/-- The longest words of a code. -/
def greatestWordLength : Nat := 15

/-- The code in which each symbol has a word of the given length.  Symbols of
length zero have none. -/
def PrefixCode.ofLengths (lengths : List Nat) : PrefixCode :=
  (List.range greatestWordLength).map fun shorter =>
    (lengths.zipIdx.filter fun entry => entry.1 == shorter + 1).map Prod.snd

/-- Read a symbol.  Among the words of a length that extend no shorter word, the
bits read so far have the number `place`. -/
def readSymbol : PrefixCode → Nat → List Bool → Option (Nat × List Bool)
  | [], _, _ => none
  | _ :: _, _, [] => none
  | level :: deeper, place, bit :: bits =>
      let place := 2 * place + bit.toNat
      match level[place]? with
      | some symbol => some (symbol, bits)
      | none => readSymbol deeper (place - level.length) bits

/-- The codes of a block: one for literals, lengths and the end mark, and one for
distances. -/
structure BlockCode where
  symbols : PrefixCode
  distances : PrefixCode

/-- The code that needs no description. -/
def fixedCode : BlockCode where
  symbols := .ofLengths <|
    List.replicate 144 8 ++ List.replicate 112 9 ++ List.replicate 24 7 ++ List.replicate 8 8
  distances := .ofLengths (List.replicate 30 5)

/-! ## Lengths and distances -/

/-- Ranges of numbers that follow one another: the least number of each, and how
many extra bits tell its numbers apart. -/
def ranges : Nat → List Nat → List (Nat × Nat)
  | _, [] => []
  | least, extra :: rest => (least, extra) :: ranges (least + 2 ^ extra) rest

/-- The lengths of copies.  The greatest one has a symbol of its own. -/
def lengthRanges : List (Nat × Nat) :=
  ranges 3 [0, 0, 0, 0, 0, 0, 0, 0, 1, 1, 1, 1, 2, 2, 2, 2, 3, 3, 3, 3, 4, 4, 4, 4, 5, 5, 5, 5] ++
    [(258, 0)]

/-- The distances of copies. -/
def distanceRanges : List (Nat × Nat) :=
  ranges 1 [0, 0, 0, 0, 1, 1, 2, 2, 3, 3, 4, 4, 5, 5, 6, 6, 7, 7, 8, 8, 9, 9, 10, 10,
    11, 11, 12, 12, 13, 13]

/-- Read the extra bits of a number in the given range. -/
def readInRange (table : List (Nat × Nat)) (row : Nat) (bits : List Bool) :
    Option (Nat × List Bool) := do
  let (least, extra) ← table[row]?
  let (excess, bits) ← readNumber extra bits
  return (least + excess, bits)

/-! ## Blocks -/

/-- Write bytes from a distance again, one by one.  The bytes written last stand
first, so a copy may reach into what it writes itself. -/
def copyBack (distance : Nat) : Nat → List UInt8 → Option (List UInt8)
  | 0, recent => some recent
  | length + 1, recent => do
      let byte ← recent[distance - 1]?
      copyBack distance length (byte :: recent)

/-- Read literals and copies up to the end mark, in at most `steps` steps. -/
def inflateItems (code : BlockCode) : Nat → List UInt8 → List Bool →
    Option (List UInt8 × List Bool)
  | 0, _, _ => none
  | steps + 1, recent, bits => do
      let (symbol, bits) ← readSymbol code.symbols 0 bits
      if symbol < 256 then inflateItems code steps (UInt8.ofNat symbol :: recent) bits
      else if symbol = 256 then return (recent, bits)
      else
        let (length, bits) ← readInRange lengthRanges (symbol - 257) bits
        let (row, bits) ← readSymbol code.distances 0 bits
        let (distance, bits) ← readInRange distanceRanges row bits
        let recent ← copyBack distance length recent
        inflateItems code steps recent bits

/-- Read a stored block.  It starts at the next whole byte, with its length and
the complement of its length. -/
def inflateStored (recent : List UInt8) (bits : List Bool) :
    Option (List UInt8 × List Bool) := do
  let (length, bits) ← readNumber 16 (bits.drop (bits.length % 8))
  let (complement, bits) ← readNumber 16 bits
  if length + complement = 2 ^ 16 - 1 then
    let (bytes, bits) ← readNumbers 8 length bits
    return ((bytes.map UInt8.ofNat).reverse ++ recent, bits)
  else none

/-- The symbols of word lengths, in the order in which their own lengths are
written. -/
def lengthOrder : List Nat :=
  [16, 17, 18, 0, 8, 7, 9, 6, 10, 5, 11, 4, 12, 3, 13, 2, 14, 1, 15]

/-- The word lengths that a symbol stands for behind known ones: one length, the
last one several times, or zeros. -/
def readRun (known : List Nat) (symbol : Nat) (bits : List Bool) :
    Option (List Nat × List Bool) :=
  if symbol < 16 then some ([symbol], bits)
  else if symbol = 16 then do
    let last ← known.getLast?
    let (more, bits) ← readNumber 2 bits
    return (List.replicate (3 + more) last, bits)
  else if symbol = 17 then do
    let (more, bits) ← readNumber 3 bits
    return (List.replicate (3 + more) 0, bits)
  else do
    let (more, bits) ← readNumber 7 bits
    return (List.replicate (11 + more) 0, bits)

/-- Read word lengths behind known ones up to the given count. -/
def readLengths (code : PrefixCode) (count : Nat) : Nat → List Nat → List Bool →
    Option (List Nat × List Bool)
  | steps, known, bits =>
      if known.length < count then
        match steps with
        | 0 => none
        | steps + 1 => do
            let (symbol, bits) ← readSymbol code 0 bits
            let (run, bits) ← readRun known symbol bits
            readLengths code count steps (known ++ run) bits
      else if known.length = count then some (known, bits)
      else none

/-- Read the description of a code. -/
def readCode (bits : List Bool) : Option (BlockCode × List Bool) := do
  let (symbols, bits) ← readNumber 5 bits
  let (distances, bits) ← readNumber 5 bits
  let (count, bits) ← readNumber 4 bits
  let (written, bits) ← readNumbers 3 (count + 4) bits
  let lengthOf (symbol : Nat) : Nat := ((lengthOrder.zip written).lookup symbol).getD 0
  let total := symbols + 257 + (distances + 1)
  let (lengths, bits) ← readLengths (.ofLengths ((List.range 19).map lengthOf)) total total [] bits
  return (⟨.ofLengths (lengths.take (symbols + 257)), .ofLengths (lengths.drop (symbols + 257))⟩,
    bits)

/-- Read the content of a block of the given kind. -/
def inflateBlock (kind : Nat) (recent : List UInt8) (bits : List Bool) :
    Option (List UInt8 × List Bool) :=
  match kind with
  | 0 => inflateStored recent bits
  | 1 => inflateItems fixedCode bits.length recent bits
  | 2 => do
      let (code, bits) ← readCode bits
      inflateItems code bits.length recent bits
  | _ => none

/-- Read blocks up to the final one, in at most `steps` steps. -/
def inflateBlocks : Nat → List UInt8 → List Bool → Option (List UInt8)
  | 0, _, _ => none
  | steps + 1, recent, bits => do
      let (final, bits) ← readNumber 1 bits
      let (kind, bits) ← readNumber 2 bits
      let (recent, bits) ← inflateBlock kind recent bits
      if final = 1 then return recent.reverse else inflateBlocks steps recent bits

/-- The content of a raw deflate stream. -/
def inflate (stream : List UInt8) : Option (List UInt8) :=
  let bits := bitsOfBytes stream
  inflateBlocks bits.length [] bits

/-! ## Characters -/

/-- The value of a character of the alphabet. -/
def valueOf? (c : Char) : Option Nat :=
  alphabet.idxOf? c

/-- Four values of six bits as three bytes. -/
def threeBytes (a b c d : Nat) : List UInt8 :=
  let n := ((a * 64 + b) * 64 + c) * 64 + d
  [UInt8.ofNat (n / 65536), UInt8.ofNat (n / 256 % 256), UInt8.ofNat (n % 256)]

/-- The bytes that groups of four characters stand for. -/
def bytesOfRadix64 : List Char → Option (List UInt8)
  | [] => some []
  | a :: b :: c :: d :: rest => do
      let group := threeBytes (← valueOf? a) (← valueOf? b) (← valueOf? c) (← valueOf? d)
      return group ++ (← bytesOfRadix64 rest)
  | _ => none

/-- The content of a packed text. -/
def unpacked (packed : String) : Option (List UInt8) :=
  (bytesOfRadix64 packed.toList).bind inflate

end JavaUml.Pack
