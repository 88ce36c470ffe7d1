/-!
# Texts as literals and copies

A byte sequence is written as literals and copies of what was written before.
A copy is looked for among the nearest earlier positions with the same key, and
it gives way to a literal when the next position starts a longer one.

Position `0` is never the source of a copy.
-/

namespace JavaUml.Pack

/-- One item of a packed sequence: a byte, or as many bytes as `length` from
`distance` bytes back. -/
inductive Item where
  | literal (byte : UInt8)
  | copy (length distance : Nat)
  deriving DecidableEq, Repr

/-- An earlier position whose bytes agree with those at the present one. -/
structure Source where
  start : Nat
  length : Nat
  deriving DecidableEq, Repr

/-- The shortest copy worth writing. -/
def leastLength : Nat := 3

/-- The longest copy that can be written. -/
def greatestLength : Nat := 258

/-- The farthest distance of a copy. -/
def reach : Nat := 32506

/-- A copy of the least length from farther than this costs more than its bytes. -/
def shortReach : Nat := 4096

/-- A copy of this length is taken without a look at the next position. -/
def sureLength : Nat := 16

/-- A copy of this length ends the search for longer ones. -/
def niceLength : Nat := 128

/-- The number of earlier positions that are looked at when the copy in hand
has the given length. -/
def candidateCount (inHand : Nat) : Nat :=
  if 8 ≤ inHand then 32 else 128

/-- The key of the three bytes at a position; different bytes may share a key. -/
def keyAt (bytes : Array UInt8) (position : Nat) : Nat :=
  let byte (i : Nat) : Nat := (bytes.getD (position + i) 0).toNat
  ((byte 0 * 1024) ^^^ (byte 1 * 32) ^^^ byte 2) % 32768

/-- The length, at most `limit`, on which the bytes at two positions agree. -/
def agreement (bytes : Array UInt8) : Nat → Nat → Nat → Nat
  | _, _, 0 => 0
  | i, j, limit + 1 =>
      if bytes[i]? = bytes[j]? then agreement bytes (i + 1) (j + 1) limit + 1 else 0

/-- The nearest positions with a key, at most `count` of them, from a position
down to `least`. -/
def candidates (keys : Array Nat) (key least : Nat) : Nat → Nat → List Nat
  | 0, _ => []
  | _ + 1, 0 => []
  | position + 1, count + 1 =>
      if position + 1 < least then []
      else if keys[position + 1]? = some key then
        (position + 1) :: candidates keys key least position count
      else candidates keys key least position (count + 1)

/-- The first of the longest sources that are longer than the length in hand.
The search ends at a source of length `enough`. -/
def longest (bytes : Array UInt8) (position limit enough inHand : Nat) (best : Option Source) :
    List Nat → Option Source
  | [] => best
  | start :: rest =>
      let length := agreement bytes start position limit
      if inHand < length then
        if enough ≤ length then some ⟨start, length⟩
        else longest bytes position limit enough length (some ⟨start, length⟩) rest
      else longest bytes position limit enough inHand best rest

/-- A source for the bytes at a position that is longer than the one in hand. -/
def betterSource (bytes : Array UInt8) (keys : Array Nat) (position inHand : Nat) :
    Option Source :=
  let left := bytes.size - position
  let near := candidates keys (keyAt bytes position) (position - reach) (position - 1)
    (candidateCount inHand)
  let found := longest bytes position (min greatestLength left) (min niceLength left) inHand
    none near
  found.filter fun source =>
    !(source.length == leastLength && shortReach < position - source.start)

/-- What waits at the position before the present one. -/
inductive Waiting where
  /-- Everything before the present position is written. -/
  | nothing
  /-- The byte before waits, with the source that was found for it. -/
  | byte (source : Option Source)

/-- The length of the copy that waits; less than the least one if none does. -/
def Waiting.length : Waiting → Nat
  | .byte (some source) => source.length
  | _ => leastLength - 1

/-- The items from a position on, in at most `steps` steps. -/
def itemsFrom (bytes : Array UInt8) (keys : Array Nat) : Nat → Nat → Waiting → List Item
  | 0, _, _ => []
  | steps + 1, position, waiting =>
      if position < bytes.size then
        let better :=
          if waiting.length < sureLength then
            betterSource bytes keys position waiting.length
          else none
        match waiting, better with
        | .nothing, better => itemsFrom bytes keys steps (position + 1) (.byte better)
        | .byte (some source), none =>
            .copy source.length (position - 1 - source.start) ::
              itemsFrom bytes keys steps (position - 1 + source.length) .nothing
        | .byte _, better =>
            .literal (bytes.getD (position - 1) 0) ::
              itemsFrom bytes keys steps (position + 1) (.byte better)
      else
        match waiting with
        | .nothing => []
        | .byte _ => [.literal (bytes.getD (position - 1) 0)]

/-- A byte sequence as literals and copies. -/
def items (content : List UInt8) : List Item :=
  let bytes := content.toArray
  let keys := (Array.range bytes.size).map (keyAt bytes)
  itemsFrom bytes keys (bytes.size + 1) 0 .nothing

end JavaUml.Pack
