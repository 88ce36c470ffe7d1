import JavaUml.Files.Tree

/-!
# Text read in pieces

A text that is read on demand is asked for in pieces of a fixed number of
characters.  The bytes of a file are decoded in chunks, as many as a piece needs,
and bytes that are cut at the end of a chunk wait for the next one.  So a fault
in the bytes shows only once a piece needs its chunk, and its place is counted
from the bytes that were decoded together.

The chunks have a fixed size at least.  They are greater if the characters of the
chunk before needed so many bytes that a piece would not be filled otherwise.
-/

namespace JavaUml.Files

/-- The number of characters of a piece. -/
def pieceSize : Nat := 4096

/-- The least number of bytes of a chunk. -/
def chunkSize : Nat := 8192

/-- A text as far as whole pieces of it can be read, and the fault behind them. -/
structure Pieces where
  text : List Char
  fault : Option Text.Utf8.Fault

/-- The state between two chunks. -/
structure Chunks where
  /-- The bytes that were not yet decoded. -/
  bytes : List UInt8
  /-- The bytes that wait for the next chunk. -/
  cut : List UInt8
  /-- Whether a carriage return waits for the next chunk. -/
  heldReturn : Bool
  /-- The characters that were decoded and belong to no piece yet. -/
  spare : Nat
  /-- The bytes and characters of the chunk before. -/
  before : Nat × Nat

/-- The number of bytes of the next chunk, if so many characters are missing. -/
def Chunks.nextSize (chunks : Chunks) (missing : Nat) : Nat :=
  let (bytes, chars) := chunks.before
  let ratio := if chars = 0 then 1.0 else Float.ofNat bytes / Float.ofNat chars
  max chunkSize ((max ratio 1.0) * Float.ofNat missing).toUInt64.toNat

/-- The characters of bytes that may be cut at their end, and the bytes that wait
for more. -/
def decodeCut (bytes : List UInt8) : Except Text.Utf8.Fault (List Char × List UInt8) :=
  match Text.Utf8.decodeFrom bytes.length 0 bytes with
  | .ok chars => .ok (chars, [])
  | .error fault =>
      if fault.reason = .endOfData then
        match Text.Utf8.decodeFrom fault.position 0 (bytes.take fault.position) with
        | .ok chars => .ok (chars, bytes.drop fault.position)
        | .error fault => .error fault
      else .error fault

/-- Decode the next chunk. -/
def Chunks.next (chunks : Chunks) (missing : Nat) : Except Text.Utf8.Fault Chunks := do
  let size := chunks.nextSize missing
  let chunk := chunks.bytes.take size
  if chunk.isEmpty then
    match chunks.cut with
    | [] => return chunks
    | first :: _ => .error ⟨0, chunks.cut.length, first, .endOfData⟩
  else
    let (chars, cut) ← decodeCut (chunks.cut ++ chunk)
    let found := if chunks.heldReturn && !chars.isEmpty then '\r' :: chars else chars
    let holds := found.getLast? = some '\r'
    let count := (lineFeeds (if holds then found.dropLast else found)).length
    return {
      bytes := chunks.bytes.drop size
      cut := cut
      heldReturn := holds || (chunks.heldReturn && chars.isEmpty)
      spare := chunks.spare + count
      before := (chunk.length, count) }

/-- The number of whole pieces before the first fault, and the fault.  So many
characters are missing from the piece under way.  A step decodes a chunk or
completes a piece. -/
def firstFault : Nat → Nat → Nat → Chunks → Option (Nat × Text.Utf8.Fault)
  | 0, _, _, _ => none
  | steps + 1, pieces, missing, chunks =>
      let given := min chunks.spare missing
      let left := { chunks with spare := chunks.spare - given }
      if given = missing then firstFault steps (pieces + 1) pieceSize left
      else if left.bytes.isEmpty && left.cut.isEmpty then none
      else
        match left.next (missing - given) with
        | .ok after => firstFault steps pieces (missing - given) after
        | .error fault => some (pieces, fault)

/-- The characters of bytes up to the first fault. -/
def goodChars : Nat → List UInt8 → List Char
  | 0, _ => []
  | _ + 1, [] => []
  | fuel + 1, first :: bytes =>
      match Text.Utf8.readOne first bytes with
      | .character c _ rest => c :: goodChars fuel rest
      | .bad _ _ _ => []

/-- The text of bytes in pieces, every line end a line feed.  The first two pieces
are read at once. -/
def inPieces (bytes : List UInt8) : Pieces :=
  match Text.Utf8.decode bytes with
  | .ok text => ⟨lineFeeds text.toList, none⟩
  | .error _ =>
      match firstFault (2 * bytes.length + 4) 0 pieceSize ⟨bytes, [], false, 0, (0, 0)⟩ with
      | none => ⟨[], none⟩
      | some (pieces, fault) =>
          let readable := if pieces < 2 then 0 else pieces * pieceSize
          ⟨(lineFeeds (goodChars bytes.length bytes)).take readable, some fault⟩

/-- The text of the file at a path, in pieces. -/
def readPieces (disk : Disk) (path : String) : Except PathProblem Pieces := do
  return inPieces (← readBytes disk path)

end JavaUml.Files
