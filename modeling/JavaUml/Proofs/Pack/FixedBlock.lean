import JavaUml.Proofs.Pack.Inflate

/-!
# Reading a block in the fixed code

What is written in the fixed code is read back by the general reader, whatever
bits follow.  The words of the code are compared with those that the reader makes
from their lengths, and the rows of the length and distance tables with the
ranges that follow one another.
-/

namespace JavaUml.Pack

/-! ## Numbers -/

theorem readNumber_lowBits (width n : Nat) (rest : List Bool) :
    readNumber width (lowBits width n ++ rest) = some (n % 2 ^ width, rest) := by
  induction width generalizing n with
  | zero => simp [lowBits, readNumber, Nat.mod_one]
  | succ width ih =>
      have lowest : (n % 2 == 1).toNat = n % 2 := by
        rcases Nat.mod_two_eq_zero_or_one n with even | odd
        · simp [even]
        · simp [odd]
      rw [lowBits, List.cons_append, readNumber, ih, Nat.pow_succ', Nat.mod_mul]
      simp only [Option.map_some, lowest]

theorem readNumber_lowBits_of_lt {width n : Nat} (small : n < 2 ^ width) (rest : List Bool) :
    readNumber width (lowBits width n ++ rest) = some (n, rest) := by
  rw [readNumber_lowBits, Nat.mod_eq_of_lt small]

/-! ## Words -/

/-- A word is read the same way whatever follows it. -/
theorem readSymbol_append {code : PrefixCode} {place symbol : Nat} {bits left : List Bool}
    (read : readSymbol code place bits = some (symbol, left)) (rest : List Bool) :
    readSymbol code place (bits ++ rest) = some (symbol, left ++ rest) := by
  induction code generalizing place bits with
  | nil => simp [readSymbol] at read
  | cons level deeper ih =>
      cases bits with
      | nil => simp [readSymbol] at read
      | cons bit bits =>
          rw [List.cons_append, readSymbol]
          rw [readSymbol] at read
          cases found : level[2 * place + bit.toNat]? with
          | some other =>
              simp only [found, Option.some.injEq, Prod.mk.injEq] at read ⊢
              exact ⟨read.1, by rw [read.2]⟩
          | none =>
              simp only [found] at read ⊢
              exact ih read

/-- The words that the reader makes from the fixed lengths are those written. -/
theorem readSymbol_symbolBits_alone :
    ∀ symbol < 286, readSymbol fixedCode.symbols 0 (symbolBits symbol) = some (symbol, []) := by
  decide +kernel

theorem readSymbol_symbolBits {symbol : Nat} (known : symbol < 286) (rest : List Bool) :
    readSymbol fixedCode.symbols 0 (symbolBits symbol ++ rest) = some (symbol, rest) :=
  readSymbol_append (readSymbol_symbolBits_alone symbol known) rest

theorem readSymbol_codeWord_alone :
    ∀ row < 30, readSymbol fixedCode.distances 0 (codeWord 5 row) = some (row, []) := by
  decide +kernel

theorem readSymbol_codeWord {row : Nat} (known : row < 30) (rest : List Bool) :
    readSymbol fixedCode.distances 0 (codeWord 5 row ++ rest) = some (row, rest) :=
  readSymbol_append (readSymbol_codeWord_alone row known) rest

/-! ## Rows -/

/-- Each row reaches up to the next one. -/
def IsTable (table : List (Nat × Nat)) : Prop :=
  table.IsChain fun row next => next.1 ≤ row.1 + 2 ^ row.2

/-- The row that is chosen for a number holds it, if the last row does not end
before it. -/
theorem rowOf_holds {n : Nat} {first : Nat × Nat} {later : List (Nat × Nat)}
    (number : Nat) (starts : first.1 ≤ n) (table : IsTable (first :: later))
    (ends : ∀ last ∈ (first :: later).getLast?, n < last.1 + 2 ^ last.2) :
    ∃ row least extra, (first :: later)[row]? = some (least, extra) ∧
      rowOf n number first later = (number + row, extra, n - least) ∧
        least ≤ n ∧ n - least < 2 ^ extra := by
  induction later generalizing number first with
  | nil =>
      obtain ⟨least, extra⟩ := first
      have bound : n < least + 2 ^ extra := ends (least, extra) rfl
      exact ⟨0, least, extra, rfl, rfl, starts, by omega⟩
  | cons next rest ih =>
      obtain ⟨least, extra⟩ := first
      rw [IsTable, List.isChain_cons_cons] at table
      by_cases further : next.1 ≤ n
      · have lastEq : (next :: rest).getLast? = ((least, extra) :: next :: rest).getLast? := by
          simp [List.getLast?_cons_cons]
        obtain ⟨row, least', extra', found, chosen, holds⟩ :=
          ih (number + 1) further table.2 (lastEq ▸ ends)
        refine ⟨row + 1, least', extra', found, ?_, holds⟩
        rw [rowOf, if_pos further, chosen]
        simp only [Prod.mk.injEq, and_true]
        omega
      · have bound : next.1 ≤ least + 2 ^ extra := table.1
        refine ⟨0, least, extra, rfl, ?_, starts, by omega⟩
        rw [rowOf, if_neg further, Nat.add_zero]

theorem readInRange_lowBits {table : List (Nat × Nat)} {row least extra n : Nat}
    (found : table[row]? = some (least, extra)) (reached : least ≤ n)
    (small : n - least < 2 ^ extra) (rest : List Bool) :
    readInRange table row (lowBits extra (n - least) ++ rest) = some (n, rest) := by
  have sum : least + (n - least) = n := by omega
  simp [readInRange, found, readNumber_lowBits_of_lt small, sum]

theorem lengthRows_eq_lengthRanges : lengthRows = lengthRanges := by
  decide

theorem distanceRows_eq_distanceRanges : distanceRows = distanceRanges := by
  decide

theorem isTable_lengthRows : IsTable lengthRows := by
  unfold IsTable
  decide

theorem isTable_distanceRows : IsTable distanceRows := by
  unfold IsTable
  decide

/-! ## Lengths and distances -/

/-- What is written for a length is a symbol and extra bits that give it back. -/
theorem lengthBits_eq {length : Nat} (least : leastLength ≤ length)
    (greatest : length ≤ greatestLength) :
    ∃ row extraBits, row < 29 ∧ lengthBits length = symbolBits (257 + row) ++ extraBits ∧
      ∀ rest, readInRange lengthRanges row (extraBits ++ rest) = some (length, rest) := by
  unfold leastLength at least
  unfold greatestLength at greatest
  have table : IsTable ((3, 0) :: lengthRows.tail) := isTable_lengthRows
  have ends : ∀ last ∈ ((3, 0) :: lengthRows.tail).getLast?, length < last.1 + 2 ^ last.2 := by
    simp only [lengthRows, List.tail_cons, List.getLast?_cons_cons, List.getLast?_singleton,
      Option.mem_some_iff, forall_eq']
    omega
  obtain ⟨row, start, extra, found, chosen, reached, small⟩ := rowOf_holds 257 least table ends
  have known : row < 29 := by
    have inside := (List.getElem?_eq_some_iff.mp found).1
    simpa [lengthRows] using inside
  refine ⟨row, lowBits extra (length - start), known, ?_, ?_⟩
  · simp only [lengthBits, chosen]
  · intro rest
    exact readInRange_lowBits (lengthRows_eq_lengthRanges ▸ found) reached small rest

/-- The greatest distance that can be written. -/
def greatestDistance : Nat := 32768

theorem distanceBits_eq {distance : Nat} (least : 1 ≤ distance)
    (greatest : distance ≤ greatestDistance) :
    ∃ row extraBits, row < 30 ∧ distanceBits distance = codeWord 5 row ++ extraBits ∧
      ∀ rest, readInRange distanceRanges row (extraBits ++ rest) = some (distance, rest) := by
  unfold greatestDistance at greatest
  have table : IsTable ((1, 0) :: distanceRows.tail) := isTable_distanceRows
  have ends : ∀ last ∈ ((1, 0) :: distanceRows.tail).getLast?, distance < last.1 + 2 ^ last.2 := by
    simp only [distanceRows, List.tail_cons, List.getLast?_cons_cons, List.getLast?_singleton,
      Option.mem_some_iff, forall_eq']
    omega
  obtain ⟨row, start, extra, found, chosen, reached, small⟩ := rowOf_holds 0 least table ends
  have known : row < 30 := by
    have inside := (List.getElem?_eq_some_iff.mp found).1
    simpa [distanceRows] using inside
  refine ⟨row, lowBits extra (distance - start), known, ?_, ?_⟩
  · simp only [distanceBits, chosen, Nat.zero_add]
  · intro rest
    exact readInRange_lowBits (distanceRows_eq_distanceRanges ▸ found) reached small rest

/-! ## Items -/

/-- Whether an item has a written form. -/
def Item.IsWritable : Item → Prop
  | literal _ => True
  | copy length distance =>
      leastLength ≤ length ∧ length ≤ greatestLength ∧ 1 ≤ distance ∧ distance ≤ greatestDistance

/-- The bytes after an item, the last one first. -/
def Item.replay (recent : List UInt8) : Item → Option (List UInt8)
  | literal byte => some (byte :: recent)
  | copy length distance => copyBack distance length recent

/-- The bytes after some items, the last one first. -/
def replayAll (recent : List UInt8) (content : List Item) : Option (List UInt8) :=
  content.foldlM Item.replay recent

theorem inflateItems_literal (byte : UInt8) (steps : Nat) (recent : List UInt8)
    (rest : List Bool) :
    inflateItems fixedCode (steps + 1) recent ((Item.literal byte).bits ++ rest) =
      inflateItems fixedCode steps (byte :: recent) rest := by
  have small : byte.toNat < 256 := byte.toNat_lt
  rw [Item.bits, inflateItems, readSymbol_symbolBits (by omega)]
  simp [small]

theorem inflateItems_copy {length distance : Nat}
    (writable : (Item.copy length distance).IsWritable) (steps : Nat) (recent : List UInt8)
    (rest : List Bool) :
    inflateItems fixedCode (steps + 1) recent ((Item.copy length distance).bits ++ rest) =
      (copyBack distance length recent).bind fun recent =>
        inflateItems fixedCode steps recent rest := by
  obtain ⟨leastOk, greatestOk, positive, near⟩ := writable
  obtain ⟨lengthRow, lengthExtra, lengthKnown, lengthEq, lengthRead⟩ :=
    lengthBits_eq leastOk greatestOk
  obtain ⟨row, extra, known, distanceEq, distanceRead⟩ := distanceBits_eq positive near
  have symbolKnown : 257 + lengthRow < 286 := by omega
  rw [Item.bits, lengthEq, distanceEq, inflateItems]
  simp only [List.append_assoc]
  rw [readSymbol_symbolBits symbolKnown]
  simp only [Option.bind_eq_bind, Option.bind_some]
  rw [if_neg (by omega), if_neg (by omega), Nat.add_sub_cancel_left, lengthRead]
  simp only [Option.bind_some]
  rw [readSymbol_codeWord known]
  simp only [Option.bind_some]
  rw [distanceRead]
  rfl

theorem inflateItems_endMark (steps : Nat) (recent : List UInt8) (rest : List Bool) :
    inflateItems fixedCode (steps + 1) recent (symbolBits endMark ++ rest) =
      some (recent, rest) := by
  rw [inflateItems, readSymbol_symbolBits (by decide)]
  rfl

/-- A block of writable items is read back as what they replay, and reading stops
behind its end mark. -/
theorem inflateItems_items {content : List Item} {recent after : List UInt8}
    (writable : ∀ item ∈ content, item.IsWritable)
    (replayed : replayAll recent content = some after)
    {steps : Nat} (enough : content.length < steps) (rest : List Bool) :
    inflateItems fixedCode steps recent
        (content.flatMap Item.bits ++ (symbolBits endMark ++ rest)) =
      some (after, rest) := by
  induction content generalizing recent steps with
  | nil =>
      obtain ⟨steps, rfl⟩ := Nat.exists_eq_succ_of_ne_zero (Nat.ne_zero_of_lt enough)
      cases replayed
      exact inflateItems_endMark steps _ rest
  | cons item content ih =>
      obtain ⟨steps, rfl⟩ := Nat.exists_eq_succ_of_ne_zero (Nat.ne_zero_of_lt enough)
      have later : ∀ item ∈ content, item.IsWritable :=
        fun other mem => writable other (List.mem_cons_of_mem item mem)
      rw [List.length_cons] at enough
      rw [List.flatMap_cons, List.append_assoc]
      rw [replayAll, List.foldlM_cons] at replayed
      cases item with
      | literal byte =>
          rw [inflateItems_literal]
          exact ih later replayed (by omega)
      | copy length distance =>
          obtain ⟨middle, copied, followed⟩ := Option.bind_eq_some_iff.mp replayed
          rw [inflateItems_copy (writable _ List.mem_cons_self)]
          rw [Item.replay] at copied
          rw [copied, Option.bind_some]
          exact ih later followed (by omega)

/-! ## The block -/

theorem length_symbolBits_pos (symbol : Nat) : 0 < (symbolBits symbol).length := by
  unfold symbolBits codeWord
  split
  · simp [lowBits]
  · split
    · simp [lowBits]
    · split <;> simp [lowBits]

theorem length_bits_pos (item : Item) : 0 < item.bits.length := by
  cases item with
  | literal byte => exact length_symbolBits_pos _
  | copy length distance =>
      have first := length_symbolBits_pos (rowOf length 257 (3, 0) lengthRows.tail).1
      simp only [Item.bits, lengthBits, List.length_append]
      omega

theorem length_le_length_flatMap_bits (content : List Item) :
    content.length ≤ (content.flatMap Item.bits).length := by
  induction content with
  | nil => simp
  | cons item content ih =>
      have first := length_bits_pos item
      rw [List.flatMap_cons, List.length_append, List.length_cons]
      omega

/-- One final block in the fixed code is read back, whatever follows it. -/
theorem inflateBlocks_blockBits {content : List Item} {after : List UInt8}
    (writable : ∀ item ∈ content, item.IsWritable) (replayed : replayAll [] content = some after)
    {steps : Nat} (some_step : 0 < steps) (rest : List Bool) :
    inflateBlocks steps [] (blockBits content ++ rest) = some after.reverse := by
  obtain ⟨steps, rfl⟩ := Nat.exists_eq_succ_of_ne_zero (Nat.ne_of_gt some_step)
  have enough : content.length <
      (content.flatMap Item.bits ++ (symbolBits endMark ++ rest)).length := by
    have items := length_le_length_flatMap_bits content
    have mark := length_symbolBits_pos endMark
    simp only [List.length_append]
    omega
  have read := inflateItems_items writable replayed enough rest
  rw [blockBits, inflateBlocks]
  simp only [List.cons_append, List.append_assoc, readNumber, Option.map_some,
    Option.bind_eq_bind, Option.bind_some, Bool.toNat_true, Bool.toNat_false, Nat.mul_zero,
    Nat.add_zero, inflateBlock]
  rw [read]
  rfl

end JavaUml.Pack
