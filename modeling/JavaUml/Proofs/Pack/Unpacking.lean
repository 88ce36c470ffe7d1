import JavaUml.Proofs.Pack.CopyReplay

/-!
# Unpacking undoes packing

Bits are filled up to bytes, and bytes to groups of three, so what is read back
from a packed text is the deflate stream with zeros behind it.  The stream says
itself where it ends, and the zeros do no harm.  How many zeros there are depends on the
number of bytes alone, so the characters tell bytes of one length apart.
-/

namespace JavaUml.Pack

/-! ## Bits in bytes -/

theorem numberOf_lt (bits : List Bool) : numberOf bits < 2 ^ bits.length := by
  induction bits with
  | nil => simp [numberOf]
  | cons bit rest ih =>
      rw [numberOf, List.length_cons, Nat.pow_succ']
      split <;> omega

theorem testBit_numberOf (bits : List Bool) (i : Nat) :
    (numberOf bits).testBit i = bits.getD i false := by
  induction bits generalizing i with
  | nil => simp [numberOf]
  | cons bit rest ih =>
      cases i with
      | zero => cases bit <;> simp [numberOf, Nat.testBit_zero]
      | succ i =>
          have half : numberOf (bit :: rest) / 2 = numberOf rest := by
            rw [numberOf]
            split <;> omega
          rw [Nat.testBit_succ, half, ih, List.getD_cons_succ]

/-- A byte made from at most eight bits has them, and zeros behind them. -/
theorem bitsOfBytes_ofNat_numberOf {bits : List Bool} (short : bits.length ≤ 8) :
    bitsOfBytes [UInt8.ofNat (numberOf bits)] =
      bits ++ List.replicate (8 - bits.length) false := by
  have small : numberOf bits < 256 :=
    Nat.lt_of_lt_of_le (numberOf_lt bits) (Nat.pow_le_pow_right (by decide) short)
  have value : (UInt8.ofNat (numberOf bits)).toNat = numberOf bits :=
    UInt8.toNat_ofNat_of_lt small
  rw [bitsOfBytes, List.flatMap_singleton, value]
  apply List.ext_getElem
  · simp only [List.length_map, List.length_range, List.length_append, List.length_replicate]
    omega
  · intro i inRange _
    rw [List.getElem_map, List.getElem_range, testBit_numberOf]
    by_cases given : i < bits.length
    · rw [List.getElem_append_left given, List.getD_eq_getElem _ _ given]
    · rw [List.getElem_append_right (by omega), List.getElem_replicate,
        List.getD_eq_default _ _ (by omega)]

theorem bitsOfBytes_append (first second : List UInt8) :
    bitsOfBytes (first ++ second) = bitsOfBytes first ++ bitsOfBytes second :=
  List.flatMap_append

theorem bitsOfBytes_cons (byte : UInt8) (bytes : List UInt8) :
    bitsOfBytes (byte :: bytes) = bitsOfBytes [byte] ++ bitsOfBytes bytes :=
  bitsOfBytes_append [byte] bytes

/-- The bytes of bits have these bits, and zeros behind them. -/
theorem bitsOfBytes_bytesOfBits (bits : List Bool) :
    ∃ padding, bitsOfBytes (bytesOfBits bits) = bits ++ List.replicate padding false := by
  fun_induction bytesOfBits bits with
  | case1 => exact ⟨0, rfl⟩
  | case2 a b c d e f g h rest ih =>
      obtain ⟨padding, eq⟩ := ih
      refine ⟨padding, ?_⟩
      rw [bitsOfBytes_cons, bitsOfBytes_ofNat_numberOf (by simp), eq]
      rfl
  | case3 last _ other =>
      have short : last.length ≤ 8 := by
        match last, other with
        | [], _ | [_], _ | [_, _], _ | [_, _, _], _ | [_, _, _, _], _ | [_, _, _, _, _], _
        | [_, _, _, _, _, _], _ | [_, _, _, _, _, _, _], _ => simp
        | a :: b :: c :: d :: e :: f :: g :: h :: rest, other =>
            exact (other a b c d e f g h rest rfl).elim
      exact ⟨8 - last.length, bitsOfBytes_ofNat_numberOf short⟩

/-! ## The stream -/

/-- A deflated sequence is read back, whatever bytes follow it. -/
theorem inflate_deflate_append (content padding : List UInt8) :
    inflate (deflate content ++ padding) = some content := by
  obtain ⟨zeros, bits⟩ := bitsOfBytes_bytesOfBits (blockBits (items content))
  have stream : bitsOfBytes (deflate content ++ padding) =
      blockBits (items content) ++ (List.replicate zeros false ++ bitsOfBytes padding) := by
    rw [bitsOfBytes_append, deflate, bits, List.append_assoc]
  have nonempty : 0 < (bitsOfBytes (deflate content ++ padding)).length := by
    rw [stream, blockBits]
    simp
  rw [inflate]
  rw [stream] at nonempty ⊢
  rw [inflateBlocks_blockBits (items_completes content).writable (replayAll_items content) nonempty,
    List.reverse_reverse]

/-! ## Groups of characters -/

theorem valueOf?_alphabet :
    ∀ value < 64, valueOf? (alphabet.getD value '0') = some value := by
  decide +kernel

theorem valueOf?_digit (n : Nat) : valueOf? (digit n) = some (n % 64) :=
  valueOf?_alphabet (n % 64) (Nat.mod_lt n (by decide))

/-- Four characters give back the three bytes they were made from. -/
theorem bytesOfRadix64_group (a b c : UInt8) (rest : List Char) :
    bytesOfRadix64 (group a.toNat b.toNat c.toNat ++ rest) =
      (bytesOfRadix64 rest).map fun later => a :: b :: c :: later := by
  have small (byte : UInt8) : byte.toNat < 256 := byte.toNat_lt
  have secondEq : a.toNat % 4 * 16 ||| b.toNat / 16 = a.toNat % 4 * 16 + b.toNat / 16 := by
    have bound : b.toNat / 16 < 2 ^ 4 := by
      have := small b
      omega
    rw [Nat.mul_comm, Nat.two_pow_add_eq_or_of_lt bound]
  have thirdEq : b.toNat % 16 * 4 ||| c.toNat / 64 = b.toNat % 16 * 4 + c.toNat / 64 := by
    have bound : c.toNat / 64 < 2 ^ 2 := by
      have := small c
      omega
    rw [Nat.mul_comm, Nat.two_pow_add_eq_or_of_lt bound]
  have bytes : threeBytes (a.toNat / 4 % 64) ((a.toNat % 4 * 16 + b.toNat / 16) % 64)
      ((b.toNat % 16 * 4 + c.toNat / 64) % 64) (c.toNat % 64) = [a, b, c] := by
    have ha := small a
    have hb := small b
    have hc := small c
    have whole : ((a.toNat / 4 % 64 * 64 + (a.toNat % 4 * 16 + b.toNat / 16) % 64) * 64 +
        (b.toNat % 16 * 4 + c.toNat / 64) % 64) * 64 + c.toNat % 64 =
          a.toNat * 65536 + b.toNat * 256 + c.toNat := by
      omega
    rw [threeBytes, whole]
    rw [show (a.toNat * 65536 + b.toNat * 256 + c.toNat) / 65536 = a.toNat by omega,
      show (a.toNat * 65536 + b.toNat * 256 + c.toNat) / 256 % 256 = b.toNat by omega,
      show (a.toNat * 65536 + b.toNat * 256 + c.toNat) % 256 = c.toNat by omega,
      UInt8.ofNat_toNat, UInt8.ofNat_toNat, UInt8.ofNat_toNat]
  rw [group, secondEq, thirdEq]
  simp only [List.cons_append, List.nil_append, bytesOfRadix64, valueOf?_digit,
    Option.bind_eq_bind, Option.bind_some, bytes]
  cases bytesOfRadix64 rest <;> rfl

/-- The zeros that fill up the last group. -/
def fillCount (count : Nat) : Nat :=
  (3 - count % 3) % 3

theorem fillCount_add_three (count : Nat) : fillCount (count + 3) = fillCount count := by
  simp only [fillCount, Nat.add_mod_right]

/-- Characters give back the bytes, and zeros up to a whole group. -/
theorem bytesOfRadix64_radix64 (bytes : List UInt8) :
    bytesOfRadix64 (radix64 bytes) =
      some (bytes ++ List.replicate (fillCount bytes.length) 0) := by
  fun_induction radix64 bytes with
  | case1 => rfl
  | case2 a =>
      have read := bytesOfRadix64_group a 0 0 []
      rw [List.append_nil] at read
      exact read
  | case3 a b =>
      have read := bytesOfRadix64_group a b 0 []
      rw [List.append_nil] at read
      exact read
  | case4 a b c rest ih =>
      have fill : fillCount (a :: b :: c :: rest).length = fillCount rest.length :=
        fillCount_add_three rest.length
      rw [bytesOfRadix64_group, ih, fill]
      rfl

/-! ## Every group has four characters -/

theorem digit_mem_alphabet (n : Nat) : digit n ∈ alphabet := by
  have inRange : n % 64 < alphabet.length := Nat.mod_lt n (by decide)
  rw [digit, List.getD_eq_getElem _ _ inRange]
  exact List.getElem_mem inRange

theorem length_group (a b c : Nat) : (group a b c).length = 4 :=
  rfl

theorem mem_alphabet_of_mem_group {a b c : Nat} {sign : Char} (mem : sign ∈ group a b c) :
    sign ∈ alphabet := by
  simp only [group, List.mem_cons, List.not_mem_nil, or_false] at mem
  rcases mem with rfl | rfl | rfl | rfl <;> exact digit_mem_alphabet _

/-- A group that is begun is written as a whole. -/
theorem length_radix64 (bytes : List UInt8) :
    (radix64 bytes).length = 4 * (bytes.length ⌈/⌉ 3) := by
  rw [Nat.ceilDiv_eq_add_pred_div]
  fun_induction radix64 bytes with
  | case1 => rfl
  | case2 a => rw [length_group, List.length_singleton]
  | case3 a b => rw [length_group, List.length_cons, List.length_singleton]
  | case4 a b c rest ih =>
      rw [List.length_append, length_group, ih]
      simp only [List.length_cons]
      omega

theorem mem_alphabet_of_mem_radix64 {bytes : List UInt8} {sign : Char}
    (mem : sign ∈ radix64 bytes) : sign ∈ alphabet := by
  fun_induction radix64 bytes with
  | case1 => cases mem
  | case2 a => exact mem_alphabet_of_mem_group mem
  | case3 a b => exact mem_alphabet_of_mem_group mem
  | case4 a b c rest ih =>
      rcases List.mem_append.1 mem with mem | mem
      · exact mem_alphabet_of_mem_group mem
      · exact ih mem

/-- Characters that stand for themselves in an address. -/
def isAddressSafe (c : Char) : Bool :=
  c.isAlphanum || c == '-' || c == '_'

theorem isAddressSafe_of_mem_alphabet {sign : Char} (mem : sign ∈ alphabet) :
    isAddressSafe sign = true := by
  have all_safe : alphabet.all isAddressSafe = true := by decide +kernel
  exact List.all_eq_true.1 all_safe sign mem

/-- Texts of one length differ where their bytes do, because the zeros behind them are
equally many. -/
theorem eq_of_radix64_eq {first second : List UInt8} (length_eq : first.length = second.length)
    (same : radix64 first = radix64 second) : first = second := by
  have read := congrArg bytesOfRadix64 same
  rw [bytesOfRadix64_radix64, bytesOfRadix64_radix64, Option.some_inj] at read
  exact (List.append_inj read length_eq).1

/-- Bytes are written in whole groups of four characters, out of 64 different characters
that are safe in addresses.  Reading them gives the bytes back with the zeros that fill up
the last group, so bytes of one length are told apart. -/
theorem radix64_groups (bytes : List UInt8) :
    (radix64 bytes).length = 4 * (bytes.length ⌈/⌉ 3) ∧
      (alphabet.length = 64 ∧ alphabet.Nodup ∧
        ∀ sign ∈ radix64 bytes, sign ∈ alphabet ∧ isAddressSafe sign = true) ∧
      bytesOfRadix64 (radix64 bytes) =
        some (bytes ++ List.replicate ((3 - bytes.length % 3) % 3) 0) ∧
      ∀ other : List UInt8, other.length = bytes.length → radix64 other = radix64 bytes →
        other = bytes := by
  refine ⟨length_radix64 bytes, ⟨by decide, by decide +kernel, fun sign mem => ?_⟩,
    bytesOfRadix64_radix64 bytes, fun other => eq_of_radix64_eq⟩
  have among := mem_alphabet_of_mem_radix64 mem
  exact ⟨among, isAddressSafe_of_mem_alphabet among⟩

/-- Four bytes make two groups, the second of them filled up with two zeros. -/
theorem radix64_groups_fourBytes :
    (radix64 [251, 0, 7, 129]).length = 8 ∧
      bytesOfRadix64 (radix64 [251, 0, 7, 129]) = some [251, 0, 7, 129, 0, 0] ∧
      radix64 [251, 0, 7, 128] ≠ radix64 [251, 0, 7, 129] := by
  obtain ⟨length_eq, _, read, apart⟩ := radix64_groups [251, 0, 7, 129]
  refine ⟨length_eq, read, fun same => ?_⟩
  have bytes_eq := apart [251, 0, 7, 128] rfl same
  exact absurd bytes_eq (by decide)

/-! ## Texts -/

theorem unpacked_packed_eq (text : String) :
    unpacked (packed text) = some (Text.Utf8.encode text) := by
  rw [unpacked, packed, String.toList_ofList, bytesOfRadix64_radix64, Option.bind_some,
    inflate_deflate_append]

theorem encode_injective : Function.Injective Text.Utf8.encode := by
  intro text other same
  rw [Text.Utf8.encode, Text.Utf8.encode, Array.toList_inj] at same
  exact String.toByteArray_inj.mp (ByteArray.ext same)

/-- What is read from a packed text is its bytes, so different texts are packed
differently. -/
theorem packed_round_trip :
    (∀ text, unpacked (packed text) = some (Text.Utf8.encode text)) ∧
      Function.Injective packed := by
  refine ⟨unpacked_packed_eq, ?_⟩
  intro text other same
  have read : some (Text.Utf8.encode text) = some (Text.Utf8.encode other) := by
    rw [← unpacked_packed_eq, same, unpacked_packed_eq]
  exact encode_injective (Option.some.inj read)

end JavaUml.Pack
