import JavaUml.Proofs.Pack.FixedBlock

/-!
# Copies replay what they stand for

The search for copies is free in its choice: keys may collide, and a longer copy
one position later may put off the one in hand.  What matters is that the bytes of
a source were compared before it was chosen.  From that, every sequence of items
that the search ends in replays the bytes it was made from.
-/

namespace JavaUml.Pack

variable {bytes : Array UInt8}

/-! ## Sources -/

/-- The bytes from an earlier position on agree with those at a position, as far as
the source says and within what a copy can say. -/
structure Source.Fits (bytes : Array UInt8) (position : Nat) (source : Source) : Prop where
  earlier : source.start < position
  near : position - source.start ≤ reach
  least : leastLength ≤ source.length
  greatest : source.length ≤ greatestLength
  inside : position + source.length ≤ bytes.size
  agrees : ∀ k < source.length, bytes[source.start + k]? = bytes[position + k]?

theorem agreement_le (bytes : Array UInt8) (i j limit : Nat) :
    agreement bytes i j limit ≤ limit := by
  induction limit generalizing i j with
  | zero => simp [agreement]
  | succ limit ih =>
      rw [agreement]
      split
      · exact Nat.succ_le_succ (ih (i + 1) (j + 1))
      · omega

theorem getElem?_of_lt_agreement {i j limit k : Nat} (within : k < agreement bytes i j limit) :
    bytes[i + k]? = bytes[j + k]? := by
  induction limit generalizing i j k with
  | zero => simp [agreement] at within
  | succ limit ih =>
      rw [agreement] at within
      split at within
      · rename_i same
        cases k with
        | zero => exact same
        | succ k =>
            have later := ih (i := i + 1) (j := j + 1) (k := k) (by omega)
            rwa [Nat.add_right_comm i 1 k, Nat.add_right_comm j 1 k] at later
      · omega

theorem mem_candidates {keys : Array Nat} {key least position count start : Nat}
    (mem : start ∈ candidates keys key least position count) :
    least ≤ start ∧ 0 < start ∧ start ≤ position := by
  induction position generalizing count with
  | zero => simp [candidates] at mem
  | succ position ih =>
      cases count with
      | zero => simp [candidates] at mem
      | succ count =>
          rw [candidates] at mem
          split at mem
          · simp at mem
          · split at mem
            · rcases List.mem_cons.mp mem with rfl | further
              · omega
              · have bounds := ih further
                omega
            · have bounds := ih mem
              omega

theorem longest_eq_some {position limit enough inHand : Nat} {best : Option Source}
    {near : List Nat} {source : Source}
    (found : longest bytes position limit enough inHand best near = some source) :
    best = some source ∨
      source.start ∈ near ∧ source.length = agreement bytes source.start position limit ∧
        inHand < source.length := by
  induction near generalizing inHand best with
  | nil => exact Or.inl found
  | cons start rest ih =>
      rw [longest] at found
      split at found
      · rename_i longer
        split at found
        · cases found
          exact Or.inr ⟨List.mem_cons_self, rfl, longer⟩
        · rcases ih found with chosen | ⟨mem, length, more⟩
          · cases chosen
            exact Or.inr ⟨List.mem_cons_self, rfl, longer⟩
          · exact Or.inr ⟨List.mem_cons_of_mem start mem, length, by omega⟩
      · rcases ih found with chosen | ⟨mem, length, more⟩
        · exact Or.inl chosen
        · exact Or.inr ⟨List.mem_cons_of_mem start mem, length, more⟩

/-- Whatever the keys are, a source that is found fits. -/
theorem betterSource_fits {keys : Array Nat} {position inHand : Nat} {source : Source}
    (worthwhile : leastLength ≤ inHand + 1)
    (found : betterSource bytes keys position inHand = some source) :
    source.Fits bytes position := by
  unfold betterSource at found
  dsimp only at found
  have chosen := (Option.filter_eq_some_iff.mp found).1
  rcases longest_eq_some chosen with none | ⟨mem, length, more⟩
  · cases none
  · have bounds := mem_candidates mem
    have limit := agreement_le bytes source.start position
      (min greatestLength (bytes.size - position))
    rw [← length] at limit
    unfold reach at bounds
    unfold leastLength at worthwhile
    constructor
    · omega
    · unfold reach
      omega
    · unfold leastLength
      omega
    · omega
    · omega
    · intro k within
      exact getElem?_of_lt_agreement (length ▸ within)

/-! ## Replaying -/

/-- The first bytes, the last one of them first. -/
def written (bytes : Array UInt8) (count : Nat) : List UInt8 :=
  (bytes.toList.take count).reverse

theorem written_succ {position : Nat} {byte : UInt8} (found : bytes[position]? = some byte) :
    written bytes (position + 1) = byte :: written bytes position := by
  rw [← Array.getElem?_toList] at found
  simp [written, List.take_add_one, found]

theorem getElem?_written {position distance : Nat} (inside : position ≤ bytes.size)
    (positive : 0 < distance) (near : distance ≤ position) :
    (written bytes position)[distance - 1]? = bytes[position - distance]? := by
  have length : (bytes.toList.take position).length = position := by
    rw [List.length_take, Array.length_toList]
    omega
  rw [written, List.getElem?_reverse (by omega), length,
    show position - 1 - (distance - 1) = position - distance by omega,
    List.getElem?_take_of_lt (by omega), Array.getElem?_toList]

/-- A copy from where the bytes agree writes the bytes at its own place, also
where it reaches into what it has just written. -/
theorem copyBack_written {start position length : Nat} (earlier : start < position)
    (inside : position + length ≤ bytes.size)
    (agrees : ∀ k < length, bytes[start + k]? = bytes[position + k]?) :
    copyBack (position - start) length (written bytes position) =
      some (written bytes (position + length)) := by
  induction length generalizing start position with
  | zero => rfl
  | succ length ih =>
      have present : position < bytes.size := by omega
      have found : bytes[position]? = some bytes[position] := Array.getElem?_eq_getElem present
      have source : (written bytes position)[position - start - 1]? = some bytes[position] := by
        rw [getElem?_written (by omega) (by omega) (by omega),
          show position - (position - start) = start by omega]
        have first := agrees 0 (by omega)
        rw [Nat.add_zero, Nat.add_zero] at first
        rw [first, found]
      have agreesLater : ∀ k < length, bytes[start + 1 + k]? = bytes[position + 1 + k]? := by
        intro k within
        rw [Nat.add_right_comm start 1 k, Nat.add_right_comm position 1 k]
        exact agrees (k + 1) (by omega)
      have later := ih (show start + 1 < position + 1 by omega) (by omega) agreesLater
      rw [copyBack, source]
      simp only [Option.bind_eq_bind, Option.bind_some]
      rw [← written_succ found, show position - start = position + 1 - (start + 1) by omega, later,
        show position + 1 + length = position + (length + 1) by omega]

/-- Items that can be written and that complete the first bytes to all bytes. -/
structure Completes (bytes : Array UInt8) (count : Nat) (content : List Item) : Prop where
  writable : ∀ item ∈ content, item.IsWritable
  replayed : replayAll (written bytes count) content = some (written bytes bytes.size)

theorem completes_nil : Completes bytes bytes.size [] where
  writable := by simp
  replayed := rfl

theorem Completes.literal {position : Nat} {content : List Item}
    (later : Completes bytes position content) (positive : 0 < position)
    (inside : position ≤ bytes.size) :
    Completes bytes (position - 1) (.literal (bytes.getD (position - 1) 0) :: content) where
  writable := by
    intro item mem
    rcases List.mem_cons.mp mem with rfl | mem
    · exact trivial
    · exact later.writable item mem
  replayed := by
    have present : position - 1 < bytes.size := by omega
    have found : bytes[position - 1]? = some (bytes.getD (position - 1) 0) := by
      rw [Array.getD_eq_getD_getElem?, Array.getElem?_eq_getElem present, Option.getD_some]
    rw [replayAll, List.foldlM_cons]
    change replayAll (_ :: written bytes (position - 1)) content = _
    rw [← written_succ found, Nat.sub_add_cancel positive, later.replayed]

theorem Completes.copy {count : Nat} {source : Source} {content : List Item}
    (later : Completes bytes (count + source.length) content) (fits : source.Fits bytes count) :
    Completes bytes count (.copy source.length (count - source.start) :: content) where
  writable := by
    intro item mem
    rcases List.mem_cons.mp mem with rfl | mem
    · have earlier := fits.earlier
      have near := fits.near
      unfold reach at near
      refine ⟨fits.least, fits.greatest, by omega, ?_⟩
      unfold greatestDistance
      omega
    · exact later.writable item mem
  replayed := by
    have copied := copyBack_written fits.earlier fits.inside fits.agrees
    rw [replayAll, List.foldlM_cons, Item.replay, copied]
    exact later.replayed

/-! ## The search -/

/-- What waits fits its place. -/
def Waiting.Fits (bytes : Array UInt8) (position : Nat) : Waiting → Prop
  | nothing => True
  | byte source => 0 < position ∧ ∀ found ∈ source, found.Fits bytes (position - 1)

/-- The number of bytes that are written while something waits. -/
def Waiting.count (position : Nat) : Waiting → Nat
  | nothing => position
  | byte _ => position - 1

theorem Waiting.leastLength_le_length {position : Nat} {waiting : Waiting}
    (fits : waiting.Fits bytes position) : leastLength ≤ waiting.length + 1 := by
  match waiting, fits with
  | nothing, _ => exact Nat.le_refl _
  | byte none, _ => exact Nat.le_refl _
  | byte (some source), fits => exact Nat.le_succ_of_le (fits.2 source rfl).least

/-- The items from a position on complete what is written before it.  Each step
moves on by at least one position, so the steps suffice. -/
theorem itemsFrom_completes (keys : Array Nat) {steps position : Nat} {waiting : Waiting}
    (enough : bytes.size < position + steps) (inside : position ≤ bytes.size)
    (fits : waiting.Fits bytes position) :
    Completes bytes (waiting.count position) (itemsFrom bytes keys steps position waiting) := by
  induction steps generalizing position waiting with
  | zero => omega
  | succ steps ih =>
      unfold itemsFrom
      by_cases more : position < bytes.size
      · rw [if_pos more]
        dsimp only
        have betterFits : ∀ found ∈ (if waiting.length < sureLength then
            betterSource bytes keys position waiting.length else none),
            found.Fits bytes position := by
          intro found mem
          split at mem
          · exact betterSource_fits (Waiting.leastLength_le_length fits) mem
          · cases mem
        generalize (if waiting.length < sureLength then
          betterSource bytes keys position waiting.length else none) = better at betterFits ⊢
        -- What is found for this position waits at the next one.
        have nextFits : (Waiting.byte better).Fits bytes (position + 1) :=
          ⟨Nat.succ_pos position, betterFits⟩
        have waitsOn : Completes bytes position
            (itemsFrom bytes keys steps (position + 1) (.byte better)) :=
          ih (by omega) (by omega) nextFits
        match waiting, better with
        | .nothing, _ => exact waitsOn
        | .byte none, _ => exact waitsOn.literal fits.1 inside
        | .byte (some source), some _ => exact waitsOn.literal fits.1 inside
        | .byte (some source), none =>
            have held := fits.2 source rfl
            have least := held.least
            have within := held.inside
            have free : Waiting.nothing.Fits bytes (position - 1 + source.length) := trivial
            unfold leastLength at least
            exact Completes.copy (ih (by omega) within free) held
      · have whole : position = bytes.size := by omega
        subst whole
        rw [if_neg more]
        match waiting with
        | .nothing => exact completes_nil
        | .byte _ => exact completes_nil.literal fits.1 inside

/-- The items of a byte sequence can be written, and they replay it. -/
theorem items_completes (content : List UInt8) :
    Completes content.toArray 0 (items content) := by
  have fits : Waiting.nothing.Fits content.toArray 0 := trivial
  exact itemsFrom_completes _ (by omega) (Nat.zero_le _) fits

theorem replayAll_items (content : List UInt8) :
    replayAll [] (items content) = some content.reverse := by
  have replayed := (items_completes content).replayed
  simpa [written] using replayed

end JavaUml.Pack
