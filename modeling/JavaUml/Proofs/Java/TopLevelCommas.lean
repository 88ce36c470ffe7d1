import JavaUml.Proofs.Java.TypeNames

/-!
# Commas outside of angle brackets

Cutting counts brackets and does not match them.  The depth is the number of brackets that
were opened so far less the number of those that were closed, so it falls below zero behind
a bracket that closes nothing, and a comma is kept there as it is kept inside of a pair.

The pieces of a text are stated without a reader first: between two of them stands a comma
at depth zero, and no other comma of the text has this depth.  Each text has exactly one
such list of pieces, and cutting finds it.  Joining the pieces is then the inverse: the
depth is zero again at every seam, whatever the pieces do in between.
-/

namespace JavaUml.Java

open JavaUml.Text

namespace TypeText

/-- How many more angle brackets a text opens than it closes. -/
def surplus (text : List Char) : Int :=
  text.count '<' - text.count '>'

theorem surplus_cons (c : Char) (rest : List Char) :
    surplus (c :: rest) = surplus [c] + surplus rest := by
  simp only [surplus, List.count_cons, List.count_nil]
  omega

/-- A text that has no comma at depth zero if it starts at the given depth. -/
def IsUncut (depth : Int) (text : List Char) : Prop :=
  ∀ front behind, text = front ++ ',' :: behind → depth + surplus front ≠ 0

theorem isUncut_nil (depth : Int) : IsUncut depth [] := by
  simp [IsUncut]

/-- The first character is no cut, and the rest starts at the depth behind it. -/
theorem isUncut_cons_iff {depth : Int} {c : Char} {rest : List Char} :
    IsUncut depth (c :: rest) ↔ ¬(c = ',' ∧ depth = 0) ∧ IsUncut (depth + surplus [c]) rest := by
  constructor
  · intro uncut
    refine ⟨?_, fun front behind rest_eq => ?_⟩
    · rintro ⟨rfl, rfl⟩
      exact uncut [] rest rfl rfl
    · have shifted := uncut (c :: front) behind (by rw [rest_eq, List.cons_append])
      rwa [surplus_cons, ← Int.add_assoc] at shifted
  · rintro ⟨other, uncut⟩ front behind text_eq
    -- A comma is the first character, or it stands in the rest.
    rcases List.cons_eq_append_iff.1 text_eq with ⟨rfl, comma⟩ | ⟨more, rfl, rest_eq⟩
    · have here : depth + surplus [] = depth := by simp [surplus]
      rw [here]
      exact fun zero => other ⟨(List.cons.inj comma).1.symm, zero⟩
    · rw [surplus_cons, ← Int.add_assoc]
      exact uncut more behind rest_eq

instance IsUncut.instDecidable : (depth : Int) → (text : List Char) → Decidable (IsUncut depth text)
  | depth, [] => .isTrue (isUncut_nil depth)
  | depth, c :: rest =>
      have := IsUncut.instDecidable (depth + surplus [c]) rest
      decidable_of_iff _ isUncut_cons_iff.symm

/-- The pieces of a text that starts at some depth.  Every piece but the last one ends at
depth zero, and the comma behind it belongs to no piece. -/
inductive CutsInto : Int → List Char → List (List Char) → Prop
  | last {depth : Int} {piece : List Char} (uncut : IsUncut depth piece) :
      CutsInto depth piece [piece]
  | cons {depth : Int} {piece rest : List Char} {pieces : List (List Char)}
      (uncut : IsUncut depth piece) (even : depth + surplus piece = 0)
      (others : CutsInto 0 rest pieces) :
      CutsInto depth (piece ++ ',' :: rest) (piece :: pieces)

/-! ## The reader -/

/-- One character further, a piece ends or the depth changes by the surplus of the character. -/
theorem splitFrom_cons (depth : Int) (c : Char) (rest : List Char) :
    splitFrom depth (c :: rest) =
      if c = ',' ∧ depth = 0 then [] :: splitFrom 0 rest
      else consFirst c (splitFrom (depth + surplus [c]) rest) := by
  rw [splitFrom]
  by_cases opens : c = '<'
  · subst opens
    rfl
  by_cases closes : c = '>'
  · subst closes
    rfl
  have level : surplus [c] = 0 := by
    simp [surplus, opens, closes]
  rw [if_neg opens, if_neg closes, level, Int.add_zero]
  split
  · rename_i cut
    rw [cut.2]
  · rfl

/-- Reading on over a text without a cut. -/
theorem splitFrom_append {depth : Int} {text : List Char} (uncut : IsUncut depth text)
    (rest : List Char) :
    splitFrom depth (text ++ rest) =
      text.foldr consFirst (splitFrom (depth + surplus text) rest) := by
  induction text generalizing depth with
  | nil => simp [surplus]
  | cons c text ih =>
      obtain ⟨kept, further⟩ := isUncut_cons_iff.1 uncut
      rw [List.cons_append, splitFrom_cons, if_neg kept, ih further, List.foldr_cons,
        surplus_cons c text, Int.add_assoc]

namespace CutsInto

variable {depth : Int} {text : List Char} {pieces : List (List Char)}

theorem intercalate_eq (cuts : CutsInto depth text pieces) : [','].intercalate pieces = text := by
  induction cuts with
  | last => exact List.intercalate_singleton
  | cons uncut even others ih =>
      rw [← ih]
      cases others <;> simp

/-- A character in front that is no cut belongs to the first piece. -/
theorem keep {c : Char} (kept : ¬(c = ',' ∧ depth = 0))
    (cuts : CutsInto (depth + surplus [c]) text pieces) :
    CutsInto depth (c :: text) (consFirst c pieces) := by
  cases cuts with
  | last uncut => exact .last (isUncut_cons_iff.2 ⟨kept, uncut⟩)
  | cons uncut even others =>
      refine .cons (isUncut_cons_iff.2 ⟨kept, uncut⟩) ?_ others
      rw [surplus_cons, ← Int.add_assoc, even]

theorem splitFrom_eq (cuts : CutsInto depth text pieces) : splitFrom depth text = pieces := by
  induction cuts with
  | last uncut =>
      have whole := splitFrom_append uncut []
      rwa [List.append_nil, splitFrom, foldr_consFirst, List.append_nil] at whole
  | cons uncut even others ih =>
      rw [splitFrom_append uncut, even, splitFrom_cons, if_pos ⟨rfl, rfl⟩, ih, foldr_consFirst,
        List.append_nil]

end CutsInto

theorem cutsInto_splitFrom (depth : Int) (text : List Char) :
    CutsInto depth text (splitFrom depth text) := by
  induction text generalizing depth with
  | nil => exact .last (isUncut_nil depth)
  | cons c rest ih =>
      rw [splitFrom_cons]
      split
      · rename_i cut
        obtain ⟨rfl, rfl⟩ := cut
        exact .cons (isUncut_nil 0) rfl (ih 0)
      · rename_i kept
        exact .keep kept (ih _)

/-- Cutting finds the one list of pieces that a text has. -/
theorem splitTop_eq_iff {text : List Char} {pieces : List (List Char)} :
    splitTop text = pieces ↔ CutsInto 0 text pieces :=
  ⟨fun cut => cut ▸ cutsInto_splitFrom 0 text, CutsInto.splitFrom_eq⟩

/-- Pieces that start and end at depth zero are those of the text that they make. -/
theorem cutsInto_intercalate {pieces : List (List Char)} (some_left : pieces ≠ [])
    (whole : ∀ piece ∈ pieces, IsUncut 0 piece ∧ surplus piece = 0) :
    CutsInto 0 ([','].intercalate pieces) pieces := by
  induction pieces with
  | nil => exact absurd rfl some_left
  | cons first others ih =>
      rw [List.forall_mem_cons] at whole
      obtain ⟨⟨uncut, even⟩, rest_whole⟩ := whole
      cases others with
      | nil =>
          rw [List.intercalate_singleton]
          exact .last uncut
      | cons next rest =>
          rw [List.intercalate_cons_cons, List.append_assoc, List.singleton_append]
          exact .cons uncut (by rw [even]; rfl) (ih (by simp) rest_whole)

end TypeText

/-- A text that can be told apart from others around it.  It opens as many angle brackets as
it closes, and in front of each of its commas the two numbers differ. -/
structure IsWholePiece (piece : String) : Prop where
  even : piece.toList.count '<' = piece.toList.count '>'
  commas : ∀ front behind, piece.toList = front ++ ',' :: behind →
    front.count '<' ≠ front.count '>'

theorem isWholePiece_iff {piece : String} :
    IsWholePiece piece ↔
      TypeText.IsUncut 0 piece.toList ∧ TypeText.surplus piece.toList = 0 := by
  have balance : ∀ text : List Char,
      TypeText.surplus text = 0 ↔ text.count '<' = text.count '>' := by
    intro text
    rw [TypeText.surplus]
    omega
  constructor
  · rintro ⟨even, commas⟩
    refine ⟨fun front behind piece_eq => ?_, (balance _).2 even⟩
    rw [Int.zero_add, ne_eq, balance]
    exact commas front behind piece_eq
  · rintro ⟨uncut, even⟩
    refine ⟨(balance _).1 even, fun front behind piece_eq => ?_⟩
    have uneven := uncut front behind piece_eq
    rwa [Int.zero_add, ne_eq, balance] at uneven

instance (piece : String) : Decidable (IsWholePiece piece) :=
  decidable_of_iff _ isWholePiece_iff.symm

/-- Cutting and joining are inverse.  Any text is what its pieces make, however its brackets
stand, and pieces that are whole come back from the text that they make. -/
theorem splitTopLevel_inverse :
    (∀ text : String, ",".intercalate (splitTopLevel text) = text) ∧
      ∀ pieces : List String, pieces ≠ [] → (∀ piece ∈ pieces, IsWholePiece piece) →
        splitTopLevel (",".intercalate pieces) = pieces := by
  constructor
  · intro text
    have cuts := TypeText.splitTop_eq_iff.1 (rfl : TypeText.splitTop text.toList = _)
    rw [← String.toList_inj, String.toList_intercalate, splitTopLevel, List.map_map]
    simpa [Function.comp_def] using cuts.intercalate_eq
  · intro pieces some_left whole
    have cuts : TypeText.CutsInto 0 (",".intercalate pieces).toList
        (pieces.map String.toList) := by
      rw [String.toList_intercalate]
      exact TypeText.cutsInto_intercalate (by simpa using some_left)
        (List.forall_mem_map.2 fun piece mem => isWholePiece_iff.1 (whole piece mem))
    rw [splitTopLevel, TypeText.splitTop_eq_iff.2 cuts, List.map_map]
    simp [Function.comp_def]

/-- Brackets that close before they open keep a comma as a pair around it does. -/
theorem splitTopLevel_inverse_pieces :
    (∀ piece ∈ ["Map<K, V>", "", ">,<", " E"], IsWholePiece piece) ∧
      splitTopLevel "Map<K, V>,,>,<, E" = ["Map<K, V>", "", ">,<", " E"] := by
  have whole : ∀ piece ∈ ["Map<K, V>", "", ">,<", " E"], IsWholePiece piece := by decide
  exact ⟨whole, splitTopLevel_inverse.2 _ (by simp) whole⟩

end JavaUml.Java
