import JavaUml.Text.Cut

/-!
# Pieces of a text

A text that was put together from pieces without a separator is cut into these
pieces again.
-/

namespace JavaUml.Text

theorem splitAt_append_cons {separator : Char} {word : List Char} (free : separator ∉ word)
    (rest : List Char) :
    splitAt separator (word ++ separator :: rest) = word :: splitAt separator rest := by
  induction word with
  | nil => simp [splitAt]
  | cons c word ih =>
      simp only [List.mem_cons, not_or] at free
      rw [List.cons_append, splitAt, if_neg (Ne.symm free.1), ih free.2, consFirst]

theorem splitAt_eq_singleton {separator : Char} {word : List Char} (free : separator ∉ word) :
    splitAt separator word = [word] := by
  induction word with
  | nil => rfl
  | cons c word ih =>
      simp only [List.mem_cons, not_or] at free
      rw [splitAt, if_neg (Ne.symm free.1), ih free.2, consFirst]

/-- A first piece starts like the text. -/
theorem exists_splitAt_cons (separator c : Char) (other : c ≠ separator) (rest : List Char) :
    ∃ word pieces, splitAt separator (c :: rest) = (c :: word) :: pieces := by
  rw [splitAt, if_neg other]
  cases splitAt separator rest with
  | nil => exact ⟨[], [], rfl⟩
  | cons piece pieces => exact ⟨piece, pieces, rfl⟩

/-- Pieces without the separator can be read back from the text that they make. -/
theorem split_intercalate_of_free {separator : Char} {mark first : String} {others : List String}
    (isMark : mark.toList = [separator])
    (free : ∀ piece ∈ first :: others, separator ∉ piece.toList) :
    split separator (mark.intercalate (first :: others)) = first :: others := by
  have pieces : splitAt separator (mark.intercalate (first :: others)).toList =
      (first :: others).map String.toList := by
    induction others generalizing first with
    | nil => simpa using splitAt_eq_singleton (free first (by simp))
    | cons next rest ih =>
        rw [List.forall_mem_cons] at free
        rw [String.intercalate_cons_cons, String.toList_append, String.toList_append, isMark,
          List.append_assoc, List.map_cons, ← ih free.2]
        exact splitAt_append_cons free.1 _
  rw [split, pieces, List.map_map]
  simp [Function.comp_def]

end JavaUml.Text
