import JavaUml.Text.Blank

/-!
# White space at the ends

Trimming leaves a text that neither starts nor ends with white space, and it leaves every
such text as it is.
-/

namespace JavaUml.Text

theorem trim_eq_self {text : List Char} (first : ∀ c ∈ text.head?, isBlank c = false)
    (last : ∀ c ∈ text.getLast?, isBlank c = false) : trim text = text := by
  have left : trimLeft text = text := by
    cases text with
    | nil => rfl
    | cons c rest =>
        rw [trimLeft, List.dropWhile_cons, if_neg (by simp [first c rfl])]
  have right : text.reverse.dropWhile isBlank = text.reverse := by
    cases reversed : text.reverse with
    | nil => rfl
    | cons c rest =>
        have end_eq : text.getLast? = some c := by
          rw [← List.head?_reverse, reversed]
          rfl
        rw [List.dropWhile_cons, if_neg (by simp [last c end_eq])]
  rw [trim, left, trimRight, right, List.reverse_reverse]

/-- Behind white space that was dropped stands none. -/
theorem isBlank_of_mem_head_dropWhile {text : List Char} {c : Char}
    (mem : c ∈ (text.dropWhile isBlank).head?) : isBlank c = false := by
  have solid := List.head?_dropWhile_not isBlank text
  rw [Option.mem_def.1 mem] at solid
  exact solid

theorem trimRight_isPrefix (text : List Char) : trimRight text <+: text := by
  rw [trimRight, ← List.reverse_suffix, List.reverse_reverse]
  exact List.dropWhile_suffix isBlank

theorem isBlank_of_mem_head_trim {text : List Char} {c : Char} (mem : c ∈ (trim text).head?) :
    isBlank c = false := by
  -- What is dropped at the end is not in front, so the first character is the one that
  -- dropping at the front has left.
  obtain ⟨more, trimmed⟩ := List.head?_eq_some_iff.1 mem
  obtain ⟨dropped, left⟩ := trimRight_isPrefix (trimLeft text)
  rw [← trim, trimmed] at left
  exact isBlank_of_mem_head_dropWhile (List.head?_eq_some_iff.2 ⟨_, left.symm⟩)

theorem isBlank_of_mem_getLast_trim {text : List Char} {c : Char}
    (mem : c ∈ (trim text).getLast?) : isBlank c = false := by
  rw [trim, trimRight, List.getLast?_reverse] at mem
  exact isBlank_of_mem_head_dropWhile mem

theorem trim_subset (text : List Char) : trim text ⊆ text := by
  intro c mem
  have kept := (trimRight_isPrefix (trimLeft text)).subset mem
  exact (List.dropWhile_suffix isBlank).subset kept

end JavaUml.Text
