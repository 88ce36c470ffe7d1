import JavaUml.Proofs.Diagram.Participants
import Mathlib.Data.List.Basic

/-!
# Outlines

The lines of a diagram form an outline: a line that ends with an opening brace is the
heading of the lines up to the closing one, and what stands between the two is indented by
two blanks more than they are.  Blank lines are not indented.

An outline whose texts have no braces and no line feeds is read back from its lines, and
in the lines braces are balanced.
-/

namespace JavaUml.Diagram

/-! ## Texts -/

/-- A text without line feeds and braces. -/
structure IsQuiet (text : String) : Prop where
  isLine : IsLine text
  unopened : '\x7b' ∉ text.toList
  unclosed : '\x7d' ∉ text.toList

instance (text : String) : Decidable (IsQuiet text) :=
  decidable_of_iff (IsLine text ∧ '\x7b' ∉ text.toList ∧ '\x7d' ∉ text.toList)
    ⟨fun ⟨isLine, unopened, unclosed⟩ => ⟨isLine, unopened, unclosed⟩,
      fun quiet => ⟨quiet.isLine, quiet.unopened, quiet.unclosed⟩⟩

theorem isQuiet_append {text other : String} :
    IsQuiet (text ++ other) ↔ IsQuiet text ∧ IsQuiet other := by
  constructor
  · rintro ⟨isLine, unopened, unclosed⟩
    rw [isLine_append] at isLine
    rw [String.toList_append, List.mem_append, not_or] at unopened unclosed
    exact ⟨⟨isLine.1, unopened.1, unclosed.1⟩, ⟨isLine.2, unopened.2, unclosed.2⟩⟩
  · rintro ⟨first, second⟩
    refine ⟨isLine_append.2 ⟨first.isLine, second.isLine⟩, ?_, ?_⟩
    · rw [String.toList_append, List.mem_append, not_or]
      exact ⟨first.unopened, second.unopened⟩
    · rw [String.toList_append, List.mem_append, not_or]
      exact ⟨first.unclosed, second.unclosed⟩

/-- Two blanks for each level. -/
def indent (depth : Nat) : String :=
  String.ofList (List.replicate (2 * depth) ' ')

theorem indent_zero : indent 0 = "" :=
  rfl

theorem indent_succ (depth : Nat) : indent (depth + 1) = indent depth ++ "  " := by
  rw [indent, Nat.mul_succ, List.replicate_add, String.ofList_append]
  rfl

theorem isQuiet_indent (depth : Nat) : IsQuiet (indent depth) := by
  induction depth with
  | zero => decide
  | succ depth ih =>
      rw [indent_succ]
      exact isQuiet_append.2 ⟨ih, by decide⟩

/-- A text on a level.  Blank lines are not indented. -/
def indented (depth : Nat) (text : String) : String :=
  if text = "" then "" else indent depth ++ text

theorem indented_zero (text : String) : indented 0 text = text := by
  unfold indented
  split
  · rename_i blank
    exact blank.symm
  · exact String.empty_append

theorem indented_of_ne {text : String} (some_text : text ≠ "") (depth : Nat) :
    indented depth text = indent depth ++ text :=
  if_neg some_text

theorem isQuiet_indented {text : String} (quiet : IsQuiet text) (depth : Nat) :
    IsQuiet (indented depth text) := by
  unfold indented
  split
  · decide
  · exact isQuiet_append.2 ⟨isQuiet_indent depth, quiet⟩

/-! ## Lines of outlines -/

/-- A line, or a heading with what stands in its braces. -/
inductive Outline where
  | line (text : String)
  | braced (heading : String) (inside : List Outline)

mutual

/-- The lines of an outline on a level. -/
def Outline.lines (depth : Nat) : Outline → List String
  | .line text => [indented depth text]
  | .braced heading inside =>
      (indent depth ++ heading ++ " \x7b") ::
        (allLines (depth + 1) inside ++ [indent depth ++ "\x7d"])

/-- The lines of outlines one after the other. -/
def allLines (depth : Nat) : List Outline → List String
  | [] => []
  | item :: rest => item.lines depth ++ allLines depth rest

end

mutual

/-- Outlines whose texts are quiet. -/
def Outline.IsQuiet : Outline → Prop
  | .line text => Diagram.IsQuiet text
  | .braced heading inside => Diagram.IsQuiet heading ∧ areQuiet inside

/-- Outlines that are all quiet. -/
def areQuiet : List Outline → Prop
  | [] => True
  | item :: rest => item.IsQuiet ∧ areQuiet rest

end

theorem allLines_eq_flatMap (depth : Nat) (items : List Outline) :
    allLines depth items = items.flatMap (Outline.lines depth) := by
  induction items with
  | nil => rfl
  | cons item rest ih => rw [allLines, ih, List.flatMap_cons]

theorem areQuiet_iff {items : List Outline} : areQuiet items ↔ ∀ item ∈ items, item.IsQuiet := by
  induction items with
  | nil => simp [areQuiet]
  | cons item rest ih => rw [areQuiet, ih, List.forall_mem_cons]

/-! ## Reading lines -/

/-- What one line says. -/
inductive Mark where
  | plain (text : String)
  | opens (heading : String)
  | closes

/-- The text behind an indentation. -/
def behindIndent? (depth : Nat) (line : String) : Option String :=
  (line.toList.dropPrefix? (indent depth).toList).map String.ofList

/-- The heading in front of an opening brace. -/
def heading? (text : String) : Option String :=
  (text.toList.dropSuffix? " \x7b".toList).map String.ofList

/-- What a line says on a level.  Braces stand nowhere but at the ends of groups. -/
def mark? (depth : Nat) (line : String) : Option Mark :=
  if line = "" then some (.plain "")
  else if 0 < depth ∧ line = indent (depth - 1) ++ "\x7d" then some .closes
  else do
    let text ← behindIndent? depth line
    match heading? text with
    | some heading => if IsQuiet heading then some (.opens heading) else none
    | none => if IsQuiet text then some (.plain text) else none

/-- What has been read: the headings that are open, the innermost first and each with
what stands in front of it, and the outlines behind them. -/
structure Reading where
  opened : List (String × List Outline)
  items : List Outline

/-- Go on with what a line says. -/
def Reading.mark (reading : Reading) : Mark → Option Reading
  | .plain text => some ⟨reading.opened, reading.items ++ [.line text]⟩
  | .opens heading => some ⟨(heading, reading.items) :: reading.opened, []⟩
  | .closes =>
      match reading.opened with
      | [] => none
      | (heading, before) :: outer => some ⟨outer, before ++ [.braced heading reading.items]⟩

/-- Read one more line. -/
def Reading.readLine (reading : Reading) (line : String) : Option Reading :=
  (mark? reading.opened.length line).bind reading.mark

/-- The outlines that a text consists of. -/
def outline? (text : String) : Option (List Outline) := do
  let reading ← (Text.split '\n' text).foldlM Reading.readLine ⟨[], []⟩
  if reading.opened.isEmpty then some reading.items else none

theorem behindIndent?_append (depth : Nat) (text : String) :
    behindIndent? depth (indent depth ++ text) = some text := by
  rw [behindIndent?, String.toList_append,
    List.dropPrefix?_append_of_beq _ (beq_self_eq_true _), Option.map_some, String.ofList_toList]

theorem heading?_append (heading : String) : heading? (heading ++ " \x7b") = some heading := by
  have cut : (heading ++ " \x7b").toList.dropSuffix? " \x7b".toList = some heading.toList :=
    List.dropSuffix?_eq_some_iff.2 ⟨_, String.toList_append, beq_self_eq_true _⟩
  rw [heading?, cut, Option.map_some, String.ofList_toList]

theorem heading?_eq_none {text : String} (unopened : '\x7b' ∉ text.toList) :
    heading? text = none := by
  rw [heading?, Option.map_eq_none_iff, Option.eq_none_iff_forall_ne_some]
  intro front cut
  obtain ⟨ending, text_eq, same⟩ := List.dropSuffix?_eq_some_iff.1 cut
  rw [beq_iff_eq.1 same] at text_eq
  exact unopened (text_eq ▸ by simp)

theorem mark?_plain {text : String} (quiet : IsQuiet text) (depth : Nat) :
    mark? depth (indented depth text) = some (.plain text) := by
  by_cases blank : text = ""
  · rw [blank]
    rfl
  · have some_line : indented depth text ≠ "" := by
      rw [indented_of_ne blank]
      simp [blank]
    have unclosed : ¬(0 < depth ∧ indented depth text = indent (depth - 1) ++ "\x7d") := by
      rintro ⟨-, same⟩
      have line_quiet := (isQuiet_indented quiet depth).unclosed
      rw [same] at line_quiet
      simp at line_quiet
    rw [mark?, if_neg some_line, if_neg unclosed, indented_of_ne blank, behindIndent?_append]
    simp [heading?_eq_none quiet.unopened, quiet]

theorem mark?_opens {heading : String} (quiet : IsQuiet heading) (depth : Nat) :
    mark? depth (indent depth ++ heading ++ " \x7b") = some (.opens heading) := by
  have some_line : indent depth ++ heading ++ " \x7b" ≠ "" := by simp
  have unclosed : ¬(0 < depth ∧
      indent depth ++ heading ++ " \x7b" = indent (depth - 1) ++ "\x7d") := by
    rintro ⟨-, same⟩
    have last := congrArg (fun line => line.toList.getLast?) same
    simp at last
  rw [mark?, if_neg some_line, if_neg unclosed, String.append_assoc, behindIndent?_append]
  simp [heading?_append, quiet]

theorem mark?_closes (depth : Nat) :
    mark? (depth + 1) (indent depth ++ "\x7d") = some .closes := by
  rw [mark?, if_neg (by simp), if_pos ⟨Nat.succ_pos depth, rfl⟩]

mutual

/-- An outline is read from its lines, whatever has been read before. -/
theorem foldlM_lines : ∀ (item : Outline), item.IsQuiet → ∀ reading : Reading,
    (item.lines reading.opened.length).foldlM Reading.readLine reading =
      some ⟨reading.opened, reading.items ++ [item]⟩
  | .line text, quiet, reading => by
      have read : reading.readLine (indented reading.opened.length text) =
          some ⟨reading.opened, reading.items ++ [.line text]⟩ := by
        rw [Reading.readLine, mark?_plain quiet, Option.bind_some, Reading.mark]
      rw [Outline.lines, List.foldlM_cons, read]
      rfl
  | .braced heading inside, quiet, reading => by
      -- The heading puts away what was read before, and its brace takes that back.
      have start : reading.readLine (indent reading.opened.length ++ heading ++ " \x7b") =
          some ⟨(heading, reading.items) :: reading.opened, []⟩ := by
        rw [Reading.readLine, mark?_opens quiet.1, Option.bind_some, Reading.mark]
      have within := foldlM_allLines inside quiet.2 ⟨(heading, reading.items) :: reading.opened, []⟩
      have stop : Reading.readLine ⟨(heading, reading.items) :: reading.opened, inside⟩
          (indent reading.opened.length ++ "\x7d") =
            some ⟨reading.opened, reading.items ++ [.braced heading inside]⟩ := by
        rw [Reading.readLine, List.length_cons, mark?_closes, Option.bind_some, Reading.mark]
      rw [List.length_cons, List.nil_append] at within
      simp only [Outline.lines, List.foldlM_cons, List.foldlM_append, start, within, stop,
        Option.bind_eq_bind, Option.bind_some, List.foldlM_nil, Option.pure_def]

theorem foldlM_allLines : ∀ (all : List Outline), areQuiet all → ∀ reading : Reading,
    (allLines reading.opened.length all).foldlM Reading.readLine reading =
      some ⟨reading.opened, reading.items ++ all⟩
  | [], _, reading => by rw [allLines, List.append_nil]; rfl
  | item :: others, quiet, reading => by
      have behind := foldlM_allLines others quiet.2 ⟨reading.opened, reading.items ++ [item]⟩
      rw [List.append_assoc, List.singleton_append] at behind
      rw [allLines, List.foldlM_append, foldlM_lines item quiet.1, Option.bind_eq_bind,
        Option.bind_some, behind]

end

mutual

theorem isLine_of_mem_lines (depth : Nat) : ∀ (item : Outline), item.IsQuiet →
    ∀ line ∈ item.lines depth, IsLine line
  | .line text, quiet, line, mem => by
      rw [Outline.lines, List.mem_singleton] at mem
      exact mem ▸ (isQuiet_indented quiet depth).isLine
  | .braced heading inside, quiet, line, mem => by
      have indent_line := (isQuiet_indent depth).isLine
      rw [Outline.lines, List.mem_cons, List.mem_append, List.mem_singleton] at mem
      rcases mem with rfl | mem | rfl
      · exact isLine_append.2 ⟨isLine_append.2 ⟨indent_line, quiet.1.isLine⟩, by decide⟩
      · exact isLine_of_mem_allLines (depth + 1) inside quiet.2 line mem
      · exact isLine_append.2 ⟨indent_line, by decide⟩

theorem isLine_of_mem_allLines (depth : Nat) : ∀ (all : List Outline), areQuiet all →
    ∀ line ∈ allLines depth all, IsLine line
  | [], _, line, mem => by cases mem
  | item :: others, quiet, line, mem => by
      rw [allLines, List.mem_append] at mem
      rcases mem with mem | mem
      · exact isLine_of_mem_lines depth item quiet.1 line mem
      · exact isLine_of_mem_allLines depth others quiet.2 line mem

end

/-- Quiet outlines are read from the text that they make, with the blank behind the last
line feed as a line of its own. -/
theorem outline?_textOf {items : List Outline} (quiet : areQuiet items)
    (some_line : allLines 0 items ≠ []) :
    outline? (textOf (allLines 0 items)) = some (items ++ [.line ""]) := by
  have lines := isLine_of_mem_allLines 0 items quiet
  have cut : Text.split '\n' (textOf (allLines 0 items)) = allLines 0 items ++ [""] := by
    obtain ⟨first, others, lines_eq⟩ := List.exists_cons_of_ne_nil some_line
    rw [lines_eq] at lines ⊢
    exact split_textOf lines
  have read := foldlM_allLines items quiet ⟨[], []⟩
  have blank : [""].foldlM Reading.readLine ⟨[], items⟩ = some ⟨[], items ++ [.line ""]⟩ := rfl
  simp only [List.length_nil, List.nil_append] at read
  have all : (allLines 0 items ++ [""]).foldlM Reading.readLine ⟨[], []⟩ =
      some ⟨[], items ++ [.line ""]⟩ := by
    rw [List.foldlM_append, read, Option.bind_eq_bind, Option.bind_some, blank]
  rw [outline?, cut, all]
  rfl

/-! ## Balanced braces -/

/-- How many braces are open behind a text. -/
def braceDepth (text : List Char) : Int :=
  text.count '\x7b' - text.count '\x7d'

/-- A text in which no brace closes that is not open, and none is left open. -/
structure IsBalanced (text : List Char) : Prop where
  never_below : ∀ count, 0 ≤ braceDepth (text.take count)
  ends : braceDepth text = 0

theorem braceDepth_append (text other : List Char) :
    braceDepth (text ++ other) = braceDepth text + braceDepth other := by
  simp only [braceDepth, List.count_append]
  omega

namespace IsBalanced

variable {text other : List Char}

theorem append (first : IsBalanced text) (second : IsBalanced other) :
    IsBalanced (text ++ other) where
  never_below count := by
    rw [List.take_append, braceDepth_append]
    exact Int.add_nonneg (first.never_below _) (second.never_below _)
  ends := by rw [braceDepth_append, first.ends, second.ends, Int.add_zero]

theorem of_unbraced (unopened : '\x7b' ∉ text) (unclosed : '\x7d' ∉ text) : IsBalanced text := by
  have level : ∀ part : List Char, part.Sublist text → braceDepth part = 0 := by
    intro part among
    rw [braceDepth, List.count_eq_zero.2 fun mem => unopened (among.subset mem),
      List.count_eq_zero.2 fun mem => unclosed (among.subset mem)]
    rfl
  exact ⟨fun count => Int.le_of_eq (level _ (List.take_sublist count text)).symm,
    level text (List.Sublist.refl text)⟩

theorem of_isQuiet {text : String} (quiet : IsQuiet text) : IsBalanced text.toList :=
  of_unbraced quiet.unopened quiet.unclosed

/-- A pair of braces around a balanced text. -/
theorem braced (inside : IsBalanced text) : IsBalanced ('\x7b' :: (text ++ ['\x7d'])) where
  never_below count := by
    cases count with
    | zero => exact Int.le_refl 0
    | succ count =>
        have within := inside.never_below count
        have closing : ∀ left, -1 ≤ braceDepth (['\x7d'].take left) := by
          intro left
          cases left <;> simp [braceDepth]
        have opening : braceDepth ['\x7b'] = 1 := rfl
        rw [List.take_succ_cons, List.take_append, ← List.singleton_append, braceDepth_append,
          braceDepth_append, opening]
        have := closing (count - text.length)
        omega
  ends := by
    have opening : braceDepth ['\x7b'] = 1 := rfl
    have closing : braceDepth ['\x7d'] = -1 := rfl
    rw [← List.singleton_append, braceDepth_append, braceDepth_append, inside.ends, opening,
      closing]
    rfl

end IsBalanced

/-- The characters of lines, with a line feed behind each. -/
def charsOf (lines : List String) : List Char :=
  lines.flatMap fun line => line.toList ++ ['\n']

theorem toList_textOf {lines : List String} (some_line : lines ≠ []) :
    (textOf lines).toList = charsOf lines := by
  induction lines with
  | nil => exact absurd rfl some_line
  | cons line rest ih =>
      cases rest with
      | nil => simp [textOf, charsOf]
      | cons next rest =>
          have behind := ih (by simp)
          simp only [textOf, String.intercalate_cons_cons, String.toList_append] at behind ⊢
          rw [List.append_assoc, List.append_assoc, behind]
          simp [charsOf]

theorem charsOf_append (lines others : List String) :
    charsOf (lines ++ others) = charsOf lines ++ charsOf others :=
  List.flatMap_append

theorem charsOf_singleton (line : String) : charsOf [line] = line.toList ++ ['\n'] :=
  List.flatMap_singleton ..

mutual

theorem isBalanced_lines (depth : Nat) : ∀ (item : Outline), item.IsQuiet →
    IsBalanced (charsOf (item.lines depth))
  | .line text, quiet => by
      rw [Outline.lines, charsOf_singleton]
      exact (IsBalanced.of_isQuiet (isQuiet_indented quiet depth)).append
        (.of_unbraced (by decide) (by decide))
  | .braced heading inside, quiet => by
      have feed : IsBalanced ['\n'] := .of_unbraced (by decide) (by decide)
      have within := (feed.append (isBalanced_allLines (depth + 1) inside quiet.2)).append
        (.of_isQuiet (isQuiet_indent depth))
      have front : IsQuiet (indent depth ++ heading ++ " ") :=
        isQuiet_append.2 ⟨isQuiet_append.2 ⟨isQuiet_indent depth, quiet.1⟩, by decide⟩
      have whole := ((IsBalanced.of_isQuiet front).append within.braced).append feed
      have chars : charsOf ((Outline.braced heading inside).lines depth) =
          (indent depth ++ heading ++ " ").toList ++
            '\x7b' :: (['\n'] ++ charsOf (allLines (depth + 1) inside) ++
              (indent depth).toList ++ ['\x7d']) ++ ['\n'] := by
        rw [Outline.lines, ← List.singleton_append, charsOf_append, charsOf_append,
          charsOf_singleton, charsOf_singleton]
        simp
      rw [chars]
      exact whole

theorem isBalanced_allLines (depth : Nat) : ∀ (all : List Outline), areQuiet all →
    IsBalanced (charsOf (allLines depth all))
  | [], _ => by
      rw [allLines]
      exact .of_unbraced (by decide) (by decide)
  | item :: others, quiet => by
      rw [allLines, charsOf_append]
      exact (isBalanced_lines depth item quiet.1).append (isBalanced_allLines depth others quiet.2)

end

end JavaUml.Diagram
