import JavaUml.Proofs.Java.TypeNames
import Mathlib.Data.List.Basic

/-!
# Arguments inside of a path

Any segment of a path may have type arguments, as in `Outer<A>.Inner<B>`.  The text of a
type is cut at the first `<` and the last `>` all the same.  With one list of arguments
these two belong together, and every name that is found is a path of words.  With two
lists they do not: the last argument of the first list stands in front of a `>` that
nothing opens, and a name is found with that sign in it.

So the names found in the text of a type are paths exactly if the type is tidy: no path in
it, at any depth, has two lists of arguments.
-/

namespace JavaUml.Java

open JavaUml.Text

namespace Segment

def name : Segment → Word
  | .mk name _ => name

def arguments : Segment → List TypeArgument
  | .mk _ arguments => arguments

/-- The texts of the arguments of a segment. -/
def pieces (segment : Segment) : List (List Char) :=
  segment.arguments.map fun argument => argument.text.toList

/-- The characters of the name of a segment. -/
def letters (segment : Segment) : List Char :=
  segment.name.text.toList

end Segment

/-- A type whose paths are made of plain words.  Any segment may have arguments. -/
inductive TypeRef.IsWorded : TypeRef → Prop
  | mk {path : List Segment} {dimensions : Nat} (path_ne_nil : path ≠ [])
      (words : ∀ segment ∈ path, segment.name.IsPlain)
      (inside : ∀ segment ∈ path, ∀ argument ∈ segment.arguments,
        ∀ type ∈ argument.type?, IsWorded type) : IsWorded (.mk path dimensions)

/-- A type in which no path has more than one list of arguments. -/
inductive TypeRef.IsTidy : TypeRef → Prop
  | mk {path : List Segment} {dimensions : Nat}
      (single : path.countP (fun segment => !segment.arguments.isEmpty) ≤ 1)
      (inside : ∀ segment ∈ path, ∀ argument ∈ segment.arguments,
        ∀ type ∈ argument.type?, IsTidy type) : IsTidy (.mk path dimensions)

/-- One or more names with dots between them.  No name has a blank in it or a sign that
has a meaning in the text of a type. -/
def IsDottedPath (name : String) : Prop :=
  ∃ names, TypeText.IsPath name.toList names

namespace TypeText

/-! ## Dots behind a type -/

theorem eraseBrackets_append_dots (text : List Char) :
    eraseBrackets (text ++ ['.', '.', '.']) = eraseBrackets text ++ ['.', '.', '.'] := by
  fun_induction eraseBrackets text with
  | case1 rest ih => exact ih
  | case2 c rest apart ih =>
      rw [List.cons_append, eraseBrackets, ih, List.cons_append]
      intro others opens same
      cases rest with
      | nil => cases same
      | cons next rest =>
          cases same
          exact apart rest opens rfl
  | case3 => rfl

/-- An ellipsis at the end does not change how the dots in front of it are taken
together. -/
theorem eraseEllipses_append_dots (text : List Char) :
    eraseEllipses (text ++ ['.', '.', '.']) = eraseEllipses text := by
  fun_induction eraseEllipses text with
  | case1 rest ih => exact ih
  | case2 c rest apart ih =>
      match rest with
      | [] => by_cases dot : c = '.' <;> simp [eraseEllipses, dot]
      | [next] =>
          by_cases dot : c = '.' <;> by_cases next_dot : next = '.' <;> simp_all [eraseEllipses]
      | next :: third :: rest =>
          rw [List.cons_append, eraseEllipses, ih]
          intro others dot same
          cases same
          exact apart rest dot rfl
  | case3 => rfl

/-- A text has no opening bracket, or it is the text before the first one and the rest. -/
theorem quiet_or_opens (text : List Char) :
    (∀ c ∈ text, (c != '<') = true) ∨
      ∃ front rest, text = front ++ '<' :: rest ∧ ∀ c ∈ front, (c != '<') = true := by
  cases opened : text.find? (· == '<') with
  | none => exact .inl (by simpa [bne] using List.find?_eq_none.1 opened)
  | some sign =>
      obtain ⟨found, front, rest, text_eq, quiet⟩ := List.find?_eq_some_iff_append.1 opened
      rw [beq_iff_eq.1 found] at text_eq
      exact .inr ⟨front, rest, text_eq, quiet⟩

theorem base_append_dots (text : List Char) : base (text ++ ['.', '.', '.']) = base text := by
  unfold base beforeFirst
  rcases quiet_or_opens text with quiet | ⟨front, rest, rfl, quiet⟩
  · rw [List.takeWhile_append_of_pos quiet, List.takeWhile_eq_self_iff.2 quiet]
    change trim (eraseEllipses (eraseBrackets (text ++ ['.', '.', '.']))) = _
    rw [eraseBrackets_append_dots, eraseEllipses_append_dots]
  · rw [List.append_assoc, List.takeWhile_append_of_pos quiet, List.takeWhile_append_of_pos quiet,
      List.cons_append, List.takeWhile_cons_of_neg (by decide),
      List.takeWhile_cons_of_neg (by decide)]

theorem inner?_append_dots (text : List Char) : inner? (text ++ ['.', '.', '.']) = inner? text := by
  have closing (rest : List Char) :
      beforeLast? '>' (rest ++ ['.', '.', '.']) = beforeLast? '>' rest := by
    rw [beforeLast?, afterFirst?, List.reverse_append]
    rfl
  unfold inner? afterFirst?
  rcases quiet_or_opens text with quiet | ⟨front, rest, rfl, quiet⟩
  · rw [List.dropWhile_append_of_pos quiet, List.dropWhile_eq_nil_iff.2 quiet]
    rfl
  · rw [List.append_assoc, List.dropWhile_append_of_pos quiet, List.dropWhile_append_of_pos quiet,
      List.cons_append, List.dropWhile_cons_of_neg (by decide),
      List.dropWhile_cons_of_neg (by decide)]
    exact closing rest

/-- The dots of a last parameter make no difference to the names, whatever the text. -/
theorem names_append_dots (text : List Char) : names (text ++ ['.', '.', '.']) = names text := by
  rw [names_eq_flatMap, names_eq_flatMap, ownName, ownName, arguments, arguments,
    base_append_dots, inner?_append_dots]

/-! ## A closing bracket that nothing opens -/

/-- Some name in a text has a closing bracket in it. -/
def IsSpoiled (text : List Char) : Prop :=
  ∃ name ∈ names text, '>' ∈ name

theorem isSpoiled_of_mem_arguments {text argument : List Char} (mem : argument ∈ arguments text)
    (spoiled : IsSpoiled argument) : IsSpoiled text := by
  obtain ⟨name, found, closing⟩ := spoiled
  refine ⟨name, ?_, closing⟩
  rw [names_eq_flatMap]
  exact List.mem_append_right _ (List.mem_flatMap.2 ⟨argument, mem, found⟩)

/-- White space at the end may be dropped behind a closing bracket, and nothing else. -/
theorem exists_trim_eq {front : List Char} (starts : ∀ c ∈ front.head?, isBlank c = false)
    (rest : List Char) :
    ∃ others, trim (front ++ '>' :: rest) = front ++ '>' :: others ∧
      ∀ c ∈ ('>' :: others).getLast?, isBlank c = false := by
  have left : trimLeft (front ++ '>' :: rest) = front ++ '>' :: rest := by
    cases front with
    | nil => rfl
    | cons c front =>
        rw [trimLeft, List.cons_append, List.dropWhile_cons_of_neg (by simp [starts c rfl])]
  have right : trimRight (front ++ '>' :: rest) = front ++ '>' :: trimRight rest := by
    have stays : ('>' :: front.reverse).dropWhile isBlank = '>' :: front.reverse := rfl
    rw [trimRight, trimRight, List.reverse_append, List.reverse_cons, List.append_assoc,
      List.singleton_append, List.dropWhile_append, stays]
    split
    · rename_i empty
      rw [List.isEmpty_iff.1 empty]
      simp
    · simp
  have trimmed : trim (front ++ '>' :: rest) = front ++ '>' :: trimRight rest := by
    rw [trim, left, right]
  refine ⟨trimRight rest, trimmed, fun c mem => ?_⟩
  rw [← List.getLast?_append_cons front, ← trimmed] at mem
  exact isBlank_of_mem_getLast_trim mem

/-- The base of a text is found as a name. -/
theorem isSpoiled_of_base {text front others : List Char}
    (base_eq : base text = front ++ '>' :: others) (starts : front.head? ≠ some '?') :
    IsSpoiled text := by
  have own : ownName text = [front ++ '>' :: others] := by
    unfold ownName
    rw [base_eq]
    split
    · rename_i empty
      simp at empty
    · rename_i same
      cases front with
      | nil => cases same
      | cons c front =>
          cases same
          exact absurd rfl starts
    · rfl
  refine ⟨front ++ '>' :: others, ?_, by simp⟩
  rw [names_eq_flatMap, own]
  simp

theorem eraseBrackets_closing (text : List Char) :
    eraseBrackets ('>' :: text) = '>' :: eraseBrackets text := by
  rw [eraseBrackets]
  rintro _ ⟨⟩

theorem eraseEllipses_closing (text : List Char) :
    eraseEllipses ('>' :: text) = '>' :: eraseEllipses text := by
  rw [eraseEllipses]
  rintro _ ⟨⟩

theorem isSpoiled_closing (rest : List Char) : IsSpoiled ('>' :: rest) := by
  obtain ⟨others, trimmed, _⟩ := @exists_trim_eq [] (by simp)
    (eraseEllipses (eraseBrackets (beforeFirst '<' rest)))
  refine @isSpoiled_of_base _ [] others ?_ (by simp)
  rw [base, beforeFirst, List.takeWhile_cons_of_pos (by decide), eraseBrackets_closing,
    eraseEllipses_closing]
  exact trimmed

theorem IsArgumentText.closing {text others : List Char} (isText : IsArgumentText text)
    (ends : ∀ c ∈ ('>' :: others).getLast?, isBlank c = false) :
    IsArgumentText (text ++ '>' :: others) where
  starts := by
    obtain ⟨c, head, named⟩ := isText.starts
    exact ⟨c, by simp [Option.mem_def.1 head], named⟩
  ends := List.getLast?_append_cons text _ _ ▸ ends
  stops := by
    have stops := isText.stops
    rw [List.dropWhile_append]
    split
    · rw [List.dropWhile_cons_of_neg (by decide)]
      simp
    · rename_i some_left
      obtain ⟨c, rest, same⟩ := List.exists_cons_of_ne_nil (mt List.isEmpty_iff.2 some_left)
      rw [same] at stops ⊢
      exact stops

/-- Where cutting takes an argument for more than it is, up to white space at its ends. -/
theorem exists_bound_eq {front : List Char} (starts : ∀ c ∈ front.head?, isBlank c = false)
    (rest : List Char) :
    ∃ others, bound (front ++ '>' :: rest) = bound (front ++ '>' :: others) ∧
      ∀ c ∈ ('>' :: others).getLast?, isBlank c = false := by
  obtain ⟨others, trimmed, ends⟩ := exists_trim_eq starts rest
  refine ⟨others, ?_, ends⟩
  have again : trim (front ++ '>' :: others) = front ++ '>' :: others := by
    refine trim_eq_self (fun c mem => ?_) (List.getLast?_append_cons front _ _ ▸ ends)
    cases front with
    | nil =>
        cases mem
        decide
    | cons first front => exact starts c mem
  rw [bound, bound, trimmed, again]

/-- The last piece in front of a closing bracket that nothing opens goes on behind it. -/
theorem exists_mem_splitTop {pieces : List (List Char)} (some_left : pieces ≠ [])
    (sealed : ∀ piece ∈ pieces, IsSealedFrom 0 piece) (rest : List Char) :
    ∃ last ∈ pieces, ∃ others,
      ∃ piece ∈ splitTop (List.intercalate [',', ' '] pieces ++ '>' :: rest),
        bound piece = bound (last ++ '>' :: others) := by
  unfold splitTop
  induction pieces with
  | nil => exact absurd rfl some_left
  | cons first pieces ih =>
      cases pieces with
      | nil =>
          obtain ⟨others, more, goes_on⟩ : ∃ others more,
              splitFrom 0 ('>' :: rest) = ('>' :: others) :: more := by
            rw [splitFrom, if_neg (by decide), if_pos rfl]
            cases splitFrom (0 - 1) rest with
            | nil => exact ⟨[], [], rfl⟩
            | cons others more => exact ⟨others, more, rfl⟩
          refine ⟨first, by simp, others, first ++ '>' :: others, ?_, rfl⟩
          rw [List.intercalate_singleton, sealed first (by simp) 0 (by decide), goes_on,
            foldr_consFirst]
          simp
      | cons next pieces =>
          obtain ⟨last, last_mem, others, piece, piece_mem, same⟩ :=
            ih (by simp) fun piece mem => sealed piece (by simp [mem])
          have cut : splitFrom 0
              (List.intercalate [',', ' '] (first :: next :: pieces) ++ '>' :: rest) =
                first :: consFirst ' '
                  (splitFrom 0 (List.intercalate [',', ' '] (next :: pieces) ++ '>' :: rest)) := by
            rw [List.intercalate_cons_cons, List.append_assoc, List.append_assoc,
              sealed first (by simp) 0 (by decide), splitFrom_comma, foldr_consFirst,
              List.append_nil]
          rw [cut]
          refine ⟨last, by simp [last_mem], others, ?_⟩
          generalize splitFrom 0
            (List.intercalate [',', ' '] (next :: pieces) ++ '>' :: rest) = found at piece_mem
          cases found with
          | nil => cases piece_mem
          | cons leading found =>
              rcases List.mem_cons.1 piece_mem with rfl | behind
              · exact ⟨' ' :: piece, by simp [consFirst], (bound_blank piece).trans same⟩
              · exact ⟨piece, by simp [consFirst, behind], same⟩

namespace IsPath

variable {own : List Char} {names : List (List Char)}

theorem isBlank_of_head? (path : IsPath own names) : ∀ c ∈ own.head?, isBlank c = false :=
  fun _ mem => path.isBlank_eq_false (List.mem_of_mem_head? mem)

theorem isSpoiled_plain (path : IsPath own names) (dimensions : Nat) (rest : List Char) :
    IsSpoiled (own ++ (brackets dimensions).toList ++ '>' :: rest) := by
  obtain ⟨others, trimmed, _⟩ := exists_trim_eq path.isBlank_of_head?
    (eraseEllipses (eraseBrackets (beforeFirst '<' rest)))
  have quiet : ∀ c ∈ own ++ (brackets dimensions).toList, (c != '<') = true := by
    refine List.forall_mem_append.2 ⟨path.passes, fun c mem => ?_⟩
    rcases mem_brackets mem with rfl | rfl <;> decide
  refine @isSpoiled_of_base _ own others ?_ ?_
  · rw [base, beforeFirst, List.takeWhile_append_of_pos quiet,
      List.takeWhile_cons_of_pos (by decide), List.append_assoc,
      eraseBrackets_append (path.not_mem (by decide) (by decide)), eraseBrackets_brackets,
      eraseBrackets_closing, path.eraseEllipses_eq, eraseEllipses_closing]
    exact trimmed
  · intro starts
    exact path.not_mem (by decide) (by decide) (List.mem_of_mem_head? starts)

/-- Behind the first arguments of a path no other list may be closed. -/
theorem isSpoiled_angled (path : IsPath own names) {pieces : List (List Char)}
    (some_left : pieces ≠ []) (sealed : ∀ piece ∈ pieces, IsSealedFrom 0 piece)
    (spoils : ∀ piece ∈ pieces, ∀ rest, IsSpoiled (bound (piece ++ '>' :: rest)))
    {tail : List Char} (closing : '>' ∈ tail) : IsSpoiled (own ++ angled pieces ++ tail) := by
  obtain ⟨first, others, rfl⟩ := List.exists_cons_of_ne_nil some_left
  obtain ⟨reversed, front, tail_eq, last⟩ :=
    List.eq_append_cons_of_mem (List.mem_reverse.2 closing)
  have tail_eq : tail = front.reverse ++ '>' :: reversed.reverse := by
    rw [← List.reverse_reverse tail, tail_eq]
    simp
  obtain ⟨argument, argument_mem, more, piece, piece_mem, same⟩ :=
    exists_mem_splitTop some_left sealed front.reverse
  refine isSpoiled_of_mem_arguments ?_ (spoils argument argument_mem more)
  have inside := path.inner?_eq
    (List.intercalate [',', ' '] (first :: others) ++ '>' :: front.reverse)
    (mt List.mem_reverse.1 last)
  have text_eq : own ++ angled (first :: others) ++ tail =
      own ++ '<' :: ((List.intercalate [',', ' '] (first :: others) ++ '>' :: front.reverse) ++
        '>' :: reversed.reverse) := by
    simp [angled, tail_eq]
  rw [arguments, text_eq, inside, ← same]
  exact List.mem_map_of_mem piece_mem

end IsPath

theorem IsTypeText.isTail_dot {text : List Char} (isType : IsTypeText text) :
    IsTail ('.' :: text) where
  ends c mem := by
    obtain ⟨first, head, _⟩ := isType.starts
    cases text with
    | nil => cases head
    | cons _ rest => exact isType.ends c (by simpa [List.getLast?_cons_cons] using mem)
  stops := by
    rw [List.dropWhile_cons_of_neg (by decide)]
    simp
  sealed := by
    have dot : IsSealedFrom 0 ['.'] := .of_quiet (by simp)
    exact dot.append isType.sealed

theorem intercalate_dot_cons (first : List Char) (others : List (List Char)) :
    List.intercalate ['.'] (first :: others) = first ++ others.flatMap fun piece => '.' :: piece := by
  induction others generalizing first with
  | nil => simp
  | cons next others ih => rw [List.intercalate_cons_cons, ih]; simp

end TypeText

open TypeText

/-! ## The text of a path -/

theorem Segment.toList_text (segment : Segment) :
    segment.text.toList = segment.letters ++ angled segment.pieces := by
  obtain ⟨name, _ | ⟨first, others⟩⟩ := segment
  · simp [text, letters, pieces, Segment.name, arguments, angled]
  · have texts : argumentTexts others = others.map TypeArgument.text := by
      induction others with
      | nil => rfl
      | cons argument rest ih => rw [argumentTexts, ih, List.map_cons]
    simp [text, letters, pieces, Segment.name, arguments, angled, texts, Function.comp_def]

theorem segmentTexts_eq_map (path : List Segment) : segmentTexts path = path.map Segment.text := by
  induction path with
  | nil => rfl
  | cons segment rest ih => rw [segmentTexts, ih, List.map_cons]

/-- What stands behind the first segments of a path: the other segments and the array
brackets. -/
def textBehind (segments : List Segment) (dimensions : Nat) : List Char :=
  segments.flatMap (fun segment => '.' :: (segment.letters ++ angled segment.pieces)) ++
    (brackets dimensions).toList

/-- A path that is cut behind its first arguments, or behind its end if it has none. -/
structure IsCut (path front : List Segment) (segment : Segment) (behind : List Segment) :
    Prop where
  path_eq : path = front ++ segment :: behind
  bare : ∀ earlier ∈ front, earlier.arguments = []
  behind_eq : segment.arguments = [] → behind = []

theorem exists_isCut {path : List Segment} (path_ne_nil : path ≠ []) :
    ∃ front segment behind, IsCut path front segment behind := by
  cases found : path.find? fun segment => !segment.arguments.isEmpty with
  | none =>
      have bare := List.find?_eq_none.1 found
      refine ⟨path.dropLast, path.getLast path_ne_nil, [],
        (List.dropLast_concat_getLast path_ne_nil).symm, fun earlier mem => ?_, fun _ => rfl⟩
      simpa using bare earlier ((List.dropLast_sublist path).subset mem)
  | some segment =>
      obtain ⟨opens, front, behind, path_eq, bare⟩ := List.find?_eq_some_iff_append.1 found
      refine ⟨front, segment, behind, path_eq, fun earlier mem => ?_, fun none_left => ?_⟩
      · simpa using bare earlier mem
      · simp [none_left] at opens

namespace IsCut

variable {path front behind : List Segment} {segment : Segment}

/-- The names of a path up to the cut. -/
theorem toList_text (cut : IsCut path front segment behind) (dimensions : Nat) :
    (TypeRef.mk path dimensions).text.toList =
      List.intercalate ['.'] ((front ++ [segment]).map Segment.letters) ++
        angled segment.pieces ++ textBehind behind dimensions := by
  have plain : front.map (fun earlier => earlier.text.toList) = front.map Segment.letters := by
    refine List.map_congr_left fun earlier mem => ?_
    rw [earlier.toList_text, Segment.pieces, cut.bare earlier mem]
    simp [angled]
  have texts : (path.map Segment.text).map String.toList =
      front.map Segment.letters ++ (segment.letters ++ angled segment.pieces) ::
        behind.map fun later => later.letters ++ angled later.pieces := by
    rw [cut.path_eq, List.map_map, List.map_append, List.map_cons]
    refine congrArg₂ _ plain (congrArg₂ _ segment.toList_text ?_)
    exact List.map_congr_left fun later _ => later.toList_text
  rw [TypeRef.text, String.toList_append, segmentTexts_eq_map, String.toList_intercalate, texts]
  change List.intercalate ['.'] _ ++ _ = _
  cases front with
  | nil => simp [intercalate_dot_cons, textBehind, List.flatMap_map]
  | cons first front => simp [intercalate_dot_cons, textBehind, List.flatMap_map]

theorem mem_path (cut : IsCut path front segment behind) {other : Segment}
    (mem : other ∈ front ++ [segment] ∨ other ∈ behind) : other ∈ path := by
  rw [cut.path_eq]
  rcases mem with mem | mem
  · exact List.append_cons _ _ _ ▸ List.mem_append_left _ mem
  · exact List.append_cons _ _ _ ▸ List.mem_append_right _ mem

end IsCut

theorem isPath_letters {segments : List Segment} (segments_ne_nil : segments ≠ [])
    (words : ∀ segment ∈ segments, segment.name.IsPlain) :
    IsPath (List.intercalate ['.'] (segments.map Segment.letters))
      (segments.map Segment.letters) where
  names_ne_nil := by simpa using segments_ne_nil
  named := List.forall_mem_map.2 fun segment mem =>
    ⟨by simpa [Segment.letters] using segment.name.text_ne_empty, words segment mem⟩
  own_eq := rfl

theorem isTail_textBehind {segments : List Segment} (dimensions : Nat)
    (words : ∀ segment ∈ segments, segment.name.IsPlain)
    (sealed : ∀ segment ∈ segments, ∀ piece ∈ segment.pieces, IsSealedFrom 0 piece) :
    IsTail (textBehind segments dimensions) := by
  induction segments with
  | nil => exact isTail_brackets dimensions
  | cons segment rest ih =>
      have tail := ih (fun other mem => words other (by simp [mem]))
        (fun other mem => sealed other (by simp [mem]))
      have named := isPath_letters (List.cons_ne_nil segment [])
        (fun other mem => words other (by simp_all))
      have isType := named.isTypeText (sealed segment (by simp)) tail
      rw [List.map_singleton, List.intercalate_singleton] at isType
      simpa [textBehind] using isType.isTail_dot

/-! ## Names in the text of a type -/

theorem Segment.isSealed_of_mem_pieces {segment : Segment}
    (types : ∀ argument ∈ segment.arguments, ∀ type ∈ argument.type?,
      IsTypeText type.text.toList) :
    ∀ piece ∈ segment.pieces, IsSealedFrom 0 piece :=
  List.forall_mem_map.2 fun argument mem => argument.isSealed (types argument mem)

/-- An argument in front of a closing bracket that nothing opens. -/
theorem TypeArgument.isSpoiled_bound {argument : TypeArgument}
    (types : ∀ type ∈ argument.type?, IsTypeText type.text.toList)
    (spoils : ∀ type ∈ argument.type?, ∀ rest, IsSpoiled (type.text.toList ++ '>' :: rest))
    (rest : List Char) : IsSpoiled (bound (argument.text.toList ++ '>' :: rest)) := by
  cases argument with
  | wildcard =>
      obtain ⟨others, outer, _⟩ := @exists_trim_eq ['?'] (by rintro _ ⟨⟩; decide) rest
      obtain ⟨more, inner, _⟩ := @exists_trim_eq [] (by simp) others
      have kept : bound (wildcard.text.toList ++ '>' :: rest) = '>' :: more := by
        change bound (['?'] ++ '>' :: rest) = _
        rw [bound, outer]
        change dropWord "super ".toList (dropWord "extends ".toList (trim ([] ++ '>' :: others))) = _
        rw [inner]
        rfl
      rw [kept]
      exact isSpoiled_closing more
  | bounded kind type =>
      obtain ⟨others, same, ends⟩ := @exists_bound_eq (bounded kind type).text.toList
        (by rw [toList_text_bounded]; rintro _ ⟨⟩; decide) rest
      have isText := (types type rfl).closing ends
      have kept : bound ((bounded kind type).text.toList ++ '>' :: others) =
          type.text.toList ++ '>' :: others := by
        rw [toList_text_bounded]
        simpa using isText.bound_bounded kind
      rw [same, kept]
      exact spoils type rfl others
  | exactly type =>
      obtain ⟨c, head, named⟩ := (types type rfl).starts
      obtain ⟨others, same, ends⟩ := @exists_bound_eq type.text.toList
        (by rintro _ mem; cases head.symm.trans mem; exact isBlank_of_isNameChar named) rest
      have isText := (types type rfl).closing ends
      rw [text, same, isText.bound_eq]
      exact spoils type rfl others

namespace TypeRef.IsWorded

variable {type : TypeRef}

theorem isTypeText (worded : type.IsWorded) : IsTypeText type.text.toList := by
  induction worded with
  | @mk path dimensions path_ne_nil words _ ih =>
      obtain ⟨front, segment, behind, cut⟩ := exists_isCut path_ne_nil
      have sealed := fun other mem => Segment.isSealed_of_mem_pieces (ih other mem)
      have own := isPath_letters (List.concat_ne_nil segment front)
        fun other mem => words other (cut.mem_path (.inl mem))
      have tail := isTail_textBehind dimensions (fun other mem => words other (cut.mem_path (.inr mem)))
        fun other mem => sealed other (cut.mem_path (.inr mem))
      rw [cut.toList_text]
      exact own.isTypeText (sealed segment (cut.mem_path (.inl (by simp)))) tail

theorem isSpoiled (worded : type.IsWorded) :
    ∀ rest, IsSpoiled (type.text.toList ++ '>' :: rest) := by
  induction worded with
  | @mk path dimensions path_ne_nil words inside ih =>
      intro rest
      obtain ⟨front, segment, behind, cut⟩ := exists_isCut path_ne_nil
      have own := isPath_letters (List.concat_ne_nil segment front)
        fun other mem => words other (cut.mem_path (.inl mem))
      have segment_mem : segment ∈ path := cut.mem_path (.inl (by simp))
      rw [cut.toList_text]
      by_cases bare : segment.arguments = []
      · rw [cut.behind_eq bare, Segment.pieces, bare]
        simpa [angled, textBehind] using own.isSpoiled_plain dimensions rest
      · rw [List.append_assoc]
        refine own.isSpoiled_angled (by simpa [Segment.pieces] using bare) ?_ ?_ (by simp)
        · exact Segment.isSealed_of_mem_pieces fun argument mem type named =>
            (inside segment segment_mem argument mem type named).isTypeText
        · refine List.forall_mem_map.2 fun argument mem => ?_
          exact argument.isSpoiled_bound
            (fun type named => (inside segment segment_mem argument mem type named).isTypeText)
            (ih segment segment_mem argument mem)

end TypeRef.IsWorded

/-! ## Tidy types -/

theorem closing_mem_textBehind_iff {segments : List Segment} (dimensions : Nat)
    (words : ∀ segment ∈ segments, segment.name.IsPlain) :
    '>' ∈ textBehind segments dimensions ↔ ∃ segment ∈ segments, segment.arguments ≠ [] := by
  have closed : ∀ segment : Segment, '>' ∈ angled segment.pieces ↔ segment.arguments ≠ [] := by
    intro segment
    unfold Segment.pieces
    cases segment.arguments <;> simp [angled]
  have quiet : '>' ∉ (brackets dimensions).toList := by
    intro mem
    rcases mem_brackets mem with impossible | impossible <;> cases impossible
  have letters : ∀ segment ∈ segments, '>' ∉ segment.letters := by
    intro segment mem impossible
    cases words segment mem '>' impossible
  rw [textBehind, List.mem_append, or_iff_left quiet, List.mem_flatMap]
  refine exists_congr fun segment => and_congr_right fun mem => ?_
  simp [letters segment mem, closed]

namespace IsCut

variable {path front behind : List Segment} {segment : Segment}

/-- Behind the cut of a tidy path there are no arguments. -/
theorem isTidy_iff (cut : IsCut path front segment behind) (dimensions : Nat) :
    (TypeRef.mk path dimensions).IsTidy ↔
      (∀ later ∈ behind, later.arguments = []) ∧
        ∀ argument ∈ segment.arguments, ∀ type ∈ argument.type?, type.IsTidy := by
  have segment_mem : segment ∈ path := cut.mem_path (.inl (by simp))
  have earlier : front.countP (fun other => !other.arguments.isEmpty) = 0 := by
    rw [List.countP_eq_zero]
    intro other mem
    simp [cut.bare other mem]
  constructor
  · rintro ⟨single, inside⟩
    refine ⟨fun later mem => ?_, inside segment segment_mem⟩
    by_cases bare : segment.arguments = []
    · rw [cut.behind_eq bare] at mem
      cases mem
    · rw [cut.path_eq, List.countP_append, earlier, List.countP_cons_of_pos (by simpa using bare)]
        at single
      have none_left : behind.countP (fun other => !other.arguments.isEmpty) = 0 := by omega
      simpa using List.countP_eq_zero.1 none_left later mem
  · rintro ⟨closed, inside⟩
    have later : behind.countP (fun other => !other.arguments.isEmpty) = 0 := by
      rw [List.countP_eq_zero]
      intro other mem
      simp [closed other mem]
    constructor
    · rw [cut.path_eq, List.countP_append, earlier, List.countP_cons, later]
      split <;> omega
    · intro other mem argument argument_mem
      rw [cut.path_eq, List.mem_append, List.mem_cons] at mem
      rcases mem with mem | rfl | mem
      · rw [cut.bare other mem] at argument_mem
        cases argument_mem
      · exact inside argument argument_mem
      · rw [closed other mem] at argument_mem
        cases argument_mem

/-- Where all brackets belong together, the names are the path up to the cut and those of
the arguments. -/
theorem names_eq (cut : IsCut path front segment behind) (dimensions : Nat)
    (words : ∀ other ∈ path, other.name.IsPlain)
    (types : ∀ argument ∈ segment.arguments, ∀ type ∈ argument.type?,
      IsTypeText type.text.toList)
    (closed : ∀ later ∈ behind, later.arguments = []) :
    TypeText.names (TypeRef.mk path dimensions).text.toList =
      List.intercalate ['.'] ((front ++ [segment]).map Segment.letters) ::
        segment.arguments.flatMap fun argument =>
          argument.type?.toList.flatMap fun type => TypeText.names type.text.toList := by
  have own := isPath_letters (List.concat_ne_nil segment front)
    fun other mem => words other (cut.mem_path (.inl mem))
  have sealed := Segment.isSealed_of_mem_pieces types
  have quiet : '>' ∉ textBehind behind dimensions := by
    rw [closing_mem_textBehind_iff dimensions fun other mem => words other (cut.mem_path (.inr mem))]
    rintro ⟨later, mem, some_left⟩
    exact some_left (closed later mem)
  have arguments_eq : segment.pieces.flatMap (fun piece => TypeText.names (bound piece)) =
      segment.arguments.flatMap fun argument =>
        argument.type?.toList.flatMap fun type => TypeText.names type.text.toList := by
    rw [Segment.pieces, List.flatMap_map]
    exact List.flatMap_congr fun argument mem => TypeArgument.names_bound (types argument mem)
  rw [cut.toList_text, ← arguments_eq]
  cases pieces_eq : segment.pieces with
  | nil =>
      have bare : segment.arguments = [] := by simpa [Segment.pieces] using pieces_eq
      rw [cut.behind_eq bare]
      simpa [angled, textBehind, dimensionsAndDots] using own.names_plain dimensions false
  | cons first others =>
      rw [pieces_eq] at sealed
      simpa [angled] using own.names_angled sealed quiet

end IsCut

/-- A tidy type has paths for names, and any other a name that is none. -/
theorem TypeRef.IsWorded.tidy_or_spoiled {type : TypeRef} (worded : type.IsWorded) :
    type.IsTidy ∧ (∀ name ∈ TypeText.names type.text.toList, ∃ names, IsPath name names) ∨
      ¬ type.IsTidy ∧ IsSpoiled type.text.toList := by
  induction worded with
  | @mk path dimensions path_ne_nil words inside ih =>
      obtain ⟨front, segment, behind, cut⟩ := exists_isCut path_ne_nil
      have own := isPath_letters (List.concat_ne_nil segment front)
        fun other mem => words other (cut.mem_path (.inl mem))
      have segment_mem : segment ∈ path := cut.mem_path (.inl (by simp))
      replace inside := inside segment segment_mem
      replace ih := ih segment segment_mem
      have types : ∀ argument ∈ segment.arguments, ∀ type ∈ argument.type?,
          IsTypeText type.text.toList := fun argument mem type named =>
        (inside argument mem type named).isTypeText
      rw [cut.isTidy_iff]
      by_cases closed : ∀ later ∈ behind, later.arguments = []
      · have names_eq := cut.names_eq dimensions words types closed
        by_cases tidy : ∀ argument ∈ segment.arguments, ∀ type ∈ argument.type?, type.IsTidy
        · refine .inl ⟨⟨closed, tidy⟩, fun name found => ?_⟩
          rw [names_eq, List.mem_cons, List.mem_flatMap] at found
          rcases found with rfl | ⟨argument, mem, found⟩
          · exact ⟨_, own⟩
          · obtain ⟨type, named, found⟩ := List.mem_flatMap.1 found
            rw [Option.mem_toList] at named
            rcases ih argument mem type named with ⟨_, paths⟩ | ⟨untidy, _⟩
            · exact paths name found
            · exact absurd (tidy argument mem type named) untidy
        · refine .inr ⟨fun both => tidy both.2, ?_⟩
          push Not at tidy
          obtain ⟨argument, mem, type, named, untidy⟩ := tidy
          rcases ih argument mem type named with ⟨tidy, _⟩ | ⟨_, name, found, closing⟩
          · exact absurd tidy untidy
          · refine ⟨name, ?_, closing⟩
            rw [names_eq]
            exact List.mem_cons_of_mem _ (List.mem_flatMap.2 ⟨argument, mem,
              List.mem_flatMap.2 ⟨type, Option.mem_toList.2 named, found⟩⟩)
      · refine .inr ⟨fun both => closed both.1, ?_⟩
        push Not at closed
        have opens : segment.pieces ≠ [] := by
          intro none_left
          obtain ⟨later, mem, _⟩ := closed
          rw [cut.behind_eq (by simpa [Segment.pieces] using none_left)] at mem
          cases mem
        rw [cut.toList_text]
        refine own.isSpoiled_angled opens (Segment.isSealed_of_mem_pieces types) ?_ ?_
        · refine List.forall_mem_map.2 fun argument mem => ?_
          exact argument.isSpoiled_bound (types argument mem) fun type named =>
            (inside argument mem type named).isSpoiled
        · exact (closing_mem_textBehind_iff dimensions fun other mem =>
            words other (cut.mem_path (.inr mem))).2 closed

/-- The dots of a last parameter make no difference to the names in a text. -/
theorem typeNames_dots (text : String) : typeNames (text ++ "...") = typeNames text := by
  rw [typeNames, typeNames, String.toList_append]
  exact congrArg _ (names_append_dots text.toList)

theorem forall_isDottedPath_iff {type : TypeRef} (worded : type.IsWorded) :
    (∀ name ∈ typeNames type.text, IsDottedPath name) ↔ type.IsTidy := by
  have found_iff : (∀ name ∈ typeNames type.text, IsDottedPath name) ↔
      ∀ name ∈ TypeText.names type.text.toList, ∃ names, IsPath name names := by
    simp [typeNames, IsDottedPath]
  rw [found_iff]
  rcases worded.tidy_or_spoiled with ⟨tidy, paths⟩ | ⟨untidy, name, found, closing⟩
  · exact iff_of_true paths tidy
  · refine iff_of_false (fun paths => ?_) untidy
    obtain ⟨names, path⟩ := paths name found
    exact path.not_mem (by decide) (by decide) closing

/-! ## Types inside of a type -/

/-- A type that stands in another one, at any depth, or is the same. -/
inductive TypeRef.IsPart (part : TypeRef) : TypeRef → Prop
  | whole : IsPart part part
  | inside {path : List Segment} {dimensions : Nat} {segment : Segment} {argument : TypeArgument}
      {type : TypeRef} (segment_mem : segment ∈ path) (argument_mem : argument ∈ segment.arguments)
      (named : type ∈ argument.type?) (isPart : IsPart part type) : IsPart part (.mk path dimensions)

/-- The names of the segments of a type with dots between them. -/
def TypeRef.pathName : TypeRef → String
  | .mk path _ => ".".intercalate (segmentNames path)

theorem namesIn_eq_flatMap (arguments : List TypeArgument) :
    namesIn arguments = arguments.flatMap TypeArgument.names := by
  induction arguments with
  | nil => rfl
  | cons argument rest ih => rw [namesIn, ih, List.flatMap_cons]

theorem namesBehind_eq_flatMap (path : List Segment) :
    namesBehind path = path.flatMap fun segment => namesIn segment.arguments := by
  induction path with
  | nil => rfl
  | cons segment rest ih =>
      obtain ⟨name, arguments⟩ := segment
      rw [namesBehind, ih, List.flatMap_cons]
      rfl

/-- The path of every part of a type is among its names. -/
theorem TypeRef.IsPart.pathName_mem {part type : TypeRef} (isPart : part.IsPart type) :
    part.pathName ∈ type.names := by
  induction isPart with
  | whole =>
      obtain ⟨path, dimensions⟩ := part
      exact List.mem_cons_self
  | @inside path dimensions segment argument type segment_mem argument_mem named _ ih =>
      have in_argument : part.pathName ∈ argument.names := by
        cases argument with
        | wildcard => cases named
        | bounded | exactly =>
            cases named
            exact ih
      rw [TypeRef.names, namesBehind_eq_flatMap]
      refine List.mem_cons_of_mem _ (List.mem_flatMap.2 ⟨segment, segment_mem, ?_⟩)
      rw [namesIn_eq_flatMap]
      exact List.mem_flatMap.2 ⟨argument, argument_mem, in_argument⟩

theorem TypeRef.IsPart.pathName_mem_typeNames {part type : TypeRef} (isPart : part.IsPart type)
    (plain : type.IsPlain) : part.pathName ∈ typeNames type.text := by
  rw [typeNames, (type.isFound plain).names_alone, List.map_map, List.mem_map]
  exact ⟨part.pathName, isPart.pathName_mem, String.ofList_toList⟩

end JavaUml.Java
