import JavaUml.Java.TypeRef
import JavaUml.Java.TypeText
import JavaUml.Proofs.Text.Trimming
import Mathlib.Data.List.TakeWhile

/-!
# The names in the text of a type

The text of a type is taken apart without a parser.  For the text of a tree this finds
the names of the tree in order: the name of the type itself and then those in its
arguments, from left to right.

A text is sealed if cutting at commas passes over it.  What stands in angle brackets is
sealed, whatever commas it has outside of inner ones, so each argument comes out whole,
however deep the arguments are nested in it.
-/

namespace JavaUml.Java

open JavaUml.Text

namespace TypeText

/-- Characters with a meaning of their own in the text of a type. -/
def signs : List Char :=
  ['<', '>', ',', '.', '?', '[', ']']

/-- Whether a character may stand in a name. -/
def isNameChar (c : Char) : Bool :=
  !isBlank c && !signs.contains c

/-- A name with no dot in it. -/
def IsName (name : List Char) : Prop :=
  name ≠ [] ∧ ∀ c ∈ name, isNameChar c = true

theorem isBlank_of_isNameChar {c : Char} (named : isNameChar c = true) : isBlank c = false := by
  simp only [isNameChar, Bool.and_eq_true, Bool.not_eq_true'] at named
  exact named.1

theorem ne_of_isNameChar {c sign : Char} (named : isNameChar c = true)
    (known : isNameChar sign = false) : c ≠ sign := by
  rintro rfl
  rw [known] at named
  cases named

/-! ## Cutting -/

/-- A text that cutting passes over from some depth on. -/
def IsSealedFrom (least : Int) (text : List Char) : Prop :=
  ∀ depth, least ≤ depth → ∀ rest,
    splitFrom depth (text ++ rest) = text.foldr consFirst (splitFrom depth rest)

namespace IsSealedFrom

variable {least : Int} {text other : List Char}

theorem append (first : IsSealedFrom least text) (second : IsSealedFrom least other) :
    IsSealedFrom least (text ++ other) := by
  intro depth deep rest
  rw [List.append_assoc, first depth deep, second depth deep, List.foldr_append]

theorem deeper (sealed : IsSealedFrom least text) {more : Int} (le : least ≤ more) :
    IsSealedFrom more text :=
  fun depth deep => sealed depth (Int.le_trans le deep)

theorem of_quiet (quiet : ∀ c ∈ text, c ≠ '<' ∧ c ≠ '>' ∧ c ≠ ',') :
    IsSealedFrom least text := by
  intro depth deep rest
  induction text with
  | nil => rfl
  | cons c text ih =>
      obtain ⟨opens, closes, cuts⟩ := quiet c (by simp)
      rw [List.cons_append, splitFrom, if_neg opens, if_neg closes, if_neg fun both => cuts both.1,
        ih fun other mem => quiet other (by simp [mem]), List.foldr_cons]

/-- Inside of angle brackets commas do not matter. -/
theorem comma : IsSealedFrom 1 [','] := by
  intro depth deep rest
  have inside : ¬(',' = ',' ∧ depth = 0) := by omega
  rw [List.singleton_append, splitFrom, if_neg (by decide), if_neg (by decide), if_neg inside]
  rfl

theorem bracketed (inside : IsSealedFrom 1 text) : IsSealedFrom 0 ('<' :: (text ++ ['>'])) := by
  intro depth deep rest
  rw [List.cons_append, splitFrom, if_pos rfl, List.append_assoc,
    inside (depth + 1) (by omega), List.singleton_append, splitFrom, if_neg (by decide),
    if_pos rfl, Int.add_sub_cancel, List.foldr_cons, List.foldr_append]
  rfl

theorem intercalate {pieces : List (List Char)} (sealed : ∀ piece ∈ pieces, IsSealedFrom 0 piece) :
    IsSealedFrom 1 (List.intercalate [',', ' '] pieces) := by
  induction pieces with
  | nil => exact .of_quiet (by simp)
  | cons piece rest ih =>
      have own := (sealed piece (by simp)).deeper (show (0 : Int) ≤ 1 by decide)
      cases rest with
      | nil => simpa using own
      | cons next rest =>
          have blank : IsSealedFrom 1 [' '] := .of_quiet (by simp)
          rw [List.intercalate_cons_cons]
          exact (own.append (comma.append blank)).append
            (ih fun other mem => sealed other (by simp [mem]))

end IsSealedFrom

theorem beforeLast?_append {sign : Char} {behind : List Char} (quiet : sign ∉ behind)
    {text : List Char} : beforeLast? sign (text ++ sign :: behind) = some text := by
  have passed : ∀ c ∈ behind.reverse, (c != sign) = true := by
    intro c mem
    rw [bne_iff_ne]
    rintro rfl
    exact quiet (List.mem_reverse.1 mem)
  rw [beforeLast?, afterFirst?, List.reverse_append, List.reverse_cons, List.append_assoc,
    List.dropWhile_append_of_pos passed, List.singleton_append,
    List.dropWhile_cons_of_neg (by simp)]
  exact congrArg some (List.reverse_reverse text)

theorem foldr_consFirst (text piece : List Char) (pieces : List (List Char)) :
    text.foldr consFirst (piece :: pieces) = (text ++ piece) :: pieces := by
  induction text with
  | nil => rfl
  | cons c text ih => rw [List.foldr_cons, ih, consFirst, List.cons_append]

theorem splitFrom_comma (text : List Char) :
    splitFrom 0 ([',', ' '] ++ text) = [] :: consFirst ' ' (splitFrom 0 text) := by
  rw [List.cons_append, splitFrom, if_neg (by decide), if_neg (by decide), if_pos ⟨rfl, rfl⟩,
    List.cons_append, splitFrom, if_neg (by decide), if_neg (by decide), if_neg (by decide),
    List.nil_append]

/-- Cutting undoes joining, up to the blanks behind the commas. -/
theorem splitTop_intercalate {first : List Char} {others : List (List Char)}
    (sealed : ∀ piece ∈ first :: others, IsSealedFrom 0 piece) :
    splitTop (List.intercalate [',', ' '] (first :: others)) =
      first :: others.map fun piece => ' ' :: piece := by
  unfold splitTop
  induction others generalizing first with
  | nil =>
      have whole := sealed first (by simp) 0 (by decide) []
      rw [List.append_nil] at whole
      rw [List.intercalate_singleton, whole, splitFrom, foldr_consFirst, List.append_nil]
      rfl
  | cons next rest ih =>
      have behind : splitFrom 0 ([',', ' '] ++ List.intercalate [',', ' '] (next :: rest)) =
          [] :: (next :: rest).map fun piece => ' ' :: piece := by
        rw [splitFrom_comma, ih fun piece mem => sealed piece (by simp [mem])]
        rfl
      rw [List.intercalate_cons_cons, List.append_assoc, sealed first (by simp) 0 (by decide),
        behind, foldr_consFirst, List.append_nil]

/-! ## Arguments without their wildcards -/

/-- A blank in front of an argument is dropped. -/
theorem bound_blank (argument : List Char) : bound (' ' :: argument) = bound argument := by
  have dropped : trim (' ' :: argument) = trim argument := rfl
  rw [bound, bound, dropped]

/-- A text that an argument keeps as it is: it starts with a name and ends with no blank,
and no blank stands right behind the first name. -/
structure IsArgumentText (text : List Char) : Prop where
  starts : ∃ c ∈ text.head?, isNameChar c = true
  ends : ∀ c ∈ text.getLast?, isBlank c = false
  stops : (text.dropWhile isNameChar).head? ≠ some ' '

/-- The text of a type as it stands between others, where cutting passes over it. -/
structure IsTypeText (text : List Char) : Prop extends IsArgumentText text where
  sealed : IsSealedFrom 0 text

namespace IsArgumentText

variable {text : List Char}

theorem trim_eq (isText : IsArgumentText text) : trim text = text := by
  obtain ⟨c, head, named⟩ := isText.starts
  refine trim_eq_self (fun other mem => ?_) isText.ends
  obtain rfl : c = other := Option.some.inj (head.symm.trans mem)
  exact isBlank_of_isNameChar named

/-- An argument that is no wildcard is its own bound. -/
theorem bound_eq (isText : IsArgumentText text) : bound text = text := by
  obtain ⟨c, head, named⟩ := isText.starts
  unfold bound
  rw [isText.trim_eq]
  split
  · obtain rfl : c = '?' := Option.some.inj (head.symm.trans rfl)
    cases named
  · rfl

/-- No word of a bound stands in front of a type. -/
theorem dropWord_eq (isText : IsArgumentText text) {word : List Char}
    (named : ∀ c ∈ word, isNameChar c = true) : dropWord (word ++ [' ']) text = text := by
  unfold dropWord
  refine if_neg fun starts => isText.stops ?_
  obtain ⟨rest, rfl⟩ := List.isPrefixOf_iff_prefix.1 starts
  rw [List.append_assoc, List.dropWhile_append_of_pos named]
  rfl

theorem dropWord_append (word text : List Char) : dropWord word (word ++ text) = text := by
  simp [dropWord]

theorem bound_bounded (isText : IsArgumentText text) (kind : BoundKind) :
    bound ('?' :: ' ' :: (kind.word.toList ++ ' ' :: text)) = text := by
  obtain ⟨c, head, _⟩ := isText.starts
  have last : ∀ front : List Char, ∀ c ∈ (front ++ text).getLast?, isBlank c = false := by
    intro front c mem
    rw [List.getLast?_append] at mem
    cases found : text.getLast? with
    | none =>
        rw [List.getLast?_eq_none_iff.1 found] at head
        cases head
    | some other =>
        rw [found] at mem
        exact isText.ends c (found.trans mem)
  have outer : trim ('?' :: ' ' :: (kind.word.toList ++ ' ' :: text)) =
      '?' :: ' ' :: (kind.word.toList ++ ' ' :: text) := by
    refine trim_eq_self (by rintro _ ⟨⟩; decide) ?_
    have := last ('?' :: ' ' :: (kind.word.toList ++ [' ']))
    simpa using this
  have inner : trim (' ' :: (kind.word.toList ++ ' ' :: text)) =
      kind.word.toList ++ ' ' :: text := by
    have front : trim (' ' :: (kind.word.toList ++ ' ' :: text)) =
        trim (kind.word.toList ++ ' ' :: text) := rfl
    rw [front]
    refine trim_eq_self ?_ ?_
    · cases kind <;> rintro _ ⟨⟩ <;> decide
    · have := last (kind.word.toList ++ [' '])
      simpa using this
  rw [bound, outer]
  change dropWord "super ".toList (dropWord "extends ".toList
    (trim (' ' :: (kind.word.toList ++ ' ' :: text)))) = text
  rw [inner]
  cases kind with
  | upper =>
      have word : "extends".toList ++ ' ' :: text = "extends ".toList ++ text := rfl
      rw [BoundKind.word, word, dropWord_append]
      exact @dropWord_eq text isText "super".toList (List.all_eq_true.1 (by decide))
  | lower => rfl

end IsArgumentText

/-! ## A name with arguments and dimensions -/

theorem names_eq_flatMap (text : List Char) :
    names text = ownName text ++ (arguments text).flatMap names := by
  rw [names]
  simp

/-- Arguments in angle brackets, if there are any. -/
def angled : List (List Char) → List Char
  | [] => []
  | first :: others => '<' :: (List.intercalate [',', ' '] (first :: others) ++ ['>'])

/-- What may stand behind a type: pairs of brackets, and the dots of a last parameter. -/
def dimensionsAndDots (dimensions : Nat) (hasDots : Bool) : List Char :=
  (brackets dimensions).toList ++ if hasDots then ['.', '.', '.'] else []

theorem toList_brackets_succ (dimensions : Nat) :
    (brackets (dimensions + 1)).toList = '[' :: ']' :: (brackets dimensions).toList := by
  simp [brackets, List.replicate_succ]

theorem mem_brackets {dimensions : Nat} {c : Char} (mem : c ∈ (brackets dimensions).toList) :
    c = '[' ∨ c = ']' := by
  induction dimensions with
  | zero => simp [brackets] at mem
  | succ dimensions ih =>
      rw [toList_brackets_succ, List.mem_cons, List.mem_cons] at mem
      rcases mem with rfl | rfl | mem
      · exact .inl rfl
      · exact .inr rfl
      · exact ih mem

theorem mem_dimensionsAndDots {dimensions : Nat} {hasDots : Bool} {c : Char}
    (mem : c ∈ dimensionsAndDots dimensions hasDots) : c = '[' ∨ c = ']' ∨ c = '.' := by
  rcases List.mem_append.1 mem with mem | mem
  · rcases mem_brackets mem with rfl | rfl <;> simp
  · cases hasDots <;> simp_all

/-- What may stand behind the arguments of a type. -/
structure IsTail (tail : List Char) : Prop where
  ends : ∀ c ∈ tail.getLast?, isBlank c = false
  stops : (tail.dropWhile isNameChar).head? ≠ some ' '
  sealed : IsSealedFrom 0 tail

theorem isTail_brackets (dimensions : Nat) : IsTail (brackets dimensions).toList where
  ends c mem := by
    rcases mem_brackets (List.mem_of_getLast? mem) with rfl | rfl <;> decide
  stops := by
    cases dimensions with
    | zero => simp [brackets]
    | succ dimensions =>
        rw [toList_brackets_succ, List.dropWhile_cons_of_neg (by decide)]
        simp
  sealed := .of_quiet fun c mem => by
    rcases mem_brackets mem with rfl | rfl <;> decide

theorem eraseBrackets_append {text : List Char} (quiet : '[' ∉ text) (rest : List Char) :
    eraseBrackets (text ++ rest) = text ++ eraseBrackets rest := by
  induction text with
  | nil => rfl
  | cons c text ih =>
      rw [List.mem_cons, not_or] at quiet
      rw [List.cons_append, eraseBrackets, ih quiet.2, List.cons_append]
      rintro _ rfl
      exact absurd rfl quiet.1

theorem eraseBrackets_brackets (dimensions : Nat) (rest : List Char) :
    eraseBrackets ((brackets dimensions).toList ++ rest) = eraseBrackets rest := by
  induction dimensions with
  | zero => simp [brackets]
  | succ dimensions ih =>
      rw [toList_brackets_succ, List.cons_append, List.cons_append, eraseBrackets, ih]

theorem eraseEllipses_append {text : List Char} (quiet : '.' ∉ text) (rest : List Char) :
    eraseEllipses (text ++ rest) = text ++ eraseEllipses rest := by
  induction text with
  | nil => rfl
  | cons c text ih =>
      rw [List.mem_cons, not_or] at quiet
      rw [List.cons_append, eraseEllipses, ih quiet.2, List.cons_append]
      rintro _ rfl
      exact absurd rfl quiet.1

theorem eraseEllipses_dot {c : Char} (apart : c ≠ '.') (rest : List Char) :
    eraseEllipses ('.' :: c :: rest) = '.' :: eraseEllipses (c :: rest) := by
  rw [eraseEllipses]
  rintro _ _ same
  exact apart (List.cons.inj same).1

/-- Names with dots between them. -/
structure IsPath (own : List Char) (names : List (List Char)) : Prop where
  names_ne_nil : names ≠ []
  named : ∀ name ∈ names, IsName name
  own_eq : own = List.intercalate ['.'] names

namespace IsPath

variable {own : List Char} {names : List (List Char)}

theorem cons_inv {name next : List Char} {rest : List (List Char)}
    (path : IsPath own (name :: next :: rest)) :
    IsName name ∧ ∃ behind, own = name ++ '.' :: behind ∧ IsPath behind (next :: rest) := by
  refine ⟨path.named name (by simp), _, ?_, by simp, fun other mem => path.named other ?_, rfl⟩
  · rw [path.own_eq, List.intercalate_cons_cons, List.append_assoc, List.singleton_append]
  · exact List.mem_cons_of_mem _ mem

/-- What stands in a path are names and dots, with a name in front and at the end. -/
theorem characters (path : IsPath own names) :
    (∀ c ∈ own, isNameChar c = true ∨ c = '.') ∧
      (∃ c rest, own = c :: rest ∧ isNameChar c = true) ∧
        ∃ front c, own = front ++ [c] ∧ isNameChar c = true := by
  have single : ∀ {name : List Char}, IsName name →
      (∃ c rest, name = c :: rest ∧ isNameChar c = true) ∧
        ∃ front c, name = front ++ [c] ∧ isNameChar c = true := by
    rintro name ⟨some_left, named⟩
    obtain ⟨c, rest, name_eq⟩ := List.exists_cons_of_ne_nil some_left
    exact ⟨⟨c, rest, name_eq, named c (by simp [name_eq])⟩, _, _,
      (List.dropLast_concat_getLast some_left).symm, named _ (List.getLast_mem some_left)⟩
  induction names generalizing own with
  | nil => exact absurd rfl path.names_ne_nil
  | cons name rest ih =>
      cases rest with
      | nil =>
          have isName := path.named name (by simp)
          rw [path.own_eq, List.intercalate_singleton]
          exact ⟨fun c mem => .inl (isName.2 c mem), single isName⟩
      | cons next rest =>
          obtain ⟨isName, behind, rfl, further⟩ := path.cons_inv
          obtain ⟨others, _, front, last, behind_eq, named⟩ := ih further
          obtain ⟨⟨c, more, name_eq, starts⟩, _⟩ := single isName
          refine ⟨fun c mem => ?_, ⟨c, _, by rw [name_eq, List.cons_append], starts⟩,
            name ++ '.' :: front, last, by simp [behind_eq], named⟩
          rcases List.mem_append.1 mem with mem | mem
          · exact .inl (isName.2 c mem)
          · rcases List.mem_cons.1 mem with rfl | mem
            · exact .inr rfl
            · exact others c mem

theorem not_mem (path : IsPath own names) {sign : Char} (known : isNameChar sign = false)
    (apart : sign ≠ '.') : sign ∉ own := by
  intro mem
  rcases path.characters.1 sign mem with named | dot
  · rw [known] at named
    cases named
  · exact apart dot

/-- The dots of a path are no ellipsis, and do not join with one behind it. -/
theorem eraseEllipses_eq (path : IsPath own names) (rest : List Char) :
    eraseEllipses (own ++ rest) = own ++ eraseEllipses rest := by
  have undotted : ∀ {name : List Char}, IsName name → '.' ∉ name := by
    intro name isName mem
    have impossible := isName.2 '.' mem
    cases impossible
  induction names generalizing own with
  | nil => exact absurd rfl path.names_ne_nil
  | cons name others ih =>
      cases others with
      | nil =>
          rw [path.own_eq, List.intercalate_singleton]
          exact eraseEllipses_append (undotted (path.named name (by simp))) rest
      | cons next others =>
          obtain ⟨isName, behind, rfl, further⟩ := path.cons_inv
          obtain ⟨_, ⟨c, more, behind_eq, starts⟩, _⟩ := further.characters
          have dot : eraseEllipses ('.' :: (behind ++ rest)) =
              '.' :: (behind ++ eraseEllipses rest) := by
            rw [← ih further, behind_eq, List.cons_append]
            exact eraseEllipses_dot (ne_of_isNameChar starts (by decide)) _
          rw [List.append_assoc, eraseEllipses_append (undotted isName), List.cons_append, dot,
            List.append_assoc, List.cons_append]

theorem isBlank_eq_false (path : IsPath own names) {c : Char} (mem : c ∈ own) :
    isBlank c = false := by
  rcases path.characters.1 c mem with named | rfl
  · exact isBlank_of_isNameChar named
  · decide

theorem trim_eq (path : IsPath own names) : trim own = own :=
  trim_eq_self (fun _ mem => path.isBlank_eq_false (List.mem_of_mem_head? mem)) fun _ mem =>
    path.isBlank_eq_false (List.mem_of_getLast? mem)

/-- Dimensions and dots are no part of the base. -/
theorem base_eq (path : IsPath own names) (dimensions : Nat) (hasDots : Bool) :
    trim (eraseEllipses (eraseBrackets (own ++ dimensionsAndDots dimensions hasDots))) = own := by
  have cleared : eraseBrackets (own ++ dimensionsAndDots dimensions hasDots) =
      own ++ if hasDots then ['.', '.', '.'] else [] := by
    rw [eraseBrackets_append (path.not_mem (by decide) (by decide)), dimensionsAndDots,
      eraseBrackets_brackets]
    cases hasDots <;> rfl
  rw [cleared, path.eraseEllipses_eq]
  cases hasDots
  all_goals
    rw [show eraseEllipses _ = [] from rfl, List.append_nil]
    exact path.trim_eq

theorem ownName_eq (path : IsPath own names) {text : List Char} (base_eq : base text = own) :
    ownName text = [own] := by
  obtain ⟨c, rest, own_eq, starts⟩ := path.characters.2.1
  unfold ownName
  rw [base_eq, own_eq]
  split
  · contradiction
  · rename_i heq
    rw [(List.cons.inj heq).1] at starts
    cases starts
  · rfl

theorem passes (path : IsPath own names) : ∀ c ∈ own, (c != '<') = true := by
  intro c mem
  rw [bne_iff_ne]
  rintro rfl
  exact path.not_mem (by decide) (by decide) mem

/-- Without arguments there is only the path. -/
theorem names_plain (path : IsPath own names) (dimensions : Nat) (hasDots : Bool) :
    TypeText.names (own ++ dimensionsAndDots dimensions hasDots) = [own] := by
  have passed : ∀ c ∈ own ++ dimensionsAndDots dimensions hasDots, (c != '<') = true := by
    refine List.forall_mem_append.2 ⟨path.passes, fun c mem => ?_⟩
    rcases mem_dimensionsAndDots mem with rfl | rfl | rfl <;> decide
  have base_eq : base (own ++ dimensionsAndDots dimensions hasDots) = own := by
    rw [base, beforeFirst, List.takeWhile_eq_self_iff.2 passed]
    exact path.base_eq dimensions hasDots
  have none_inside : arguments (own ++ dimensionsAndDots dimensions hasDots) = [] := by
    rw [arguments, inner?, afterFirst?, List.dropWhile_eq_nil_iff.2 passed]
    rfl
  rw [names_eq_flatMap, path.ownName_eq base_eq, none_inside]
  rfl

/-- What stands between the first opening and the last closing bracket. -/
theorem inner?_eq (path : IsPath own names) (inside : List Char) {tail : List Char}
    (closing : '>' ∉ tail) : inner? (own ++ '<' :: (inside ++ '>' :: tail)) = some inside := by
  rw [inner?, afterFirst?, List.dropWhile_append_of_pos path.passes,
    List.dropWhile_cons_of_neg (by decide)]
  exact beforeLast?_append closing

/-- Arguments are found whole, whatever stands behind them. -/
theorem names_angled (path : IsPath own names) {first : List Char} {others : List (List Char)}
    (sealed : ∀ piece ∈ first :: others, IsSealedFrom 0 piece) {tail : List Char}
    (closing : '>' ∉ tail) :
    TypeText.names (own ++ '<' :: (List.intercalate [',', ' '] (first :: others) ++
        '>' :: tail)) =
      own :: (first :: others).flatMap fun piece => TypeText.names (bound piece) := by
  generalize text_eq : own ++ '<' :: (List.intercalate [',', ' '] (first :: others) ++
    '>' :: tail) = text
  have base_eq : base text = own := by
    rw [base, ← text_eq, beforeFirst, List.takeWhile_append_of_pos path.passes,
      List.takeWhile_cons_of_neg (by decide)]
    exact path.base_eq 0 false
  have inside : inner? text = some (List.intercalate [',', ' '] (first :: others)) :=
    text_eq ▸ path.inner?_eq _ closing
  have cut : arguments text = (first :: others).map bound := by
    rw [arguments, inside]
    change (splitTop _).map bound = _
    rw [splitTop_intercalate sealed, List.map_cons, List.map_map]
    exact congrArg _ (List.map_congr_left fun piece _ => bound_blank piece)
  rw [names_eq_flatMap, path.ownName_eq base_eq, cut, List.flatMap_map, List.singleton_append]

/-- A path with arguments and what stands behind them is taken apart into these. -/
theorem names_eq (path : IsPath own names) {pieces : List (List Char)}
    (sealed : ∀ piece ∈ pieces, IsSealedFrom 0 piece) (dimensions : Nat) (hasDots : Bool) :
    TypeText.names (own ++ angled pieces ++ dimensionsAndDots dimensions hasDots) =
      own :: pieces.flatMap fun piece => TypeText.names (bound piece) := by
  cases pieces with
  | nil => simpa [angled] using path.names_plain dimensions hasDots
  | cons first others =>
      have closing : '>' ∉ dimensionsAndDots dimensions hasDots := by
        intro mem
        rcases mem_dimensionsAndDots mem with impossible | impossible | impossible <;>
          cases impossible
      simpa [angled] using path.names_angled sealed closing

/-- Behind the first name of a path stands a dot, or what stands behind the path. -/
theorem dropWhile_eq (path : IsPath own names) (rest : List Char) :
    (∃ behind, (own ++ rest).dropWhile isNameChar = '.' :: behind) ∨
      (own ++ rest).dropWhile isNameChar = rest.dropWhile isNameChar := by
  match names, path with
  | [], path => exact absurd rfl path.names_ne_nil
  | [name], path =>
      refine .inr ?_
      rw [path.own_eq, List.intercalate_singleton]
      exact List.dropWhile_append_of_pos (path.named name (by simp)).2
  | name :: next :: others, path =>
      obtain ⟨isName, behind, rfl, _⟩ := path.cons_inv
      refine .inl ⟨behind ++ rest, ?_⟩
      rw [List.append_assoc, List.dropWhile_append_of_pos isName.2, List.cons_append,
        List.dropWhile_cons_of_neg (by decide)]

theorem isTypeText (path : IsPath own names) {pieces : List (List Char)}
    (sealed : ∀ piece ∈ pieces, IsSealedFrom 0 piece) {tail : List Char} (isTail : IsTail tail) :
    IsTypeText (own ++ angled pieces ++ tail) where
  starts := by
    obtain ⟨c, rest, rfl, named⟩ := path.characters.2.1
    exact ⟨c, rfl, named⟩
  ends c mem := by
    simp only [List.getLast?_append, Option.mem_def, Option.or_eq_some_iff] at mem
    rcases mem with mem | ⟨_, mem | ⟨_, mem⟩⟩
    · exact isTail.ends c mem
    · cases pieces with
      | nil => cases mem
      | cons first others =>
          rw [angled, ← List.cons_append, List.getLast?_concat] at mem
          cases mem
          decide
    · exact path.isBlank_eq_false (List.mem_of_getLast? mem)
  stops := by
    rw [List.append_assoc]
    rcases path.dropWhile_eq (angled pieces ++ tail) with ⟨behind, dot⟩ | same
    · rw [dot]
      simp
    · rw [same]
      cases pieces with
      | nil => exact isTail.stops
      | cons first others =>
          rw [angled, List.cons_append, List.dropWhile_cons_of_neg (by decide)]
          simp
  sealed := by
    have own_sealed : IsSealedFrom 0 own := .of_quiet fun c mem => by
      refine ⟨?_, ?_, ?_⟩ <;> rintro rfl <;> exact path.not_mem (by decide) (by decide) mem
    refine (own_sealed.append ?_).append isTail.sealed
    cases pieces with
    | nil => exact .of_quiet (by simp [angled])
    | cons first others => exact .bracketed (.intercalate sealed)

end IsPath

end TypeText

/-! ## Trees -/

/-- The names of the segments of a path. -/
def segmentNames : List Segment → List String
  | [] => []
  | .mk name _ :: rest => name.text :: segmentNames rest

mutual

/-- The names in a type: its own with all of its segments, and then those in its
arguments. -/
def TypeRef.names : TypeRef → List String
  | .mk path _ => ".".intercalate (segmentNames path) :: namesBehind path

/-- The names in the arguments of segments. -/
def namesBehind : List Segment → List String
  | [] => []
  | .mk _ arguments :: rest => namesIn arguments ++ namesBehind rest

/-- The names in type arguments, from left to right. -/
def namesIn : List TypeArgument → List String
  | [] => []
  | argument :: rest => argument.names ++ namesIn rest

/-- The names in a type argument: those of its type or of its bound. -/
def TypeArgument.names : TypeArgument → List String
  | .wildcard => []
  | .bounded _ type => type.names
  | .exactly type => type.names

end

/-- A word without blanks and without signs of the text of a type. -/
def Word.IsPlain (word : Word) : Prop :=
  ∀ c ∈ word.text.toList, TypeText.isNameChar c = true

instance (word : Word) : Decidable word.IsPlain :=
  decidable_of_iff (word.text.toList.all TypeText.isNameChar = true) List.all_eq_true

mutual

/-- A type has a name, its words are plain, and only its last segment has arguments. -/
def TypeRef.IsPlain : TypeRef → Prop
  | .mk path _ => isPlainPath path

/-- Segments of a plain type. -/
def isPlainPath : List Segment → Prop
  | [] => False
  | [.mk name arguments] => name.IsPlain ∧ arePlain arguments
  | .mk name arguments :: next :: rest => name.IsPlain ∧ arguments = [] ∧ isPlainPath (next :: rest)

/-- Type arguments with plain types in them. -/
def arePlain : List TypeArgument → Prop
  | [] => True
  | argument :: rest => argument.IsPlain ∧ arePlain rest

/-- A type argument with a plain type in it. -/
def TypeArgument.IsPlain : TypeArgument → Prop
  | .wildcard => True
  | .bounded _ type => type.IsPlain
  | .exactly type => type.IsPlain

end

/-- The arguments of the last segment of a path. -/
def lastArguments : List Segment → List TypeArgument
  | [] => []
  | [.mk _ arguments] => arguments
  | _ :: next :: rest => lastArguments (next :: rest)

theorem isPath_of_isPlainPath {path : List Segment} (plain : isPlainPath path) :
    TypeText.IsPath (".".intercalate (segmentNames path)).toList
      ((segmentNames path).map String.toList) := by
  have named : ∀ name ∈ segmentNames path, TypeText.IsName name.toList := by
    induction path using lastArguments.induct with
    | case1 => cases plain
    | case2 word arguments =>
        rintro name found
        obtain rfl := List.mem_singleton.1 found
        exact ⟨by simpa using word.text_ne_empty, plain.1⟩
    | case3 segment next rest ih =>
        obtain ⟨word, arguments⟩ := segment
        rintro name found
        rcases List.mem_cons.1 found with rfl | found
        · exact ⟨by simpa using word.text_ne_empty, plain.1⟩
        · exact ih plain.2.2 name found
  refine ⟨?_, List.forall_mem_map.2 named, by simp⟩
  match path, plain with
  | .mk _ _ :: _, _ => simp [segmentNames]

/-- Arguments stand at the end of the path of a plain type. -/
theorem toList_intercalate_segmentTexts {path : List Segment} (plain : isPlainPath path) :
    (".".intercalate (segmentTexts path)).toList =
      (".".intercalate (segmentNames path)).toList ++
        TypeText.angled ((argumentTexts (lastArguments path)).map String.toList) := by
  induction path using lastArguments.induct with
  | case1 => cases plain
  | case2 word arguments =>
      cases arguments <;>
        simp [segmentTexts, segmentNames, Segment.text, lastArguments, argumentTexts,
          TypeText.angled]
  | case3 segment next rest ih =>
      obtain ⟨word, arguments⟩ := segment
      obtain ⟨second, inner⟩ := next
      obtain ⟨_, rfl, others⟩ := plain
      have texts : ".".intercalate (segmentTexts (.mk word [] :: .mk second inner :: rest)) =
          word.text ++ "." ++ ".".intercalate (segmentTexts (.mk second inner :: rest)) :=
        String.intercalate_cons_cons
      have names : ".".intercalate (segmentNames (.mk word [] :: .mk second inner :: rest)) =
          word.text ++ "." ++ ".".intercalate (segmentNames (.mk second inner :: rest)) :=
        String.intercalate_cons_cons
      simp only [texts, names, lastArguments, String.toList_append, ih others, List.append_assoc]

theorem namesBehind_eq {path : List Segment} (plain : isPlainPath path) :
    namesBehind path = namesIn (lastArguments path) := by
  induction path using lastArguments.induct with
  | case1 => rfl
  | case2 word arguments => simp [namesBehind, lastArguments]
  | case3 segment next rest ih =>
      obtain ⟨word, arguments⟩ := segment
      obtain ⟨_, rfl, others⟩ := plain
      rw [namesBehind, lastArguments, namesIn, List.nil_append, ih others]

/-- Arguments come out of their texts. -/
structure AreFound (arguments : List TypeArgument) : Prop where
  sealed : ∀ piece ∈ (argumentTexts arguments).map String.toList, TypeText.IsSealedFrom 0 piece
  names_eq : ((argumentTexts arguments).map String.toList).flatMap
      (fun piece => TypeText.names (TypeText.bound piece)) =
    (namesIn arguments).map String.toList

/-- A type comes out of its text, also with dots behind it. -/
structure TypeRef.IsFound (type : TypeRef) : Prop where
  isTypeText : TypeText.IsTypeText type.text.toList
  names_eq : ∀ hasDots : Bool,
    TypeText.names (type.text.toList ++ if hasDots then ['.', '.', '.'] else []) =
      type.names.map String.toList

/-- A type is found if the arguments at its end are. -/
theorem TypeRef.isFound_of_areFound {path : List Segment} (plain : isPlainPath path)
    (found : AreFound (lastArguments path)) (dimensions : Nat) :
    (TypeRef.mk path dimensions).IsFound := by
  have isPath := isPath_of_isPlainPath plain
  have text_eq : (TypeRef.mk path dimensions).text.toList =
      (".".intercalate (segmentNames path)).toList ++
        TypeText.angled ((argumentTexts (lastArguments path)).map String.toList) ++
          (brackets dimensions).toList := by
    rw [TypeRef.text, String.toList_append, toList_intercalate_segmentTexts plain]
  refine ⟨text_eq ▸ isPath.isTypeText found.sealed (TypeText.isTail_brackets dimensions),
    fun hasDots => ?_⟩
  have names_eq := isPath.names_eq found.sealed dimensions hasDots
  rw [TypeText.dimensionsAndDots, ← List.append_assoc] at names_eq
  rw [text_eq, names_eq, found.names_eq, TypeRef.names, namesBehind_eq plain, List.map_cons]

/-- A type argument comes out of its text. -/
structure TypeArgument.IsFound (argument : TypeArgument) : Prop where
  sealed : TypeText.IsSealedFrom 0 argument.text.toList
  names_eq : TypeText.names (TypeText.bound argument.text.toList) =
    argument.names.map String.toList

theorem TypeRef.IsFound.names_alone {type : TypeRef} (found : type.IsFound) :
    TypeText.names type.text.toList = type.names.map String.toList := by
  simpa using found.names_eq false

namespace TypeArgument

/-- The type that an argument names, by itself or as a bound. -/
def type? : TypeArgument → Option TypeRef
  | .wildcard => none
  | .bounded _ type => some type
  | .exactly type => some type

theorem isSealed {argument : TypeArgument}
    (types : ∀ type ∈ argument.type?, TypeText.IsTypeText type.text.toList) :
    TypeText.IsSealedFrom 0 argument.text.toList := by
  cases argument with
  | wildcard => exact .of_quiet (by simp [text])
  | bounded kind type =>
      have words : ∀ c ∈ '?' :: ' ' :: (kind.word.toList ++ [' ']),
          c ≠ '<' ∧ c ≠ '>' ∧ c ≠ ',' := by
        cases kind <;> simp [BoundKind.word]
      simpa [text] using (TypeText.IsSealedFrom.of_quiet words).append (types type rfl).sealed
  | exactly type => exact (types type rfl).sealed

theorem toList_text_bounded (kind : BoundKind) (type : TypeRef) :
    (bounded kind type).text.toList =
      '?' :: ' ' :: (kind.word.toList ++ ' ' :: type.text.toList) := by
  simp [text]

/-- The names in an argument are those of its type. -/
theorem names_bound {argument : TypeArgument}
    (types : ∀ type ∈ argument.type?, TypeText.IsTypeText type.text.toList) :
    TypeText.names (TypeText.bound argument.text.toList) =
      argument.type?.toList.flatMap fun type => TypeText.names type.text.toList := by
  cases argument with
  | wildcard =>
      have empty : TypeText.names [] = [] := by
        rw [TypeText.names_eq_flatMap]
        rfl
      exact empty
  | bounded kind type =>
      rw [toList_text_bounded, (types type rfl).bound_bounded]
      simp [type?]
  | exactly type =>
      rw [text, (types type rfl).bound_eq]
      simp [type?]

/-- An argument is found if its type is. -/
theorem isFound_of_type {argument : TypeArgument}
    (found : ∀ type ∈ argument.type?, type.IsFound) : argument.IsFound where
  sealed := isSealed fun type named => (found type named).isTypeText
  names_eq := by
    rw [names_bound fun type named => (found type named).isTypeText]
    cases argument with
    | wildcard => rfl
    | bounded kind type => simp [type?, names, (found type rfl).names_alone]
    | exactly type => simp [type?, names, (found type rfl).names_alone]

end TypeArgument

theorem AreFound.cons {argument : TypeArgument} {rest : List TypeArgument}
    (first : argument.IsFound) (others : AreFound rest) : AreFound (argument :: rest) where
  sealed := List.forall_mem_cons.2 ⟨first.sealed, others.sealed⟩
  names_eq := by
    rw [argumentTexts, List.map_cons, List.flatMap_cons, first.names_eq, others.names_eq, namesIn,
      List.map_append]

mutual

/-- Every plain type is found in its text. -/
theorem TypeRef.isFound : ∀ type : TypeRef, type.IsPlain → type.IsFound
  | .mk path dimensions, plain =>
      TypeRef.isFound_of_areFound plain (areFound_lastArguments path plain) dimensions

theorem areFound_lastArguments :
    ∀ path : List Segment, isPlainPath path → AreFound (lastArguments path)
  | [], plain => plain.elim
  | [.mk _ arguments], plain => areFound arguments plain.2
  | .mk _ _ :: next :: rest, plain => areFound_lastArguments (next :: rest) plain.2.2

theorem areFound : ∀ arguments : List TypeArgument, arePlain arguments → AreFound arguments
  | [], _ => ⟨by simp [argumentTexts], rfl⟩
  | argument :: rest, plain => .cons (argument.isFound plain.1) (areFound rest plain.2)

theorem TypeArgument.isFound : ∀ argument : TypeArgument, argument.IsPlain → argument.IsFound
  | .wildcard, _ => TypeArgument.isFound_of_type (by simp [TypeArgument.type?])
  | .bounded _ type, plain =>
      TypeArgument.isFound_of_type fun _ named => Option.some.inj named ▸ type.isFound plain
  | .exactly type, plain =>
      TypeArgument.isFound_of_type fun _ named => Option.some.inj named ▸ type.isFound plain

end

/-- The names found in the text of a type are those of the tree, outer types first and
arguments from left to right, also where the dots of a last parameter follow. -/
theorem typeNames_text (type : TypeRef) (plain : type.IsPlain) (hasDots : Bool) :
    typeNames (type.text ++ if hasDots then "..." else "") = type.names := by
  have found := (type.isFound plain).names_eq hasDots
  have dots : (type.text ++ if hasDots then "..." else "").toList =
      type.text.toList ++ if hasDots then ['.', '.', '.'] else [] := by
    cases hasDots <;> simp
  rw [typeNames, dots, found, List.map_map]
  exact (List.map_congr_left fun name _ => String.ofList_toList).trans (List.map_id _)

/-- The type `util.Map<Key, List<? super shop.Food<?>[]>>[]`. -/
def nestedType : TypeRef :=
  let segment (name : Word) : Segment := .mk name []
  let food : TypeRef := .mk [segment ⟨"shop", by decide, by decide⟩,
    .mk ⟨"Food", by decide, by decide⟩ [.wildcard]] 1
  let list : TypeRef := .mk [.mk ⟨"List", by decide, by decide⟩ [.bounded .lower food]] 0
  let key : TypeRef := .mk [segment ⟨"Key", by decide, by decide⟩] 0
  .mk [segment ⟨"util", by decide, by decide⟩,
    .mk ⟨"Map", by decide, by decide⟩ [.exactly key, .exactly list]] 1

theorem typeNames_nestedType :
    nestedType.IsPlain ∧ nestedType.text = "util.Map<Key, List<? super shop.Food<?>[]>>[]" ∧
      typeNames (nestedType.text ++ "...") = ["util.Map", "Key", "List", "shop.Food"] := by
  have plain : nestedType.IsPlain := by
    simp only [nestedType, TypeRef.IsPlain, isPlainPath, arePlain, TypeArgument.IsPlain]
    decide
  exact ⟨plain, by decide +kernel, typeNames_text nestedType plain true⟩

end JavaUml.Java
