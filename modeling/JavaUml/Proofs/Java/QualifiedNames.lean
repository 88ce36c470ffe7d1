import JavaUml.Java.SimpleType
import JavaUml.Proofs.Java.TypePaths

/-!
# Cutting qualified names

A qualified name is two or more identifiers with dots between them.  Cutting reads a text
once from left to right and keeps the last identifier of each qualified name.

What is kept stands next to other text than before, so a new qualified name might arise
there.  None does: in front of an identifier that is kept stands what stood in front of
its qualified name, and no identifier ends there.  So a text that was cut is settled, and
cutting it again changes nothing.

The text of a type is cut like its tree.  Brackets, commas and blanks end an identifier,
so every path in the text is cut by itself, down to the name of its last segment.
-/

namespace JavaUml.Java

/-- A character that starts an identifier, and characters that continue it. -/
inductive IsSimpleName : List Char → Prop
  | mk {c : Char} {rest : List Char} (starts : isNameStart c = true)
      (parts : ∀ part ∈ rest, isNamePart part = true) : IsSimpleName (c :: rest)

/-- Two or more identifiers with dots between them. -/
inductive IsQualified : List Char → Prop
  | pair {first last : List Char} (first_name : IsSimpleName first)
      (last_name : IsSimpleName last) : IsQualified (first ++ '.' :: last)
  | cons {first rest : List Char} (first_name : IsSimpleName first) (others : IsQualified rest) :
      IsQualified (first ++ '.' :: rest)

/-- Whether a qualified name stands somewhere in a text. -/
def HasQualified (text : List Char) : Prop :=
  ∃ name, IsQualified name ∧ name <:+: text

/-! ## Characters of identifiers -/

theorem isNamePart_of_isNameStart {c : Char} (starts : isNameStart c = true) :
    isNamePart c = true := by
  simp only [isNameStart, Bool.or_eq_true, beq_iff_eq] at starts
  rcases starts with (letter | rfl) | rfl
  · have small : c.toNat < 0x80 := by
      simp only [Text.isAsciiLetter, Bool.or_eq_true, Bool.and_eq_true, decide_eq_true_eq,
        Char.le_def, UInt32.le_iff_toNat_le] at letter
      rcases letter with ⟨_, last⟩ | ⟨_, last⟩ <;>
        exact Nat.lt_of_le_of_lt last (by decide)
    simp [isNamePart, Text.isWordPart, small, letter]
  · decide
  · decide

theorem isNameStart_eq_false {c : Char} (part : isNamePart c = false) : isNameStart c = false := by
  rw [Bool.eq_false_iff]
  intro starts
  rw [isNamePart_of_isNameStart starts] at part
  cases part

theorem ne_dot_of_isNamePart {c : Char} (part : isNamePart c = true) : c ≠ '.' := by
  rintro rfl
  cases part

theorem startsName_append {text : List Char} (starts : startsName text = true) (rest : List Char) :
    startsName (text ++ rest) = true := by
  cases text with
  | nil => cases starts
  | cons c text => exact starts

namespace IsSimpleName

variable {word : List Char}

theorem startsName_eq (named : IsSimpleName word) : startsName word = true := by
  obtain ⟨starts, _⟩ := named
  exact starts

theorem singleton {c : Char} (starts : isNameStart c = true) : IsSimpleName [c] :=
  ⟨starts, by simp⟩

theorem concat (named : IsSimpleName word) {c : Char} (part : isNamePart c = true) :
    IsSimpleName (word ++ [c]) := by
  obtain ⟨starts, parts⟩ := named
  exact ⟨starts, List.forall_mem_append.2 ⟨parts, by simpa using part⟩⟩

instance instDecidable : (word : List Char) → Decidable (IsSimpleName word)
  | [] => .isFalse (by rintro ⟨⟩)
  | c :: rest =>
      decidable_of_iff (isNameStart c = true ∧ rest.all isNamePart = true) <| by
        rw [List.all_eq_true]
        exact ⟨fun named => ⟨named.1, named.2⟩, fun ⟨starts, parts⟩ => ⟨starts, parts⟩⟩

end IsSimpleName

/-- Behind the first identifier of a qualified name stand a dot and another identifier. -/
theorem IsQualified.exists_dot {name : List Char} (qualified : IsQualified name) :
    ∃ first rest, name = first ++ '.' :: rest ∧ IsSimpleName first ∧ startsName rest = true := by
  induction qualified with
  | pair first_name last_name => exact ⟨_, _, rfl, first_name, last_name.startsName_eq⟩
  | cons first_name others ih =>
      obtain ⟨next, _, rfl, next_name, _⟩ := ih
      exact ⟨_, _, rfl, first_name, startsName_append next_name.startsName_eq _⟩

/-! ## Settled texts -/

/-- Whether no identifier in a text has a dot and another identifier behind it.  The flag
says whether an identifier goes on into the text. -/
def isSettled : Bool → List Char → Bool
  | _, [] => true
  | isInside, c :: rest =>
      !(isInside && c == '.' && startsName rest) &&
        isSettled (isNameStart c || isInside && isNamePart c) rest

theorem isSettled_start {c : Char} (starts : isNameStart c = true) (isInside : Bool)
    (rest : List Char) : isSettled isInside (c :: rest) = isSettled true rest := by
  have undotted := ne_dot_of_isNamePart (isNamePart_of_isNameStart starts)
  simp [isSettled, starts, undotted]

theorem isSettled_part {c : Char} (part : isNamePart c = true) (rest : List Char) :
    isSettled true (c :: rest) = isSettled true rest := by
  simp [isSettled, part, ne_dot_of_isNamePart part]

theorem isSettled_outside {c : Char} (starts : isNameStart c = false) (rest : List Char) :
    isSettled false (c :: rest) = isSettled false rest := by
  simp [isSettled, starts]

/-- Where an identifier ends, what matters is whether a dot and another one follow. -/
theorem isSettled_end {c : Char} (part : isNamePart c = false) (rest : List Char) :
    isSettled true (c :: rest) = true ↔
      ¬(c = '.' ∧ startsName rest = true) ∧ isSettled false rest = true := by
  simp [isSettled, part, isNameStart_eq_false part, imp_iff_not_or]

/-- Behind an identifier a text is read as inside of it. -/
theorem isSettled_simpleName {word : List Char} (named : IsSimpleName word) (isInside : Bool)
    (rest : List Char) : isSettled isInside (word ++ rest) = isSettled true rest := by
  obtain ⟨starts, parts⟩ := named
  rw [List.cons_append, isSettled_start starts]
  rename_i others
  induction others with
  | nil => rfl
  | cons c others ih =>
      rw [List.forall_mem_cons] at parts
      rw [List.cons_append, isSettled_part parts.1, ih parts.2]

/-- Fewer names end where none goes on. -/
theorem isSettled_of_inside {text : List Char} (settled : isSettled true text = true) :
    isSettled false text = true := by
  induction text with
  | nil => rfl
  | cons c rest ih =>
      cases part : isNamePart c with
      | false =>
          rw [isSettled_outside (isNameStart_eq_false part)]
          exact ((isSettled_end part rest).1 settled).2
      | true =>
          rw [isSettled_part part] at settled
          cases starts : isNameStart c with
          | true => rwa [isSettled_start starts]
          | false =>
              rw [isSettled_outside starts]
              exact ih settled

theorem isSettled_suffix {front rest : List Char} (isInside : Bool)
    (settled : isSettled isInside (front ++ rest) = true) : isSettled false rest = true := by
  induction front generalizing isInside with
  | nil =>
      cases isInside with
      | true => exact isSettled_of_inside settled
      | false => exact settled
  | cons c front ih =>
      simp only [List.cons_append, isSettled, Bool.and_eq_true] at settled
      exact ih _ settled.2

/-- No qualified name stands in a settled text. -/
theorem not_hasQualified_of_isSettled {text : List Char} (settled : isSettled false text = true) :
    ¬ HasQualified text := by
  rintro ⟨name, qualified, front, behind, rfl⟩
  obtain ⟨first, rest, rfl, first_name, rest_starts⟩ := qualified.exists_dot
  rw [List.append_assoc, List.append_assoc] at settled
  have inside := isSettled_suffix false settled
  rw [isSettled_simpleName first_name] at inside
  simp [isSettled, startsName_append rest_starts] at inside

/-- A text that is not settled has a qualified name in it, which may start with the
identifier that goes on into it. -/
theorem hasQualified_of_not_isSettled (text : List Char) :
    (isSettled false text = false → HasQualified text) ∧
      (isSettled true text = false → ∀ word, IsSimpleName word → HasQualified (word ++ text)) := by
  have widen : ∀ {text : List Char} (front : List Char), HasQualified text →
      HasQualified (front ++ text) := by
    rintro text front ⟨name, qualified, stands⟩
    exact ⟨name, qualified, stands.trans (List.suffix_append front text).isInfix⟩
  induction text with
  | nil => simp [isSettled]
  | cons c rest ih =>
      obtain ⟨outside, inside⟩ := ih
      constructor
      · intro unsettled
        cases starts : isNameStart c with
        | true =>
            rw [isSettled_start starts] at unsettled
            exact inside unsettled [c] (.singleton starts)
        | false =>
            rw [isSettled_outside starts] at unsettled
            exact widen [c] (outside unsettled)
      · intro unsettled word named
        cases part : isNamePart c with
        | true =>
            rw [isSettled_part part] at unsettled
            simpa using inside unsettled (word ++ [c]) (named.concat part)
        | false =>
            by_cases dotted : c = '.' ∧ startsName rest = true
            · obtain ⟨rfl, rest_starts⟩ := dotted
              cases rest with
              | nil => cases rest_starts
              | cons next rest =>
                  refine ⟨word ++ '.' :: [next], .pair named (.singleton rest_starts), ?_⟩
                  exact ⟨[], rest, by simp⟩
            · have later : isSettled false rest = false := by
                rw [← Bool.not_eq_true, isSettled_end part] at unsettled
                exact Bool.eq_false_iff.2 fun settled => unsettled ⟨dotted, settled⟩
              simpa using widen (word ++ [c]) (outside later)

theorem isSettled_iff {text : List Char} : isSettled false text = true ↔ ¬ HasQualified text := by
  refine ⟨not_hasQualified_of_isSettled, fun absent => ?_⟩
  by_contra unsettled
  exact absent ((hasQualified_of_not_isSettled text).1 (Bool.not_eq_true _ ▸ unsettled))

/-! ## Cutting settles a text -/

theorem startsName_unqualifyFrom {text : List Char} (plain : startsName text = false) :
    startsName (unqualifyFrom none text) = false := by
  cases text with
  | nil => rfl
  | cons c rest =>
      have starts : isNameStart c = false := plain
      rw [unqualifyFrom, if_neg (by simp [starts])]
      exact plain

/-- What is read so far is an identifier or nothing. -/
def IsBegun (word : Option (List Char)) : Prop :=
  ∀ name ∈ word, IsSimpleName name

/-- Whatever stands in front of a text that is cut, no qualified name is left in it. -/
theorem isSettled_unqualifyFrom {word : Option (List Char)} (begun : IsBegun word)
    (text : List Char) : isSettled false (unqualifyFrom word text) = true := by
  fun_induction unqualifyFrom word text with
  | case1 word =>
      cases word with
      | none => rfl
      | some name =>
          have settled := isSettled_simpleName (begun name rfl) false []
          rw [List.append_nil] at settled
          exact settled
  | case2 c rest starts ih => exact ih (by simpa [IsBegun] using .singleton starts)
  | case3 c rest starts ih =>
      rw [isSettled_outside (by simpa using starts)]
      exact ih (by simp [IsBegun])
  | case4 word c rest part ih => exact ih (by simpa [IsBegun] using (begun word rfl).concat part)
  | case5 word c rest part dotted ih => exact ih (by simp [IsBegun])
  | case6 word c rest part dotted ih =>
      -- The identifier is kept, and what follows it starts as it did before.
      rw [isSettled_simpleName (begun word rfl), isSettled_end (by simpa using part)]
      refine ⟨?_, ih (by simp [IsBegun])⟩
      rintro ⟨rfl, starts⟩
      have plain : startsName rest = false := by simpa using dotted
      rw [startsName_unqualifyFrom plain] at starts
      cases starts

/-- A settled text is not changed. -/
theorem unqualifyFrom_eq_self {word : Option (List Char)} {text : List Char}
    (settled : isSettled word.isSome text = true) :
    unqualifyFrom word text = word.getD [] ++ text := by
  fun_induction unqualifyFrom word text with
  | case1 word => simp
  | case2 c rest starts ih =>
      rw [isSettled_start starts] at settled
      exact ih settled
  | case3 c rest starts ih =>
      rw [Option.isSome_none, isSettled_outside (by simpa using starts)] at settled
      rw [ih settled]
      rfl
  | case4 word c rest part ih =>
      rw [Option.isSome_some, isSettled_part part] at settled
      rw [ih settled]
      simp
  | case5 word c rest part dotted ih =>
      rw [Option.isSome_some, isSettled_end (by simpa using part)] at settled
      exact absurd dotted settled.1
  | case6 word c rest part dotted ih =>
      rw [Option.isSome_some, isSettled_end (by simpa using part)] at settled
      rw [ih settled.2]
      simp

theorem toList_simpleType (text : String) :
    (simpleType text).toList = unqualifyFrom none text.toList :=
  String.toList_ofList

theorem not_hasQualified_simpleType (text : String) : ¬ HasQualified (simpleType text).toList := by
  rw [toList_simpleType, ← isSettled_iff]
  exact isSettled_unqualifyFrom (by simp [IsBegun]) text.toList

theorem simpleType_eq_self_iff {text : String} :
    simpleType text = text ↔ ¬ HasQualified text.toList := by
  constructor
  · intro same
    rw [← same]
    exact not_hasQualified_simpleType text
  · intro absent
    have kept : unqualifyFrom none text.toList = text.toList :=
      unqualifyFrom_eq_self (isSettled_iff.2 absent)
    rw [simpleType, kept, String.ofList_toList]

/-- Cutting once is enough: no qualified name is left in the text, neither one that stood
there before nor one across a seam.  So cutting again changes nothing, and the texts
that do not change are those without a qualified name. -/
theorem simpleType_settles (text : String) :
    simpleType (simpleType text) = simpleType text ∧ ¬ HasQualified (simpleType text).toList ∧
      (simpleType text = text ↔ ¬ HasQualified text.toList) := by
  have settled := not_hasQualified_simpleType text
  exact ⟨simpleType_eq_self_iff.2 settled, settled, simpleType_eq_self_iff⟩

/-! ## Texts that are cut by themselves -/

/-- Whether an identifier ends in front of a text, with no dot behind it. -/
def EndsName (rest : List Char) : Prop :=
  ∀ c ∈ rest.head?, isNamePart c = false ∧ c ≠ '.'

theorem EndsName.append {text rest : List Char} (text_ends : EndsName text)
    (rest_ends : EndsName rest) : EndsName (text ++ rest) := by
  cases text with
  | nil => exact rest_ends
  | cons c text => exact text_ends

theorem endsName_cons {c : Char} (part : isNamePart c = false) (undotted : c ≠ '.')
    (rest : List Char) : EndsName (c :: rest) := by
  rintro _ ⟨⟩
  exact ⟨part, undotted⟩

/-- What stands behind a text makes no difference to how it is cut, as long as the text
ends there. -/
def CutsTo (text cut : List Char) : Prop :=
  ∀ rest, EndsName rest → unqualifyFrom none (text ++ rest) = cut ++ unqualifyFrom none rest

theorem unqualifyFrom_parts {parts : List Char} (named : ∀ c ∈ parts, isNamePart c = true)
    (word rest : List Char) :
    unqualifyFrom (some word) (parts ++ rest) = unqualifyFrom (some (word ++ parts)) rest := by
  induction parts generalizing word with
  | nil => simp
  | cons c parts ih =>
      rw [List.forall_mem_cons] at named
      rw [List.cons_append, unqualifyFrom, if_pos named.1, ih named.2]
      simp

/-- A simple name is read as a whole. -/
theorem unqualifyFrom_simpleName {word : List Char} (named : IsSimpleName word)
    (rest : List Char) : unqualifyFrom none (word ++ rest) = unqualifyFrom (some word) rest := by
  obtain ⟨starts, parts⟩ := named
  rw [List.cons_append, unqualifyFrom, if_pos starts, unqualifyFrom_parts parts]
  rfl

namespace CutsTo

variable {text cut other other_cut : List Char}

/-- Nothing is cut where no identifier starts. -/
theorem signs_append {signs : List Char} (quiet : signs.any isNameStart = false)
    (cuts : CutsTo text cut) : CutsTo (signs ++ text) (signs ++ cut) := by
  intro rest ends
  induction signs with
  | nil => exact cuts rest ends
  | cons c signs ih =>
      rw [List.any_cons, Bool.or_eq_false_iff] at quiet
      rw [List.cons_append, List.cons_append, unqualifyFrom, if_neg (by simp [quiet.1]),
        ih quiet.2, List.cons_append, List.cons_append]

theorem nil : CutsTo [] [] :=
  fun _ _ => rfl

theorem signs {signs : List Char} (quiet : signs.any isNameStart = false) :
    CutsTo signs signs := by
  simpa using signs_append quiet nil

/-- A simple name with no dot behind it is kept. -/
theorem simpleName {word : List Char} (named : IsSimpleName word) : CutsTo word word := by
  intro rest ends
  rw [unqualifyFrom_simpleName named]
  cases rest with
  | nil => simp [unqualifyFrom]
  | cons c rest =>
      obtain ⟨part, undotted⟩ := ends c rfl
      have kept : unqualifyFrom none (c :: rest) = c :: unqualifyFrom none rest := by
        rw [unqualifyFrom, if_neg (by simp [isNameStart_eq_false part])]
      rw [kept, unqualifyFrom, if_neg (by simp [part]), if_neg fun dotted => undotted dotted.1]

theorem append (first : CutsTo text cut) (second : CutsTo other other_cut)
    (other_ends : EndsName other) : CutsTo (text ++ other) (cut ++ other_cut) := by
  intro rest ends
  rw [List.append_assoc, first _ (other_ends.append ends), second rest ends, List.append_assoc]

/-- A simple name goes if a dot and another name follow. -/
theorem qualifier {word : List Char} (named : IsSimpleName word) (cuts : CutsTo text cut)
    (starts : startsName text = true) : CutsTo (word ++ '.' :: text) cut := by
  intro rest ends
  rw [List.append_assoc, unqualifyFrom_simpleName named, List.cons_append, unqualifyFrom,
    if_neg (by decide), if_pos ⟨rfl, startsName_append starts rest⟩, cuts rest ends]

/-- Arguments are cut one by one. -/
theorem intercalate {α : Type} {arguments : List α} {before after : α → List Char}
    (cuts : ∀ argument ∈ arguments, CutsTo (before argument) (after argument)) :
    CutsTo (List.intercalate [',', ' '] (arguments.map before))
      (List.intercalate [',', ' '] (arguments.map after)) := by
  induction arguments with
  | nil => exact nil
  | cons argument others ih =>
      rw [List.forall_mem_cons] at cuts
      cases others with
      | nil => simpa using cuts.1
      | cons next others =>
          have comma : [',', ' '].any isNameStart = false := by decide
          have behind := signs_append comma (ih cuts.2)
          simp only [List.map_cons, List.intercalate_cons_cons, List.append_assoc] at behind ⊢
          exact cuts.1.append behind (endsName_cons (by decide) (by decide) _)

theorem angled {α : Type} {arguments : List α} {before after : α → List Char}
    (cuts : ∀ argument ∈ arguments, CutsTo (before argument) (after argument)) :
    CutsTo (TypeText.angled (arguments.map before)) (TypeText.angled (arguments.map after)) := by
  cases arguments with
  | nil => exact nil
  | cons argument others =>
      have closing : CutsTo ['>'] ['>'] := signs (by decide)
      have inside := (intercalate cuts).append closing (endsName_cons (by decide) (by decide) _)
      have opening : ['<'].any isNameStart = false := by decide
      exact signs_append opening inside

end CutsTo

theorem endsName_angled (pieces : List (List Char)) : EndsName (TypeText.angled pieces) := by
  cases pieces with
  | nil => simp [TypeText.angled, EndsName]
  | cons first others => exact endsName_cons (by decide) (by decide) _

theorem endsName_brackets (dimensions : Nat) : EndsName (brackets dimensions).toList := by
  cases dimensions with
  | zero => simp [brackets, EndsName]
  | succ dimensions =>
      rw [TypeText.toList_brackets_succ]
      exact endsName_cons (by decide) (by decide) _

theorem cutsTo_brackets (dimensions : Nat) :
    CutsTo (brackets dimensions).toList (brackets dimensions).toList := by
  apply CutsTo.signs
  rw [List.any_eq_false]
  intro c mem
  rcases TypeText.mem_brackets mem with rfl | rfl <;> decide

/-! ## Trees -/

mutual

/-- The type with every path in it cut to its last segment. -/
def TypeRef.unqualified : TypeRef → TypeRef
  | .mk path dimensions => .mk (lastUnqualified path) dimensions

/-- The last segment of a path, with the types in its arguments cut. -/
def lastUnqualified : List Segment → List Segment
  | [] => []
  | [.mk name arguments] => [.mk name (allUnqualified arguments)]
  | _ :: next :: rest => lastUnqualified (next :: rest)

/-- Type arguments with the types in them cut. -/
def allUnqualified : List TypeArgument → List TypeArgument
  | [] => []
  | argument :: rest => argument.unqualified :: allUnqualified rest

/-- A type argument with the type in it cut. -/
def TypeArgument.unqualified : TypeArgument → TypeArgument
  | .wildcard => .wildcard
  | .bounded kind type => .bounded kind type.unqualified
  | .exactly type => .exactly type.unqualified

end

/-- A type whose paths are made of simple names, with arguments only at the end of a
path. -/
inductive TypeRef.IsNamed : TypeRef → Prop
  | mk {path : List Segment} {dimensions : Nat}
      (names : ∀ segment ∈ path, IsSimpleName segment.letters)
      (bare : ∀ segment ∈ path.dropLast, segment.arguments = [])
      (inside : ∀ segment ∈ path, ∀ argument ∈ segment.arguments,
        ∀ type ∈ argument.type?, IsNamed type) : IsNamed (.mk path dimensions)

theorem TypeRef.isNamed_iff {path : List Segment} {dimensions : Nat} :
    (TypeRef.mk path dimensions).IsNamed ↔
      (∀ segment ∈ path, IsSimpleName segment.letters) ∧
        (∀ segment ∈ path.dropLast, segment.arguments = []) ∧
          ∀ segment ∈ path, ∀ argument ∈ segment.arguments, ∀ type ∈ argument.type?,
            type.IsNamed :=
  ⟨fun ⟨names, bare, inside⟩ => ⟨names, bare, inside⟩,
    fun ⟨names, bare, inside⟩ => ⟨names, bare, inside⟩⟩

/-- A type whose text is cut like its tree. -/
def TypeRef.IsCutAlike (type : TypeRef) : Prop :=
  CutsTo type.text.toList type.unqualified.text.toList

theorem allUnqualified_eq_map (arguments : List TypeArgument) :
    allUnqualified arguments = arguments.map TypeArgument.unqualified := by
  induction arguments with
  | nil => rfl
  | cons argument rest ih => rw [allUnqualified, ih, List.map_cons]

theorem TypeArgument.cutsTo {argument : TypeArgument}
    (cuts : ∀ type ∈ argument.type?, type.IsCutAlike) :
    CutsTo argument.text.toList argument.unqualified.text.toList := by
  cases argument with
  | wildcard => exact .signs (by decide)
  | bounded kind type =>
      have question : ['?', ' '].any isNameStart = false := by decide
      have blank : [' '].any isNameStart = false := by decide
      have word : IsSimpleName kind.word.toList := by cases kind <;> decide
      have behind := (CutsTo.simpleName word).append (.signs_append blank (cuts type rfl))
        (endsName_cons (by decide) (by decide) _)
      rw [toList_text_bounded, unqualified, toList_text_bounded]
      exact .signs_append question behind
  | exactly type => exact cuts type rfl

/-- The last segment of a path keeps its name, and its arguments are cut. -/
theorem Segment.cutsTo {name : Word} {arguments : List TypeArgument}
    (named : IsSimpleName name.text.toList)
    (cuts : ∀ argument ∈ arguments, ∀ type ∈ argument.type?, type.IsCutAlike) :
    CutsTo (Segment.mk name arguments).text.toList
      (Segment.mk name (allUnqualified arguments)).text.toList := by
  rw [Segment.toList_text, Segment.toList_text]
  simp only [pieces, Segment.arguments, allUnqualified_eq_map, List.map_map]
  have behind := CutsTo.angled fun argument mem => TypeArgument.cutsTo (cuts argument mem)
  exact (CutsTo.simpleName named).append behind (endsName_angled _)

/-- Of a path the last segment is left. -/
theorem cutsTo_path {path : List Segment} (names : ∀ segment ∈ path, IsSimpleName segment.letters)
    (bare : ∀ segment ∈ path.dropLast, segment.arguments = [])
    (cuts : ∀ segment ∈ path, ∀ argument ∈ segment.arguments, ∀ type ∈ argument.type?,
      type.IsCutAlike) :
    CutsTo (".".intercalate (segmentTexts path)).toList
      (".".intercalate (segmentTexts (lastUnqualified path))).toList := by
  induction path using lastArguments.induct with
  | case1 => exact .nil
  | case2 name arguments =>
      have last : Segment.mk name arguments ∈ [Segment.mk name arguments] := by simp
      have cut : CutsTo (Segment.mk name arguments).text.toList
          (Segment.mk name (allUnqualified arguments)).text.toList :=
        Segment.cutsTo (names _ last) (cuts _ last)
      simpa [segmentTexts, lastUnqualified] using cut
  | case3 segment next rest ih =>
      rw [List.forall_mem_cons] at names cuts
      rw [List.dropLast_cons_cons, List.forall_mem_cons] at bare
      have text_eq : (".".intercalate (segmentTexts (segment :: next :: rest))).toList =
          segment.letters ++ '.' :: (".".intercalate (segmentTexts (next :: rest))).toList := by
        rw [segmentTexts, segmentTexts, String.intercalate_cons_cons]
        simp [Segment.toList_text, Segment.pieces, bare.1, TypeText.angled]
      have starts : startsName (".".intercalate (segmentTexts (next :: rest))).toList = true := by
        have next_starts := (names.2 next (by simp)).startsName_eq
        rw [segmentTexts]
        cases rest with
        | nil => simpa [segmentTexts, Segment.toList_text] using startsName_append next_starts _
        | cons third rest =>
            rw [segmentTexts, String.intercalate_cons_cons]
            simpa [Segment.toList_text] using startsName_append next_starts _
      rw [text_eq, lastUnqualified]
      exact .qualifier names.1 (ih names.2 bare.2 cuts.2) starts

theorem TypeRef.IsNamed.isCutAlike {type : TypeRef} (named : type.IsNamed) : type.IsCutAlike := by
  induction named with
  | @mk path dimensions names bare inside ih =>
      rw [IsCutAlike, unqualified, text, text, String.toList_append, String.toList_append]
      exact (cutsTo_path names bare ih).append (cutsTo_brackets dimensions)
        (endsName_brackets dimensions)

/-- Cutting the text of a type gives the text of the tree in which every path, at any
depth, is cut to its last segment. -/
theorem simpleType_text (type : TypeRef) (named : type.IsNamed) :
    simpleType type.text = type.unqualified.text := by
  have cut := named.isCutAlike [] (by simp [EndsName])
  rw [List.append_nil, unqualifyFrom, Option.getD_none, List.append_nil] at cut
  rw [simpleType, cut, String.ofList_toList]

theorem simpleType_nestedType :
    nestedType.IsNamed ∧ nestedType.text = "util.Map<Key, List<? super shop.Food<?>[]>>[]" ∧
      simpleType nestedType.text = "Map<Key, List<? super Food<?>[]>>[]" := by
  have named : nestedType.IsNamed := by
    simp only [nestedType, TypeRef.isNamed_iff, List.mem_cons, List.not_mem_nil, or_false,
      Segment.letters, Segment.name, forall_eq_or_imp, forall_eq, List.dropLast_cons_cons,
      List.dropLast_singleton, Segment.arguments, TypeArgument.type?, Option.mem_def,
      IsEmpty.forall_iff, implies_true, Option.some.injEq, forall_eq', and_self, and_true,
      reduceCtorEq, true_and]
    decide
  refine ⟨named, by decide +kernel, ?_⟩
  rw [simpleType_text nestedType named]
  decide +kernel

end JavaUml.Java
