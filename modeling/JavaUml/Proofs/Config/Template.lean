import JavaUml.Config.Placeholder

/-!
# Texts with references

A name is what may stand between the braces of a reference.  In a template every
`$` opens a reference, so a template is read from the front in one way only, and
substitution follows that reading character by character and reference by
reference.

Most values are shown without a `$`, so their texts open no reference.
-/

namespace JavaUml.Config

/-- What may stand between the braces of a reference. -/
def IsName (name : List Char) : Prop :=
  name ≠ [] ∧ name.all isNamePart

instance (name : List Char) : Decidable (IsName name) :=
  inferInstanceAs (Decidable (name ≠ [] ∧ name.all isNamePart = true))

theorem IsName.isNamePart {name : List Char} (isName : IsName name) : ∀ c ∈ name, isNamePart c :=
  List.all_eq_true.1 isName.2

/-- Texts in which each `$` opens a reference. -/
inductive IsTemplate : List Char → Prop
  | nil : IsTemplate []
  | literal {c : Char} {rest : List Char} (plain : c ≠ '$') (tail : IsTemplate rest) :
      IsTemplate (c :: rest)
  | reference {name rest : List Char} (isName : IsName name) (tail : IsTemplate rest) :
      IsTemplate (written name ++ rest)

/-- A text holds a reference to a name. -/
def Mentions (text name : List Char) : Prop :=
  IsName name ∧ written name <:+: text

/-! ## Reading a reference -/

theorem takeWhile_isNamePart {name : List Char} (isName : IsName name) (rest : List Char) :
    (name ++ '\x7d' :: rest).takeWhile isNamePart = name := by
  rw [List.takeWhile_append_of_pos isName.isNamePart, List.takeWhile_cons_of_neg (by decide),
    List.append_nil]

theorem dropWhile_isNamePart {name : List Char} (isName : IsName name) (rest : List Char) :
    (name ++ '\x7d' :: rest).dropWhile isNamePart = '\x7d' :: rest := by
  rw [List.dropWhile_append_of_pos isName.isNamePart, List.dropWhile_cons_of_neg (by decide)]

theorem reference?_of_isName {name : List Char} (isName : IsName name) (rest : List Char) :
    reference? (name ++ '\x7d' :: rest) = some (name, rest) := by
  unfold reference?
  rw [takeWhile_isNamePart isName, dropWhile_isNamePart isName]
  cases name with
  | nil => exact absurd rfl isName.1
  | cons first others => rfl

theorem written_append (name rest : List Char) :
    written name ++ rest = '$' :: '\x7b' :: (name ++ '\x7d' :: rest) := by
  simp [written]

/-- A reference at the front of a text can be read in one way only. -/
theorem written_append_inj {name other rest after : List Char} (isName : IsName name)
    (isOther : IsName other) (same : written name ++ rest = written other ++ after) :
    name = other ∧ rest = after := by
  rw [written_append, written_append, List.cons.injEq, List.cons.injEq] at same
  have read := congrArg reference? same.2.2
  rw [reference?_of_isName isName, reference?_of_isName isOther] at read
  simpa using read

/-! ## The references of a text -/

theorem not_mentions_nil (name : List Char) : ¬ Mentions [] name := by
  rintro ⟨_, inside⟩
  simp [written] at inside

theorem mentions_cons_iff {c : Char} (plain : c ≠ '$') {rest name : List Char} :
    Mentions (c :: rest) name ↔ Mentions rest name := by
  have noFront : ¬ written name <+: c :: rest := by
    rw [written, List.cons_append, List.cons_append, List.cons_prefix_cons]
    exact fun front => plain front.1.symm
  rw [Mentions, Mentions, List.infix_cons_iff, or_iff_right noFront]

/-- No reference opens inside a name. -/
theorem infix_name_append {name rest : List Char} (isName : ∀ c ∈ name, isNamePart c)
    {other : List Char} (inside : written other <:+: name ++ '\x7d' :: rest) :
    written other <:+: rest := by
  induction name with
  | nil =>
      rcases List.infix_cons_iff.1 inside with front | behind
      · simp [written] at front
      · exact behind
  | cons c name ih =>
      have others : ∀ c ∈ name, isNamePart c := fun c mem => isName c (List.mem_cons_of_mem _ mem)
      rw [List.cons_append, List.infix_cons_iff] at inside
      rcases inside with front | behind
      · cases name with
        | nil => simp [written] at front
        | cons second name =>
            simp only [written, List.cons_append, List.cons_prefix_cons] at front
            have part : isNamePart second := others second List.mem_cons_self
            rw [← front.2.1] at part
            exact absurd part (by decide)
      · exact ih others behind

theorem mentions_written_append_iff {name rest other : List Char} (isName : IsName name) :
    Mentions (written name ++ rest) other ↔ other = name ∨ Mentions rest other := by
  constructor
  · rintro ⟨isOther, inside⟩
    rcases List.infix_cons_iff.1 (written_append name rest ▸ inside) with front | behind
    · obtain ⟨after, same⟩ := front
      rw [← written_append] at same
      exact .inl (written_append_inj isOther isName same).1
    · rcases List.infix_cons_iff.1 behind with front | inName
      · simp [written] at front
      · exact .inr ⟨isOther, infix_name_append isName.isNamePart inName⟩
  · rintro (rfl | ⟨isOther, inside⟩)
    · exact ⟨isName, (List.prefix_append _ _).isInfix⟩
    · exact ⟨isOther, inside.trans (List.suffix_append _ _).isInfix⟩

/-! ## Substitution along a template -/

/-- A text from its first `$` on, with its references replaced. -/
def reopened (valueOf : String → Option String) : List Char → List Char
  | '$' :: '\x7b' :: after =>
      match reference? after with
      | some (name, rest) =>
          ((valueOf (String.ofList name)).map String.toList).getD (written name) ++
            substitute valueOf rest
      | none => '$' :: substitute valueOf ('\x7b' :: after)
  | '$' :: after => '$' :: substitute valueOf after
  | _ => []

theorem substitute_eq (valueOf : String → Option String) (text : List Char) :
    substitute valueOf text =
      text.takeWhile isLiteral ++ reopened valueOf (text.dropWhile isLiteral) := by
  rw [substitute]
  congr 1
  split
  · rename_i after found
    dsimp only
    rw [found, reopened]
    split <;> rename_i named <;> rw [named]
  · rename_i after noBrace found
    dsimp only
    rw [found, reopened]
    exact noBrace
  · rename_i noReference
    rw [reopened]
    · exact fun after found => noReference _ found
    · exact fun after found => noReference _ found

@[simp]
theorem substitute_nil (valueOf : String → Option String) : substitute valueOf [] = [] := by
  rw [substitute_eq]
  rfl

theorem substitute_cons_of_ne (valueOf : String → Option String) {c : Char} (plain : c ≠ '$')
    (rest : List Char) : substitute valueOf (c :: rest) = c :: substitute valueOf rest := by
  have isLiteral_c : isLiteral c := by simpa [isLiteral] using plain
  rw [substitute_eq, List.takeWhile_cons_of_pos isLiteral_c,
    List.dropWhile_cons_of_pos isLiteral_c, List.cons_append, ← substitute_eq]

theorem substitute_written_append (valueOf : String → Option String) {name : List Char}
    (isName : IsName name) (rest : List Char) :
    substitute valueOf (written name ++ rest) =
      ((valueOf (String.ofList name)).map String.toList).getD (written name) ++
        substitute valueOf rest := by
  rw [written_append, substitute_eq, List.takeWhile_cons_of_neg (by decide),
    List.dropWhile_cons_of_neg (by decide), List.nil_append, reopened,
    reference?_of_isName isName]

/-! ## Values that are shown without a dollar sign -/

/-- A text that opens no reference. -/
def IsPlain (text : String) : Prop :=
  '$' ∉ text.toList

instance (text : String) : Decidable (IsPlain text) :=
  inferInstanceAs (Decidable ('$' ∉ text.toList))

theorem isPlain_append {text other : String} :
    IsPlain (text ++ other) ↔ IsPlain text ∧ IsPlain other := by
  rw [IsPlain, String.toList_append, List.mem_append, not_or]
  rfl

theorem not_mem_toDigits (n : Nat) : '$' ∉ Nat.toDigits 10 n := by
  intro mem
  have digit : '$'.isDigit := Nat.isDigit_of_mem_toDigits (by decide) (by decide) mem
  exact absurd digit (by decide)

theorem isPlain_natText (n : Nat) : IsPlain (toString n) := by
  rw [IsPlain, Nat.toString_eq_repr, Nat.toList_repr]
  exact not_mem_toDigits n

theorem isPlain_intText (n : Int) : IsPlain (toString n) := by
  cases n with
  | ofNat n => exact isPlain_natText n
  | negSucc n => exact isPlain_append.2 ⟨by decide, isPlain_natText (n + 1)⟩

theorem isPlain_decimalText (digits : Nat) (exponent : Int) :
    IsPlain (Decimal.decimalText digits exponent) := by
  have noDollar := not_mem_toDigits digits
  rw [IsPlain, Decimal.decimalText, String.toList_ofList]
  generalize Nat.toDigits 10 digits = chars at noDollar
  dsimp only
  split
  · split
    · simp [noDollar]
    · have noTake (n : Nat) : '$' ∉ chars.take n :=
        fun mem => noDollar (List.mem_of_mem_take mem)
      have noDrop (n : Nat) : '$' ∉ chars.drop n :=
        fun mem => noDollar (List.mem_of_mem_drop mem)
      split <;> simp [noTake, noDrop]
  · have noExponent (power : Int) : '$' ∉ 'e' :: (if power < 0 then '-' else '+') ::
        (List.replicate (2 - (Nat.toDigits 10 power.natAbs).length) '0' ++
          Nat.toDigits 10 power.natAbs) := by
      split <;> simp [not_mem_toDigits]
    refine List.not_mem_append ?_ (noExponent _)
    split <;> simp_all

theorem isPlain_floatText (value : Decimal.Binary64) : IsPlain value.text := by
  have sign (negative : Bool) : IsPlain (if negative then "-" else "") := by
    cases negative <;> decide
  unfold Decimal.Binary64.text
  split
  · decide
  · split <;> decide
  · dsimp only
    split <;> rw [isPlain_append]
    · exact ⟨sign _, by decide⟩
    · exact ⟨sign _, isPlain_decimalText _ _⟩

theorem isPlain_padded (width n : Nat) : IsPlain (Calendar.padded width n) := by
  rw [Calendar.padded, isPlain_append]
  exact ⟨by simp [IsPlain], isPlain_natText n⟩

theorem isPlain_dateText (date : Calendar.Date) : IsPlain date.text := by
  have dash : IsPlain "-" := by decide
  simp only [Calendar.Date.text, isPlain_append, isPlain_padded, dash, and_self]

theorem isPlain_offsetText (minutes : Int) : IsPlain (Calendar.offsetText minutes) := by
  have sign : IsPlain (if minutes < 0 then "-" else "+") := by split <;> decide
  have colon : IsPlain ":" := by decide
  simp only [Calendar.offsetText, isPlain_append, isPlain_padded, sign, colon, and_self]

theorem isPlain_momentText (moment : Calendar.Moment) : IsPlain moment.text := by
  have blank : IsPlain " " := by decide
  have colon : IsPlain ":" := by decide
  have fraction : IsPlain (if moment.microsecond = 0 then ""
      else "." ++ Calendar.padded 6 moment.microsecond) := by
    split
    · decide
    · exact isPlain_append.2 ⟨by decide, isPlain_padded _ _⟩
  have offset : IsPlain ((moment.offset.map Calendar.offsetText).getD "") := by
    cases moment.offset with
    | none => decide
    | some minutes => exact isPlain_offsetText minutes
  simp only [Calendar.Moment.text, isPlain_append, isPlain_dateText, isPlain_padded, blank, colon,
    fraction, offset, and_self]

end JavaUml.Config
