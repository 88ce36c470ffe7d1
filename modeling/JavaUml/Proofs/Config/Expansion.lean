import JavaUml.Proofs.Config.Correspondence
import JavaUml.Proofs.Config.Template
import Mathlib

/-!
# Full expansion of texts

The expansion of a text follows each reference to what it names in the original
configuration, and the references in there in turn.  Its height bounds how far.

One substitution looks into a configuration whose texts are already some way on.
It takes away at least one level of every text, and at most doubles how far the
texts are on.  So the rounds lead to the full expansion, whatever the order in
which the texts are replaced.
-/

namespace JavaUml.Config

/-! ## What names stand for -/

/-- What a name stands for. -/
inductive Meaning where
  /-- A missing key, a mapping or a sequence: a reference stays as it is written. -/
  | nothing
  /-- A value without references, by the text that shows it. -/
  | shown (text : String)
  /-- A text, in which there may be references. -/
  | template (value : String)

/-- What a reference to a setting stands for. -/
def Setting.meaning : Setting → Meaning
  | .mapping _ => .nothing
  | .sequence _ => .nothing
  | .scalar (.text value) => .template value
  | setting => .shown setting.display

/-- What a name stands for in a configuration. -/
def meaning (config : Setting) (name : List Char) : Meaning :=
  ((lookup? config (String.ofList name)).map Setting.meaning).getD .nothing

/-- What a substitution puts in the place of a reference. -/
def Meaning.front (name : List Char) : Meaning → List Char
  | .nothing => written name
  | .shown text => text.toList
  | .template value => value.toList

theorem Setting.front_meaning (setting : Setting) (name : List Char) :
    (setting.referenceText?.map String.toList).getD (written name) =
      setting.meaning.front name := by
  cases setting with
  | scalar value => cases value <;> rfl
  | _ => rfl

theorem substitute_reference (config : Setting) {name : List Char} (isName : IsName name)
    (rest : List Char) :
    substitute (referenceText? config) (written name ++ rest) =
      (meaning config name).front name ++ substitute (referenceText? config) rest := by
  rw [substitute_written_append _ isName, referenceText?, meaning]
  cases lookup? config (String.ofList name) with
  | none => rfl
  | some setting => exact congrArg (· ++ _) (setting.front_meaning name)

/-- Meanings that differ in a text only. -/
inductive Meaning.Rel (related : String → String → Prop) : Meaning → Meaning → Prop
  | nothing : Rel related .nothing .nothing
  | shown (text : String) : Rel related (.shown text) (.shown text)
  | template {value other : String} (texts : related value other) :
      Rel related (.template value) (.template other)

theorem Meaning.rel_nothing_iff {related : String → String → Prop} {means : Meaning} :
    Rel related .nothing means ↔ means = .nothing := by
  constructor
  · intro rel
    cases rel
    rfl
  · rintro rfl
    exact .nothing

theorem Meaning.rel_shown_iff {related : String → String → Prop} {text : String} {means : Meaning} :
    Rel related (.shown text) means ↔ means = .shown text := by
  constructor
  · intro rel
    cases rel
    rfl
  · rintro rfl
    exact .shown text

theorem Meaning.rel_template_iff {related : String → String → Prop} {value : String}
    {means : Meaning} :
    Rel related (.template value) means ↔
      ∃ other, means = .template other ∧ related value other := by
  constructor
  · intro rel
    cases rel with
    | template texts => exact ⟨_, rfl, texts⟩
  · rintro ⟨other, rfl, texts⟩
    exact .template texts

theorem Corresponds.meaning {related : String → String → Prop} {setting current : Setting}
    (here : Corresponds related setting current) :
    Meaning.Rel related setting.meaning current.meaning := by
  cases here with
  | text texts => exact .template texts
  | sequence => exact .nothing
  | mapping => exact .nothing
  | fixed isFixed =>
      cases setting with
      | scalar value =>
          cases value with
          | text => simp [Setting.isFixed] at isFixed
          | _ => exact .shown _
      | sequence => simp [Setting.isFixed] at isFixed
      | mapping => simp [Setting.isFixed] at isFixed
      | pair => exact .shown _
      | set => exact .shown _

/-- In corresponding configurations a name has corresponding meanings. -/
theorem meaning_rel {related : String → String → Prop} {config whole : Setting}
    (here : Corresponds related config whole) (name : List Char) :
    Meaning.Rel related (meaning config name) (meaning whole name) := by
  have found := here.at? (dottedPath (String.ofList name))
  rw [meaning, meaning, lookup?, lookup?]
  generalize config.at? (dottedPath (String.ofList name)) = first at found ⊢
  generalize whole.at? (dottedPath (String.ofList name)) = second at found ⊢
  cases found with
  | none => exact .nothing
  | some below => exact below.meaning

/-- The values of a configuration that are no texts show no dollar sign. -/
def ShowsPlain (config : Setting) : Prop :=
  ∀ name text, meaning config name = .shown text → IsPlain text

/-! ## Expansion -/

/-- A text expands to another one, while names keep what they stand for, with at
most that many references inside one another. -/
inductive ExpandsWithin (names : List Char → Meaning) : Nat → List Char → List Char → Prop
  | nil {height : Nat} : ExpandsWithin names height [] []
  | literal {height : Nat} {c : Char} {rest out : List Char} (plain : c ≠ '$')
      (tail : ExpandsWithin names height rest out) :
      ExpandsWithin names height (c :: rest) (c :: out)
  | kept {height : Nat} {name rest out : List Char} (isName : IsName name)
      (means : names name = .nothing) (tail : ExpandsWithin names height rest out) :
      ExpandsWithin names height (written name ++ rest) (written name ++ out)
  | shown {height : Nat} {name rest out : List Char} {text : String} (isName : IsName name)
      (means : names name = .shown text)
      (tail : ExpandsWithin names (height + 1) rest out) :
      ExpandsWithin names (height + 1) (written name ++ rest) (text.toList ++ out)
  | followed {height : Nat} {name rest inner out : List Char} {value : String}
      (isName : IsName name) (means : names name = .template value)
      (below : ExpandsWithin names height value.toList inner)
      (tail : ExpandsWithin names (height + 1) rest out) :
      ExpandsWithin names (height + 1) (written name ++ rest) (inner ++ out)

/-- A text is the full expansion of another one. -/
def IsExpansion (config : Setting) (text expanded : String) : Prop :=
  ∃ height, ExpandsWithin (meaning config) height text.toList expanded.toList

namespace ExpandsWithin

variable {names : List Char → Meaning} {height : Nat}

theorem mono {text out : List Char} (expands : ExpandsWithin names height text out)
    {higher : Nat} (le : height ≤ higher) : ExpandsWithin names higher text out := by
  induction expands generalizing higher with
  | nil => exact .nil
  | literal plain _ ih => exact .literal plain (ih le)
  | kept isName means _ ih => exact .kept isName means (ih le)
  | shown isName means _ ih =>
      obtain ⟨higher, rfl⟩ := Nat.exists_eq_succ_of_ne_zero (by omega : higher ≠ 0)
      exact .shown isName means (ih le)
  | followed isName means _ _ below_ih ih =>
      obtain ⟨higher, rfl⟩ := Nat.exists_eq_succ_of_ne_zero (by omega : higher ≠ 0)
      exact .followed isName means (below_ih (by omega)) (ih le)

theorem append {text other out after : List Char} (expands : ExpandsWithin names height text out)
    (others : ExpandsWithin names height other after) :
    ExpandsWithin names height (text ++ other) (out ++ after) := by
  induction expands with
  | nil => exact others
  | literal plain _ ih => exact .literal plain (ih others)
  | kept isName means _ ih => simpa using kept isName means (ih others)
  | shown isName means _ ih => simpa using shown isName means (ih others)
  | followed isName means below _ _ ih => simpa using followed isName means below (ih others)

/-- A text without a dollar sign is its own expansion. -/
theorem of_plain {text : List Char} (plain : '$' ∉ text) :
    ExpandsWithin names height text text := by
  induction text with
  | nil => exact .nil
  | cons c rest ih =>
      rw [List.mem_cons, not_or] at plain
      exact .literal (Ne.symm plain.1) (ih plain.2)

/-- A text that expands without a reference being replaced stays as it is. -/
theorem eq_of_height_zero {text out : List Char} (expands : ExpandsWithin names 0 text out) :
    out = text := by
  generalize zero : 0 = height at expands
  induction expands with
  | nil => rfl
  | literal _ _ ih => rw [ih zero]
  | kept _ _ _ ih => rw [ih zero]
  | shown => omega
  | followed => omega

theorem cons_inv {c : Char} {rest out : List Char} (plain : c ≠ '$')
    (expands : ExpandsWithin names height (c :: rest) out) :
    ∃ tail, out = c :: tail ∧ ExpandsWithin names height rest tail := by
  generalize text_eq : c :: rest = text at expands
  cases expands with
  | nil => simp at text_eq
  | literal _ tail =>
      simp only [List.cons.injEq] at text_eq
      obtain ⟨rfl, rfl⟩ := text_eq
      exact ⟨_, rfl, tail⟩
  | _ =>
      rw [written_append, List.cons.injEq] at text_eq
      exact absurd text_eq.1 plain

/-- What stands in an expansion in the place of a reference with a meaning. -/
def Replaces (names : List Char → Meaning) (name : List Char) : Meaning → List Char → Prop
  | .nothing, front => front = written name
  | .shown text, front => front = text.toList
  | .template value, front => ∃ height, ExpandsWithin names height value.toList front

theorem written_inv {name rest out : List Char} (isName : IsName name)
    (expands : ExpandsWithin names height (written name ++ rest) out) :
    ∃ front tail, out = front ++ tail ∧ Replaces names name (names name) front ∧
      ExpandsWithin names height rest tail := by
  generalize text_eq : written name ++ rest = text at expands
  cases expands with
  | nil => simp [written] at text_eq
  | literal plain =>
      rw [written_append, List.cons.injEq] at text_eq
      exact absurd text_eq.1.symm plain
  | kept isOther means tail =>
      obtain ⟨rfl, rfl⟩ := written_append_inj isName isOther text_eq
      exact ⟨_, _, rfl, means ▸ rfl, tail⟩
  | shown isOther means tail =>
      obtain ⟨rfl, rfl⟩ := written_append_inj isName isOther text_eq
      exact ⟨_, _, rfl, means ▸ rfl, tail⟩
  | followed isOther means below tail =>
      obtain ⟨rfl, rfl⟩ := written_append_inj isName isOther text_eq
      exact ⟨_, _, rfl, means ▸ ⟨_, below⟩, tail⟩

/-- A text has at most one full expansion. -/
theorem unique {text out other : List Char} {higher : Nat}
    (expands : ExpandsWithin names height text out)
    (others : ExpandsWithin names higher text other) : out = other := by
  induction expands generalizing other higher with
  | nil =>
      generalize nil_eq : [] = text at others
      cases others <;> simp_all [written]
  | literal plain _ ih =>
      obtain ⟨tail, rfl, tail_expands⟩ := cons_inv plain others
      rw [ih tail_expands]
  | kept isName means _ ih =>
      obtain ⟨front, tail, rfl, replaces, tail_expands⟩ := written_inv isName others
      rw [means] at replaces
      rw [ih tail_expands, replaces]
  | shown isName means _ ih =>
      obtain ⟨front, tail, rfl, replaces, tail_expands⟩ := written_inv isName others
      rw [means] at replaces
      rw [ih tail_expands, replaces]
  | followed isName means _ _ below_ih ih =>
      obtain ⟨front, tail, rfl, replaces, tail_expands⟩ := written_inv isName others
      rw [means] at replaces
      obtain ⟨_, front_expands⟩ := replaces
      rw [ih tail_expands, below_ih front_expands]

end ExpandsWithin

theorem IsExpansion.unique {config : Setting} {text expanded other : String}
    (first : IsExpansion config text expanded) (second : IsExpansion config text other) :
    expanded = other := by
  obtain ⟨_, expands⟩ := first
  obtain ⟨_, others⟩ := second
  exact String.toList_injective (expands.unique others)

/-! ## One substitution -/

/-- A text is that many levels further on the way to the full expansion of
another one. -/
def Nearer (config : Setting) (levels : Nat) (leaf text : String) : Prop :=
  ∀ height out, ExpandsWithin (meaning config) height leaf.toList out →
    ExpandsWithin (meaning config) (height - levels) text.toList out

/-- In a configuration that is some levels on, a substitution brings a text one
level more than that further on. -/
theorem substitute_nearer {config whole : Setting} {levels height : Nat}
    (plain : ShowsPlain config)
    (here : Corresponds (Nearer config levels) config whole) {text out : List Char}
    (expands : ExpandsWithin (meaning config) height text out) :
    ExpandsWithin (meaning config) (height - (levels + 1))
      (substitute (referenceText? whole) text) out := by
  induction expands with
  | nil =>
      rw [substitute_nil]
      exact .nil
  | literal isLiteral _ ih =>
      rw [substitute_cons_of_ne _ isLiteral]
      exact .literal isLiteral ih
  | @kept _ name _ _ isName means _ ih =>
      have whole_means := Meaning.rel_nothing_iff.1 (means ▸ meaning_rel here name)
      rw [substitute_reference whole isName, whole_means]
      exact .kept isName means ih
  | @shown _ name _ _ text isName means _ ih =>
      have whole_means := Meaning.rel_shown_iff.1 (means ▸ meaning_rel here name)
      rw [substitute_reference whole isName, whole_means]
      exact (ExpandsWithin.of_plain (plain name text means)).append ih
  | @followed height name _ _ _ value isName means below _ _ ih =>
      obtain ⟨other, whole_means, nearer⟩ :=
        Meaning.rel_template_iff.1 (means ▸ meaning_rel here name)
      rw [substitute_reference whole isName, whole_means]
      rw [Nat.add_sub_add_right] at ih ⊢
      exact (nearer height _ below).append ih

theorem advances_nearer {config : Setting}
    (plain : ShowsPlain config) (levels : Nat) :
    Advances config (Nearer config levels) (Nearer config (2 * levels + 1)) where
  weaken leaf text nearer height out expands := (nearer height out expands).mono (by omega)
  substitute whole here leaf text nearer height out expands := by
    have next := substitute_nearer plain here (nearer height out expands)
    rw [String.toList_ofList]
    exact next.mono (by omega)

/-! ## All rounds -/

/-- The configuration after a round. -/
def next (config : Setting) : Setting :=
  (round config).1

/-- After each round the texts are twice as far on as before, and one level
more. -/
theorem iterate_next_nearer {config : Setting}
    (plain : ShowsPlain config) (count : Nat) :
    Corresponds (Nearer config (2 ^ count - 1)) config (next^[count] config) := by
  induction count with
  | zero => exact .refl fun leaf _ height out expands => expands
  | succ count ih =>
      rw [Function.iterate_succ_apply']
      have step := round_advances (advances_nearer plain (2 ^ count - 1)) ih
      have levels : 2 * (2 ^ count - 1) + 1 = 2 ^ (count + 1) - 1 := by
        have positive : 1 ≤ 2 ^ count := Nat.one_le_two_pow
        omega
      rw [levels] at step
      exact step

theorem rounds_succ (left : Nat) (config : Setting) :
    rounds (left + 1) config =
      if (round config).2 then rounds left (next config) else (next config, true) :=
  rfl

/-- Rounds settle on a configuration that a round leaves as it is, if it is
reached in time. -/
theorem rounds_of_fixed {left count : Nat} {config : Setting} (enough : count < left)
    (fixed : next (next^[count] config) = next^[count] config) :
    rounds left config = (next^[count] config, true) := by
  induction left generalizing count config with
  | zero => omega
  | succ left ih =>
      rw [rounds_succ]
      cases changed : (round config).2 with
      | false =>
          have same : next config = config := (expand_unchanged_iff config id).1 changed
          rw [Function.iterate_fixed same, same]
          rfl
      | true =>
          cases count with
          | zero =>
              have unchanged := (expand_unchanged_iff config id).2 fixed
              rw [round, unchanged] at changed
              simp at changed
          | succ count =>
              rw [Function.iterate_succ_apply] at fixed ⊢
              exact ih (by omega) fixed

section Settled

variable {config : Setting} {height : Nat}

/-- Once the texts are further on than their height, all are fully expanded. -/
theorem iterate_next_expanded
    (plain : ShowsPlain config)
    (covered : ∀ leaf, config.HasLeaf leaf →
      ∃ out, ExpandsWithin (meaning config) height leaf.toList out)
    {count : Nat} (reached : height < 2 ^ count) :
    Corresponds (IsExpansion config) config (next^[count] config) := by
  refine (iterate_next_nearer plain count).mono fun leaf isLeaf text nearer => ?_
  obtain ⟨out, expands⟩ := covered leaf isLeaf
  have settled := nearer height out expands
  rw [Nat.sub_eq_zero_of_le (by omega)] at settled
  rw [settled.eq_of_height_zero] at expands
  exact ⟨height, expands⟩

/-- The rounds settle on the full expansion of all texts. -/
theorem rounds_expand
    (plain : ShowsPlain config)
    (covered : ∀ leaf, config.HasLeaf leaf →
      ∃ out, ExpandsWithin (meaning config) height leaf.toList out)
    {count left : Nat} (reached : height < 2 ^ count) (enough : count < left) :
    ∃ result, rounds left config = (result, true) ∧
      Corresponds (IsExpansion config) config result := by
  have here := iterate_next_expanded plain covered reached
  have after : Corresponds (IsExpansion config) config (next^[count + 1] config) :=
    iterate_next_expanded plain covered (by rw [Nat.pow_succ]; omega)
  have fixed := after.unique here fun _ _ _ _ => IsExpansion.unique
  rw [Function.iterate_succ_apply'] at fixed
  exact ⟨_, rounds_of_fixed enough fixed, here⟩

end Settled

end JavaUml.Config
