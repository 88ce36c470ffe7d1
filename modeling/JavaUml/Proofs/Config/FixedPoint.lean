import JavaUml.Proofs.Config.Expansion

/-!
# What resolving leaves alone, and where it ends

Whatever the references of a configuration are, the rounds only ever change texts
in which a reference may open.  A round that reports no change has left every
text as it was, although it writes into the configuration that it reads, so the
configuration that resolving settles on is one that further rounds keep.
-/

namespace JavaUml.Config

/-! ## Texts in which no reference opens -/

/-- A reference may open in a text: somewhere a `$` stands before a brace. -/
def MayRefer (text : String) : Prop :=
  ['$', '\x7b'] <:+: text.toList

theorem substitute_dollar (valueOf : String → Option String) {rest : List Char}
    (noBrace : rest.head? ≠ some '\x7b') :
    substitute valueOf ('$' :: rest) = '$' :: substitute valueOf rest := by
  rw [substitute_eq, List.takeWhile_cons_of_neg (by decide),
    List.dropWhile_cons_of_neg (by decide), List.nil_append, reopened]
  rintro after rfl
  exact noBrace rfl

theorem substitute_of_not_infix (valueOf : String → Option String) {text : List Char}
    (closed : ¬ ['$', '\x7b'] <:+: text) : substitute valueOf text = text := by
  induction text with
  | nil => exact substitute_nil valueOf
  | cons c rest ih =>
      rw [List.infix_cons_iff, not_or] at closed
      by_cases dollar : c = '$'
      · subst dollar
        have noBrace : rest.head? ≠ some '\x7b' := by
          intro brace
          rcases List.head?_eq_some_iff.1 brace with ⟨after, rfl⟩
          exact closed.1 ⟨after, rfl⟩
        rw [substitute_dollar valueOf noBrace, ih closed.2]
      · rw [substitute_cons_of_ne valueOf dollar, ih closed.2]

/-! ## The shape of a configuration -/

/-- What may become of a text: one in which no reference opens stays as it is. -/
def MayBecome (text replaced : String) : Prop :=
  ¬ MayRefer text → replaced = text

theorem mayBecome_refl (text : String) : MayBecome text text :=
  fun _ => rfl

theorem advances_mayBecome (config : Setting) : Advances config MayBecome MayBecome where
  weaken _ _ became := became
  substitute whole _ leaf text became := by
    intro closed
    rw [became closed, substitute_of_not_infix _ closed, String.ofList_toList]

theorem rounds_mayBecome {config : Setting} (left : Nat) {current : Setting}
    (here : Corresponds MayBecome config current) :
    Corresponds MayBecome config (rounds left current).1 := by
  induction left generalizing current with
  | zero => exact here
  | succ left ih =>
      have after : Corresponds MayBecome config (next current) :=
        round_advances (advances_mayBecome config) here
      rw [rounds_succ]
      cases (round current).2 with
      | false => exact after
      | true => exact ih after

/-! ## Fixed points -/

/-- Rounds settle on a configuration that another round leaves as it is. -/
theorem exists_fixed_of_settled {left : Nat} {config result : Setting}
    (settled : rounds left config = (result, true)) :
    (∃ count < left, next^[count] config = result) ∧ round result = (result, false) := by
  induction left generalizing config with
  | zero => simp [rounds] at settled
  | succ left ih =>
      rw [rounds_succ] at settled
      cases changed : (round config).2 with
      | true =>
          rw [changed] at settled
          rcases ih settled with ⟨⟨count, inTime, reached⟩, fixed⟩
          exact ⟨⟨count + 1, Nat.succ_lt_succ inTime, reached⟩, fixed⟩
      | false =>
          have same : next config = config := (expand_unchanged_iff config id).1 changed
          rw [changed, same] at settled
          cases settled
          exact ⟨⟨0, Nat.succ_pos left, rfl⟩, Prod.ext same changed⟩

/-- The warning is left out exactly if the rounds settled. -/
theorem silent_iff_settled (config : Setting) :
    (resolve config).2 = [] ↔ rounds greatestRounds config = ((resolve config).1, true) := by
  have logged : (resolve config).2 =
      if (rounds greatestRounds config).2 then [] else [unresolvedWarning] := rfl
  constructor
  · intro silent
    cases settled : (rounds greatestRounds config).2 with
    | true => exact Prod.ext rfl settled
    | false =>
        rw [silent, settled] at logged
        cases logged
  · intro settled
    rw [logged, settled]
    rfl

theorem resolve_of_fixed {count : Nat} {config : Setting} (inTime : count < greatestRounds)
    (fixed : next (next^[count] config) = next^[count] config) :
    resolve config = (next^[count] config, []) := by
  rw [resolve, rounds_of_fixed inTime fixed]
  rfl

/-- Resolving keeps the keys and their order, the lengths of sequences, every
value that is no text and every text in which no reference opens.  Nothing is
logged exactly if the rounds reach a configuration that a round keeps, and then
neither a further round nor resolving again changes the result. -/
theorem resolve_settles (config : Setting) :
    Corresponds MayBecome config (resolve config).1 ∧
      ((resolve config).2 = [] ↔
        ∃ count < greatestRounds, next (next^[count] config) = next^[count] config) ∧
      ((resolve config).2 = [] →
        round (resolve config).1 = ((resolve config).1, false) ∧
          resolve (resolve config).1 = ((resolve config).1, [])) := by
  constructor
  · exact rounds_mayBecome greatestRounds (.refl fun leaf _ => mayBecome_refl leaf)
  constructor
  · constructor
    · intro silent
      rcases exists_fixed_of_settled ((silent_iff_settled config).1 silent) with
        ⟨⟨count, inTime, reached⟩, fixed⟩
      exact ⟨count, inTime, by rw [reached, next, fixed]⟩
    · rintro ⟨count, inTime, fixed⟩
      rw [resolve_of_fixed inTime fixed]
  · intro silent
    have fixed := (exists_fixed_of_settled ((silent_iff_settled config).1 silent)).2
    have kept : next (resolve config).1 = (resolve config).1 := by rw [next, fixed]
    exact ⟨fixed, resolve_of_fixed (by decide : 0 < greatestRounds) kept⟩

end JavaUml.Config
