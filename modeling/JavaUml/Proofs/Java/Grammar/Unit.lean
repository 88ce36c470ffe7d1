import JavaUml.Proofs.Java.Grammar.Declarations

/-!
# What compilation units read

Goals are met as they should be for a number of tokens if they may be nested three
times as deep: of three goals that follow each other without taking a token, the last
one takes one.  With that the types of a unit are read from its tokens, behind a
header that takes some of them off the front.
-/

namespace JavaUml.Java

namespace Grammar

/-! ## Goals at any depth -/

/-- If goals are met for less tokens than a limit, then also for one more, at depths that
leave room for three goals without a token between them. -/
theorem meets_succ {limit : Nat}
    (meets : ∀ depth, 3 * limit ≤ depth → Meets (meet depth) limit) {depth : Nat}
    (deep : 3 * (limit + 1) ≤ depth) : Meets (meet depth) (limit + 1) := by
  have below : ∀ {depth}, 3 * limit + 1 ≤ depth →
      ∃ inner, depth = inner + 1 ∧ 3 * limit ≤ inner ∧ Meets (meet inner) limit := by
    intro depth enough
    exact ⟨depth - 1, by omega, by omega, meets _ (by omega)⟩
  -- Goals that take a token before they recur.
  have operand : ∀ {depth}, 3 * limit + 1 ≤ depth → ∀ tokens,
      At (limit + 1) tokens (meet depth .operand) (Value tokens) := by
    intro depth enough
    obtain ⟨inner, rfl, _, inside⟩ := below enough
    exact reads_operand inside
  have annotationUse : ∀ {depth}, 3 * limit + 1 ≤ depth → ∀ tokens,
      At (limit + 1) tokens (meet depth .annotationUse) (AnnotationUse tokens) := by
    intro depth enough
    obtain ⟨inner, rfl, _, inside⟩ := below enough
    exact reads_annotationUse inside
  have block : ∀ {depth}, 3 * limit + 1 ≤ depth → ∀ tokens,
      At (limit + 1) tokens (meet depth .block) (Enclosed openBrace closeBrace .code tokens) := by
    intro depth enough
    obtain ⟨inner, rfl, _, inside⟩ := below enough
    exact reads_block inside
  -- Goals that may recur to one of these at once.
  have expression : ∀ {depth}, 3 * limit + 2 ≤ depth → ∀ tokens,
      At (limit + 1) tokens (meet depth .expression) (Value tokens) := by
    intro depth enough
    obtain ⟨inner, rfl, _, inside⟩ := below (by omega : 3 * limit + 1 ≤ depth)
    exact reads_expression inside (operand (by omega))
  have conditional : ∀ {depth}, 3 * limit + 2 ≤ depth → ∀ tokens,
      At (limit + 1) tokens (meet depth .conditional) (Value tokens) := by
    intro depth enough
    obtain ⟨inner, rfl, _, inside⟩ := below (by omega : 3 * limit + 1 ≤ depth)
    exact reads_conditional inside (operand (by omega))
  obtain ⟨inner, rfl, _, inside⟩ := below (by omega : 3 * limit + 1 ≤ depth)
  exact {
    expression := expression (by omega)
    conditional := conditional (by omega)
    operand := operand (by omega)
    variableValue := reads_variableValue inside (expression (by omega))
    elementValue := reads_elementValue inside (annotationUse (by omega)) (conditional (by omega))
    annotationUse := annotationUse (by omega)
    statement := reads_statement inside (block (by omega)) (expression (by omega))
    typeDeclaration := reads_typeDeclaration inside (annotationUse (by omega))
    block := block (by omega)
    classBody := reads_anonymousBody inside
    deep := ⟨inner + 1, deep, rfl⟩ }

theorem meets_meet (limit : Nat) :
    ∀ depth, 3 * limit ≤ depth → Meets (meet depth) limit := by
  induction limit with
  | zero =>
      intro depth deep
      have never : ∀ {α : Type} {parser : Parser α} {post : List Token → α → List Token → Prop}
          (tokens : List Token), At 0 tokens parser (post tokens) :=
        fun tokens fits => absurd fits (Nat.not_lt_zero _)
      exact ⟨never, never, never, never, never, never, never, never, never, never,
        depth, deep, rfl⟩
  | succ limit ih => exact fun _ deep => meets_succ ih deep

/-! ## Units -/

theorem reads_rulesHere (tokens : List Token) :
    At (tokens.length + 1) tokens rulesHere fun rules rest =>
      rest = tokens ∧ ∀ limit ≤ tokens.length + 1, Meets rules limit := by
  have rounds : At (tokens.length + 1) tokens enoughRounds fun rounds rest =>
      rest = tokens ∧ rounds = tokens.length + 1 :=
    fun _ _ _ => ⟨⟨rfl, rfl⟩, List.suffix_refl tokens, .inl rfl⟩
  refine rounds.bind ?_
  rintro _ _ ⟨rfl, rfl⟩
  exact .pure ⟨rfl, fun limit below => meets_meet limit _ (by omega)⟩

theorem reads_unitTypes (tokens : List Token) :
    At (tokens.length + 1) tokens unitTypes fun types rest =>
      Reads .code .other tokens .other types rest ∧ rest = [] := by
  refine (reads_rulesHere tokens).bind ?_
  rintro rules whole ⟨rfl, meets⟩
  have declaration : ∀ tokens, At (whole.length + 1) tokens
      (do if ← accept [";"] then return [] else return [← typeDeclaration rules])
      fun found rest => Reads .code .other tokens .other found rest := by
    intro tokens
    refine .accepting ?_ ?_
    · rintro semicolon rest rfl text_eq lexical
      exact .pure (.of_sign (by decide) text_eq lexical (by decide) (by decide))
    · refine (reads_typeDeclaration (meets whole.length (Nat.le_succ _))
        (meets _ (Nat.le_refl _)).annotationUse tokens).bind ?_
      intro node rest reads
      exact .pure reads
  have declarations : ∀ tokens, At (whole.length + 1) tokens
      (untilHolds (do return (← left).isEmpty)
        (do if ← accept [";"] then return [] else return [← typeDeclaration rules]))
      fun found rest => Reads .code .other tokens .other found.flatten rest ∧ rest = [] := by
    refine At.untilHolds fun tokens => ?_
    refine At.left.bind ?_
    rintro _ tokens ⟨rfl, rfl⟩
    refine .pure ?_
    cases tokens with
    | nil => exact ⟨.refl, rfl⟩
    | cons token more =>
        refine (declaration (token :: more)).mono ?_
        rintro first between reads others rest ⟨further, done⟩
        exact ⟨reads.trans further, done⟩
  refine (declarations whole).bind ?_
  intro types rest reads
  exact .pure reads

/-- A parser that leaves tokens of a text, to go on with or to go back to, where it is given
such. -/
def StaysIn {α : Type} (tokens : List Token) (parser : Parser α) : Prop :=
  ∀ place result later, place.tokens <:+ tokens → place.back <:+ tokens →
    parser place = .ok (result, later) → later.tokens <:+ tokens ∧ later.back <:+ tokens

namespace StaysIn

variable {α β : Type} {tokens : List Token} {parser : Parser α}

theorem bind {next : α → Parser β} (first : StaysIn tokens parser)
    (second : ∀ result, StaysIn tokens (next result)) : StaysIn tokens (parser >>= next) := by
  intro place result later inside back ran
  simp only [Bind.bind, StateT.bind, Except.bind] at ran
  split at ran
  · cases ran
  · rename_i reached reached_eq
    obtain ⟨inside, back⟩ := first place reached.1 reached.2 inside back reached_eq
    exact second reached.1 reached.2 result later inside back ran

theorem of_at (lexical : AllLexical tokens)
    (reads : ∀ tokens, At (tokens.length + 1) tokens parser fun _ _ => True) :
    StaysIn tokens parser := by
  intro place result later inside back ran
  have reached := reads place.tokens (Nat.lt_succ_self _) (lexical.of_suffix inside) place.back
  rw [ran] at reached
  refine ⟨reached.2.1.trans inside, ?_⟩
  rcases reached.2.2 with same | inner
  · rwa [same]
  · exact inner.trans inside

theorem goBack (result : α) : StaysIn tokens (do goTo (← get).back; return result) := by
  rintro place _ _ _ back ⟨⟩
  exact ⟨back, back⟩

end StaysIn

theorem staysIn_packageDeclaration {tokens : List Token} (lexical : AllLexical tokens) :
    StaysIn tokens packageDeclaration := by
  have finish : ∀ found : List Node, StaysIn tokens
      (do
        if ← accept ["package"] then
          let name ← qualifiedName
          expect ";"
          return (name, found)
        else
          goTo (← get).back
          return ("", [])) := by
    intro found
    refine .bind (.of_at lexical fun _ => At.accept.mono fun _ _ _ => trivial) ?_
    rintro (_ | _)
    · exact .goBack ("", [])
    · refine .of_at lexical fun tokens => ?_
      exact (reads_qualifiedName tokens).bind fun _ _ _ =>
        .expecting fun _ _ _ _ _ => .pure trivial
  refine .bind (.of_at lexical fun tokens =>
    (reads_annotationAhead tokens).mono fun _ _ _ => trivial) ?_
  rintro (_ | _)
  · exact finish []
  · dsimp only
    rw [if_pos rfl, ← bind_assoc]
    refine .bind (.of_at lexical fun tokens => ?_) finish
    refine (reads_rulesHere tokens).bind ?_
    rintro rules tokens ⟨rfl, meets⟩
    exact (reads_annotations (meets _ (Nat.le_refl _)) tokens).mono fun _ _ _ => trivial

theorem reads_importPathIn {limit : Nat} (rounds : Nat) (tokens : List Token) :
    At limit tokens (importPathIn rounds) fun _ _ => True := by
  induction rounds generalizing tokens with
  | zero => exact .mismatch
  | succ rounds ih =>
      refine .naming ?_
      rintro name tokens rfl _
      refine .accepting ?_ (.expecting fun _ _ _ _ _ => .pure trivial)
      rintro dot tokens rfl _ _
      refine .accepting (fun _ _ _ _ _ => .expecting fun _ _ _ _ _ => .pure trivial) ?_
      exact (ih tokens).bind fun _ _ _ => .pure trivial

theorem reads_importDeclaration {limit : Nat} (tokens : List Token) :
    At limit tokens importDeclaration fun _ _ => True := by
  refine .expecting ?_
  rintro word tokens rfl _ _
  refine At.accept.bind fun _ between _ => ?_
  refine At.enoughRounds.bind fun rounds _ _ => ?_
  exact (reads_importPathIn rounds _).bind fun _ _ _ => .pure trivial

theorem staysIn_imports {tokens : List Token} (lexical : AllLexical tokens) :
    StaysIn tokens (whileHolds (ahead ["import"]) importDeclaration) := by
  have imports : ∀ {limit} tokens, At limit tokens (whileHolds (ahead ["import"]) importDeclaration)
      fun _ _ => True := by
    intro limit
    refine At.whileHolds fun tokens => ?_
    refine At.ahead.mono ?_
    rintro (_ | _) rest _
    · trivial
    · exact (reads_importDeclaration rest).mono fun _ _ _ _ _ => id
  exact .of_at lexical fun tokens => imports tokens

theorem staysIn_unitHeader {tokens : List Token} (lexical : AllLexical tokens) :
    StaysIn tokens unitHeader := by
  refine .bind (staysIn_packageDeclaration lexical) ?_
  rintro ⟨package, annotations⟩
  refine .bind (staysIn_imports lexical) fun imports => ?_
  exact .of_at lexical fun tokens => .pure trivial

theorem eq_ok_of_mapError {α : Type} {fault : Failure → Fault} {outcome : Except Failure α}
    {result : α} (mapped : outcome.mapError fault = .ok result) : outcome = .ok result := by
  cases outcome with
  | error failure => cases mapped
  | ok found =>
      cases mapped
      rfl

theorem unitOf_eq_ok {tokens : List Token} {unit : CompilationUnit}
    (parsed : unitOf tokens = .ok unit) :
    ∃ found place later, unitHeader (.start tokens) = .ok (found, place) ∧
      unitTypes place = .ok (unit.types, later) ∧ unit.package = found.1 := by
  unfold unitOf at parsed
  simp only [Bind.bind, Except.bind] at parsed
  split at parsed
  · cases parsed
  · rename_i header header_eq
    split at parsed
    · cases parsed
    · rename_i types types_eq
      cases parsed
      exact ⟨header.1, header.2, types.2, eq_ok_of_mapError header_eq, eq_ok_of_mapError types_eq,
        rfl⟩

/-- The types of a unit are read from tokens at the end of its text. -/
theorem reads_unitOf {tokens : List Token} {unit : CompilationUnit} (lexical : AllLexical tokens)
    (parsed : unitOf tokens = .ok unit) :
    ∃ rest, rest <:+ tokens ∧ Reads .code .other rest .other unit.types [] := by
  obtain ⟨found, place, later, header_eq, types_eq, _⟩ := unitOf_eq_ok parsed
  obtain ⟨within, _⟩ := staysIn_unitHeader lexical (.start tokens) found place
    (List.suffix_refl tokens) (List.suffix_refl tokens) header_eq
  have reached := reads_unitTypes place.tokens (Nat.lt_succ_self _) (lexical.of_suffix within)
    place.back
  rw [types_eq] at reached
  obtain ⟨⟨reads, done⟩, _⟩ := reached
  rw [done] at reads
  exact ⟨place.tokens, within, reads⟩

end Grammar

/-! ## Tokens -/

/-- A word that is not reserved is not a sign either, since signs do not start like
words. -/
theorem isLexical_ofWord (c : Char) (starts : Text.isIdentifierStart c = true) (rest : List Char) :
    (Token.ofWord (.startingWith c starts rest)).IsLexical := by
  have signs : ∀ sign ∈ operators ++ separators.map String.singleton ++ ["@"],
      sign.toList.head?.any Text.isIdentifierStart = false := by decide +kernel
  unfold Token.ofWord
  split
  · rename_i known
    exact List.contains_iff_mem.1 known
  · split
    · rename_i known
      exact List.contains_iff_mem.1 known
    · split
      · trivial
      · split
        · trivial
        · rename_i modifier basic keyword literal
          simp only [List.contains_iff_mem] at modifier basic keyword literal
          intro known
          have sign : (Word.startingWith c starts rest).text ∈
              operators ++ separators.map String.singleton ++ ["@"] := by
            simpa only [reserved, List.mem_append, modifier, basic, keyword, literal, false_or]
              using known
          have unlike := signs _ sign
          simp [Word.startingWith, starts] at unlike

theorem isLexical_of_takeToken {c : Char} {rest behind : List Char} {token : Token}
    (taken : takeToken c rest = .ok (some token, behind)) : token.IsLexical := by
  have operator : ∀ found, operator? (c :: rest) = some found → found.1.IsLexical := by
    intro found found_eq
    obtain ⟨sign, _, rfl⟩ := Option.map_eq_some_iff.1 found_eq
    trivial
  have word := fun starts => isLexical_ofWord c starts rest
  simp only [takeToken, Bind.bind, Except.bind] at taken
  by_cases starts : Text.isIdentifierStart c = true
  · grind [Token.IsLexical]
  · rw [dif_neg starts] at taken
    cases found : operator? (c :: rest) with
    | none => grind [Token.IsLexical]
    | some sign =>
        have known := operator sign found
        grind [Token.IsLexical]

/-- What holds of every token that can be taken holds of all tokens of a text. -/
theorem forall_mem_tokensFrom {holds : Token → Prop}
    (one : ∀ {c rest token behind}, takeToken c rest = .ok (some token, behind) → holds token)
    {fuel : Nat} {text : List Char} {found : List Token} (cut : tokensFrom fuel text = .ok found) :
    ∀ token ∈ found, holds token := by
  induction fuel generalizing text found with
  | zero =>
      cases cut
      simp
  | succ fuel ih =>
      cases text with
      | nil =>
          cases cut
          simp
      | cons c rest =>
          simp only [tokensFrom, Bind.bind, Except.bind] at cut
          split at cut
          · cases cut
          · rename_i taken taken_eq
            split at cut
            · cases cut
            · rename_i later later_eq
              cases cut
              intro token mem
              rcases List.mem_append.1 mem with own | among
              · obtain ⟨token?, behind⟩ := taken
                rw [Option.mem_toList] at own
                cases own
                exact one taken_eq
              · exact ih later_eq token among

theorem forall_mem_tokens {holds : Token → Prop}
    (one : ∀ {c rest token behind}, takeToken c rest = .ok (some token, behind) → holds token)
    {text : String} {found : List Token} (cut : tokens text = .ok found) :
    ∀ token ∈ found, holds token := by
  unfold tokens at cut
  cases decoded : Escape.decode text.toList with
  | error fault =>
      rw [decoded] at cut
      cases cut
  | ok chars =>
      rw [decoded] at cut
      exact forall_mem_tokensFrom one cut

/-- A tree is read from the tokens of its text. -/
theorem parse_eq_ok {text : String} {unit : CompilationUnit} (parsed : parse text = .ok unit) :
    ∃ found, tokens text = .ok found ∧ Grammar.AllLexical found ∧ unitOf found = .ok unit := by
  unfold parse at parsed
  cases cut : tokens text with
  | error fault =>
      rw [cut] at parsed
      cases parsed
  | ok found =>
      rw [cut] at parsed
      exact ⟨found, rfl, forall_mem_tokens isLexical_of_takeToken cut, parsed⟩

end JavaUml.Java
