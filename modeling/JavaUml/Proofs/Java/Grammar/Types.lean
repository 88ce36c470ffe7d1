import JavaUml.Proofs.Java.Grammar.Reading

/-!
# Types hold no calls

Whatever reads types, names and dimensions takes tokens without parentheses and
braces, and takes angle brackets in pairs.  A type behind `new` has nothing but names
and dots outside of these.
-/

namespace JavaUml.Java

/-! ## Texts of types -/

theorem Angled.append {tokens others : List Token} (first : Angled tokens)
    (second : Angled others) : Angled (tokens ++ others) := by
  induction first with
  | nil => exact second
  | token quiet flat _ ih => exact .token quiet flat ih
  | pair opens closes within _ _ ih =>
      rw [List.cons_append, List.append_assoc, List.cons_append]
      exact .pair opens closes within ih

theorem Angled.quiet {tokens : List Token} (angled : Angled tokens) :
    ∀ token ∈ tokens, token.text ∉ unquiet := by
  induction angled with
  | nil => simp
  | token quiet _ _ ih =>
      intro token mem
      rcases List.mem_cons.1 mem with rfl | mem
      · exact quiet
      · exact ih token mem
  | pair opens closes _ _ within behind =>
      intro token mem
      simp only [List.mem_cons, List.mem_append] at mem
      rcases mem with rfl | inside | rfl | mem
      · rw [opens]
        decide
      · exact within token inside
      · rw [closes]
        decide
      · exact behind token mem

theorem Created.append {tokens others : List Token} (first : Created tokens)
    (second : Created others) : Created (tokens ++ others) := by
  induction first with
  | nil => exact second
  | name named _ ih => exact .name named ih
  | arguments opens closes within _ ih =>
      rw [List.cons_append, List.append_assoc, List.cons_append]
      exact .arguments opens closes within ih

/-- Words and signs that may stand in a type outside of angle brackets. -/
def isFlat (text : String) : Bool :=
  !unquiet.contains text && text != "<" && text != ">"

theorem Angled.singleton {token : Token} {text : String} (text_eq : token.text = text)
    (flat : isFlat text = true) : Angled [token] := by
  unfold isFlat at flat
  refine .token ?_ ?_ .nil <;> simp_all

theorem isFlat_of_not_reserved {text : String} (free : text ∉ reserved) : isFlat text = true := by
  have known : ∀ sign ∈ "<" :: ">" :: unquiet, sign ∈ reserved := by decide
  unfold isFlat
  have quiet : text ∉ unquiet := fun mem => free (known text (by simp [mem]))
  have opening : text ≠ "<" := fun same => free (same ▸ known "<" (by simp))
  have closing : text ≠ ">" := fun same => free (same ▸ known ">" (by simp))
  simp [quiet, opening, closing]

theorem Token.IsLexical.text_ne_dot {name : Word} (lexical : (Token.identifier name).IsLexical) :
    name.text ≠ "." := by
  intro dot
  have known : name.text ∈ reserved := by
    rw [dot]
    decide
  exact lexical known

theorem Angled.identifier {name : Word} (lexical : (Token.identifier name).IsLexical) :
    Angled [.identifier name] :=
  .singleton rfl (isFlat_of_not_reserved lexical)

theorem Angled.basicType {name : Word} (lexical : (Token.basicType name).IsLexical) :
    Angled [.basicType name] := by
  have known : ∀ word ∈ basicTypeWords, isFlat word = true := by decide
  exact .singleton rfl (known _ lexical)

/-- The tokens in front of the rest are those of a type. -/
def Glides (tokens rest : List Token) : Prop :=
  ∃ read, tokens = read ++ rest ∧ Angled read

theorem Glides.refl (tokens : List Token) : Glides tokens tokens :=
  ⟨[], rfl, .nil⟩

theorem Glides.trans {tokens between rest : List Token} (first : Glides tokens between)
    (second : Glides between rest) : Glides tokens rest := by
  obtain ⟨read, rfl, angled⟩ := first
  obtain ⟨more, rfl, further⟩ := second
  exact ⟨read ++ more, by simp, angled.append further⟩

theorem Reads.of_all_quiet {region : Region} {before : Behind} {read : List Token}
    (quiet : ∀ token ∈ read, token.text ∉ unquiet) (calm : before.IsCalm) (rest : List Token) :
    ∃ after : Behind, after.IsCalm ∧ Reads region before (read ++ rest) after [] rest := by
  induction read generalizing before with
  | nil => exact ⟨before, calm, .refl⟩
  | cons token more ih =>
      obtain ⟨middle, settled, first⟩ :=
        @Reads.of_quiet region before (more ++ rest) token calm.1 (.inl calm.2) (quiet token (by simp))
      obtain ⟨after, ended, others⟩ := ih (fun other mem => quiet other (by simp [mem])) settled
      exact ⟨after, ended, first.onward others⟩

theorem Glides.reads {region : Region} {before : Behind} {tokens rest : List Token}
    (glides : Glides tokens rest) (calm : before.IsCalm) :
    ∃ after : Behind, after.IsCalm ∧ Reads region before tokens after [] rest := by
  obtain ⟨read, rfl, angled⟩ := glides
  exact Reads.of_all_quiet angled.quiet calm rest

/-- The tokens in front of the rest are those of a type that may stand behind an
annotation, since no dot starts it. -/
def Leads (tokens rest : List Token) : Prop :=
  Glides tokens rest ∧ ∀ token ∈ tokens.head?, token.text ≠ "."

theorem Leads.reads {region : Region} {before : Behind} {tokens rest : List Token}
    (leads : Leads tokens rest) (ended : before.IsEnd) :
    ∃ after : Behind, after.IsEnd ∧ Reads region before tokens after [] rest := by
  obtain ⟨⟨_ | ⟨token, more⟩, rfl, angled⟩, head⟩ := leads
  · exact ⟨before, ended, .refl⟩
  · have quiet := angled.quiet
    obtain ⟨middle, settled, first⟩ := @Reads.of_quiet region before (more ++ rest) token ended
      (.inr (head token rfl)) (quiet token (by simp))
    obtain ⟨after, calm, others⟩ :=
      Reads.of_all_quiet (List.forall_mem_cons.1 quiet).2 settled rest
    exact ⟨after, calm.1, first.onward others⟩

/-- A name ends whatever stands in front of it. -/
theorem Reads.of_name {region : Region} {before : Behind} {name : Word} {rest : List Token}
    (ended : before.IsEnd) (lexical : (Token.identifier name).IsLexical) :
    Reads region before (.identifier name :: rest) .name [] rest :=
  of_token (Region.allows_of_quiet ended (.inr lexical.text_ne_dot)
    ((Angled.identifier lexical).quiet _ (by simp)))

/-- Go on with a type. -/
theorem Ends.typed {region : Region} {before : Behind} {tokens between rest : List Token}
    {nodes : List Node} (first : Ends region before tokens nodes between)
    (leads : Leads between rest) : Ends region before tokens nodes rest := by
  obtain ⟨middle, ended, reads⟩ := first
  obtain ⟨after, settled, further⟩ := @Leads.reads region _ _ _ leads ended
  exact ⟨after, settled, reads.onward further⟩

/-- Go on with a name. -/
theorem Ends.named {region : Region} {before : Behind} {tokens rest : List Token}
    {nodes : List Node} {name : Word}
    (first : Ends region before tokens nodes (.identifier name :: rest))
    (lexical : (Token.identifier name).IsLexical) : Reads region before tokens .name nodes rest := by
  obtain ⟨middle, ended, reads⟩ := first
  exact reads.onward (.of_name ended lexical)

/-- Go on with dimensions, where no dot is to be feared. -/
theorem Reads.glided {region : Region} {before middle : Behind} {tokens between rest : List Token}
    {nodes : List Node} (first : Reads region before tokens middle nodes between)
    (calm : middle.IsCalm) (glides : Glides between rest) : Ends region before tokens nodes rest := by
  obtain ⟨after, settled, further⟩ := @Glides.reads region _ _ _ glides calm
  exact ⟨after, settled.1, first.onward further⟩

/-- The tokens in front of the rest stand between angle brackets. -/
def Arguments (tokens rest : List Token) : Prop :=
  ∃ opening inside closing, tokens = opening :: (inside ++ closing :: rest) ∧
    opening.text = "<" ∧ closing.text = ">" ∧ closing.IsLexical ∧ Angled inside

theorem Arguments.glides {tokens rest : List Token} (arguments : Arguments tokens rest) :
    Glides tokens rest := by
  obtain ⟨opening, inside, closing, rfl, opens, closes, _, within⟩ := arguments
  exact ⟨opening :: (inside ++ [closing]), by simp, .pair opens closes within .nil⟩

theorem Arguments.length_lt {tokens rest : List Token} (arguments : Arguments tokens rest) :
    rest.length < tokens.length := by
  obtain ⟨opening, inside, closing, rfl, _⟩ := arguments
  simp only [List.length_cons, List.length_append]
  omega

theorem Arguments.created {tokens rest : List Token} (arguments : Arguments tokens rest) :
    ∃ read, tokens = read ++ rest ∧ Created read := by
  obtain ⟨opening, inside, closing, rfl, opens, closes, _, within⟩ := arguments
  exact ⟨opening :: (inside ++ [closing]), by simp, .arguments opens closes within .nil⟩

theorem Arguments.reads {region : Region} {before : Behind} {tokens rest : List Token}
    (arguments : Arguments tokens rest) (calm : before.IsCalm) :
    Reads region before tokens .other [] rest := by
  obtain ⟨opening, inside, closing, rfl, opens, closes, lexical, within⟩ := arguments
  have quiet : ∀ token ∈ opening :: inside, token.text ∉ unquiet := by
    rw [List.forall_mem_cons]
    refine ⟨?_, within.quiet⟩
    rw [opens]
    decide
  obtain ⟨middle, settled, reads⟩ := Reads.of_all_quiet quiet calm (closing :: rest)
  exact reads.onward (.of_sign settled.1 closes lexical (by cases region <;> decide) (by decide))

/-- Pairs of brackets. -/
inductive Brackets : List Token → Prop
  | nil : Brackets []
  | pair {opening closing : Token} {rest : List Token} (opens : opening.text = "[")
      (closes : closing.text = "]") (lexical : opening.IsLexical ∧ closing.IsLexical)
      (behind : Brackets rest) : Brackets (opening :: closing :: rest)

theorem Brackets.angled {read : List Token} (brackets : Brackets read) : Angled read := by
  induction brackets with
  | nil => exact .nil
  | pair opens closes _ _ ih =>
      exact (Angled.singleton opens (by decide)).append
        ((Angled.singleton closes (by decide)).append ih)

theorem Brackets.reads {read : List Token} (brackets : Brackets read) (rest : List Token) :
    Reads .value .other (read ++ rest) .other [] rest := by
  induction brackets with
  | nil => exact .refl
  | pair opens closes lexical _ ih =>
      exact ((Reads.of_sign (by decide) opens lexical.1 (by decide) (by decide)).onward
        (.of_sign (by decide) closes lexical.2 (by decide) (by decide))).onward ih

namespace Grammar

/-! ## Parsers of types -/

theorem reads_basicName (limit : Nat) (tokens : List Token) :
    At limit tokens basicName fun name rest =>
      tokens = .basicType name :: rest ∧ (Token.basicType name).IsLexical := by
  refine At.next.bind ?_
  rintro token rest ⟨rfl, lexical⟩
  cases token with
  | basicType name => exact .pure ⟨rfl, lexical⟩
  | _ => exact .mismatch

/-- A parser that reads a type, or what may stand in one. -/
def IsGliding {α : Type} (parser : Parser α) : Prop :=
  ∀ limit tokens, At limit tokens parser fun _ rest => Glides tokens rest

namespace IsGliding

variable {α β : Type} {parser : Parser α}

theorem pure (result : α) : IsGliding (Pure.pure result) :=
  fun _ tokens => .pure (.refl tokens)

theorem mismatch : IsGliding (mismatch : Parser α) :=
  fun _ _ => .mismatch

theorem bind {next : α → Parser β} (first : IsGliding parser)
    (second : ∀ result, IsGliding (next result)) : IsGliding (parser >>= next) := by
  intro limit tokens
  refine (first limit tokens).bind ?_
  intro result between glides
  exact (second result limit between).mono fun _ rest more => glides.trans more

theorem ite {condition : Prop} [Decidable condition] {other : Parser α}
    (first : IsGliding parser) (second : IsGliding other) :
    IsGliding (if condition then parser else other) := by
  split
  · exact first
  · exact second

theorem ahead (texts : List String) : IsGliding (ahead texts) :=
  fun _ tokens => At.ahead.mono fun _ _ outcome => outcome.1 ▸ .refl tokens

theorem basicTypeAhead : IsGliding basicTypeAhead :=
  fun _ tokens => At.basicTypeAhead.mono fun _ _ same => same ▸ .refl tokens

theorem expect {text : String} (flat : isFlat text = true) : IsGliding (expect text) := by
  intro limit tokens
  refine At.expect.mono ?_
  rintro _ rest ⟨token, rfl, text_eq, _⟩
  exact ⟨[token], rfl, .singleton text_eq flat⟩

theorem accept {texts : List String} (flat : texts.all isFlat = true) :
    IsGliding (accept texts) := by
  intro limit tokens
  refine At.accept.mono ?_
  rintro (_ | _) rest outcome
  · exact outcome.1 ▸ .refl tokens
  · obtain ⟨read, rfl, texts_eq, -⟩ := outcome
    refine ⟨read, rfl, ?_⟩
    subst texts_eq
    induction read with
    | nil => exact .nil
    | cons token more ih =>
        simp only [List.map_cons, List.all_cons, Bool.and_eq_true] at flat
        exact (Angled.singleton rfl flat.1).append (ih flat.2)

theorem word : IsGliding word := by
  intro limit tokens
  refine At.word.mono ?_
  rintro name rest ⟨rfl, lexical⟩
  exact ⟨[_], rfl, .identifier lexical⟩

theorem identifier : IsGliding identifier :=
  word.bind fun name => pure name.text

theorem basicName : IsGliding basicName := by
  intro limit tokens
  refine (reads_basicName limit tokens).mono ?_
  rintro name rest ⟨rfl, lexical⟩
  exact ⟨[_], rfl, .basicType lexical⟩

theorem whileHolds {condition : Parser Bool} (tested : IsGliding condition)
    (item : IsGliding parser) : IsGliding (whileHolds condition parser) := by
  refine fun limit => At.whileHolds fun tokens => ?_
  refine (tested limit tokens).mono ?_
  rintro (_ | _) rest glides
  · exact glides
  · refine (item limit rest).mono ?_
    intro first more one others last later
    exact (glides.trans one).trans later

theorem separated {separator : String} (flat : isFlat separator = true)
    (item : IsGliding parser) : IsGliding (separated separator parser) :=
  item.bind fun _ => (whileHolds (accept (by simpa using flat)) item).bind fun _ => pure _

theorem arguments (item : IsGliding parser) (limit : Nat) (tokens : List Token) :
    At limit tokens (Grammar.angled parser) fun _ rest => Arguments tokens rest := by
  refine .expecting ?_
  rintro opening tokens rfl opens _
  refine (separated (by decide) item limit tokens).bind ?_
  rintro items between ⟨inside, rfl, within⟩
  refine .expecting ?_
  rintro closing rest rfl closes lexical
  exact .pure ⟨opening, inside, closing, rfl, opens, closes, lexical, within⟩

theorem angled (item : IsGliding parser) : IsGliding (angled parser) :=
  fun limit tokens => (arguments item limit tokens).mono fun _ _ => Arguments.glides

theorem brackets (limit : Nat) (tokens : List Token) :
    At limit tokens Grammar.dimensions fun _ rest =>
      (∃ read, tokens = read ++ rest ∧ Brackets read) ∧
        (rest.take 2).map Token.text ≠ ["[", "]"] := by
  have pairs : ∀ tokens, At limit tokens (Grammar.whileHolds (Grammar.accept ["[", "]"]) (Pure.pure ()))
      fun _ rest => (∃ read, tokens = read ++ rest ∧ Brackets read) ∧
        (rest.take 2).map Token.text ≠ ["[", "]"] := by
    refine At.whileHolds fun tokens => ?_
    refine At.accept.mono ?_
    rintro (_ | _) rest outcome
    · obtain ⟨rfl, none_ahead⟩ := outcome
      exact ⟨⟨[], rfl, .nil⟩, none_ahead⟩
    · obtain ⟨read, rfl, texts_eq, lexical⟩ := outcome
      obtain ⟨opening, _, rfl, opens, texts_eq⟩ := List.map_eq_cons_iff.1 texts_eq
      obtain ⟨closing, rfl, closes⟩ := List.map_eq_singleton_iff.1 texts_eq
      refine .pure ?_
      rintro _ last ⟨⟨more, rfl, further⟩, none_ahead⟩
      exact ⟨⟨opening :: closing :: more, rfl,
        .pair opens closes ⟨lexical _ (by simp), lexical _ (by simp)⟩ further⟩, none_ahead⟩
  exact (pairs tokens).bind fun _ _ found => .pure found

theorem dimensions : IsGliding dimensions := fun limit tokens =>
  (brackets limit tokens).mono fun _ _ ⟨⟨read, tokens_eq, found⟩, _⟩ =>
    ⟨read, tokens_eq, found.angled⟩

theorem elementType {path : Parser (List Segment)} (gliding : IsGliding path) :
    IsGliding (elementType path) := by
  refine bind basicTypeAhead fun _ => ite ?_ ?_
  · refine bind basicName fun _ => bind (expect (by decide)) fun _ => ?_
    exact bind (expect (by decide)) fun _ => bind dimensions fun _ => pure _
  · exact bind gliding fun _ => bind dimensions fun _ => pure _

theorem typeArgument {path : Parser (List Segment)} (gliding : IsGliding path) :
    IsGliding (typeArgument path) := by
  have element := elementType gliding
  refine bind (accept (by decide)) fun _ => ite ?_ (bind element fun _ => pure _)
  refine bind (accept (by decide)) fun _ => ite (bind element fun _ => pure _) ?_
  exact bind (accept (by decide)) fun _ => ite (bind element fun _ => pure _) (pure _)

theorem segment {arguments : Parser (List TypeArgument)} (gliding : IsGliding arguments) :
    IsGliding (segment arguments) := by
  refine bind word fun _ => bind (ahead _) fun _ => ite ?_ (pure _)
  exact bind gliding fun _ => pure _

theorem pathIn (depth : Nat) : IsGliding (pathIn depth) := by
  induction depth with
  | zero => exact mismatch
  | succ depth ih => exact separated (by decide) (segment (angled (typeArgument ih)))

theorem path : IsGliding path := by
  intro limit tokens
  refine At.enoughRounds.bind ?_
  rintro rounds _ rfl
  exact pathIn rounds _ _

theorem typeList : IsGliding typeList :=
  separated (by decide) (elementType path)

theorem typeParameter : IsGliding typeParameter := by
  refine bind identifier fun _ => bind (accept (by decide)) fun _ => ite ?_ (pure _)
  exact bind (separated (by decide) path) fun _ => pure _

theorem typeParameters? : IsGliding typeParameters? :=
  bind (ahead _) fun _ => ite (angled typeParameter) (pure _)

theorem qualifiedName : IsGliding qualifiedName :=
  (separated (by decide) identifier).bind fun _ => pure _

end IsGliding

theorem reads_plainArguments (limit : Nat) (tokens : List Token) :
    At limit tokens plainArguments fun _ rest => Arguments tokens rest :=
  ((IsGliding.elementType .path).arguments limit tokens).bind fun _ _ arguments => .pure arguments

/-! ## Types behind annotations -/

/-- A parser that reads a type, and starts with a name. -/
def IsLeading {α : Type} (parser : Parser α) : Prop :=
  ∀ limit tokens, At limit tokens parser fun _ rest => Leads tokens rest

namespace IsLeading

variable {α β : Type} {parser : Parser α}

theorem bind {next : α → Parser β} (first : IsLeading parser)
    (second : ∀ result, IsGliding (next result)) : IsLeading (parser >>= next) := by
  intro limit tokens
  refine (first limit tokens).bind ?_
  rintro result between ⟨glides, head⟩
  exact (second result limit between).mono fun _ rest more => ⟨glides.trans more, head⟩

theorem word : IsLeading word := by
  intro limit tokens
  refine At.word.mono ?_
  rintro name rest ⟨rfl, lexical⟩
  refine ⟨⟨[_], rfl, .identifier lexical⟩, ?_⟩
  rintro _ ⟨⟩
  exact lexical.text_ne_dot

theorem basicName : IsLeading basicName := by
  have known : "." ∉ basicTypeWords := by decide
  intro limit tokens
  refine (reads_basicName limit tokens).mono ?_
  rintro name rest ⟨rfl, lexical⟩
  refine ⟨⟨[_], rfl, .basicType lexical⟩, ?_⟩
  rintro _ ⟨⟩ dot
  exact known (dot ▸ lexical)

theorem path : IsLeading path := by
  intro limit tokens
  refine At.enoughRounds.bind ?_
  rintro (_ | depth) _ rfl
  · exact .mismatch
  · have item : IsLeading (segment (angled (typeArgument (pathIn depth)))) :=
      word.bind fun _ => .bind (.ahead _) fun _ =>
        .ite (.bind (.angled (.typeArgument (.pathIn depth))) fun _ => .pure _) (.pure _)
    exact (item.bind fun _ => .bind (.whileHolds (.accept (by decide))
      (.segment (.angled (.typeArgument (.pathIn depth))))) fun _ => .pure _) limit _

theorem type : IsLeading type := by
  intro limit tokens
  refine At.peek.bind ?_
  rintro _ rest ⟨rfl, rfl⟩
  split
  · exact (basicName.bind fun _ => .bind .dimensions fun _ => .pure _) limit rest
  · exact (path.bind fun _ => .bind .dimensions fun _ => .pure _) limit rest
  · exact .mismatch

end IsLeading

theorem IsGliding.type : IsGliding type := fun limit tokens =>
  (IsLeading.type limit tokens).mono fun _ _ leads => leads.1

/-! ## Types behind `new` -/

/-- A parser that reads a type behind `new`, or a piece of one. -/
def IsCreating {α : Type} (parser : Parser α) : Prop :=
  ∀ limit tokens, At limit tokens parser fun _ rest => ∃ read, tokens = read ++ rest ∧ Created read

namespace IsCreating

variable {α β : Type} {parser : Parser α}

theorem pure (result : α) : IsCreating (Pure.pure result) :=
  fun _ _ => .pure ⟨[], rfl, .nil⟩

theorem bind {next : α → Parser β} (first : IsCreating parser)
    (second : ∀ result, IsCreating (next result)) : IsCreating (parser >>= next) := by
  intro limit tokens
  refine (first limit tokens).bind ?_
  rintro result _ ⟨read, rfl, created⟩
  refine (second result limit _).mono ?_
  rintro _ rest ⟨more, rfl, further⟩
  exact ⟨read ++ more, by simp, created.append further⟩

theorem ite {condition : Prop} [Decidable condition] {other : Parser α}
    (first : IsCreating parser) (second : IsCreating other) :
    IsCreating (if condition then parser else other) := by
  split
  · exact first
  · exact second

theorem ahead (texts : List String) : IsCreating (ahead texts) :=
  fun _ _ => At.ahead.mono fun _ _ outcome => ⟨[], outcome.1.symm, .nil⟩

theorem word : IsCreating word := by
  intro limit tokens
  refine At.word.mono ?_
  rintro name rest ⟨rfl, _⟩
  exact ⟨[_], rfl, .name (.inl rfl) .nil⟩

theorem angled (item : IsGliding parser) : IsCreating (angled parser) :=
  fun limit tokens => (item.arguments limit tokens).mono fun _ _ => Arguments.created

theorem plainArguments : IsCreating plainArguments :=
  fun limit tokens => (reads_plainArguments limit tokens).mono fun _ _ => Arguments.created

theorem diamond : IsCreating diamond := by
  intro limit tokens
  refine At.accept.mono ?_
  rintro (_ | _) rest outcome
  · exact ⟨[], outcome.1.symm, .nil⟩
  · obtain ⟨read, rfl, texts_eq, -⟩ := outcome
    obtain ⟨opening, _, rfl, opens, texts_eq⟩ := List.map_eq_cons_iff.1 texts_eq
    obtain ⟨closing, rfl, closes⟩ := List.map_eq_singleton_iff.1 texts_eq
    exact ⟨_, rfl, .arguments opens closes .nil .nil⟩

theorem createdPath : IsCreating createdPath := by
  have arguments : IsCreating (do if ← Grammar.diamond then return [] else typeArguments) :=
    diamond.bind fun _ => ite (pure _) (angled (IsGliding.typeArgument IsGliding.path))
  have segment : IsCreating (segment (do if ← Grammar.diamond then return [] else typeArguments)) :=
    bind word fun _ => bind (ahead _) fun _ => ite (bind arguments fun _ => pure _) (pure _)
  refine bind segment fun _ => bind (fun limit => At.whileHolds fun tokens => ?_) fun _ => pure _
  refine At.accept.mono ?_
  rintro (_ | _) rest outcome
  · exact ⟨[], outcome.1.symm, .nil⟩
  · obtain ⟨read, rfl, texts_eq, -⟩ := outcome
    obtain ⟨dot, rfl, dotted⟩ := List.map_eq_singleton_iff.1 texts_eq
    refine (segment limit rest).mono ?_
    rintro first _ ⟨read, rfl, created⟩ others last ⟨more, rfl, further⟩
    exact ⟨dot :: (read ++ more), by simp, .name (.inr dotted) (created.append further)⟩

end IsCreating

end Grammar

end JavaUml.Java
