import JavaUml.Proofs.Java.Grammar.Types

/-!
# What goals read

For each goal of the grammar there is a condition on what meeting it reads, and the
rules of this module are shown to read what they should under the assumption that
the goals they recur to do.  Goals that a rule recurs to before it has taken a token
are assumed for as many tokens as the rule itself has, and the others for less.
-/

namespace JavaUml.Java.Grammar

/-! ## Conditions -/

/-- An expression is read, or what may stand for one. -/
def Value (tokens : List Token) (node : Node) (rest : List Token) : Prop :=
  Ends .value .other tokens [node] rest

/-- An annotation is read.  It may stand anywhere. -/
def AnnotationUse (tokens : List Token) (node : Node) (rest : List Token) : Prop :=
  (∃ sign inside, tokens = sign :: (inside ++ rest) ∧ sign.text = "@") ∧
    ∀ region before, Ends region before tokens [node] rest

/-- Modifiers and annotations are read. -/
structure Annotated (tokens : List Token) (nodes : List Node) (rest : List Token) : Prop where
  ends : ∀ region (before : Behind), before.IsEnd → Ends region before tokens nodes rest
  marked : nodes = [] ∨ ∃ read sign, tokens = read ++ rest ∧ sign ∈ read ∧ sign.text = "@"

/-- A statement is read, or a declaration among statements. -/
def Statement (tokens : List Token) (node : Node) (rest : List Token) : Prop :=
  Reads .code .other tokens .other [node] rest

/-- Nodes are read between brackets. -/
def Enclosed (opens closes : String) (held : Region) (tokens : List Token) (nodes : List Node)
    (rest : List Token) : Prop :=
  ∃ opening inside inner closing, tokens = opening :: inside ∧ opening.text = opens ∧
    closing.text = closes ∧ Reads held .other inside inner nodes (closing :: rest)

theorem Enclosed.braces {region held : Region} {before : Behind} {tokens rest : List Token}
    {nodes : List Node} (enclosed : Enclosed openBrace closeBrace held tokens nodes rest)
    (place : region.braced before = some held) :
    Reads region before tokens .other nodes rest := by
  obtain ⟨opening, inside, inner, closing, rfl, opens, closes, reads⟩ := enclosed
  exact .braces opens closes place reads

theorem Enclosed.parentheses {region : Region} {before after : Behind} {tokens rest : List Token}
    {nodes : List Node} (enclosed : Enclosed "(" ")" .code tokens nodes rest)
    (place : region.parenthesised before = some after) :
    Reads region before tokens after nodes rest := by
  obtain ⟨opening, inside, inner, closing, rfl, opens, closes, reads⟩ := enclosed
  exact .parentheses opens closes place reads

/-- Goals are met as they should be, for less tokens than a limit. -/
structure Meets (rules : Rules) (limit : Nat) : Prop where
  expression : ∀ tokens, At limit tokens (rules .expression) (Value tokens)
  conditional : ∀ tokens, At limit tokens (rules .conditional) (Value tokens)
  operand : ∀ tokens, At limit tokens (rules .operand) (Value tokens)
  variableValue : ∀ tokens, At limit tokens (rules .variableValue) (Value tokens)
  elementValue : ∀ tokens, At limit tokens (rules .elementValue) (Value tokens)
  annotationUse : ∀ tokens, At limit tokens (rules .annotationUse) (AnnotationUse tokens)
  statement : ∀ tokens, At limit tokens (rules .statement) (Statement tokens)
  typeDeclaration : ∀ tokens, At limit tokens (rules .typeDeclaration) (Statement tokens)
  block : ∀ tokens, At limit tokens (rules .block) (Enclosed openBrace closeBrace .code tokens)
  classBody : ∀ tokens,
    At limit tokens (rules .classBody) (Enclosed openBrace closeBrace .members tokens)
  deep : ∃ depth, 3 * limit ≤ depth ∧ rules = meet depth

/-- Go on where a choice that strayed goes on. -/
theorem Meets.astray {rules : Rules} {limit : Nat} (meets : Meets rules limit) {region : Region}
    {read later : List Token} (fits : (read ++ later).length ≤ limit)
    (strays : IsAstray rules (read ++ later) read later) :
    Reads region .other (read ++ later) .other [] later := by
  obtain ⟨depth, deep, rfl⟩ := meets.deep
  exact .astray (Nat.le_trans (Nat.mul_le_mul_left 3 fits) deep) strays

/-! ## Lists -/

/-- Items with separators between them. -/
theorem reads_separated {α : Type} {limit : Nat} {region : Region} {separator : String}
    {item : Parser α} {nodesOf : α → List Node}
    (separates : region.separates separator = true) (apart : isApart separator = true)
    (reads : ∀ tokens, At limit tokens item fun found rest =>
      Ends region .other tokens (nodesOf found) rest) (tokens : List Token) :
    At limit tokens (separated separator item) fun found rest =>
      Ends region .other tokens (found.flatMap nodesOf) rest := by
  have others : ∀ tokens, At limit tokens (whileHolds (accept [separator]) item)
      fun found rest => ∀ before : Behind, before.IsEnd →
        Ends region before tokens (found.flatMap nodesOf) rest := by
    refine At.repeated (fun tokens before ended => .refl ended) fun sign tokens text_eq lexical => ?_
    refine (reads tokens).mono ?_
    intro first rest ends others last further before ended
    rw [List.flatMap_cons]
    exact .past (.of_sign ended text_eq lexical separates apart) (ends.trans further)
  refine (reads tokens).bind ?_
  intro first between ends
  refine (others between).bind ?_
  intro found rest further
  refine .pure ?_
  rw [List.flatMap_cons]
  exact ends.trans further

/-! ## Annotations -/

theorem reads_qualifiedName {limit : Nat} (tokens : List Token) :
    At limit tokens qualifiedName fun _ rest =>
      ∃ path, tokens = path ++ rest ∧ ∀ token ∈ path, token.isIdentifier ∨ token.text = "." := by
  have others : ∀ tokens, At limit tokens (whileHolds (accept ["."]) identifier) fun _ rest =>
      ∃ path, tokens = path ++ rest ∧ ∀ token ∈ path, token.isIdentifier ∨ token.text = "." := by
    refine At.repeated (fun tokens => ⟨[], rfl, by simp⟩) fun dot tokens dotted _ => ?_
    refine At.identifier.mono ?_
    rintro _ _ ⟨name, rfl, _, rfl⟩ _ last ⟨path, rfl, named⟩
    exact ⟨dot :: .identifier name :: path, rfl, by simpa [dotted, Token.isIdentifier] using named⟩
  refine .bind (.naming ?_) fun _ _ path => .pure path
  rintro name tokens rfl _
  refine (others tokens).bind ?_
  rintro _ rest ⟨path, rfl, named⟩
  exact .pure ⟨.identifier name :: path, rfl, by simpa [Token.isIdentifier] using named⟩

theorem reads_annotationAhead {limit : Nat} (tokens : List Token) :
    At limit tokens annotationAhead fun _ rest => rest = tokens := by
  refine At.ahead.bind ?_
  rintro _ _ ⟨rfl, _⟩
  refine At.ahead.bind ?_
  rintro _ _ ⟨rfl, _⟩
  exact .pure rfl

section

variable {rules : Rules} {limit : Nat}

theorem At.annotationUse {tokens : List Token} {sign : Token} {parser : Parser Node}
    (signed : sign.text = "@")
    (reads : At limit tokens parser fun node rest =>
      ∀ region before, Ends region before (sign :: tokens) [node] rest) :
    At limit tokens parser (AnnotationUse (sign :: tokens)) := by
  refine reads.within.mono ?_
  rintro node rest ⟨ends, read, rfl⟩
  exact ⟨⟨sign, read, rfl, signed⟩, ends⟩

theorem reads_annotationUse (meets : Meets rules limit) (tokens : List Token) :
    At (limit + 1) tokens (annotationUse rules) (AnnotationUse tokens) := by
  refine .opening ?_
  rintro sign tokens rfl signed _
  refine .annotationUse signed ?_
  refine (reads_qualifiedName tokens).bind ?_
  rintro _ _ ⟨path, rfl, named⟩
  have marked : ∀ region before tokens,
      Reads region before (sign :: (path ++ tokens)) .annotationName [] tokens :=
    fun region before tokens => .annotationName signed named
  refine .accepting ?_ ?_
  · rintro opening tokens rfl opens _
    have finish : ∀ between values, Ends .code .other tokens values between →
        At limit between (do expect ")"; return .group .annotationUse values) fun node rest =>
          ∀ region before, Ends region before (sign :: (path ++ opening :: tokens)) [node] rest := by
      rintro between values ⟨inner, _, reads⟩
      refine .expecting ?_
      rintro closing rest rfl closes _
      refine .pure fun region before => ?_
      have enclosed : Reads region .annotationName (opening :: tokens) .other values rest :=
        .parentheses opens closes (by cases region <;> rfl) reads
      have wraps : (Node.group .annotationUse values).Wraps values := ⟨rfl, rfl, rfl, rfl⟩
      exact ⟨.other, by decide, ((marked region before _).trans enclosed).wrap wraps⟩
    refine At.ahead.bind ?_
    rintro isEmpty _ ⟨rfl, _⟩
    refine At.identifierAhead.bind ?_
    rintro isPair _ ⟨rfl, _⟩
    dsimp only
    split
    · exact .given (finish _ [] (.refl (by decide)))
    · split
      · have pair : ∀ tokens, At limit tokens
            (do let _ ← identifier; expect "="; rules .elementValue) fun node rest =>
              Ends .code .other tokens [node] rest := by
          intro tokens
          refine .naming ?_
          rintro name tokens rfl lexical
          refine .expecting ?_
          rintro sign tokens rfl text_eq lexical_sign
          refine (meets.elementValue tokens).mono ?_
          intro node rest value
          have started : Reads .code .other (.identifier name :: sign :: tokens) .other [] tokens :=
            (Reads.of_name (by decide) lexical).onward
              (.of_sign (by decide) text_eq lexical_sign (by decide) (by decide))
          exact .past started value.of_value
        refine (reads_separated (by decide) (by decide) pair _).bind ?_
        intro values between ends
        rw [List.flatMap_singleton'] at ends
        exact finish between values ends
      · refine (meets.elementValue _).bind ?_
        intro value between ends
        exact .given (finish between [value] ends.of_value)
  · refine .pure fun region before => ?_
    exact ⟨.annotationName, by decide, (marked region before _).wrap ⟨rfl, rfl, rfl, rfl⟩⟩

namespace Annotated

theorem refl (tokens : List Token) : Annotated tokens [] tokens :=
  ⟨fun _ _ ended => .refl ended, .inl rfl⟩

theorem of_annotationUse {tokens rest : List Token} {node : Node}
    (annotated : AnnotationUse tokens node rest) : Annotated tokens [node] rest := by
  obtain ⟨⟨sign, inside, rfl, signed⟩, ends⟩ := annotated
  exact ⟨fun region before _ => ends region before, .inr ⟨sign :: inside, sign, rfl, by simp, signed⟩⟩

theorem of_modifier {word : String} {rest : List Token}
    (lexical : (Token.modifier word).IsLexical) : Annotated (.modifier word :: rest) [] rest := by
  have separates : ∀ region : Region, ∀ word ∈ modifierWords, region.separates word = true := by
    rintro (_ | _ | _ | _) <;> decide
  refine ⟨fun region before ended => ?_, .inl rfl⟩
  obtain ⟨after, calm, reads⟩ :=
    @Reads.of_reserved region before rest (.modifier word) ended (separates region word lexical)
  exact ⟨after, calm.1, reads⟩

theorem trans {tokens between rest : List Token} {nodes others : List Node}
    (first : Annotated tokens nodes between) (second : Annotated between others rest) :
    Annotated tokens (nodes ++ others) rest := by
  refine ⟨fun region before ended => (first.ends region before ended).trans (second.ends region), ?_⟩
  obtain ⟨read, rfl⟩ := (first.ends .code .other (by decide)).suffix
  obtain ⟨more, rfl⟩ := (second.ends .code .other (by decide)).suffix
  rcases first.marked with rfl | ⟨marks, sign, marks_eq, mem, signed⟩
  · rcases second.marked with rfl | ⟨marks, sign, marks_eq, mem, signed⟩
    · exact .inl rfl
    · exact .inr ⟨read ++ marks, sign, by rw [marks_eq, List.append_assoc], by simp [mem], signed⟩
  · exact .inr ⟨marks ++ more, sign, by rw [marks_eq, List.append_assoc], by simp [mem], signed⟩

end Annotated

/-- Modifiers and annotations, as long as there are some. -/
theorem reads_annotated {α : Type} {condition : Parser Bool} {item : Parser α}
    (nodesOf : α → List Node)
    (looks : ∀ tokens, At limit tokens condition fun _ rest => rest = tokens)
    (reads : ∀ tokens, At limit tokens item fun found rest =>
      Annotated tokens (nodesOf found) rest) :
    ∀ tokens, At limit tokens (whileHolds condition item) fun found rest =>
      Annotated tokens (found.flatMap nodesOf) rest := by
  refine At.whileHolds fun tokens => ?_
  refine (looks tokens).mono ?_
  rintro (_ | _) _ rfl
  · exact .refl _
  · refine (reads _).mono ?_
    intro first more annotated others last further
    rw [List.flatMap_cons]
    exact annotated.trans further

theorem reads_annotations (meets : Meets rules limit) (tokens : List Token) :
    At limit tokens (annotations rules) (Annotated tokens) := by
  have single : ∀ tokens, At limit tokens (rules .annotationUse) fun node rest =>
      Annotated tokens [node] rest :=
    fun tokens => (meets.annotationUse tokens).mono fun _ _ => .of_annotationUse
  refine (single tokens).bind ?_
  intro first between annotated
  refine (reads_annotated _ reads_annotationAhead single between).bind ?_
  intro others rest further
  rw [List.flatMap_singleton'] at further
  exact .pure (annotated.trans further)

theorem reads_variableAnnotations
    (annotationUse : ∀ tokens, At limit tokens (rules .annotationUse) (AnnotationUse tokens))
    (tokens : List Token) :
    At limit tokens (variableAnnotations rules) (Annotated tokens) := by
  have looks : ∀ tokens, At limit tokens (do return (← ahead ["final"]) || (← annotationAhead))
      fun _ rest => rest = tokens := by
    intro tokens
    refine At.ahead.bind ?_
    rintro _ _ ⟨rfl, _⟩
    refine (reads_annotationAhead _).bind ?_
    rintro _ _ rfl
    exact .pure rfl
  have item : ∀ tokens, At limit tokens
      (do if ← accept ["final"] then return none else return some (← rules .annotationUse))
      fun found rest => Annotated tokens found.toList rest := by
    intro tokens
    refine .accepting ?_ ?_
    · rintro token tokens rfl text_eq lexical
      refine .pure ⟨fun region before ended => ?_, .inl rfl⟩
      exact ⟨.other, by decide, .of_sign ended text_eq lexical (by cases region <;> decide) (by decide)⟩
    · refine (annotationUse tokens).bind ?_
      intro node rest annotated
      exact .pure (.of_annotationUse annotated)
  refine (reads_annotated _ looks item tokens).bind ?_
  intro found rest annotated
  rw [← List.filterMap_eq_flatMap_toList] at annotated
  exact .pure annotated

theorem reads_preamble
    (annotationUse : ∀ tokens, At limit tokens (rules .annotationUse) (AnnotationUse tokens))
    (tokens : List Token) :
    At limit tokens (preamble rules) fun found rest => Annotated tokens found.annotations rest := by
  have looks : ∀ tokens, At limit tokens
      (do return (← peek).any Token.isModifier || (← annotationAhead)) fun _ rest =>
        rest = tokens := by
    intro tokens
    refine At.peek.bind ?_
    rintro _ _ ⟨rfl, rfl⟩
    refine (reads_annotationAhead _).bind ?_
    rintro _ _ rfl
    exact .pure rfl
  -- The item is left to be read off the definition, so that its match is not written twice.
  refine (reads_annotated (fun found => found.getRight?.toList) looks (fun tokens => ?_)
    tokens).bind ?_
  · refine At.peek.bind ?_
    rintro _ tokens ⟨rfl, rfl⟩
    split
    · rename_i word head
      refine At.next.bind ?_
      rintro token rest ⟨rfl, lexical⟩
      cases head
      exact .pure (.of_modifier lexical)
    · refine (annotationUse tokens).bind ?_
      intro node rest annotated
      exact .pure (.of_annotationUse annotated)
  intro found rest annotated
  rw [← List.filterMap_eq_flatMap_toList] at annotated
  exact .pure annotated

/-! ## Values in braces -/

theorem Ends.bracedValue {tokens rest : List Token} {opening closing : Token} {values : List Node}
    (opens : opening.text = openBrace) (closes : closing.text = closeBrace)
    (ends : Ends .code .other tokens values (closing :: rest)) :
    Reads .value .other (opening :: tokens) .other [.group .arrayValue values] rest := by
  obtain ⟨inner, _, reads⟩ := ends
  have enclosed : Reads .value .other (opening :: tokens) .other values rest :=
    .braces opens closes rfl reads
  exact enclosed.wrap ⟨rfl, rfl, rfl, rfl⟩

theorem reads_elementValue (meets : Meets rules limit)
    (annotationUse : ∀ tokens, At (limit + 1) tokens (rules .annotationUse) (AnnotationUse tokens))
    (conditional : ∀ tokens, At (limit + 1) tokens (rules .conditional) (Value tokens))
    (tokens : List Token) : At (limit + 1) tokens (elementValue rules) (Value tokens) := by
  refine .assuming fun fits _ => ?_
  refine (reads_annotationAhead tokens).bind ?_
  rintro isAnnotation _ rfl
  split
  · exact (annotationUse _).mono fun _ _ annotated => annotated.2 .value .other
  · refine .accepting ?_ (conditional _)
    rintro opening tokens rfl opens _
    refine .of_fits (Nat.lt_of_succ_lt_succ fits) (.accepting ?_ ?_)
    · rintro closing rest rfl closes _
      exact .pure ⟨.other, by decide, Ends.bracedValue opens closes (.refl (by decide))⟩
    · have others : ∀ tokens, At limit tokens
          (untilHolds (do return (← ahead [closeBrace]) || (← ahead [",", closeBrace]))
            (do expect ","; rules .elementValue))
          fun found rest => ∀ before : Behind, before.IsEnd →
            Ends .code before tokens found rest := by
        refine At.untilHolds fun tokens => ?_
        refine At.ahead.bind ?_
        rintro _ _ ⟨rfl, _⟩
        refine At.ahead.bind ?_
        rintro _ tokens ⟨rfl, _⟩
        refine .pure ?_
        split
        · intro before ended
          exact .refl ended
        · refine .expecting ?_
          rintro comma tokens rfl text_eq lexical
          refine (meets.elementValue tokens).mono ?_
          intro first rest value others last further before ended
          exact .past (.of_sign ended text_eq lexical (by decide) (by decide))
            (value.of_value.trans further)
      refine (meets.elementValue tokens).bind ?_
      intro first between value
      refine (others between).bind ?_
      intro found between further
      have ends := value.of_value.trans further
      refine .optional ?_ ?_
      · rintro comma between rfl text_eq lexical
        refine .expecting ?_
        rintro closing rest rfl closes _
        exact .pure ⟨.other, by decide, Ends.bracedValue opens closes
          ⟨.other, by decide, ends.sign text_eq lexical (by decide) (by decide)⟩⟩
      · refine .expecting ?_
        rintro closing rest rfl closes _
        exact .pure ⟨.other, by decide, Ends.bracedValue opens closes ends⟩

/-- What is left starts with a token of the given text. -/
def StartsWith (text : String) (tokens : List Token) : Prop :=
  (tokens.take 1).map Token.text = [text]

/-- Nodes are read up to a closing sign, from where an item may start or from in front of
the sign. -/
def Closes (closes : String) (tokens : List Token) (nodes : List Node) (rest : List Token) :
    Prop :=
  ∀ before : Behind, before.IsEnd → before = .other ∨ StartsWith closes tokens →
    ∃ closing, closing.text = closes ∧ Ends .code before tokens nodes (closing :: rest)

theorem Closes.of_open {closes : String} {tokens rest : List Token} {nodes : List Node}
    (open_still : ¬ StartsWith closes tokens)
    (ends : ∃ closing, closing.text = closes ∧ Ends .code .other tokens nodes (closing :: rest)) :
    Closes closes tokens nodes rest := by
  rintro before _ (rfl | closed)
  · exact ends
  · exact absurd closed open_still

/-- An item and the separator behind it, which the last one may do without. -/
theorem reads_closedItem {item : Parser Node} {separator closes : String} {tokens : List Token}
    (separates : Region.code.separates separator = true) (apart : isApart separator = true)
    (reads : At limit tokens item fun node rest => Ends .code .other tokens [node] rest) :
    At limit tokens
      (do
        let found ← item
        if !(← ahead [closes]) then expect separator
        return found)
      fun node rest => ∃ after : Behind, after.IsEnd ∧ (after = .other ∨ StartsWith closes rest) ∧
        Reads .code .other tokens after [node] rest := by
  refine reads.bind ?_
  intro first between ends
  refine At.ahead.bind ?_
  rintro isLast between ⟨rfl, isLast_iff⟩
  dsimp only
  split
  · refine .expecting ?_
    rintro sign rest rfl text_eq lexical
    exact .pure ⟨.other, by decide, .inl rfl, ends.sign text_eq lexical separates apart⟩
  · rename_i last_one
    obtain ⟨after, ended, value⟩ := ends
    exact .pure ⟨after, ended, .inr (isLast_iff.1 (by simpa using last_one)), value⟩

/-- Items with separators behind them, up to a closing sign. -/
theorem reads_untilClosed {item : Parser Node} {separator closes : String}
    (separates : Region.code.separates separator = true) (apart : isApart separator = true)
    (reads : ∀ tokens, At limit tokens item fun node rest => Ends .code .other tokens [node] rest) :
    ∀ tokens, At limit tokens
      (untilHolds (accept [closes]) do
        let found ← item
        if !(← ahead [closes]) then expect separator
        return found)
      (Closes closes tokens) := by
  refine At.untilHolds fun tokens => ?_
  refine At.accept.mono ?_
  rintro (_ | _) rest outcome
  · obtain ⟨rfl, open_still⟩ := outcome
    refine (reads_closedItem separates apart (reads rest)).mono ?_
    rintro first more ⟨after, ended, place, value⟩ others last further
    obtain ⟨closing, closes_eq, rest_ends⟩ := further after ended place
    exact .of_open open_still ⟨closing, closes_eq, .behind value rest_ends⟩
  · obtain ⟨read, rfl, texts_eq, -⟩ := outcome
    obtain ⟨closing, rfl, closes_eq⟩ := List.map_eq_singleton_iff.1 texts_eq
    intro before ended _
    exact ⟨closing, closes_eq, .refl ended⟩

theorem reads_arrayValue
    (variableValue : ∀ tokens, At limit tokens (rules .variableValue) (Value tokens))
    (tokens : List Token) : At (limit + 1) tokens (arrayValue rules) fun node rest =>
      Reads .value .other tokens .other [node] rest := by
  refine .opening ?_
  rintro opening tokens rfl opens _
  refine .accepting ?_ (.accepting ?_ ?_)
  · rintro comma tokens rfl text_eq lexical
    refine .expecting ?_
    rintro closing rest rfl closes _
    exact .pure (Ends.bracedValue opens closes
      ⟨.other, by decide, .of_sign (by decide) text_eq lexical (by decide) (by decide)⟩)
  · rintro closing rest rfl closes _
    exact .pure (Ends.bracedValue opens closes (.refl (by decide)))
  · refine (reads_untilClosed (by decide) (by decide) (fun tokens =>
      (variableValue tokens).mono fun _ _ => Ends.of_value) tokens).bind ?_
    intro values rest reads
    obtain ⟨closing, closes, ends⟩ := reads .other (by decide) (.inl rfl)
    exact .pure (Ends.bracedValue opens closes ends)

theorem reads_variableValue
    (meets : Meets rules limit)
    (expression : ∀ tokens, At (limit + 1) tokens (rules .expression) (Value tokens))
    (tokens : List Token) : At (limit + 1) tokens (variableValue rules) (Value tokens) := by
  refine .looking ?_ (expression tokens)
  intro _
  refine (reads_arrayValue meets.variableValue tokens).mono ?_
  intro node rest reads
  exact ⟨.other, by decide, reads⟩

/-! ## Parameters -/

theorem reads_formalParameter (meets : Meets rules limit) (tokens : List Token) :
    At limit tokens (formalParameter rules) fun found rest =>
      Ends .code .other tokens [found.1] rest := by
  refine (reads_variableAnnotations meets.annotationUse tokens).bind ?_
  intro annotations between annotated
  refine (IsLeading.type limit between).bind ?_
  intro declared between leads
  have typed := (annotated.ends .code .other (by decide)).typed leads
  -- What is left is a name, with the sign of a variable number in front of it or not.
  have finish : ∀ isVariadic between, Ends .code .other tokens annotations between →
      At limit between
        (do
          let name ← identifier
          let more ← dimensions
          return ((.parameter name (declared.addDimensions more) isVariadic annotations : Node),
            isVariadic))
        fun found rest => Ends .code .other tokens [found.1] rest := by
    intro isVariadic between ends
    refine .naming ?_
    rintro name between rfl lexical
    refine (IsGliding.dimensions limit between).bind ?_
    intro more rest glides
    exact .pure (((ends.named lexical).glided (by decide) glides).wrap ⟨rfl, rfl, rfl, rfl⟩)
  refine .optional ?_ (finish false between typed)
  rintro dots between rfl text_eq lexical
  exact finish true between
    ⟨.other, by decide, typed.sign text_eq lexical (by decide) (by decide)⟩

theorem reads_parametersIn (meets : Meets rules limit) (rounds : Nat) (tokens : List Token) :
    At limit tokens (parametersIn rules rounds) fun found rest =>
      Ends .code .other tokens found rest := by
  induction rounds generalizing tokens with
  | zero => exact .mismatch
  | succ rounds ih =>
      refine (reads_formalParameter meets tokens).bind ?_
      rintro ⟨parameter, isVariadic⟩ between ends
      dsimp only
      split
      · exact .pure ends
      · refine .accepting ?_ (.pure ends)
        rintro comma between rfl text_eq lexical
        refine (ih between).bind ?_
        intro others rest further
        exact .pure (.behind (ends.sign text_eq lexical (by decide) (by decide)) further)

theorem reads_formalParameters (meets : Meets rules limit) (tokens : List Token) :
    At (limit + 1) tokens (formalParameters rules) (Enclosed "(" ")" .code tokens) := by
  refine .opening ?_
  rintro opening tokens rfl opens _
  refine .accepting ?_ ?_
  · rintro closing rest rfl closes _
    exact .pure ⟨opening, _, .other, closing, rfl, opens, closes, .refl⟩
  · refine At.enoughRounds.bind ?_
    rintro rounds _ rfl
    refine (reads_parametersIn meets rounds _).bind ?_
    rintro parameters between ⟨inner, _, reads⟩
    refine .expecting ?_
    rintro closing rest rfl closes _
    exact .pure ⟨opening, _, inner, closing, rfl, opens, closes, reads⟩

/-! ## Variables -/

/-- What stands behind the name of a variable is read: up to the first sign that assigns
there are no nodes, and behind it nothing but values. -/
def Initial (tokens : List Token) (nodes : List Node) (rest : List Token) : Prop :=
  (nodes = [] ∧ Glides tokens rest) ∨
    ∃ sign more, Glides tokens (sign :: more) ∧ sign.text = "=" ∧ sign.IsLexical ∧
      Ends .value .other more nodes rest

theorem Initial.ends {tokens rest : List Token} {nodes : List Node}
    (initial : Initial tokens nodes rest) {before : Behind} (calm : before.IsCalm) :
    Ends .value before tokens nodes rest := by
  rcases initial with ⟨rfl, glides⟩ | ⟨sign, more, glides, text_eq, lexical, values⟩
  · obtain ⟨after, settled, reads⟩ := @Glides.reads .value _ _ _ glides calm
    exact ⟨after, settled.1, reads⟩
  · obtain ⟨middle, settled, reads⟩ := @Glides.reads .value _ _ _ glides calm
    have assigned := reads.onward
      (Reads.of_sign settled.1 text_eq lexical (by decide) (by decide))
    exact .past assigned values

/-- A name and what stands behind it. -/
def Declarator (tokens : List Token) (nodes : List Node) (rest : List Token) : Prop :=
  ∃ name more, tokens = .identifier name :: more ∧ (Token.identifier name).IsLexical ∧
    Initial more nodes rest

theorem Declarator.ends {tokens rest : List Token} {nodes : List Node}
    (declarator : Declarator tokens nodes rest) {before : Behind} (ended : before.IsEnd) :
    Ends .value before tokens nodes rest := by
  obtain ⟨name, more, rfl, lexical, initial⟩ := declarator
  exact .past (.of_name ended lexical) (initial.ends (by decide))

/-- Further variables behind commas. -/
structure Declarators (tokens : List Token) (nodes : List Node) (rest : List Token) : Prop where
  initial : Initial tokens nodes rest
  ends : ∀ before : Behind, before.IsEnd → Ends .value before tokens nodes rest

theorem Initial.trans {tokens between rest : List Token} {nodes others : List Node}
    (first : Initial tokens nodes between) (second : Declarators between others rest) :
    Initial tokens (nodes ++ others) rest := by
  rcases first with ⟨rfl, glides⟩ | ⟨sign, more, glides, text_eq, lexical, values⟩
  · rcases second.initial with ⟨rfl, further⟩ | ⟨sign, more, further, text_eq, lexical, values⟩
    · exact .inl ⟨rfl, glides.trans further⟩
    · exact .inr ⟨sign, more, glides.trans further, text_eq, lexical, values⟩
  · exact .inr ⟨sign, more, glides, text_eq, lexical, values.trans second.ends⟩

theorem Initial.past {tokens between rest : List Token} {nodes : List Node}
    (glides : Glides tokens between) (initial : Initial between nodes rest) :
    Initial tokens nodes rest := by
  rcases initial with ⟨rfl, further⟩ | ⟨sign, more, further, rest_read⟩
  · exact .inl ⟨rfl, glides.trans further⟩
  · exact .inr ⟨sign, more, glides.trans further, rest_read⟩

theorem reads_declarators {α : Type} {item : Parser α} {nodesOf : α → List Node}
    (reads : ∀ tokens, At limit tokens item fun found rest =>
      Declarator tokens (nodesOf found) rest) :
    ∀ tokens, At limit tokens (whileHolds (accept [","]) item) fun found rest =>
      Declarators tokens (found.flatMap nodesOf) rest := by
  refine At.repeated (fun tokens => ⟨.inl ⟨rfl, .refl tokens⟩, fun _ ended => .refl ended⟩)
    fun comma tokens text_eq lexical => ?_
  refine (reads tokens).mono ?_
  intro first between declarator others rest further
  rw [List.flatMap_cons]
  constructor
  · obtain ⟨name, more, rfl, named, initial⟩ := declarator
    have glides : Glides (comma :: .identifier name :: more) more :=
      ⟨[comma, .identifier name], rfl, (Angled.singleton text_eq (by decide)).append (.identifier named)⟩
    exact .past glides (initial.trans further)
  · intro before ended
    exact .past (.of_sign ended text_eq lexical (by decide) (by decide))
      ((declarator.ends (by decide)).trans further.ends)

theorem reads_declaratorRest (meets : Meets rules limit) (tokens : List Token) :
    At limit tokens (declaratorRest rules) (Initial tokens) := by
  refine (IsGliding.dimensions limit tokens).bind ?_
  intro _ between glides
  refine .accepting ?_ (.pure (.inl ⟨rfl, glides⟩))
  rintro sign tokens rfl text_eq lexical
  refine (meets.variableValue tokens).bind ?_
  intro value rest ends
  exact .pure (.inr ⟨sign, tokens, glides, text_eq, lexical, ends⟩)

theorem reads_declarator (meets : Meets rules limit) (tokens : List Token) :
    At limit tokens (declarator rules) fun found rest => Declarator tokens found.2 rest := by
  refine .naming ?_
  rintro name tokens rfl lexical
  refine (reads_declaratorRest meets tokens).bind ?_
  intro values rest initial
  exact .pure ⟨name, tokens, rfl, lexical, initial⟩

theorem reads_allDeclarators (meets : Meets rules limit) (tokens : List Token) :
    At limit tokens (separated "," (declarator rules)) fun found rest =>
      ∀ before : Behind, before.IsEnd →
        Ends .value before tokens (found.flatMap Prod.snd) rest := by
  refine (reads_declarator meets tokens).bind ?_
  intro first between declarator
  refine (reads_declarators (reads_declarator meets) between).bind ?_
  intro others rest further
  refine .pure fun before ended => ?_
  rw [List.flatMap_cons]
  exact (declarator.ends ended).trans further.ends

end

end JavaUml.Java.Grammar
