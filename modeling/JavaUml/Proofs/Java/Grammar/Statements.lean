import JavaUml.Proofs.Java.Grammar.Expressions

/-!
# What statements read

A statement is read from where nothing belongs to it up to where nothing does.  Words
that parentheses follow are told apart from names, so the condition of a statement is
no call.  The nodes of a statement stand in the order of its text, but for the
condition of `do`; and nothing is left out but the annotations of a caught parameter.
-/

namespace JavaUml.Java.Grammar

section

variable {rules : Rules} {limit : Nat}

/-- A semicolon ends a statement. -/
theorem reads_semicolon {tokens between : List Token} {node : Node} {nodes : List Node}
    (ends : Ends .code .other tokens nodes between) (wraps : node.Wraps nodes) :
    At limit between (do expect ";"; return node) (Statement tokens) := by
  refine .expecting ?_
  rintro semicolon rest rfl text_eq lexical
  exact .pure ((ends.sign text_eq lexical (by decide) (by decide)).wrap wraps)

/-! ## Variables and loops -/

theorem reads_localVariables (meets : Meets rules limit) (tokens : List Token) :
    At limit tokens (localVariables rules) (Statement tokens) := by
  refine (reads_variableAnnotations meets.annotationUse tokens).bind ?_
  intro annotations between annotated
  refine (IsLeading.type limit between).bind ?_
  intro declared between leads
  refine (reads_allDeclarators meets between).bind ?_
  intro declarators between ends
  have typed := (annotated.ends .code .other (by decide)).typed leads
  have whole := typed.trans fun before ended => (ends before ended).of_value
  exact reads_semicolon whole ⟨rfl, rfl, rfl, rfl⟩

theorem reads_expressions (meets : Meets rules limit) (tokens : List Token) :
    At limit tokens (expressions rules) fun found rest => Ends .code .other tokens found rest := by
  refine (reads_separated (by decide) (by decide) meets.expression tokens).mono ?_
  intro found rest ends
  rw [List.flatMap_singleton'] at ends
  exact ends.of_value

theorem reads_loopRest (meets : Meets rules limit) (tokens : List Token) :
    At limit tokens (loopRest rules) fun found rest =>
      ∀ before : Behind, before.IsEnd → Ends .code before tokens found rest := by
  refine .expecting ?_
  rintro semicolon tokens rfl text_eq lexical
  have finish : ∀ condition between, Ends .code .other tokens condition between →
      At limit between
        (do
          expect ";"
          let steps ← if ← ahead [")"] then pure [] else expressions rules
          return condition ++ steps)
        fun found rest => ∀ before : Behind, before.IsEnd →
          Ends .code before (semicolon :: tokens) found rest := by
    intro condition between ends
    refine .expecting ?_
    rintro second between rfl second_eq lexical_second
    have started : ∀ before : Behind, before.IsEnd →
        Reads .code before (semicolon :: tokens) .other condition between := fun before ended =>
      (Reads.of_sign ended text_eq lexical (by decide) (by decide)).trans
        (ends.sign second_eq lexical_second (by decide) (by decide))
    refine .looking ?_ ?_
    · intro _
      exact .given (.pure fun before ended => .behind (started before ended) (.refl (by decide)))
    · refine (reads_expressions meets between).bind ?_
      intro steps rest further
      exact .pure fun before ended => .behind (started before ended) further
  refine .looking ?_ ?_
  · intro _
    exact .given (finish [] tokens (.refl (by decide)))
  · refine (meets.expression tokens).bind ?_
    intro condition between value
    exact .given (finish [condition] between value.of_value)

theorem reads_declaringControl (meets : Meets rules limit) (tokens : List Token) :
    At limit tokens (declaringControl rules) fun found rest =>
      Ends .code .other tokens found rest := by
  refine (reads_variableAnnotations meets.annotationUse tokens).bind ?_
  intro annotations between annotated
  refine (IsLeading.type limit between).bind ?_
  intro declared between leads
  have typed := (annotated.ends .code .other (by decide)).typed leads
  refine .naming ?_
  rintro name between rfl lexical
  refine (IsGliding.dimensions limit between).bind ?_
  intro more between glides
  have started := (typed.named lexical).glided (by decide) glides
  refine .accepting ?_ ?_
  · rintro colon between rfl text_eq lexical_colon
    refine (meets.expression between).bind ?_
    intro source rest value
    have declares := (started.sign text_eq lexical_colon (by decide) (by decide)).wrap
      (⟨rfl, rfl, rfl, rfl⟩ :
        (Node.variables (declared.addDimensions more) [name.text] annotations).Wraps annotations)
    exact .pure (.behind declares value.of_value)
  · have finish : ∀ initial between, Ends .code .other tokens (annotations ++ initial) between →
        At limit between
          (do
            let others ← whileHolds (accept [","]) (declarator rules)
            let rest ← loopRest rules
            return .variables (declared.addDimensions more) (name.text :: others.map Prod.fst)
              (annotations ++ initial ++ others.flatMap Prod.snd) :: rest)
          fun found rest => Ends .code .other tokens found rest := by
      intro initial between ends
      refine (reads_declarators (reads_declarator meets) between).bind ?_
      intro others between others_read
      refine (reads_loopRest meets between).bind ?_
      intro behind rest loop
      have declares := (ends.trans fun before ended => (others_read.ends before ended).of_value).wrap
        (⟨rfl, rfl, rfl, rfl⟩ : (Node.variables (declared.addDimensions more)
          (name.text :: others.map Prod.fst)
          (annotations ++ initial ++ others.flatMap Prod.snd)).Wraps _)
      exact .pure (declares.trans loop)
    refine .accepting ?_ ?_
    · rintro sign between rfl text_eq lexical_sign
      refine (meets.variableValue between).bind ?_
      intro value between given
      refine .given (finish [value] between ?_)
      exact .behind (started.sign text_eq lexical_sign (by decide) (by decide)) given.of_value
    · refine .given (finish [] between ?_)
      rwa [List.append_nil]

theorem reads_plainControl (meets : Meets rules limit) (tokens : List Token) :
    At limit tokens (plainControl rules) fun found rest => Ends .code .other tokens found rest := by
  have finish : ∀ initial between, Ends .code .other tokens initial between →
      At limit between (do return initial ++ (← loopRest rules)) fun found rest =>
        Ends .code .other tokens found rest := by
    intro initial between ends
    refine (reads_loopRest meets between).bind ?_
    intro behind rest loop
    exact .pure (ends.trans loop)
  refine .looking ?_ ?_
  · intro _
    exact .given (finish [] tokens (.refl (by decide)))
  · refine (reads_expressions meets tokens).bind ?_
    intro initial between ends
    exact finish initial between ends

/-! ## Switches -/

theorem reads_caseLabel (meets : Meets rules limit) (tokens : List Token) :
    At limit tokens (caseLabel rules) fun found rest =>
      Reads .code .other tokens .other found rest := by
  refine At.next.bind ?_
  rintro word tokens ⟨rfl, lexical⟩
  have finish : ∀ label between, Ends .code .other (word :: tokens) label between →
      At limit between (do expect ":"; return label) fun found rest =>
        Reads .code .other (word :: tokens) .other found rest := by
    intro label between ends
    refine .expecting ?_
    rintro colon rest rfl text_eq lexical_colon
    exact .pure (ends.sign text_eq lexical_colon (by decide) (by decide))
  dsimp only
  split
  · rename_i text_eq
    have started : Reads .code .other (word :: tokens) .other [] tokens :=
      .of_sign (by decide) text_eq lexical (by decide) (by decide)
    refine At.identifierAhead.bind ?_
    rintro isName tokens ⟨rfl, _⟩
    split
    · refine .naming ?_
      rintro name between rfl lexical_name
      exact .given (finish [] between
        ⟨.name, by decide, started.onward (.of_name (by decide) lexical_name)⟩)
    · refine (meets.expression tokens).bind ?_
      intro label between value
      exact .given (finish [label] between (.past started value.of_value))
  · split
    · rename_i text_eq
      have started : Reads .code .other (word :: tokens) .other [] tokens :=
        .of_sign (by decide) text_eq lexical (by decide) (by decide)
      exact .given (finish [] tokens ⟨.other, by decide, started⟩)
    · exact .bind .mismatch fun label between => finish label between

/-- Parts that each start and end where nothing belongs to them. -/
theorem reads_until {α : Type} {region : Region} {stop : Parser Bool} {item : Parser α}
    {nodesOf : α → List Node}
    (looks : ∀ tokens, At limit tokens stop fun _ rest => rest = tokens)
    (reads : ∀ tokens, At limit tokens item fun found rest =>
      Reads region .other tokens .other (nodesOf found) rest) :
    ∀ tokens, At limit tokens (untilHolds stop item) fun found rest =>
      Reads region .other tokens .other (found.flatMap nodesOf) rest := by
  refine At.untilHolds fun tokens => ?_
  refine (looks tokens).mono ?_
  rintro (_ | _) tokens rfl
  · refine (reads tokens).mono ?_
    intro first between one others rest further
    rw [List.flatMap_cons]
    exact one.trans further
  · exact .refl

theorem reads_while {α : Type} {region : Region} {condition : Parser Bool} {item : Parser α}
    {nodesOf : α → List Node}
    (looks : ∀ tokens, At limit tokens condition fun _ rest => rest = tokens)
    (reads : ∀ tokens, At limit tokens item fun found rest =>
      Reads region .other tokens .other (nodesOf found) rest) :
    ∀ tokens, At limit tokens (whileHolds condition item) fun found rest =>
      Reads region .other tokens .other (found.flatMap nodesOf) rest := by
  refine reads_until (fun tokens => ?_) reads
  exact (looks tokens).bind fun _ _ same => .pure same

theorem reads_oneOfAhead {texts : List String} (tokens : List Token) :
    At limit tokens (oneOfAhead texts) fun _ rest => rest = tokens :=
  At.oneOfAhead.mono fun _ _ outcome => outcome.1

theorem reads_ahead {texts : List String} (tokens : List Token) :
    At limit tokens (ahead texts) fun _ rest => rest = tokens :=
  At.ahead.mono fun _ _ outcome => outcome.1

theorem reads_caseGroup (meets : Meets rules limit) {blockStatement : BlockStatement}
    (statement : ∀ tokens, At limit tokens blockStatement (Statement tokens))
    (tokens : List Token) :
    At limit tokens (caseGroup rules blockStatement) (Statement tokens) := by
  have labels : ∀ tokens, At limit tokens (whileHolds labelAhead (caseLabel rules))
      fun found rest => Reads .code .other tokens .other (found.flatMap id) rest :=
    reads_while reads_oneOfAhead (reads_caseLabel meets)
  refine (reads_caseLabel meets tokens).bind ?_
  intro first between label
  refine (labels between).bind ?_
  intro others between further
  refine (reads_until reads_oneOfAhead statement between).bind ?_
  intro statements rest behind
  rw [List.flatMap_id] at further
  rw [List.flatMap_singleton'] at behind
  exact .pure (((label.trans further).trans behind).wrap ⟨rfl, rfl, rfl, rfl⟩)

/-! ## Exceptions -/

theorem reads_catchClause (meets : Meets rules limit) (tokens : List Token) :
    At limit tokens (catchClause rules) (Statement tokens) := by
  refine .expecting ?_
  rintro word tokens rfl starts _
  refine .expecting ?_
  rintro opening tokens rfl opens _
  refine (reads_variableAnnotations meets.annotationUse tokens).bind ?_
  intro annotations between annotated
  obtain ⟨read, rfl⟩ := (annotated.ends .code .other (by decide)).suffix
  refine (IsGliding.separated (by decide) IsGliding.qualifiedName limit between).bind ?_
  rintro types _ ⟨path, rfl, typed⟩
  refine .naming ?_
  rintro name between rfl lexical
  refine .expecting ?_
  rintro closing between rfl closes _
  refine (meets.block between).bind ?_
  intro block rest enclosed
  have marked : annotations = [] ∨ ∃ sign ∈ read, sign.text = "@" := by
    rcases annotated.marked with none | ⟨marks, sign, marks_eq, mem, signed⟩
    · exact .inl none
    · exact .inr ⟨sign, List.append_cancel_right marks_eq ▸ mem, signed⟩
  have parameter : ∀ read path, Angled path →
      Ends .code .other (read ++ path ++ closing :: between) annotations
        (path ++ closing :: between) →
      (annotations = [] ∨ ∃ sign ∈ read, sign.text = "@") →
      Reads .code .other (word :: opening :: (read ++ path ++ closing :: between)) .other
        [.caught types name.text] between := by
    rintro read path angled ⟨middle, _, reads⟩ marked
    exact .caught starts opens closes reads marked angled
  have caught := parameter read (path ++ [.identifier name]) (typed.append (.identifier lexical))
    (by simpa using annotated.ends .code .other (by decide)) marked
  have whole := caught.trans (enclosed.braces rfl)
  simp only [List.append_assoc, List.cons_append, List.nil_append] at whole
  exact .pure (whole.wrap ⟨rfl, rfl, rfl, rfl⟩)

theorem reads_resource (meets : Meets rules limit) (tokens : List Token) :
    At limit tokens (resource rules) fun node rest => Ends .code .other tokens [node] rest := by
  refine (reads_variableAnnotations meets.annotationUse tokens).bind ?_
  intro annotations between annotated
  refine (IsLeading.path limit between).bind ?_
  intro _ between leads
  refine (IsGliding.dimensions limit between).bind ?_
  intro _ between glides
  have typed := (annotated.ends .code .other (by decide)).typed ⟨leads.1.trans glides, leads.2⟩
  refine .naming ?_
  rintro name between rfl lexical
  refine (IsGliding.dimensions limit between).bind ?_
  intro _ between glides
  refine .expecting ?_
  rintro sign between rfl text_eq lexical_sign
  refine (meets.expression between).bind ?_
  intro value rest given
  have started := (typed.named lexical).glided (by decide) glides
  have whole := Ends.behind (started.sign text_eq lexical_sign (by decide) (by decide))
    given.of_value
  exact .pure (whole.wrap ⟨rfl, rfl, rfl, rfl⟩)

theorem reads_resources (meets : Meets rules limit) (tokens : List Token) :
    At limit tokens (resources rules) (Enclosed "(" ")" .code tokens) := by
  refine .expecting ?_
  rintro opening tokens rfl opens _
  refine (reads_closedItem (by decide) (by decide) (reads_resource meets tokens)).bind ?_
  rintro first between ⟨middle, ended, place, reads⟩
  refine (reads_untilClosed (by decide) (by decide) (reads_resource meets) between).bind ?_
  intro others rest closed
  obtain ⟨closing, closes, inner, _, further⟩ := closed middle ended place
  exact .pure ⟨opening, tokens, inner, closing, rfl, opens, closes, reads.trans further⟩

/-- What follows `try`. -/
theorem reads_tryRest (meets : Meets rules limit) (tokens : List Token) :
    At limit tokens (tryRest rules) fun node rest =>
      Reads .code .word tokens .other [node] rest := by
  have finish : ∀ (isPlain : Bool) (opened : List Node) (middle : Behind) between,
      Region.code.braced middle = some .code → Reads .code .word tokens middle opened between →
      At limit between
        (do
          let body ← rules .block
          let catches ← whileHolds (ahead ["catch"]) (catchClause rules)
          let hasFinally ← accept ["finally"]
          let final ← if hasFinally then rules .block else pure []
          if isPlain && catches.isEmpty && !hasFinally then mismatch
          else return .group .tryStatement (opened ++ body ++ catches ++ final))
        fun node rest => Reads .code .word tokens .other [node] rest := by
    intro isPlain opened middle between place started
    refine (meets.block between).bind ?_
    intro body between enclosed
    refine (reads_while reads_ahead (reads_catchClause meets) between).bind ?_
    intro catches between handlers
    rw [List.flatMap_singleton'] at handlers
    have handled := (started.trans (enclosed.braces place)).trans handlers
    refine .optional ?_ ?_
    · rintro word between rfl text_eq lexical
      refine (meets.block between).bind ?_
      intro final rest enclosed
      have whole := handled.trans ((Reads.of_sign (by decide) text_eq lexical (by decide)
        (by decide)).trans (enclosed.braces rfl))
      split
      · exact .mismatch
      · exact .pure (whole.wrap ⟨rfl, rfl, rfl, rfl⟩)
    · refine .given ?_
      split
      · exact .mismatch
      · refine .pure (handled.wrap ⟨?_, rfl, rfl, rfl⟩)
        exact List.append_nil _
  refine At.ahead.bind ?_
  rintro (_ | _) tokens ⟨rfl, _⟩
  · refine (reads_resources meets tokens).bind ?_
    intro opened between enclosed
    exact finish false opened .other between rfl (enclosed.parentheses rfl)
  · exact .given (finish true [] .word tokens rfl .refl)

/-! ## Statements -/

/-- The parentheses behind a word that takes some. -/
theorem reads_condition (meets : Meets rules limit) {word : Token} {text : String}
    (text_eq : word.text = text) (lexical : word.IsLexical)
    (separates : Region.code.separates text = true) (head : headWords.contains text = true)
    (tokens : List Token) :
    At limit tokens (parenthesised rules) fun node rest =>
      Reads .code .other (word :: tokens) .other [node] rest := by
  refine (reads_parenthesised meets tokens).lower.mono ?_
  intro node rest enclosed
  have started : Reads .code .other (word :: tokens) .word [] tokens :=
    .of_headWord (by decide) text_eq lexical separates head
  exact started.trans (enclosed.of_value.parentheses rfl)

/-- The control of a loop, up to the parenthesis that closes it. -/
theorem reads_control (meets : Meets rules limit) {word opening : Token} (starts : word.text = "for")
    (lexical : word.IsLexical) (opens : opening.text = "(") (tokens : List Token)
    (fits : (word :: opening :: tokens).length ≤ limit) :
    At limit tokens (orElse (declaringControl rules) (plainControl rules)) fun found between =>
      ∀ closing rest, between = closing :: rest → closing.text = ")" →
        Reads .code .other (word :: opening :: tokens) .other found rest := by
  have enclosed : ∀ {found between}, Ends .code .other tokens found between →
      ∀ closing rest, between = closing :: rest → closing.text = ")" →
        Reads .code .other (word :: opening :: tokens) .other found rest := by
    rintro found _ ⟨inner, _, reads⟩ closing rest rfl closes
    have started : Reads .code .other (word :: opening :: tokens) .word [] (opening :: tokens) :=
      .of_headWord (by decide) starts lexical (by decide) (by decide)
    exact started.trans (.parentheses opens closes rfl reads)
  refine .orElse ((reads_declaringControl meets tokens).mono fun _ _ => enclosed)
    (reads_plainControl meets) (fun _ _ => enclosed) ?_
  rintro read later rfl strays found _ ⟨inner, _, reads⟩ closing rest rfl closes
  obtain ⟨depth, deep, rfl⟩ := meets.deep
  exact .astrayControl (Nat.le_trans (Nat.mul_le_mul_left 3 fits) deep)
    (.declaringControl starts opens strays) opens closes reads

theorem reads_wordStatement (meets : Meets rules limit) {blockStatement : BlockStatement}
    (statement : ∀ tokens, At limit tokens blockStatement (Statement tokens))
    {word : Token} (lexical : word.IsLexical) (known : word.text ∈ statementWords)
    (tokens : List Token) (fits : (word :: tokens).length ≤ limit) :
    At limit tokens (wordStatement rules blockStatement word.text) (Statement (word :: tokens)) := by
  have signed : ∀ {text}, word.text = text → Region.code.separates text = true →
      isApart text = true → Reads .code .other (word :: tokens) .other [] tokens :=
    fun text_eq => .of_sign (by decide) text_eq lexical
  unfold wordStatement
  split
  · rename_i is_if
    refine (reads_condition meets is_if lexical (by decide) (by decide) tokens).bind ?_
    intro condition between head
    refine (meets.statement between).bind ?_
    intro whenTrue between first
    have started := head.trans first
    refine .accepting ?_ (.pure (started.wrap ⟨rfl, rfl, rfl, rfl⟩))
    rintro word between rfl else_eq lexical_else
    refine (meets.statement between).bind ?_
    intro whenFalse rest second
    have whole := started.trans ((Reads.of_sign (by decide) else_eq lexical_else (by decide)
      (by decide)).trans second)
    exact .pure (whole.wrap ⟨rfl, rfl, rfl, rfl⟩)
  · rename_i is_assert
    refine (meets.expression tokens).bind ?_
    intro condition between value
    have started := Ends.past (signed is_assert (by decide) (by decide)) value.of_value
    refine .accepting ?_ (.given (reads_semicolon started ⟨rfl, rfl, rfl, rfl⟩))
    rintro colon between rfl colon_eq lexical_colon
    refine (meets.expression between).bind ?_
    intro message between further
    have both := Ends.behind (started.sign colon_eq lexical_colon (by decide) (by decide))
      further.of_value
    exact .given (reads_semicolon both ⟨rfl, rfl, rfl, rfl⟩)
  · rename_i is_switch
    refine (reads_condition meets is_switch lexical (by decide) (by decide) tokens).bind ?_
    intro subject between head
    refine .expecting ?_
    rintro opening between rfl opens _
    refine (reads_while reads_oneOfAhead (reads_caseGroup meets statement) between).bind ?_
    intro groups between reads
    rw [List.flatMap_singleton'] at reads
    refine .expecting ?_
    rintro closing rest rfl closes _
    exact .pure ((head.trans (.braces opens closes rfl reads)).wrap ⟨rfl, rfl, rfl, rfl⟩)
  · rename_i is_while
    refine (reads_condition meets is_while lexical (by decide) (by decide) tokens).bind ?_
    intro condition between head
    refine (meets.statement between).bind ?_
    intro body rest behind
    exact .pure ((head.trans behind).wrap ⟨rfl, rfl, rfl, rfl⟩)
  · rename_i is_do
    refine (meets.statement tokens).bind ?_
    intro body between first
    refine .expecting ?_
    rintro again between rfl repeats _
    refine (reads_parenthesised meets between).lower.bind ?_
    rintro condition between ⟨opening, inside, inner, closing, rfl, opens, closes, second⟩
    refine .expecting ?_
    rintro semicolon rest rfl ends lexical_end
    exact .pure ((Reads.loop is_do repeats opens closes first second.of_value).onward
      (.of_sign (by decide) ends lexical_end (by decide) (by decide)))
  · rename_i is_for
    refine .expecting ?_
    rintro opening tokens rfl opens _
    refine (reads_control meets is_for lexical opens tokens fits).bind ?_
    intro control between reads
    refine .expecting ?_
    rintro closing between rfl closes _
    refine (meets.statement between).bind ?_
    intro body rest behind
    exact .pure (((reads closing between rfl closes).trans behind).wrap ⟨rfl, rfl, rfl, rfl⟩)
  · rename_i is_return
    have started := signed is_return (by decide) (by decide)
    refine .looking ?_ ?_
    · intro _
      exact .given (reads_semicolon ⟨.other, by decide, started⟩ ⟨rfl, rfl, rfl, rfl⟩)
    · refine (meets.expression tokens).bind ?_
      intro value between given
      exact .given (reads_semicolon (.past started given.of_value) ⟨rfl, rfl, rfl, rfl⟩)
  · rename_i is_throw
    refine (meets.expression tokens).bind ?_
    intro value between given
    have whole := Ends.past (signed is_throw (by decide) (by decide)) given.of_value
    exact reads_semicolon whole ⟨rfl, rfl, rfl, rfl⟩
  · rename_i is_synchronized
    refine (reads_condition meets is_synchronized lexical (by decide) (by decide) tokens).bind ?_
    intro lock between head
    refine (meets.block between).bind ?_
    intro body rest enclosed
    exact .pure ((head.trans (enclosed.braces rfl)).wrap ⟨rfl, rfl, rfl, rfl⟩)
  · rename_i is_try
    refine (reads_tryRest meets tokens).mono ?_
    intro node rest reads
    have started : Reads .code .other (word :: tokens) .word [] tokens :=
      .of_headWord (by decide) is_try lexical (by decide) (by decide)
    exact started.trans reads
  · rename_i other_than_do _ _ _ _ _
    have jumps : ∀ text ∈ statementWords, text ≠ "do" → Region.code.separates text = true := by
      decide
    obtain ⟨after, calm, started⟩ := @Reads.of_reserved .code .other tokens word (by decide)
      (jumps _ known other_than_do)
    refine At.identifierAhead.bind ?_
    rintro (_ | _) tokens ⟨rfl, _⟩
    · exact reads_semicolon ⟨after, calm.1, started⟩ ⟨rfl, rfl, rfl, rfl⟩
    · refine .naming ?_
      rintro name tokens rfl lexical_name
      exact reads_semicolon ⟨.name, by decide, started.onward (.of_name calm.1 lexical_name)⟩
        ⟨rfl, rfl, rfl, rfl⟩

theorem reads_blockStatement (meets : Meets rules limit) (tokens : List Token) :
    At limit tokens (blockStatement rules) (Statement tokens) := by
  refine At.identifierAhead.bind ?_
  rintro isLabelled _ ⟨rfl, _⟩
  refine At.ahead.bind ?_
  rintro isGuarded tokens ⟨rfl, _⟩
  split
  · exact meets.statement tokens
  · refine At.left.bind ?_
    rintro _ tokens ⟨rfl, rfl⟩
    split
    · exact meets.typeDeclaration tokens
    · split
      · exact meets.typeDeclaration tokens
      · rename_i first isAnnotated opens _
        split
        · exact reads_localVariables meets tokens
        · rename_i unmarked
          split
          · rename_i named
            cases first with
            | none => cases named
            | some name =>
                rw [Bool.or_eq_true, not_or, Bool.not_eq_true] at unmarked
                rw [unmarked.1] at opens
                refine .assuming fun fits _ => .orElse (reads_localVariables meets tokens)
                  meets.statement (fun _ _ => id) ?_
                rintro read later rfl strays node rest reads
                exact (meets.astray (Nat.le_of_lt fits)
                  (.localVariables opens named strays)).trans reads
          · exact meets.statement tokens

theorem reads_block (meets : Meets rules limit) (tokens : List Token) :
    At (limit + 1) tokens (block rules) (Enclosed openBrace closeBrace .code tokens) := by
  refine .opening ?_
  rintro opening tokens rfl opens _
  refine (reads_until reads_ahead (reads_blockStatement meets) tokens).bind ?_
  intro statements between reads
  rw [List.flatMap_singleton'] at reads
  refine .expecting ?_
  rintro closing rest rfl closes _
  exact .pure ⟨opening, tokens, .other, closing, rfl, opens, closes, reads⟩

theorem reads_statement (meets : Meets rules limit)
    (block : ∀ tokens,
      At (limit + 1) tokens (rules .block) (Enclosed openBrace closeBrace .code tokens))
    (expression : ∀ tokens, At (limit + 1) tokens (rules .expression) (Value tokens))
    (tokens : List Token) :
    At (limit + 1) tokens (statement rules (blockStatement rules)) (Statement tokens) := by
  refine .assuming fun fits _ => .looking ?_ (.accepting ?_ (At.identifierAhead.bind ?_))
  · intro _
    refine (block tokens).bind ?_
    intro statements rest enclosed
    exact .pure ((enclosed.braces rfl).wrap ⟨rfl, rfl, rfl, rfl⟩)
  · rintro semicolon rest rfl text_eq lexical
    have empty : Reads .code .other (semicolon :: rest) .other [] rest :=
      .of_sign (by decide) text_eq lexical (by decide) (by decide)
    exact .pure (empty.wrap ⟨rfl, rfl, rfl, rfl⟩)
  · rintro isLabelled tokens ⟨rfl, _⟩
    split
    · refine .naming ?_
      rintro name tokens rfl lexical
      refine .expecting ?_
      rintro colon tokens rfl text_eq lexical_colon
      have labelled : Reads .code .other (.identifier name :: colon :: tokens) .other [] tokens :=
        (Reads.of_name (by decide) lexical).onward
          (.of_sign (by decide) text_eq lexical_colon (by decide) (by decide))
      refine .of_fits (Nat.lt_of_succ_lt (Nat.lt_of_succ_lt_succ fits)) ?_
      refine (meets.statement tokens).mono ?_
      intro node rest reads
      exact labelled.trans reads
    · refine At.oneOfAhead.bind ?_
      rintro isWord tokens ⟨rfl, found⟩
      split
      · rename_i has_word
        obtain ⟨word, more, rfl, known⟩ := found has_word
        refine .entering rfl ?_
        rintro rest ⟨⟩ lexical
        exact reads_wordStatement meets (reads_blockStatement meets) lexical known more
          (Nat.le_of_lt_succ fits)
      · refine (expression tokens).bind ?_
        intro value between given
        exact reads_semicolon given.of_value ⟨rfl, rfl, rfl, rfl⟩

end

end JavaUml.Java.Grammar
