import JavaUml.Proofs.Java.Grammar.Statements

/-!
# What declarations read

Behind its modifiers and annotations a type declaration starts with a word of its own,
so it may stand anywhere.  A member is read with the annotations in front of it.  The
name of a method is declared and not called, and so are the constants of an enum; what
stands in the braces of a method is its body.
-/

namespace JavaUml.Java

/-- A word or a sign behind the parameters of a method. -/
theorem Reads.of_parameters {token : Token} {rest : List Token} {text : String}
    (text_eq : token.text = text) (lexical : token.IsLexical)
    (separates : Region.members.separates text = true) (apart : isApart text = true)
    (other : text ≠ "default" ∧ text ≠ "[" ∧ text ≠ "]") :
    Reads .members .parameters (token :: rest) .other [] rest := by
  have next_eq : Behind.parameters.next token = .other := by
    rw [isApart, Bool.and_eq_true, Bool.not_eq_true'] at apart
    rw [Behind.next, lexical.not_isIdentifier text_eq apart.1, if_neg Bool.false_ne_true, text_eq,
      apart.2, if_neg Bool.false_ne_true, if_neg fun both => both.2.elim other.2.1 other.2.2]
  rw [← next_eq]
  refine of_token ?_
  subst text_eq
  unfold Region.separates at separates
  unfold Region.allows
  simp_all

/-- Where the body of a method may stand, or a semicolon in its place. -/
def Behind.EndsHead (behind : Behind) : Prop :=
  behind.IsEnd ∨ behind = .parameters

theorem Reads.of_semicolon {middle : Behind} {semicolon : Token} {rest : List Token}
    (place : middle.EndsHead) (text_eq : semicolon.text = ";") (lexical : semicolon.IsLexical) :
    Reads .members middle (semicolon :: rest) .other [] rest := by
  rcases place with ended | rfl
  · exact .of_sign ended text_eq lexical (by decide) (by decide)
  · exact .of_parameters text_eq lexical (by decide) (by decide) (by decide)

/-- Dimensions behind the parameters of a method. -/
theorem Brackets.behindParameters {read : List Token} (brackets : Brackets read)
    (rest : List Token) : Reads .members .parameters (read ++ rest) .parameters [] rest := by
  have bracket : ∀ {token : Token} {rest} text, text = "[" ∨ text = "]" → token.text = text →
      token.IsLexical → Reads .members .parameters (token :: rest) .parameters [] rest := by
    intro token rest text either text_eq lexical
    have known : reserved.contains text = true ∧ headWords.contains text = false := by
      rcases either with rfl | rfl <;> decide
    have next_eq : Behind.parameters.next token = .parameters := by
      rw [Behind.next, lexical.not_isIdentifier text_eq known.1, if_neg Bool.false_ne_true, text_eq,
        known.2, if_neg Bool.false_ne_true, if_pos ⟨rfl, either⟩]
    have allowed : Region.members.allows .parameters token = true := by
      rcases either with rfl | rfl <;>
        simp [Region.allows, text_eq, structural, openBrace, closeBrace]
    have reads := @Reads.of_token .members .parameters rest token allowed
    rwa [next_eq] at reads
  induction brackets with
  | nil => exact .refl
  | pair opens closes lexical _ ih =>
      exact ((bracket "[" (.inl rfl) opens lexical.1).onward
        (bracket "]" (.inr rfl) closes lexical.2)).onward ih

namespace Grammar

section

variable {rules : Rules} {limit : Nat}

/-- A member of a type is read. -/
def Member (tokens : List Token) (node : Node) (rest : List Token) : Prop :=
  Reads .members .other tokens .other [node] rest

/-! ## Methods -/

theorem reads_thrown (tokens : List Token) :
    At limit tokens thrown fun _ rest =>
      ∃ middle : Behind, middle.EndsHead ∧ Reads .members .parameters tokens middle [] rest := by
  refine .accepting ?_ (.pure ⟨.parameters, .inr rfl, .refl⟩)
  rintro word tokens rfl text_eq lexical
  have started : Reads .members .parameters (word :: tokens) .other [] tokens :=
    .of_parameters text_eq lexical (by decide) (by decide) (by decide)
  refine (IsGliding.separated (by decide) IsGliding.qualifiedName limit tokens).bind ?_
  intro _ rest glides
  obtain ⟨after, ended, reads⟩ := started.glided (by decide) glides
  exact .pure ⟨after, .inl ended, reads⟩

/-- What stands behind the head of a method is read as its body. -/
def MethodBody (tokens : List Token) (body : List Node) (rest : List Token) : Prop :=
  ∀ (header : MethodHeader) (start : List Token) (middle : Behind)
    (annotations parameters : List Node), middle.EndsHead →
      Reads .members .other start middle (annotations ++ parameters) tokens →
        Member start (.method header annotations parameters body) rest

theorem Enclosed.methodBody {tokens rest : List Token} {body : List Node}
    (enclosed : Enclosed openBrace closeBrace .code tokens body rest) :
    MethodBody tokens body rest := by
  obtain ⟨opening, inside, inner, closing, rfl, opens, closes, reads⟩ := enclosed
  intro header start middle annotations parameters _ head
  exact head.method opens closes reads

theorem reads_methodBody (meets : Meets rules limit) (tokens : List Token) :
    At limit tokens (methodBody rules) (MethodBody tokens) := by
  refine .looking ?_ (.expecting ?_)
  · intro _
    exact (meets.block tokens).mono fun _ _ => Enclosed.methodBody
  · rintro semicolon rest rfl text_eq lexical
    refine .pure fun header start middle annotations parameters place head => ?_
    exact (head.onward (.of_semicolon place text_eq lexical)).wrap
      ⟨List.append_nil _, rfl, rfl, rfl⟩

/-- A method from behind its parameters. -/
theorem reads_methodEnd {body : Parser (List Node)} {start tokens : List Token}
    {annotations parameters : List Node}
    (reads : ∀ tokens, At limit tokens body (MethodBody tokens))
    (head : Reads .members .other start .parameters (annotations ++ parameters) tokens)
    (header : MethodHeader) :
    At limit tokens (do thrown; let found ← body; return .method header annotations parameters found)
      (Member start) := by
  refine (reads_thrown tokens).bind ?_
  rintro _ between ⟨middle, place, thrown⟩
  refine (reads between).bind ?_
  intro found rest behind
  exact .pure (behind header start middle annotations parameters place (head.onward thrown))

section

variable {start tokens : List Token} {before : Preamble}

theorem reads_constructorRest (meets : Meets rules limit)
    (named : Reads .members .other start .name before.annotations tokens)
    (typeVariables : List String) (name : String) :
    At limit tokens (constructorRest rules before typeVariables name) (Member start) := by
  refine (reads_formalParameters meets tokens).lower.bind ?_
  intro parameters between enclosed
  have body : ∀ tokens, At limit tokens (rules .block) (MethodBody tokens) := fun tokens =>
    (meets.block tokens).mono fun _ _ => Enclosed.methodBody
  exact reads_methodEnd body (named.trans (enclosed.parentheses rfl)) _

theorem reads_voidMethodRest (meets : Meets rules limit)
    (named : Reads .members .other start .name before.annotations tokens)
    (typeVariables : List String) (name : String) :
    At limit tokens (voidMethodRest rules before typeVariables name) (Member start) := by
  refine (reads_formalParameters meets tokens).lower.bind ?_
  intro parameters between enclosed
  exact reads_methodEnd (reads_methodBody meets) (named.trans (enclosed.parentheses rfl)) _

theorem reads_methodRest (meets : Meets rules limit)
    (named : Reads .members .other start .name before.annotations tokens)
    (typeVariables : List String) (name : String) (returned : TypeRef) :
    At limit tokens (methodRest rules before typeVariables name returned) (Member start) := by
  refine (reads_formalParameters meets tokens).lower.bind ?_
  intro parameters between enclosed
  have head := named.trans (enclosed.parentheses rfl)
  refine (IsGliding.brackets limit between).bind ?_
  rintro more between ⟨⟨read, rfl, brackets⟩, _⟩
  exact reads_methodEnd (reads_methodBody meets) (head.onward (brackets.behindParameters between)) _

/-! ## Fields -/

/-- The initial values of a field up to its semicolon. -/
theorem Initial.members {semicolon : Token} {rest : List Token} {nodes : List Node}
    (initial : Initial tokens nodes (semicolon :: rest))
    (named : Reads .members .other start .name before.annotations tokens)
    (text_eq : semicolon.text = ";") (lexical : semicolon.IsLexical) :
    Reads .members .other start .other (before.annotations ++ nodes) rest := by
  rcases initial with ⟨rfl, glides⟩ | ⟨sign, more, glides, sign_eq, _, inner, _, values⟩
  · rw [List.append_nil]
    exact (named.glided (by decide) glides).sign text_eq lexical (by decide) (by decide)
  · obtain ⟨middle, _, reads⟩ := named.glided (by decide) glides
    exact reads.trans (.initial (.inl sign_eq) text_eq values)

theorem reads_fieldRest (meets : Meets rules limit)
    (named : Reads .members .other start .name before.annotations tokens) (declared : TypeRef)
    (name : String) : At limit tokens (fieldRest rules before declared name) (Member start) := by
  refine (reads_declaratorRest meets tokens).bind ?_
  intro values between initial
  refine (reads_declarators (reads_declarator meets) between).bind ?_
  intro others between further
  refine .expecting ?_
  rintro semicolon rest rfl text_eq lexical
  exact .pure (((initial.trans further).members named text_eq lexical).wrap ⟨rfl, rfl, rfl, rfl⟩)

theorem reads_constantRest (meets : Meets rules limit) (tokens : List Token) :
    At limit tokens (constantRest rules) (Initial tokens) := by
  refine (IsGliding.dimensions limit tokens).bind ?_
  intro _ between glides
  refine .expecting ?_
  rintro sign between rfl text_eq lexical
  refine (meets.variableValue between).bind ?_
  intro value rest ends
  exact .pure (.inr ⟨sign, between, glides, text_eq, lexical, ends⟩)

theorem reads_constantsRest (meets : Meets rules limit) (declared : TypeRef) (name : String)
    (tokens : List Token) :
    At limit tokens (constantsRest rules before declared name) fun node rest =>
      ∃ nodes, node.Wraps (before.annotations ++ nodes) ∧ Initial tokens nodes rest := by
  have constant : ∀ tokens, At limit tokens
      (do let name ← identifier; return (name, ← constantRest rules)) fun found rest =>
        Declarator tokens found.2 rest := by
    intro tokens
    refine .naming ?_
    rintro name tokens rfl lexical
    refine (reads_constantRest meets tokens).bind ?_
    intro values rest initial
    exact .pure ⟨name, tokens, rfl, lexical, initial⟩
  refine (reads_constantRest meets tokens).bind ?_
  intro values between initial
  refine (reads_declarators constant between).bind ?_
  intro others rest further
  exact .pure ⟨_, ⟨rfl, rfl, rfl, rfl⟩, initial.trans further⟩

end

/-! ## Members -/

/-- A type declaration is read from behind its modifiers.  It may stand anywhere. -/
def TypeBehind (annotations : List Node) (tokens : List Token) (node : Node)
    (rest : List Token) : Prop :=
  ∃ nodes, node.Wraps (annotations ++ nodes) ∧
    ∀ region before, Reads region before tokens .other nodes rest

theorem TypeBehind.reads {annotations : List Node} {start tokens rest : List Token} {node : Node}
    (declared : TypeBehind annotations tokens node rest)
    (annotated : Annotated start annotations tokens) (region : Region) :
    Reads region .other start .other [node] rest := by
  obtain ⟨nodes, wraps, reads⟩ := declared
  obtain ⟨middle, _, first⟩ := annotated.ends region .other (by decide)
  exact (first.trans (reads region middle)).wrap wraps

/-- Nested types are read as they should be, for less tokens than a limit. -/
def MeetsNested (nested : NestedType) (limit : Nat) : Prop :=
  ∀ before tokens, At limit tokens (nested before) (TypeBehind before.annotations tokens)

theorem StartsWith.leads {tokens rest : List Token} (starts : StartsWith "<" tokens)
    (glides : Glides tokens rest) : Leads tokens rest := by
  refine ⟨glides, ?_⟩
  rintro token mem dotted
  cases tokens with
  | nil => cases mem
  | cons first more =>
      cases mem
      simp [StartsWith, dotted] at starts

section

variable {start tokens : List Token} {before : Preamble}

theorem reads_genericMember (meets : Meets rules limit)
    (annotated : Annotated start before.annotations tokens) (starts : StartsWith "<" tokens) :
    At limit tokens (genericMember rules before) (Member start) := by
  refine (IsGliding.typeParameters? limit tokens).bind ?_
  intro typeVariables between glides
  have typed := (annotated.ends .members .other (by decide)).typed (starts.leads glides)
  refine At.identifierAhead.bind ?_
  rintro isConstructor between ⟨rfl, _⟩
  split
  · refine .naming ?_
    rintro name between rfl lexical
    exact reads_constructorRest meets (typed.named lexical) typeVariables name.text
  · refine .accepting ?_ ?_
    · rintro word between rfl text_eq lexical_word
      refine .naming ?_
      rintro name between rfl lexical
      have named := (typed.sign text_eq lexical_word (by decide) (by decide)).onward
        (.of_name (by decide) lexical)
      exact reads_voidMethodRest meets named typeVariables name.text
    · refine (IsLeading.type limit between).bind ?_
      intro returned between leads
      refine .naming ?_
      rintro name between rfl lexical
      exact reads_methodRest meets ((typed.typed leads).named lexical) typeVariables name.text returned

theorem reads_typedMember (meets : Meets rules limit)
    (annotated : Annotated start before.annotations tokens) :
    At limit tokens (typedMember rules before) (Member start) := by
  refine (IsLeading.type limit tokens).bind ?_
  intro declared between leads
  refine .naming ?_
  rintro name between rfl lexical
  have named := ((annotated.ends .members .other (by decide)).typed leads).named lexical
  refine .looking ?_ (reads_fieldRest meets named declared name.text)
  intro _
  exact reads_methodRest meets named [] name.text declared

/-- The name of a method behind `void`, and what follows. -/
theorem reads_voidMethod (meets : Meets rules limit) {word : Token} {tokens : List Token}
    (annotated : Annotated start before.annotations (word :: tokens)) (text_eq : word.text = "void")
    (lexical : word.IsLexical) :
    At limit tokens (do return [← voidMethodRest rules before [] (← identifier)])
      fun found rest => Reads .members .other start .other found rest := by
  have started := (annotated.ends .members .other (by decide)).sign text_eq lexical (by decide)
    (by decide)
  refine .naming ?_
  rintro name tokens rfl lexical_name
  have named := started.onward (.of_name (by decide) lexical_name)
  exact (reads_voidMethodRest meets named [] name.text).bind fun _ _ member => .pure member

end

theorem reads_typeAhead (tokens : List Token) :
    At limit tokens typeAhead fun _ rest => rest = tokens := by
  refine At.oneOfAhead.bind ?_
  rintro _ _ ⟨rfl, _⟩
  refine At.ahead.bind ?_
  rintro _ _ ⟨rfl, _⟩
  exact .pure rfl

theorem reads_initializer (meets : Meets rules limit) (tokens : List Token) :
    At limit tokens (do return [.group .initializer (← rules .block)]) fun found rest =>
      Reads .members .other tokens .other found rest := by
  refine (meets.block tokens).bind ?_
  intro statements rest enclosed
  exact .pure ((enclosed.braces rfl).wrap ⟨rfl, rfl, rfl, rfl⟩)

theorem reads_classMember (meets : Meets rules limit) {nested : NestedType}
    (meetsNested : MeetsNested nested limit) (tokens : List Token) :
    At limit tokens (classMember rules nested) fun found rest =>
      Reads .members .other tokens .other found rest := by
  refine .accepting ?_ (.looking ?_ (.looking ?_ ?_))
  · rintro semicolon rest rfl text_eq lexical
    exact .pure (.of_sign (by decide) text_eq lexical (by decide) (by decide))
  · intro _
    refine .expecting ?_
    rintro word tokens rfl text_eq lexical
    refine (reads_initializer meets tokens).mono ?_
    intro found rest reads
    exact Reads.trans (.of_sign (by decide) text_eq lexical (by decide) (by decide)) reads
  · intro _
    exact reads_initializer meets tokens
  · refine (reads_preamble meets.annotationUse tokens).bind ?_
    intro before between annotated
    have single : ∀ {parser : Parser Node} {between}, At limit between parser (Member tokens) →
        At limit between (do return [← parser]) fun found rest =>
          Reads .members .other tokens .other found rest :=
      fun reads => reads.bind fun _ _ member => .pure member
    refine .accepting ?_ (.looking ?_ ?_)
    · rintro word between rfl text_eq lexical
      exact reads_voidMethod meets annotated text_eq lexical
    · intro starts
      exact single (reads_genericMember meets annotated starts)
    · refine (reads_typeAhead between).bind ?_
      rintro isType between rfl
      split
      · exact single ((meetsNested before between).mono fun _ _ declared =>
          declared.reads annotated .members)
      · refine At.identifierAhead.bind ?_
        rintro isConstructor between ⟨rfl, _⟩
        split
        · refine .naming ?_
          rintro name between rfl lexical
          have named := (annotated.ends .members .other (by decide)).named lexical
          exact single (reads_constructorRest meets named [] name.text)
        · exact single (reads_typedMember meets annotated)

/-- Members in braces. -/
theorem reads_body {α : Type} {member : Parser α} {nodesOf : α → List Node}
    {collect : List α → List Node} (collects : ∀ members, collect members = members.flatMap nodesOf)
    (reads : ∀ tokens, At limit tokens member fun found rest =>
      Reads .members .other tokens .other (nodesOf found) rest) (tokens : List Token) :
    At (limit + 1) tokens
      (do
        expect openBrace
        let members ← untilHolds (ahead [closeBrace]) member
        expect closeBrace
        return collect members)
      (Enclosed openBrace closeBrace .members tokens) := by
  refine .opening ?_
  rintro opening tokens rfl opens _
  refine (reads_until reads_ahead reads tokens).bind ?_
  intro members between inside
  rw [← collects] at inside
  refine .expecting ?_
  rintro closing rest rfl closes _
  exact .pure ⟨opening, tokens, .other, closing, rfl, opens, closes, inside⟩

theorem reads_classBody (meets : Meets rules limit) {nested : NestedType}
    (meetsNested : MeetsNested nested limit) (tokens : List Token) :
    At (limit + 1) tokens (classBody rules nested)
      (Enclosed openBrace closeBrace .members tokens) :=
  reads_body (fun _ => List.flatMap_id.symm) (reads_classMember meets meetsNested) tokens

theorem reads_genericInterfaceMethod (meets : Meets rules limit) {start tokens : List Token}
    {before : Preamble} (annotated : Annotated start before.annotations tokens)
    (starts : StartsWith "<" tokens) :
    At limit tokens (genericInterfaceMethod rules before) (Member start) := by
  refine (IsGliding.typeParameters? limit tokens).bind ?_
  intro typeVariables between glides
  have typed := (annotated.ends .members .other (by decide)).typed (starts.leads glides)
  have finish : ∀ (returned : Option TypeRef) between,
      Ends .members .other start before.annotations between →
      At limit between
        (do
          let name ← identifier
          let parameters ← formalParameters rules
          let _ ← dimensions
          thrown
          let body ← methodBody rules
          let header : MethodHeader := ⟨false, before.modifiers, typeVariables, returned, name⟩
          return .method header before.annotations parameters body)
        (Member start) := by
    intro returned between ends
    refine .naming ?_
    rintro name between rfl lexical
    refine (reads_formalParameters meets between).lower.bind ?_
    intro parameters between enclosed
    have head := (ends.named lexical).trans (enclosed.parentheses rfl)
    refine (IsGliding.brackets limit between).bind ?_
    rintro more between ⟨⟨read, rfl, brackets⟩, _⟩
    exact reads_methodEnd (reads_methodBody meets) (head.onward (brackets.behindParameters between)) _
  refine .accepting ?_ ?_
  · rintro word between rfl text_eq lexical
    exact .given (finish none between
      ⟨.other, by decide, typed.sign text_eq lexical (by decide) (by decide)⟩)
  · refine (IsLeading.type limit between).bind ?_
    intro returned between leads
    exact .given (finish (some returned) between (typed.typed leads))

theorem reads_interfaceMember (meets : Meets rules limit) {nested : NestedType}
    (meetsNested : MeetsNested nested limit) (tokens : List Token) :
    At limit tokens (interfaceMember rules nested) fun found rest =>
      Reads .members .other tokens .other found rest := by
  refine .accepting ?_ ?_
  · rintro semicolon rest rfl text_eq lexical
    exact .pure (.of_sign (by decide) text_eq lexical (by decide) (by decide))
  · refine (reads_preamble meets.annotationUse tokens).bind ?_
    intro before between annotated
    refine (reads_typeAhead between).bind ?_
    rintro isType between rfl
    split
    · refine (meetsNested before between).bind ?_
      intro node rest declared
      exact .pure (declared.reads annotated .members)
    · refine .looking ?_ (.accepting ?_ ?_)
      · intro starts
        exact (reads_genericInterfaceMethod meets annotated starts).bind fun _ _ member =>
          .pure member
      · rintro word between rfl text_eq lexical
        exact reads_voidMethod meets annotated text_eq lexical
      · refine (IsLeading.type limit between).bind ?_
        intro declared between leads
        refine .naming ?_
        rintro name between rfl lexical
        have named := ((annotated.ends .members .other (by decide)).typed leads).named lexical
        refine .looking ?_ ?_
        · intro _
          exact (reads_methodRest meets named [] name.text declared).bind fun _ _ member =>
            .pure member
        · refine (reads_constantsRest meets declared name.text between).bind ?_
          rintro node between ⟨nodes, wraps, initial⟩
          refine .expecting ?_
          rintro semicolon rest rfl text_eq lexical_end
          exact .pure ((initial.members named text_eq lexical_end).wrap wraps)

theorem reads_annotationMember (meets : Meets rules limit) {nested : NestedType}
    (meetsNested : MeetsNested nested limit) (tokens : List Token) :
    At limit tokens (annotationMember rules nested) (Member tokens) := by
  refine (reads_preamble meets.annotationUse tokens).bind ?_
  intro before between annotated
  refine (reads_typeAhead between).bind ?_
  rintro isType between rfl
  split
  · refine (meetsNested before between).mono ?_
    intro node rest declared
    exact declared.reads annotated .members
  · refine (IsLeading.type limit between).bind ?_
    intro declared between leads
    refine .naming ?_
    rintro name between rfl lexical
    have named := ((annotated.ends .members .other (by decide)).typed leads).named lexical
    refine .accepting ?_ ?_
    · rintro opening between rfl opens _
      refine .expecting ?_
      rintro closing between rfl closes _
      refine (IsGliding.brackets limit between).bind ?_
      rintro _ between ⟨⟨read, rfl, brackets⟩, _⟩
      have head : Reads .members .other tokens .parameters before.annotations between := by
        have empty : Reads .members .name (opening :: closing :: (read ++ between)) .parameters []
            (read ++ between) := .parentheses opens closes rfl .refl
        exact (named.onward empty).onward (brackets.behindParameters between)
      refine .accepting ?_ ?_
      · rintro word between rfl text_eq _
        refine (meets.elementValue between).bind ?_
        rintro value between ⟨inner, _, values⟩
        refine .given (.given (.expecting ?_))
        rintro semicolon rest rfl ends _
        exact .pure ((head.trans (.initial (.inr ⟨rfl, text_eq⟩) ends values)).wrap
          ⟨rfl, rfl, rfl, rfl⟩)
      · refine .given (.given (.expecting ?_))
        rintro semicolon rest rfl ends lexical_end
        exact .pure ((head.onward (.of_semicolon (.inr rfl) ends lexical_end)).wrap
          ⟨List.append_nil _, rfl, rfl, rfl⟩)
    · refine (reads_constantsRest meets declared name.text between).bind ?_
      rintro node between ⟨nodes, wraps, initial⟩
      refine .expecting ?_
      rintro semicolon rest rfl text_eq lexical_end
      exact .pure ((initial.members named text_eq lexical_end).wrap wraps)

/-! ## Enums -/

theorem reads_enumConstant (meets : Meets rules limit) (tokens : List Token) :
    At limit tokens (enumConstant rules) fun node rest =>
      Ends .constants .other tokens [node] rest := by
  -- Behind the name, and behind arguments, members may follow.
  have finish : ∀ (name : String) (annotations given : List Node) (middle : Behind) between,
      Region.constants.braced middle = some .members → middle.IsEnd →
      Reads .constants .other tokens middle (annotations ++ given) between →
      At limit between
        (do
          let body ← if ← ahead [openBrace] then rules .classBody else pure []
          return .constant name (annotations ++ given ++ body))
        fun node rest => Ends .constants .other tokens [node] rest := by
    intro name annotations given middle between place ended reads
    refine .looking ?_ ?_
    · intro _
      refine (meets.classBody between).bind ?_
      intro body rest enclosed
      exact .pure ⟨.other, by decide, (reads.trans (enclosed.braces place)).wrap ⟨rfl, rfl, rfl, rfl⟩⟩
    · exact .given (.pure ⟨middle, ended, reads.wrap ⟨List.append_nil _, rfl, rfl, rfl⟩⟩)
  have named : ∀ annotations between, Annotated tokens annotations between →
      At limit between
        (do
          let name ← identifier
          let given ← if ← ahead ["("] then arguments rules else pure []
          let body ← if ← ahead [openBrace] then rules .classBody else pure []
          return .constant name (annotations ++ given ++ body))
        fun node rest => Ends .constants .other tokens [node] rest := by
    intro annotations between annotated
    refine .naming ?_
    rintro name between rfl lexical
    have started := (annotated.ends .constants .other (by decide)).named lexical
    refine .looking ?_ ?_
    · intro _
      refine (reads_arguments meets between).bind ?_
      intro given between enclosed
      exact finish name.text annotations given .created between rfl (by decide)
        (started.trans (enclosed.of_value.parentheses rfl))
    · refine .given (finish name.text annotations [] .name between rfl (by decide) ?_)
      rwa [List.append_nil]
  refine .looking ?_ (.given (named [] tokens (.refl tokens)))
  intro _
  refine (reads_annotations meets tokens).bind ?_
  intro annotations between annotated
  exact named annotations between annotated

theorem reads_enumConstantsIn (meets : Meets rules limit) (rounds : Nat) (tokens : List Token) :
    At limit tokens (enumConstantsIn rules rounds) fun found rest =>
      Ends .constants .other tokens found rest := by
  induction rounds generalizing tokens with
  | zero => exact .mismatch
  | succ rounds ih =>
      refine At.oneOfAhead.bind ?_
      rintro isLast tokens ⟨rfl, _⟩
      split
      · exact .pure (.refl (by decide))
      · refine (reads_enumConstant meets tokens).bind ?_
        intro constant between ends
        refine .accepting ?_ (.pure ends)
        rintro comma between rfl text_eq lexical
        refine (ih between).bind ?_
        intro others rest further
        exact .pure (.behind (ends.sign text_eq lexical (by decide) (by decide)) further)

theorem reads_enumConstants (meets : Meets rules limit) (tokens : List Token) :
    At limit tokens (enumConstants rules) fun found rest =>
      Ends .constants .other tokens found rest := by
  refine .accepting ?_ ?_
  · rintro comma rest rfl text_eq lexical
    exact .pure ⟨.other, by decide, .of_sign (by decide) text_eq lexical (by decide) (by decide)⟩
  · refine At.enoughRounds.bind ?_
    rintro rounds tokens rfl
    exact reads_enumConstantsIn meets rounds tokens

/-! ## Types -/

theorem Angled.not_structural {header : List Token} (angled : Angled header) :
    ∀ token ∈ header, token.text ∉ structural :=
  fun token mem inside => angled.quiet token mem (List.mem_append_left _ inside)

theorem reads_enumBody (meets : Meets rules limit) {nested : NestedType}
    (meetsNested : MeetsNested nested limit) (tokens : List Token) :
    At limit tokens (enumBody rules nested) fun found rest =>
      ∀ (word : Token) (name : Word) header, word.text = "enum" → Glides header tokens →
        ∀ region before, Reads region before (word :: .identifier name :: header) .other
          (found.1 ++ found.2) rest := by
  refine .expecting ?_
  rintro opening tokens rfl opens _
  refine (reads_enumConstants meets tokens).bind ?_
  rintro constants between ⟨inner, _, first⟩
  have members : ∀ tokens, At limit tokens
      (untilHolds (ahead [closeBrace]) (classMember rules nested)) fun found rest =>
        Reads .members .other tokens .other (found.flatMap id) rest :=
    reads_until reads_ahead (reads_classMember meets meetsNested)
  refine .accepting ?_ ?_
  · rintro semicolon between rfl separates _
    refine (members between).bind ?_
    intro found between second
    rw [List.flatMap_id] at second
    refine .expecting ?_
    rintro closing rest rfl closes _
    refine .pure ?_
    rintro word name _ declares ⟨header, rfl, angled⟩ region before
    exact .enumBody declares rfl (Angled.not_structural angled) opens closes separates first second
  · refine .given (.expecting ?_)
    rintro closing rest rfl closes _
    refine .pure ?_
    rintro word name _ declares ⟨header, rfl, angled⟩ region before
    simp only [List.flatten_nil, List.append_nil]
    exact .constantsBody declares rfl (Angled.not_structural angled) opens closes first

/-- The body of a type behind its name and what stands between the two. -/
theorem Enclosed.typeBehind {word : Token} {name : Word} {tokens between rest : List Token}
    {annotations nodes : List Node} {node : Node}
    (enclosed : Enclosed openBrace closeBrace .members between nodes rest)
    (declares : word.text = "class" ∨ word.text = "interface") (glides : Glides tokens between)
    (wraps : node.Wraps (annotations ++ nodes)) :
    TypeBehind annotations (word :: .identifier name :: tokens) node rest := by
  obtain ⟨opening, inside, inner, closing, rfl, opens, closes, reads⟩ := enclosed
  obtain ⟨header, rfl, angled⟩ := glides
  exact ⟨nodes, wraps, fun region before =>
    .typeBody declares rfl (Angled.not_structural angled) opens closes reads⟩

theorem IsGliding.typesBehind {word : String} (flat : isFlat word = true) :
    IsGliding (typesBehind word) :=
  bind (accept (by simpa using flat)) fun _ => ite typeList (pure _)

section

variable {nested : NestedType} {before : Preamble}

theorem reads_classDeclaration (meets : Meets rules limit) (meetsNested : MeetsNested nested limit)
    (tokens : List Token) :
    At (limit + 1) tokens (classDeclaration rules nested before)
      (TypeBehind before.annotations tokens) := by
  refine .opening ?_
  rintro word tokens rfl declares _
  refine At.word.bind ?_
  rintro name tokens ⟨rfl, _⟩
  refine (IsGliding.typeParameters? limit tokens).bind ?_
  intro typeVariables between glides
  have finish : ∀ (extended : List TypeRef) between, Glides tokens between →
      At limit between
        (do
          let implemented ← typesBehind "implements"
          let members ← classBody rules nested
          let header : TypeHeader :=
            ⟨.classType, before.modifiers, name, typeVariables, extended, implemented⟩
          return .type header before.annotations [] members)
        (TypeBehind before.annotations (word :: .identifier name :: tokens)) := by
    intro extended between glides
    refine (IsGliding.typesBehind (by decide) limit between).bind ?_
    intro implemented between further
    refine (reads_classBody meets meetsNested between).lower.bind ?_
    intro members rest enclosed
    exact .pure (enclosed.typeBehind (.inl declares) (glides.trans further)
      ⟨by simp [Node.parts], rfl, rfl, rfl⟩)
  refine .accepting ?_ (.given (finish [] between glides))
  rintro extends_ between rfl text_eq _
  refine (IsGliding.type limit between).bind ?_
  intro superclass between further
  have extended : Glides (extends_ :: _) between :=
    Glides.trans ⟨[extends_], rfl, .singleton text_eq (by decide)⟩ further
  exact .given (finish [superclass] between (glides.trans extended))

theorem reads_interfaceDeclaration (meets : Meets rules limit)
    (meetsNested : MeetsNested nested limit) (tokens : List Token) :
    At (limit + 1) tokens (interfaceDeclaration rules nested before)
      (TypeBehind before.annotations tokens) := by
  refine .opening ?_
  rintro word tokens rfl declares _
  refine At.word.bind ?_
  rintro name tokens ⟨rfl, _⟩
  refine (IsGliding.typeParameters? limit tokens).bind ?_
  intro typeVariables between glides
  refine (IsGliding.typesBehind (by decide) limit between).bind ?_
  intro extended between further
  refine (reads_body (fun _ => List.flatMap_id.symm)
    (reads_interfaceMember meets meetsNested) between).lower.bind ?_
  intro members rest enclosed
  exact .pure (enclosed.typeBehind (.inr declares) (glides.trans further)
    ⟨by simp [Node.parts], rfl, rfl, rfl⟩)

theorem reads_enumDeclaration (meets : Meets rules limit) (meetsNested : MeetsNested nested limit)
    (tokens : List Token) :
    At (limit + 1) tokens (enumDeclaration rules nested before)
      (TypeBehind before.annotations tokens) := by
  refine .opening ?_
  rintro word tokens rfl declares _
  refine At.word.bind ?_
  rintro name tokens ⟨rfl, _⟩
  refine (IsGliding.typesBehind (by decide) limit tokens).bind ?_
  intro implemented between glides
  refine (reads_enumBody meets meetsNested between).bind ?_
  rintro ⟨constants, members⟩ rest body
  exact .pure ⟨constants ++ members, ⟨by simp [Node.parts], rfl, rfl, rfl⟩,
    body word name tokens declares glides⟩

theorem reads_annotationDeclaration (meets : Meets rules limit)
    (meetsNested : MeetsNested nested limit) (tokens : List Token) :
    At (limit + 1) tokens (annotationDeclaration rules nested before)
      (TypeBehind before.annotations tokens) := by
  refine .opening ?_
  rintro sign tokens rfl signed _
  refine .expecting ?_
  rintro word tokens rfl declares _
  refine At.word.bind ?_
  rintro name tokens ⟨rfl, _⟩
  refine (reads_body (fun members => (List.flatMap_singleton' members).symm)
    (reads_annotationMember meets meetsNested) tokens).lower.bind ?_
  intro members rest enclosed
  have body : TypeBehind before.annotations (word :: .identifier name :: tokens)
      (.type ⟨.annotationType, before.modifiers, name, [], [], []⟩ before.annotations [] members)
      rest :=
    enclosed.typeBehind (.inr declares) (.refl tokens) ⟨by simp [Node.parts], rfl, rfl, rfl⟩
  obtain ⟨nodes, wraps, reads⟩ := body
  refine .pure ⟨nodes, wraps, fun region before => ?_⟩
  have marked : Reads region before (sign :: ([] ++ word :: .identifier name :: tokens)) .annotationName
      [] (word :: .identifier name :: tokens) := .annotationName signed (by simp)
  exact marked.trans (reads region .annotationName)

end

theorem reads_typeIn (meets : Meets rules limit) (depth : Nat) :
    MeetsNested (typeIn rules depth) (limit + 1) := by
  induction depth with
  | zero => exact fun _ _ => .mismatch
  | succ depth ih =>
      intro before tokens
      refine At.peek.bind ?_
      rintro _ tokens ⟨rfl, rfl⟩
      have nested : MeetsNested (typeIn rules depth) limit := fun before tokens =>
        (ih before tokens).lower
      split
      · exact reads_classDeclaration meets nested tokens
      · exact reads_enumDeclaration meets nested tokens
      · exact reads_interfaceDeclaration meets nested tokens
      · refine .looking ?_ .mismatch
        intro _
        exact reads_annotationDeclaration meets nested tokens
      · exact .mismatch

theorem reads_typeDeclaration (meets : Meets rules limit)
    (annotationUse : ∀ tokens, At (limit + 1) tokens (rules .annotationUse) (AnnotationUse tokens))
    (tokens : List Token) : At (limit + 1) tokens (typeDeclaration rules) (Statement tokens) := by
  refine (reads_preamble annotationUse tokens).bind ?_
  intro before between annotated
  refine At.enoughRounds.bind ?_
  rintro rounds between rfl
  refine (reads_typeIn meets rounds before between).mono ?_
  intro node rest declared
  exact declared.reads annotated .code

theorem reads_anonymousBody (meets : Meets rules limit) (tokens : List Token) :
    At (limit + 1) tokens (anonymousBody rules)
      (Enclosed openBrace closeBrace .members tokens) := by
  refine At.enoughRounds.bind ?_
  rintro rounds tokens rfl
  exact reads_classBody meets (fun before tokens => (reads_typeIn meets rounds before tokens).lower)
    tokens

end

end Grammar

end JavaUml.Java
