import JavaUml.Proofs.Java.Grammar.Goals

/-!
# What expressions read

A primary is read as one element of a chain, unless it stands in parentheses; its
selectors are elements as well.  Where an element is a call, its name and its
arguments are those of the call in the text, up to calls with type arguments behind
a path.
-/

namespace JavaUml.Java.Grammar

section

variable {rules : Rules} {limit : Nat}

/-! ## Elements of chains -/

/-- An element of a chain is read. -/
def Element (before : Behind) (tokens : List Token) (node : Node) (rest : List Token) : Prop :=
  ∃ link parts, node = bare link parts ∧
    ∃ after : Behind, after.IsCalm ∧ Reads .value before tokens after [node] rest

/-- An element that is no call. -/
theorem Element.of_reads {before after : Behind} {tokens rest : List Token} {parts : List Node}
    {link : Link} (reads : Reads .value before tokens after parts rest) (calm : after.IsCalm)
    (silent : (bare link parts).call? = none) : Element before tokens (bare link parts) rest :=
  ⟨link, parts, rfl, after, calm, reads.wrap ⟨rfl, rfl, silent, rfl⟩⟩

theorem Element.past {before middle : Behind} {tokens between rest : List Token} {node : Node}
    (reads : Reads .value before tokens middle [] between)
    (element : Element middle between node rest) : Element before tokens node rest := by
  obtain ⟨link, parts, rfl, after, calm, further⟩ := element
  exact ⟨link, parts, rfl, after, calm, reads.trans further⟩

theorem Enclosed.of_value {opens closes : String} {tokens rest : List Token} {nodes : List Node}
    (enclosed : Enclosed opens closes .value tokens nodes rest) :
    Enclosed opens closes .code tokens nodes rest := by
  obtain ⟨opening, inside, inner, closing, rfl, opens_eq, closes_eq, reads⟩ := enclosed
  exact ⟨opening, inside, inner, closing, rfl, opens_eq, closes_eq, reads.of_value⟩

theorem Enclosed.call {tokens rest : List Token} {given : List Node}
    (enclosed : Enclosed "(" ")" .value tokens given rest) {name : Word} {made : Call}
    (name_eq : made.name = name.text) :
    Element .other (.identifier name :: tokens) (bare (.call made) given) rest := by
  obtain ⟨opening, inside, inner, closing, rfl, opens, closes, reads⟩ := enclosed
  exact ⟨.call made, given, rfl, .other, by decide,
    .call rfl opens closes (.inr rfl) name_eq reads⟩

theorem reads_arguments (meets : Meets rules limit) (tokens : List Token) :
    At limit tokens (arguments rules) (Enclosed "(" ")" .value tokens) := by
  refine .expecting ?_
  rintro opening tokens rfl opens _
  refine .accepting ?_ ?_
  · rintro closing rest rfl closes _
    exact .pure ⟨opening, _, .other, closing, rfl, opens, closes, .refl⟩
  · refine (reads_separated (by decide) (by decide) meets.expression tokens).bind ?_
    rintro given between ⟨inner, _, reads⟩
    rw [List.flatMap_singleton'] at reads
    refine .expecting ?_
    rintro closing rest rfl closes _
    exact .pure ⟨opening, tokens, inner, closing, rfl, opens, closes, reads⟩

theorem reads_parenthesised (meets : Meets rules limit) (tokens : List Token) :
    At (limit + 1) tokens (parenthesised rules) fun node rest =>
      Enclosed "(" ")" .value tokens [node] rest := by
  refine .opening ?_
  rintro opening tokens rfl opens _
  refine (meets.expression tokens).bind ?_
  rintro inside between ⟨inner, _, reads⟩
  refine .expecting ?_
  rintro closing rest rfl closes _
  exact .pure ⟨opening, tokens, inner, closing, rfl, opens, closes, reads⟩

/-! ## Calls on `super` and calls with type arguments -/

/-- A name, which is that of a call if arguments follow. -/
theorem reads_nameOrCall (meets : Meets rules limit) {name : Word}
    (lexical : (Token.identifier name).IsLexical) (made : List Node → Call) {field : Link}
    (name_eq : ∀ given, (made given).name = name.text) (silent : (bare field []).call? = none)
    (tokens : List Token) :
    At limit tokens
      (do
        if ← ahead ["("] then
          let given ← arguments rules
          return bare (.call (made given)) given
        else return bare field [])
      (Element .other (.identifier name :: tokens)) := by
  refine .looking ?_ ?_
  · intro _
    refine (reads_arguments meets tokens).bind ?_
    intro given rest enclosed
    exact .pure (enclosed.call (name_eq given))
  · exact .pure (.of_reads (.of_name (by decide) lexical) (by decide) silent)

/-- The arguments of a constructor, behind the word that stands for it. -/
theorem reads_constructorArguments (meets : Meets rules limit) {link : Link}
    (silent : ∀ given, (bare link given).call? = none) (tokens : List Token) :
    At limit tokens (do return bare link (← arguments rules)) (Element .word tokens) := by
  refine (reads_arguments meets tokens).bind ?_
  intro given rest enclosed
  exact .pure (.of_reads (enclosed.of_value.parentheses rfl) (by decide) (silent given))

theorem reads_superRest (meets : Meets rules limit) (tokens : List Token) :
    At limit tokens (superRest rules) (Element .word tokens) := by
  refine .accepting ?_ ?_
  · rintro dot tokens rfl dotted lexical
    have started : Reads .value .word (dot :: tokens) .other [] tokens :=
      .of_dot (by decide) dotted lexical
    have named : ∀ between, Reads .value .word (dot :: tokens) .other [] between →
        At limit between
          (do
            let name ← identifier
            if ← ahead ["("] then
              let given ← arguments rules
              return bare (.call ⟨true, "", name, given.length⟩) given
            else return bare (.other .superField) [])
          (Element .word (dot :: tokens)) := by
      intro between reads
      refine .naming ?_
      rintro name between rfl lexical
      refine (reads_nameOrCall meets lexical (fun given => ⟨true, "", name.text, given.length⟩)
        (fun _ => rfl) rfl between).mono ?_
      intro node rest element
      exact .past reads element
    refine At.ahead.bind ?_
    rintro isGeneric _ ⟨rfl, _⟩
    dsimp only
    split
    · refine (reads_plainArguments limit _).bind ?_
      intro _ between typed
      exact named between (started.onward (typed.reads (by decide)))
    · exact named _ started
  · exact reads_constructorArguments meets (fun _ => rfl) tokens

/-- What follows the word `super`, which may also stand in front of a method reference. -/
theorem reads_superOrReference (meets : Meets rules limit) {word : Token}
    (text_eq : word.text = "super") (lexical : word.IsLexical) (tokens : List Token) :
    At limit tokens
      (do if ← ahead ["::"] then return bare (.other .superWord) [] else superRest rules)
      (Element .other (word :: tokens)) := by
  have started : Reads .value .other (word :: tokens) .word [] tokens :=
    .of_headWord (by decide) text_eq lexical (by decide) (by decide)
  refine .looking ?_ ?_
  · intro _
    exact .pure (.of_reads started (by decide) rfl)
  · exact (reads_superRest meets tokens).mono fun _ _ => .past started

/-- Type arguments with no path in front of them. -/
theorem reads_genericCall_nil (meets : Meets rules limit) (tokens : List Token) :
    At limit tokens (genericCall rules []) (Element .other tokens) := by
  refine .accepting ?_ ?_
  · rintro word tokens rfl text_eq lexical
    refine (reads_superRest meets tokens).mono ?_
    intro node rest element
    exact .past (.of_headWord (by decide) text_eq lexical (by decide) (by decide)) element
  · refine .naming ?_
    rintro name tokens rfl lexical
    refine (reads_arguments meets tokens).bind ?_
    intro given rest enclosed
    exact .pure (enclosed.call rfl)

/-- Type arguments behind a path and a dot. -/
theorem reads_genericCall (meets : Meets rules limit) {dot : Token} {between : List Token}
    (dotted : dot.text = ".") (lexical : dot.IsLexical) (path : List String) (tokens : List Token)
    (typed : Arguments between tokens) :
    At limit tokens (genericCall rules path) (Element .name (dot :: between)) := by
  refine .accepting ?_ ?_
  · rintro word tokens rfl text_eq lexical_word
    refine (reads_superRest meets tokens).mono ?_
    intro node rest element
    have started : Reads .value .name (dot :: between) .word [] tokens :=
      ((Reads.of_dot (by decide) dotted lexical).onward (typed.reads (by decide))).onward
        (.of_headWord (by decide) text_eq lexical_word (by decide) (by decide))
    exact .past started element
  · refine .naming ?_
    rintro name tokens rfl _
    refine (reads_arguments meets tokens).bind ?_
    rintro given rest ⟨opening, inside, inner, closing, rfl, opens, closes, reads⟩
    obtain ⟨sign, arguments, last, rfl, signed, ends, _, within⟩ := typed
    -- Whatever the path is, the call is written here.
    have called : ∀ made, Element .name
        (dot :: sign :: (arguments ++ last :: .identifier name :: opening :: inside))
        (bare (.call made) given) rest := by
      intro made
      have angled : Angled (sign :: (arguments ++ [last])) := .pair signed ends within .nil
      have whole : Reads .value .name
          (dot :: sign :: (arguments ++ [last] ++ .identifier name :: opening :: inside)) .other
          [bare (.call made) given] rest :=
        .genericCall made dotted signed angled rfl opens closes (.inr rfl) reads
      exact ⟨.call made, given, rfl, .other, by decide, by simpa using whole⟩
    split
    · exact .pure (called _)
    · exact .pure (called _)

/-! ## New objects -/

theorem reads_creatorRest (meets : Meets rules limit) (tokens : List Token) :
    At limit tokens (creatorRest rules) fun found rest =>
      ∃ after : Behind, after.IsCalm ∧ Reads .value .newType tokens after found rest := by
  refine (reads_arguments meets tokens).bind ?_
  intro given between enclosed
  have started : Reads .value .newType tokens .created given between :=
    enclosed.of_value.parentheses rfl
  refine .looking ?_ (.pure ⟨.created, by decide, started⟩)
  intro _
  refine (meets.classBody between).bind ?_
  intro body rest held
  exact .pure ⟨.other, by decide, started.trans (held.braces rfl)⟩

/-- Sizes of a new array in brackets are read.  None are read only if none follow. -/
def Sized (tokens : List Token) (sizes : List Node) (rest : List Token) : Prop :=
  (sizes = [] ∧ rest = tokens ∧
    (StartsWith "[" tokens → (tokens.take 2).map Token.text = ["[", "]"])) ∨
    ∀ before : Behind, before.IsEnd ∨ before = .newType →
      Reads .value before tokens .other sizes rest

theorem reads_sizes (meets : Meets rules limit) :
    ∀ tokens, At limit tokens
      (whileHolds (do return (← ahead ["["]) && !(← ahead ["[", "]"])) do
        expect "["
        let size ← rules .expression
        expect "]"
        return size)
      (Sized tokens) := by
  refine At.whileHolds fun tokens => ?_
  refine At.ahead.bind ?_
  rintro isOpening _ ⟨rfl, isOpening_iff⟩
  refine At.ahead.bind ?_
  rintro isPair tokens ⟨rfl, isPair_iff⟩
  refine .pure ?_
  split
  · refine .expecting ?_
    rintro opening tokens rfl opens lexical
    refine (meets.expression tokens).bind ?_
    intro size between value
    refine .expecting ?_
    rintro closing rest rfl closes lexical_closing
    refine .pure ?_
    intro others last further
    have first : ∀ before : Behind, before.IsEnd ∨ before = .newType →
        Reads .value before (opening :: tokens) .other [size] rest := fun before ended =>
      (Reads.of_bracket ended opens lexical).trans
        (value.sign closes lexical_closing (by decide) (by decide))
    rcases further with ⟨rfl, rfl, _⟩ | further
    · exact .inr first
    · exact .inr fun before ended => (first before ended).trans (further .other (.inl (by decide)))
  · rename_i none_left
    refine .inl ⟨rfl, rfl, fun starts => ?_⟩
    refine isPair_iff.1 ?_
    simpa [isOpening_iff.2 starts] using none_left

theorem reads_newArrayRest (meets : Meets rules limit) {before : Behind} (tokens : List Token)
    (place : before = .other ∨ before = .newType ∧ StartsWith "[" tokens) :
    At limit tokens (newArrayRest rules) (Element before tokens) := by
  have ended : before.IsEnd ∨ before = .newType := by
    rcases place with rfl | ⟨rfl, _⟩
    · exact .inl (by decide)
    · exact .inr rfl
  refine At.ahead.bind ?_
  rintro isPair tokens ⟨rfl, isPair_iff⟩
  split
  · rename_i pair_ahead
    refine (IsGliding.brackets limit _).bind ?_
    rintro _ between ⟨⟨read, rfl, brackets⟩, none_ahead⟩
    have started : Reads .value before (read ++ between) .other [] between := by
      cases brackets with
      | nil => exact absurd (isPair_iff.1 pair_ahead) none_ahead
      | pair opens closes lexical behind =>
          exact ((Reads.of_bracket ended opens lexical.1).onward
            (.of_sign (by decide) closes lexical.2 (by decide) (by decide))).onward (behind.reads _)
    refine (reads_arrayValue meets.variableValue between).lower.bind ?_
    intro value rest reads
    exact .pure (.of_reads (started.trans reads) (by decide) rfl)
  · rename_i no_pair
    refine (reads_sizes meets _).bind ?_
    intro sizes between sized
    have started : Reads .value before tokens .other sizes between := by
      rcases sized with ⟨rfl, rfl, only_pair⟩ | reads
      · rcases place with rfl | ⟨rfl, starts⟩
        · exact .refl
        · exact absurd (isPair_iff.2 (only_pair starts)) no_pair
      · exact reads before ended
    refine (IsGliding.dimensions limit between).bind ?_
    intro _ rest glides
    obtain ⟨after, calm, further⟩ := @Glides.reads .value .other _ _ glides (by decide)
    exact .pure (.of_reads (started.onward further) calm rfl)

/-- What follows `new`. -/
theorem reads_creator (meets : Meets rules limit) {word : Token} (named : word.text = "new")
    (before : Behind) (tokens : List Token) :
    At limit tokens (creator rules) (Element before (word :: tokens)) := by
  refine At.basicTypeAhead.bind ?_
  rintro isBasic tokens rfl
  split
  · refine (reads_basicName limit tokens).bind ?_
    rintro name tokens ⟨rfl, _⟩
    refine (reads_newArrayRest meets tokens (.inl rfl)).mono ?_
    intro node rest element
    exact .past (.newBasic named rfl) element
  · -- With type arguments in front or not, a path follows.
    have created : ∀ (isGeneric : Bool) read between, tokens = read ++ between → Created read →
        At limit between
          (do
            let created ← createdPath
            if ← ahead ["["] then
              if isGeneric then mismatch else newArrayRest rules
            else return bare (.create (.mk created 0)) (← creatorRest rules))
          (Element before (word :: tokens)) := by
      rintro isGeneric read between rfl first
      refine (IsCreating.createdPath limit between).bind ?_
      rintro path _ ⟨more, rfl, second⟩
      have started : ∀ between, Reads .value before (word :: (read ++ (more ++ between))) .newType []
          between := by
        intro between
        have whole : Reads .value before (word :: ((read ++ more) ++ between)) .newType [] between :=
          .newType named (first.append second)
        rwa [List.append_assoc] at whole
      refine .looking ?_ ?_
      · intro starts
        split
        · exact .mismatch
        · refine (reads_newArrayRest meets _ (.inr ⟨rfl, starts⟩)).mono ?_
          intro node rest element
          exact .past (started _) element
      · refine (reads_creatorRest meets _).bind ?_
        rintro parts rest ⟨after, calm, reads⟩
        exact .pure (.of_reads ((started _).trans reads) calm rfl)
    refine At.ahead.bind ?_
    rintro (_ | _) tokens ⟨rfl, _⟩
    · exact created false [] tokens rfl .nil
    · refine (IsCreating.plainArguments limit tokens).bind ?_
      rintro _ between ⟨read, tokens_eq, first⟩
      exact created true read between tokens_eq first

/-- What follows `new` behind the dot of an outer instance. -/
theorem reads_innerCreator (meets : Meets rules limit) {word : Token} (named : word.text = "new")
    (before : Behind) (tokens : List Token) :
    At limit tokens (innerCreator rules) (Element before (word :: tokens)) := by
  have finish : ∀ read between, tokens = read ++ between → Created read →
      At limit between (do return bare (.other .newInner) (← creatorRest rules))
        (Element before (word :: tokens)) := by
    rintro read between rfl created
    refine (reads_creatorRest meets between).bind ?_
    rintro parts rest ⟨after, calm, reads⟩
    have started : Reads .value before (word :: (read ++ between)) .newType [] between :=
      .newType named created
    exact .pure (.of_reads (started.trans reads) calm rfl)
  have inner : ∀ read between, tokens = read ++ between → Created read →
      At limit between
        (do
          let _ ← identifier
          if ← ahead ["<"] then
            if !(← diamond) then
              let _ ← plainArguments
          return bare (.other .newInner) (← creatorRest rules))
        (Element before (word :: tokens)) := by
    rintro read between tokens_eq first
    refine .naming ?_
    rintro name between rfl _
    have second : Created (read ++ [.identifier name]) := first.append (.name (.inl rfl) .nil)
    refine At.ahead.bind ?_
    rintro isGeneric between ⟨rfl, _⟩
    dsimp only
    split
    · refine (IsCreating.diamond limit between).bind ?_
      rintro isDiamond _ ⟨more, rfl, third⟩
      split
      · refine (IsCreating.plainArguments limit _).bind ?_
        rintro _ between ⟨last, rfl, fourth⟩
        exact finish (read ++ [.identifier name] ++ (more ++ last)) between (by simp [tokens_eq])
          (second.append (third.append fourth))
      · exact finish (read ++ [.identifier name] ++ more) _ (by simp [tokens_eq])
          (second.append third)
    · exact finish (read ++ [.identifier name]) between (by simp [tokens_eq]) second
  refine At.ahead.bind ?_
  rintro isGeneric tokens ⟨rfl, _⟩
  dsimp only
  split
  · refine (IsCreating.plainArguments limit tokens).bind ?_
    rintro _ between ⟨read, tokens_eq, first⟩
    exact inner read between tokens_eq first
  · exact inner [] tokens rfl .nil

/-! ## Primaries -/

/-- The dimensions of an array and `.class`, behind the start of a type. -/
theorem reads_arrayClass {before : Behind} {start tokens : List Token} (led : Glides start tokens)
    (calm : before.IsCalm) :
    At limit tokens
      (do
        let _ ← dimensions
        expect "."
        expect "class"
        return bare (.other .classLiteral) [])
      (Element before start) := by
  refine (IsGliding.dimensions limit tokens).bind ?_
  intro _ between glides
  obtain ⟨middle, still, reads⟩ := @Glides.reads .value before _ _ (led.trans glides) calm
  refine .expecting ?_
  rintro dot between rfl dotted _
  refine .expecting ?_
  rintro word rest rfl text_eq _
  exact .pure (.of_reads (reads.onward (.classWord still dotted text_eq)) (by decide) rfl)

/-- What follows a dotted path, of which everything but the last name has been read. -/
theorem reads_pathRest (meets : Meets rules limit) {path : List String} {name : Word}
    (lexical : (Token.identifier name).IsLexical) (last_eq : path.getLast? = some name.text)
    {tokens between : List Token}
    (lead : Reads .value .other tokens .other [] (.identifier name :: between)) :
    At limit between (pathRest rules path) (Element .other tokens) := by
  have named : Reads .value .other tokens .name [] between :=
    lead.onward (.of_name (by decide) lexical)
  refine .acceptingPair ?_ (.looking ?_ (.acceptingPair ?_ (.acceptingPair ?_ (.looking ?_
    (.acceptingPair ?_ (.looking ?_ ?_))))))
  · rintro opening closing between rfl opens closes _ _
    have bracketed : Glides (opening :: closing :: between) between :=
      ⟨[opening, closing], rfl,
        (Angled.singleton opens (by decide)).append (.singleton closes (by decide))⟩
    exact (reads_arrayClass bracketed (by decide)).mono fun _ _ => .past named
  · intro _
    refine (reads_arguments meets between).bind ?_
    intro given rest enclosed
    refine .pure (.past lead (enclosed.call ?_))
    simp [last_eq]
  · rintro dot word rest rfl dotted text_eq _ _
    exact .pure (.of_reads (named.onward (.classWord (by decide) dotted text_eq)) (by decide) rfl)
  · rintro dot word rest rfl dotted text_eq lexical_dot lexical_word
    exact .pure (.of_reads ((named.onward (.of_dot (by decide) dotted lexical_dot)).onward
      (.of_headWord (by decide) text_eq lexical_word (by decide) (by decide))) (by decide) rfl)
  · intro _
    refine .expecting ?_
    rintro dot between rfl dotted lexical_dot
    refine (reads_plainArguments limit between).bind ?_
    intro _ rest typed
    refine (reads_genericCall meets dotted lexical_dot path rest typed).mono ?_
    intro node rest element
    exact .past named element
  · rintro dot word between rfl dotted text_eq lexical_dot _
    refine (reads_innerCreator meets text_eq .other between).mono ?_
    intro node rest element
    exact .past (named.onward (.of_dot (by decide) dotted lexical_dot)) element
  · intro _
    refine .expecting ?_
    rintro dot between rfl dotted lexical_dot
    refine .expecting ?_
    rintro word between rfl text_eq lexical_word
    have started := (named.onward (.of_dot (by decide) dotted lexical_dot)).onward
      (.of_headWord (by decide) text_eq lexical_word (by decide) (by decide))
    exact (reads_constructorArguments meets (fun _ => rfl) between).mono fun _ _ => .past started
  · exact .pure (.of_reads named (by decide) rfl)

/-- The names of a path behind the first one.  Everything up to the last one is read. -/
theorem reads_pathNames :
    ∀ tokens, At limit tokens
      (whileHolds primary.dottedIdentifierAhead (do expect "."; identifier)) fun others rest =>
        ∀ (name : Word) (start : List Token), (Token.identifier name).IsLexical →
          Reads .value .other start .other [] (.identifier name :: tokens) →
          ∃ last : Word, (Token.identifier last).IsLexical ∧
            (name.text :: others).getLast? = some last.text ∧
              Reads .value .other start .other [] (.identifier last :: rest) := by
  refine At.whileHolds fun tokens => ?_
  have looks : At limit tokens primary.dottedIdentifierAhead fun _ rest => rest = tokens := by
    refine At.left.bind ?_
    rintro _ _ ⟨rfl, rfl⟩
    split
    · exact .pure rfl
    · exact .pure rfl
  refine looks.mono ?_
  rintro (_ | _) tokens rfl
  · intro name start lexical lead
    exact ⟨name, lexical, rfl, lead⟩
  · refine .expecting ?_
    rintro dot tokens rfl dotted lexical_dot
    refine At.identifier.mono ?_
    rintro _ more ⟨next, rfl, lexical_next, rfl⟩ others rest further name start lexical lead
    rw [List.getLast?_cons_cons]
    exact further next start lexical_next
      ((lead.onward (.of_name (by decide) lexical)).onward (.of_dot (by decide) dotted lexical_dot))

/-- A primary is read: an element, or an expression in parentheses. -/
def Head (tokens : List Token) (node : Node) (rest : List Token) : Prop :=
  Element .other tokens node rest ∨ Enclosed "(" ")" .value tokens [node] rest

theorem reads_primary (meets : Meets rules limit) (tokens : List Token) :
    At (limit + 1) tokens (primary rules) (Head tokens) := by
  refine .assuming fun fits _ => At.peek.bind ?_
  rintro _ tokens ⟨rfl, rfl⟩
  split
  · rename_i head
    refine .entering head ?_
    rintro rest rfl _
    have literal : Reads .value .other (.literal :: rest) .other [] rest :=
      .of_token (by decide)
    exact .pure (.inl (.of_reads literal (by decide) rfl))
  · refine .naming ?_
    rintro name tokens rfl lexical
    refine .of_fits (Nat.lt_of_succ_lt_succ fits) ?_
    refine (reads_pathNames tokens).bind ?_
    intro others between names
    obtain ⟨last, lexical_last, last_eq, lead⟩ := names name _ lexical .refl
    exact (reads_pathRest meets lexical_last last_eq lead).mono fun _ _ => .inl
  · refine (reads_basicName _ tokens).bind ?_
    rintro name tokens ⟨rfl, lexical⟩
    exact (reads_arrayClass ⟨[.basicType name], rfl, .basicType lexical⟩ (by decide)).mono
      fun _ _ => .inl
  · rename_i token _ _ _ head
    split
    · exact (reads_parenthesised meets tokens).mono fun _ _ => .inr
    · rename_i is_this
      refine .entering head ?_
      rintro tokens rfl lexical
      have started : Reads .value .other (token :: tokens) .word [] tokens :=
        .of_headWord (by decide) is_this lexical (by decide) (by decide)
      refine .looking ?_ (.pure (.inl (.of_reads started (by decide) rfl)))
      intro _
      refine (reads_constructorArguments meets (fun _ => rfl) tokens).mono ?_
      intro node rest element
      exact .inl (.past started element)
    · rename_i is_super
      refine .entering head ?_
      rintro tokens rfl lexical
      exact (reads_superOrReference meets is_super lexical tokens).mono fun _ _ => .inl
    · rename_i is_new
      refine .entering head ?_
      rintro tokens rfl _
      exact (reads_creator meets is_new .other tokens).mono fun _ _ => .inl
    · refine (reads_plainArguments _ tokens).bind ?_
      intro _ between typed
      have started : Reads .value .other tokens .other [] between := typed.reads (by decide)
      refine .of_fits (Nat.lt_of_lt_of_le typed.length_lt (Nat.le_of_lt_succ fits)) ?_
      refine .accepting ?_ ?_
      · rintro word between rfl text_eq lexical
        have named := started.onward
          (.of_headWord (by decide) text_eq lexical (by decide) (by decide))
        refine (reads_constructorArguments meets (fun _ => rfl) between).mono ?_
        intro node rest element
        exact .inl (.past named element)
      · refine (reads_genericCall_nil meets between).mono ?_
        intro node rest element
        exact .inl (.past started element)
    · rename_i is_void
      refine .entering head ?_
      rintro tokens rfl lexical
      refine .expecting ?_
      rintro dot tokens rfl dotted _
      refine .expecting ?_
      rintro word rest rfl named _
      have started : Reads .value .other (token :: dot :: word :: rest) .other [] (dot :: word :: rest) :=
        .of_sign (by decide) is_void lexical (by decide) (by decide)
      exact .pure (.inl (.of_reads (started.onward (.classWord (by decide) dotted named)) (by decide) rfl))
    · exact .mismatch
  · exact .mismatch

/-! ## Selectors -/

/-- Selectors are read. -/
structure Selected (tokens : List Token) (selectors : List Node) (rest : List Token) : Prop where
  flat : ∀ selector ∈ selectors, selector.isBare
  reads : ∀ before : Behind, before.IsCalm →
    ∃ after : Behind, after.IsCalm ∧ Reads .value before tokens after selectors rest

theorem reads_selector (meets : Meets rules limit) (tokens : List Token) :
    At (limit + 1) tokens (selector rules) fun node rest =>
      ∀ before : Behind, before.IsCalm → Element before tokens node rest := by
  refine .assuming fun fits _ => .accepting ?_ ?_
  · rintro opening tokens rfl opens lexical
    refine .of_fits (Nat.lt_of_succ_lt_succ fits) ?_
    refine (meets.expression tokens).bind ?_
    intro index between value
    refine .expecting ?_
    rintro closing rest rfl closes lexical_closing
    refine .pure fun before calm => ?_
    exact .of_reads ((Reads.of_sign calm.1 opens lexical (by decide) (by decide)).trans
      (value.sign closes lexical_closing (by decide) (by decide))) (by decide) rfl
  · refine .expecting ?_
    rintro dot tokens rfl dotted lexical
    refine .of_fits (Nat.lt_of_succ_lt_succ fits) ?_
    -- The dot leads to where an element may start.
    have behind : ∀ {node rest}, Element .other tokens node rest →
        ∀ before : Behind, before.IsCalm → Element before (dot :: tokens) node rest :=
      fun element before calm => .past (.of_dot calm dotted lexical) element
    refine At.peek.bind ?_
    rintro _ tokens ⟨rfl, rfl⟩
    split
    · rename_i name head
      refine .lower (.entering head ?_)
      rintro tokens rfl lexical_name
      exact (reads_nameOrCall meets lexical_name (fun given => ⟨false, "", name.text, given.length⟩)
        (fun _ => rfl) rfl tokens).mono fun _ _ => behind
    · rename_i token _ head
      split
      · rename_i is_super
        refine .lower (.entering head ?_)
        rintro tokens rfl lexical_word
        exact (reads_superOrReference meets is_super lexical_word tokens).mono fun _ _ => behind
      · refine (reads_plainArguments limit tokens).bind ?_
        intro _ between typed
        refine (reads_genericCall_nil meets between).mono ?_
        intro node rest element
        exact behind (.past (typed.reads (by decide)) element)
      · rename_i is_this
        refine .lower (.entering head ?_)
        rintro tokens rfl lexical_word
        have started : Reads .value .other (token :: tokens) .word [] tokens :=
          .of_headWord (by decide) is_this lexical_word (by decide) (by decide)
        exact .pure (behind (.of_reads started (by decide) rfl))
      · rename_i is_new
        refine .lower (.entering head ?_)
        rintro tokens rfl _
        exact (reads_innerCreator meets is_new .other tokens).mono fun _ _ => behind
      · exact .mismatch
    · exact .mismatch

theorem reads_selectors (meets : Meets rules limit) :
    ∀ tokens, At (limit + 1) tokens (whileHolds selectorAhead (selector rules)) (Selected tokens) := by
  refine At.whileHolds fun tokens => ?_
  have looks : At (limit + 1) tokens selectorAhead fun _ rest => rest = tokens := by
    refine At.peek.bind ?_
    rintro _ tokens ⟨rfl, rfl⟩
    split
    · exact fun _ _ _ => trivial
    · exact .pure rfl
  refine looks.mono ?_
  rintro (_ | _) tokens rfl
  · exact ⟨by simp, fun before calm => ⟨before, calm, .refl⟩⟩
  · refine (reads_selector meets tokens).mono ?_
    intro first between element others rest further
    constructor
    · rw [List.forall_mem_cons]
      obtain ⟨link, parts, rfl, _⟩ := element .other (by decide)
      exact ⟨rfl, further.flat⟩
    · intro before calm
      obtain ⟨link, parts, rfl, middle, settled, reads⟩ := element before calm
      obtain ⟨after, ended, later⟩ := further.reads middle settled
      exact ⟨after, ended, reads.trans later⟩

/-- A primary with its selectors. -/
theorem Head.chain {tokens between rest : List Token} {head : Node} {selectors : List Node}
    (read : Head tokens head between) (selected : Selected between selectors rest) :
    ∃ after : Behind, after.IsCalm ∧
      Reads .value .other tokens after [withSelectors selectors head] rest := by
  rcases read with ⟨link, parts, rfl, middle, calm, reads⟩ |
    ⟨opening, inside, inner, closing, rfl, opens, closes, reads⟩
  · obtain ⟨after, settled, behind⟩ := selected.reads middle calm
    exact ⟨after, settled, reads.chain behind selected.flat⟩
  · obtain ⟨after, settled, behind⟩ := selected.reads .other (by decide)
    exact ⟨after, settled, .parenthesised opens closes (.inr rfl) reads behind selected.flat⟩

/-! ## Operands -/

theorem reads_lambdaBody (meets : Meets rules limit) (tokens : List Token) :
    At (limit + 1) tokens (lambdaBody rules) fun found rest =>
      ∀ before : Behind, before.IsEnd → Ends .value before tokens found rest := by
  refine .opening ?_
  rintro arrow tokens rfl text_eq lexical
  have started : ∀ before : Behind, before.IsEnd →
      Reads .value before (arrow :: tokens) .other [] tokens :=
    fun before ended => .of_sign ended text_eq lexical (by decide) (by decide)
  refine .looking ?_ ?_
  · intro _
    refine (meets.block tokens).mono ?_
    intro found rest enclosed before ended
    exact .past (started before ended) ⟨.other, by decide, enclosed.braces rfl⟩
  · refine (meets.expression tokens).bind ?_
    intro node rest value
    exact .pure fun before ended => .past (started before ended) value

/-- Names of parameters without types. -/
theorem reads_names :
    ∀ tokens, At limit tokens
      (untilHolds (ahead [")"]) do
        let name ← identifier
        let _ ← accept [","]
        return name)
      fun _ rest => ∀ before : Behind, before.IsEnd → Ends .code before tokens [] rest := by
  refine At.untilHolds fun tokens => ?_
  refine At.ahead.mono ?_
  rintro (_ | _) tokens ⟨rfl, _⟩
  · refine .naming ?_
    rintro name tokens rfl lexical
    have named : ∀ before : Behind, before.IsEnd →
        Reads .code before (.identifier name :: tokens) .name [] tokens :=
      fun before ended => .of_name ended lexical
    refine .optional ?_ ?_
    · rintro comma tokens rfl text_eq lexical_comma
      refine .pure fun others last further before ended => ?_
      have started := (named before ended).onward
        (.of_sign (by decide) text_eq lexical_comma (by decide) (by decide))
      exact .past started (further .other (by decide))
    · refine .pure fun others last further before ended => ?_
      exact .past (named before ended) (further .name (by decide))
  · intro before ended
    exact .refl ended

theorem reads_lambda (meets : Meets rules limit) (tokens : List Token) :
    At (limit + 1) tokens (lambda rules) (Value tokens) := by
  have finish : ∀ parameters between, Enclosed "(" ")" .code tokens parameters between →
      At (limit + 1) between
        (do return .group .lambda (parameters ++ (← lambdaBody rules))) (Value tokens) := by
    intro parameters between enclosed
    refine (reads_lambdaBody meets between).bind ?_
    intro body rest behind
    have whole : Ends .value .other tokens (parameters ++ body) rest :=
      .behind (enclosed.parentheses rfl) (behind .other (by decide))
    exact .pure (whole.wrap ⟨rfl, rfl, rfl, rfl⟩)
  have looks : At (limit + 1) tokens lambda.namesAhead fun _ rest => rest = tokens := by
    refine At.left.bind ?_
    rintro _ _ ⟨rfl, rfl⟩
    split
    · exact .pure rfl
    · exact .pure rfl
  refine looks.bind ?_
  rintro areNames tokens rfl
  dsimp only
  split
  · refine .expecting ?_
    rintro opening tokens rfl opens _
    refine (reads_names tokens).bind ?_
    intro _ between names
    obtain ⟨inner, _, reads⟩ := names .other (by decide)
    refine .expecting ?_
    rintro closing between rfl closes _
    exact .given (finish [] between ⟨opening, tokens, inner, closing, rfl, opens, closes, reads⟩)
  · refine (reads_formalParameters meets tokens).bind ?_
    intro parameters between enclosed
    exact finish parameters between enclosed

theorem reads_cast (meets : Meets rules limit) (tokens : List Token) :
    At (limit + 1) tokens (cast rules) (Value tokens) := by
  refine .opening ?_
  rintro opening tokens rfl opens _
  refine (IsGliding.type limit tokens).bind ?_
  intro _ between glides
  obtain ⟨inner, _, reads⟩ := @Glides.reads .code .other _ _ glides (by decide)
  refine .expecting ?_
  rintro closing between rfl closes _
  refine (meets.operand between).bind ?_
  intro operand rest value
  have started : Reads .value .other (opening :: tokens) .other [] between :=
    .parentheses opens closes rfl reads
  exact .pure ((Ends.past started value).wrap ⟨rfl, rfl, rfl, rfl⟩)

/-- Signs of one operand, in front of it or behind it. -/
theorem reads_operators {texts : List String}
    (known : ∀ text ∈ texts, Region.value.separates text = true ∧ isApart text = true) :
    ∀ tokens, At limit tokens (whileHolds (oneOfAhead texts) next) fun _ rest =>
      ∀ before : Behind, before.IsEnd → ∃ after : Behind, after.IsEnd ∧
        (before = .other → after = .other) ∧ Reads .value before tokens after [] rest := by
  refine At.whileHolds fun tokens => ?_
  refine At.oneOfAhead.mono ?_
  rintro (_ | _) tokens ⟨rfl, found⟩
  · intro before ended
    exact ⟨before, ended, id, .refl⟩
  · obtain ⟨sign, more, rfl, mem⟩ := found rfl
    refine At.next.mono ?_
    rintro _ rest ⟨⟨⟩, lexical⟩ others last further before ended
    obtain ⟨separates, apart⟩ := known _ mem
    obtain ⟨after, settled, same, reads⟩ := further .other (by decide)
    exact ⟨after, settled, fun _ => same rfl,
      (Reads.of_sign ended rfl lexical separates apart).onward reads⟩

theorem reads_castOr (meets : Meets rules limit) {second : Parser Node}
    (other : ∀ tokens, At (limit + 1) tokens second (Value tokens)) (tokens : List Token) :
    At (limit + 1) tokens (orElse (cast rules) second) (Value tokens) := by
  refine .assuming fun fits _ => .orElse (reads_cast meets tokens) other (fun _ _ => id) ?_
  rintro read later rfl strays node rest value
  exact .past (meets.astray (Nat.le_of_lt_succ fits) (.cast strays)) value

theorem reads_lambdaOr (meets : Meets rules limit) {second : Parser Node}
    (other : ∀ tokens, At (limit + 1) tokens second (Value tokens)) (tokens : List Token) :
    At (limit + 1) tokens (orElse (lambda rules) second) (Value tokens) := by
  refine .assuming fun fits _ => .orElse (reads_lambda meets tokens) other (fun _ _ => id) ?_
  rintro read later rfl strays node rest value
  exact .past (meets.astray (Nat.le_of_lt_succ fits) (.lambda strays)) value

theorem reads_operand (meets : Meets rules limit) (tokens : List Token) :
    At (limit + 1) tokens (operand rules) (Value tokens) := by
  refine (reads_operators (by decide) tokens).bind ?_
  intro _ between signs
  obtain ⟨middle, _, same, started⟩ := signs .other (by decide)
  rw [same rfl] at started
  have chain : ∀ tokens, At (limit + 1) tokens
      (do
        let head ← primary rules
        let selectors ← whileHolds selectorAhead (selector rules)
        let _ ← whileHolds (oneOfAhead trailingOperators) next
        return withSelectors selectors head)
      (Value tokens) := by
    intro tokens
    refine (reads_primary meets tokens).bind ?_
    intro head middle read
    refine (reads_selectors meets middle).bind ?_
    intro selectors last selected
    obtain ⟨after, calm, reads⟩ := read.chain selected
    refine (reads_operators (by decide) last).bind ?_
    intro _ rest signs
    obtain ⟨final, ended, _, trailing⟩ := signs after calm.1
    exact .pure ⟨final, ended, reads.onward trailing⟩
  have whole : ∀ {parser : Parser Node}, At (limit + 1) between parser (Value between) →
      At (limit + 1) between parser (Value tokens) :=
    fun reads => reads.mono fun _ _ value => .past started value
  refine whole (.looking ?_ (chain between))
  intro _
  exact reads_lambdaOr meets (reads_castOr meets chain) between

/-! ## Expressions -/

/-- Operators with the operands behind them, and types that are tested for. -/
theorem reads_operands (operand : ∀ tokens, At limit tokens (rules .operand) (Value tokens)) :
    ∀ tokens, At limit tokens
      (whileHolds (oneOfAhead ("instanceof" :: binaryOperators)) do
        if ← accept ["instanceof"] then
          let _ ← type
          return none
        else
          let sign ← next
          if sign.text = ">" then
            if ← accept [">"] then
              let _ ← accept [">"]
          return some (← rules .operand))
      fun found rest => ∀ before : Behind, before.IsEnd →
        Ends .value before tokens (found.filterMap id) rest := by
  have known : ∀ text ∈ "instanceof" :: binaryOperators,
      Region.value.separates text = true ∧ isApart text = true := by decide
  refine At.whileHolds fun tokens => ?_
  refine At.oneOfAhead.mono ?_
  rintro (_ | _) tokens ⟨rfl, found⟩
  · intro before ended
    exact .refl ended
  · obtain ⟨sign, more, rfl, mem⟩ := found rfl
    refine .accepting ?_ ?_
    · rintro word tokens ⟨⟩ text_eq lexical
      refine (IsGliding.type limit _).bind ?_
      intro _ between glides
      refine .pure fun others rest further before ended => ?_
      obtain ⟨middle, calm, reads⟩ := @Glides.reads .value .other _ _ glides (by decide)
      have started := Reads.onward
        (.of_sign ended text_eq lexical (by decide) (by decide)) reads
      exact .past started (further middle calm.1)
    · refine At.next.bind ?_
      rintro _ tokens ⟨⟨⟩, lexical⟩
      obtain ⟨separates, apart⟩ := known _ mem
      have finish : ∀ between,
          (∀ before : Behind, before.IsEnd → Reads .value before (sign :: more) .other [] between) →
          At limit between (do return some (← rules .operand)) fun first middle => ∀ others last,
            (∀ before : Behind, before.IsEnd →
              Ends .value before middle (others.filterMap id) last) →
            ∀ before : Behind, before.IsEnd →
              Ends .value before (sign :: more) ((first :: others).filterMap id) last := by
        intro between started
        refine (operand between).bind ?_
        intro node middle value
        refine .pure fun others last further before ended => ?_
        exact .past (started before ended) (value.trans further)
      have started : ∀ before : Behind, before.IsEnd →
          Reads .value before (sign :: more) .other [] more :=
        fun before ended => .of_sign ended rfl lexical separates apart
      dsimp only
      split
      · -- A shift to the right is written with two or three signs.
        refine .accepting ?_ (finish _ started)
        rintro second more rfl second_eq lexical_second
        have shifted := fun before ended => (started before ended).onward
          (.of_sign (by decide) second_eq lexical_second (by decide) (by decide))
        refine .optional ?_ (finish _ shifted)
        rintro third more rfl third_eq lexical_third
        exact finish _ fun before ended => (shifted before ended).onward
          (.of_sign (by decide) third_eq lexical_third (by decide) (by decide))
      · exact finish _ started

theorem reads_operation (operand : ∀ tokens, At limit tokens (rules .operand) (Value tokens))
    (tokens : List Token) : At limit tokens (operation rules) (Value tokens) := by
  refine (operand tokens).bind ?_
  intro first between value
  refine (reads_operands operand between).bind ?_
  intro others rest further
  have whole : Ends .value .other tokens ([first] ++ others.filterMap id) rest := value.trans further
  split
  · rename_i none_left
    rw [List.isEmpty_iff.1 none_left] at whole
    exact .pure whole
  · exact .pure (whole.wrap ⟨rfl, rfl, rfl, rfl⟩)

theorem reads_conditional (meets : Meets rules limit)
    (operand : ∀ tokens, At (limit + 1) tokens (rules .operand) (Value tokens))
    (tokens : List Token) : At (limit + 1) tokens (conditional rules) (Value tokens) := by
  refine (reads_operation operand tokens).bind ?_
  intro first between value
  refine .assuming fun fits _ => .accepting ?_ (.looking ?_ (.accepting ?_ (.pure value)))
  · rintro sign between rfl text_eq lexical
    refine .of_fits (Nat.lt_of_succ_lt_succ fits) ?_
    refine (meets.expression between).bind ?_
    intro whenTrue middle second
    refine .expecting ?_
    rintro colon middle rfl colon_eq lexical_colon
    refine (meets.conditional middle).bind ?_
    intro whenFalse rest third
    have both : Reads .value .other tokens .other ([first] ++ [whenTrue]) middle :=
      (value.sign text_eq lexical (by decide) (by decide)).trans
        (second.sign colon_eq lexical_colon (by decide) (by decide))
    exact .pure ((Ends.behind both third).wrap ⟨rfl, rfl, rfl, rfl⟩)
  · intro _
    refine (reads_lambdaBody meets between).bind ?_
    intro body rest behind
    have whole : Ends .value .other tokens ([first] ++ body) rest := value.trans behind
    exact .pure (whole.wrap ⟨rfl, rfl, rfl, rfl⟩)
  · rintro sign between rfl text_eq lexical
    refine .of_fits (Nat.lt_of_succ_lt_succ fits) ?_
    obtain ⟨middle, ended, reads⟩ := value
    have finish : ∀ arguments behind, between = arguments ++ behind → Created arguments →
        Reads .value middle (sign :: between) .other [] behind →
        At limit behind
          (do
            if ← accept ["new"] then
              return .group .methodReference [first, bare (.name "" "new") []]
            else return .group .methodReference [first, ← rules .expression])
          (Value tokens) := by
      rintro arguments behind rfl created typed
      refine .accepting ?_ ?_
      · rintro word rest rfl named _
        have constructor : Reads .value middle (sign :: (arguments ++ word :: rest)) .other
            [bare (.name "" "new") []] rest :=
          (Reads.newReference text_eq created named).wrap ⟨rfl, rfl, rfl, rfl⟩
        exact .pure ⟨.other, by decide, (reads.trans constructor).wrap ⟨rfl, rfl, rfl, rfl⟩⟩
      · refine (meets.expression behind).bind ?_
        intro method rest named
        have whole : Ends .value .other tokens ([first] ++ [method]) rest :=
          .behind (reads.onward typed) named
        exact .pure (whole.wrap ⟨rfl, rfl, rfl, rfl⟩)
    have started : Reads .value middle (sign :: between) .other [] between :=
      .of_sign ended text_eq lexical (by decide) (by decide)
    refine At.ahead.bind ?_
    rintro isGeneric between ⟨rfl, _⟩
    dsimp only
    split
    · refine (reads_plainArguments limit between).bind ?_
      intro _ behind typed
      obtain ⟨arguments, between_eq, created⟩ := typed.created
      exact finish arguments behind between_eq created (started.onward (typed.reads (by decide)))
    · exact finish [] between rfl .nil started

theorem reads_expression (meets : Meets rules limit)
    (operand : ∀ tokens, At (limit + 1) tokens (rules .operand) (Value tokens))
    (tokens : List Token) : At (limit + 1) tokens (expression rules) (Value tokens) := by
  have known : ∀ text ∈ assignmentOperators,
      Region.value.separates text = true ∧ isApart text = true := by decide
  refine (reads_conditional meets operand tokens).bind ?_
  intro target between value
  refine .assuming fun fits _ => At.oneOfAhead.bind ?_
  rintro isAssigned between ⟨rfl, found⟩
  split
  · rename_i assigned
    obtain ⟨sign, more, rfl, mem⟩ := found assigned
    refine .entering rfl ?_
    rintro rest ⟨⟩ lexical
    obtain ⟨separates, apart⟩ := known _ mem
    refine (meets.expression more).bind ?_
    intro assigned rest further
    have whole : Ends .value .other tokens ([target] ++ [assigned]) rest :=
      .behind (value.sign rfl lexical separates apart) further
    exact .pure (whole.wrap ⟨rfl, rfl, rfl, rfl⟩)
  · exact .pure value

end

end JavaUml.Java.Grammar
