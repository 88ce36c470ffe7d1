import JavaUml.Java.Grammar.Unit
import JavaUml.Proofs.Java.Slips

/-!
# What parsers read

`Reads` says that the tokens in front of others spell nodes.  It composes along a
text, so what a parser reads is put together from what its parts read.

`At limit tokens parser post` says what a parser comes to at tokens, if there are less
of them than a limit: the result and the tokens that are left meet a condition, unless
the parser fails.  There is one rule for each way to put parsers together.  A choice
whose first alternative is given up may go on behind the tokens that it started with;
what is left out then is kept track of.
-/

namespace JavaUml.Java

/-! ## Stretches of tokens -/

/-- A choice at the start of the tokens leaves some of them out. -/
def GoesAstray (tokens : List Token) : Prop :=
  ∃ depth read later, 3 * tokens.length ≤ depth ∧
    IsAstray (Grammar.meet depth) tokens read later

/-- What is left out is left out by choices at the given tokens or behind them. -/
def Traced (slips : List Slip) (tokens : List Token) : Prop :=
  ∀ stretch, .astray stretch ∈ slips → stretch <:+ tokens ∧ GoesAstray stretch

namespace Traced

variable {slips later : List Slip} {tokens between : List Token}

theorem nil : Traced [] tokens := by
  simp [Traced]

theorem within (traced : Traced slips between) (inside : between <:+ tokens) :
    Traced slips tokens :=
  fun stretch mem => ⟨(traced stretch mem).1.trans inside, (traced stretch mem).2⟩

theorem append (first : Traced slips tokens) (second : Traced later tokens) :
    Traced (slips ++ later) tokens := by
  intro stretch mem
  exact (List.mem_append.1 mem).elim (first stretch) (second stretch)

/-- Slips of other kinds add nothing. -/
theorem of_others (others : ∀ slip ∈ slips, slip.isAstray = false) : Traced slips tokens :=
  fun _ mem => by cases others _ mem

theorem of_if {holds : Prop} [Decidable holds] {slip : Slip} (other : slip.isAstray = false) :
    Traced (if holds then [] else [slip]) tokens := by
  refine of_others fun found mem => ?_
  split at mem
  · cases mem
  · rwa [List.mem_singleton.1 mem]

theorem cons {stretch : List Token} (inside : stretch <:+ tokens) (strays : GoesAstray stretch)
    (traced : Traced slips tokens) : Traced (.astray stretch :: slips) tokens := by
  intro other mem
  rcases List.mem_cons.1 mem with same | mem
  · cases same
    exact ⟨inside, strays⟩
  · exact traced other mem

end Traced

/-- The tokens in front of the rest spell nodes. -/
def Reads (region : Region) (before : Behind) (tokens : List Token) (after : Behind)
    (nodes : List Node) (rest : List Token) : Prop :=
  ∃ text slips, tokens = text.map Written.token ++ rest ∧
    Spells region before text after nodes slips ∧ Traced slips tokens

/-- Where a declaration or an operand may end. -/
def Behind.IsEnd (behind : Behind) : Prop :=
  behind ≠ .newType ∧ behind ≠ .parameters

/-- Where a dot may follow. -/
def Behind.IsCalm (behind : Behind) : Prop :=
  behind.IsEnd ∧ behind ≠ .annotationName

instance (behind : Behind) : Decidable behind.IsEnd :=
  inferInstanceAs (Decidable (_ ∧ _))

instance (behind : Behind) : Decidable behind.IsCalm :=
  inferInstanceAs (Decidable (_ ∧ _))

theorem Behind.IsEnd.isCalm_next {behind : Behind} (ended : behind.IsEnd) (token : Token) :
    (behind.next token).IsCalm := by
  unfold Behind.next
  split
  · decide
  · split
    · decide
    · rw [if_neg fun both => ended.2 both.1]
      decide

/-- Words and signs that may stand between two parts of a text. -/
def Region.separates (region : Region) (text : String) : Bool :=
  reserved.contains text && !structural.contains text && text != "." &&
    match region with
      | .code => true
      | .value => text != ";"
      | .members => text != "="
      | .constants => text != ";" && text != "="

theorem Region.allows_of_separates {region : Region} {behind : Behind} {token : Token}
    (ended : behind.IsEnd) (separates : region.separates token.text = true) :
    region.allows behind token = true := by
  obtain ⟨newType, parameters⟩ := ended
  unfold Region.separates at separates
  unfold Region.allows
  cases behind <;> cases region <;> simp_all

theorem Region.allows_of_quiet {region : Region} {behind : Behind} {token : Token}
    (ended : behind.IsEnd) (apart : behind ≠ .annotationName ∨ token.text ≠ ".")
    (quiet : token.text ∉ unquiet) : region.allows behind token = true := by
  obtain ⟨newType, parameters⟩ := ended
  unfold unquiet at quiet
  unfold Region.allows
  cases behind <;> cases region <;> simp_all

namespace Reads

variable {region : Region} {before middle after inner : Behind} {tokens rest : List Token}
  {nodes others : List Node} {opening closing token : Token}

theorem refl : Reads region before tokens before [] tokens :=
  ⟨[], [], rfl, .nil region before, .nil⟩

theorem trans {between : List Token} (first : Reads region before tokens middle nodes between)
    (second : Reads region middle between after others rest) :
    Reads region before tokens after (nodes ++ others) rest := by
  obtain ⟨text, slips, rfl, spelled, traced⟩ := first
  obtain ⟨more, later, rfl, further, traced_later⟩ := second
  exact ⟨text ++ more, slips ++ later, by simp, .append spelled further,
    traced.append (traced_later.within (List.suffix_append ..))⟩

/-- Go on with tokens that leave no node. -/
theorem onward {between : List Token} (first : Reads region before tokens middle nodes between)
    (second : Reads region middle between after [] rest) :
    Reads region before tokens after nodes rest := by
  have both := first.trans second
  rwa [List.append_nil] at both

theorem of_token (allowed : region.allows before token = true) :
    Reads region before (token :: rest) (before.next token) [] rest :=
  ⟨plain [token], [], rfl, .token allowed, .nil⟩

/-- A reserved word or a sign. -/
theorem of_reserved (ended : before.IsEnd) (separates : region.separates token.text = true) :
    ∃ after : Behind, after.IsCalm ∧ Reads region before (token :: rest) after [] rest :=
  ⟨_, ended.isCalm_next token, of_token (Region.allows_of_separates ended separates)⟩

/-- A reserved word or a sign that parentheses do not belong to. -/
theorem of_sign (ended : before.IsEnd) {text : String} (text_eq : token.text = text)
    (lexical : token.IsLexical) (separates : region.separates text = true)
    (apart : isApart text = true) : Reads region before (token :: rest) .other [] rest := by
  have next_eq : before.next token = .other := by
    rw [isApart, Bool.and_eq_true, Bool.not_eq_true'] at apart
    rw [Behind.next, lexical.not_isIdentifier text_eq apart.1, if_neg Bool.false_ne_true, text_eq,
      apart.2, if_neg Bool.false_ne_true, if_neg fun both => ended.2 both.1]
  rw [← next_eq]
  exact of_token (Region.allows_of_separates ended (text_eq ▸ separates))

/-- A token of a type or a name. -/
theorem of_quiet (ended : before.IsEnd) (apart : before ≠ .annotationName ∨ token.text ≠ ".")
    (quiet : token.text ∉ unquiet) :
    ∃ after : Behind, after.IsCalm ∧ Reads region before (token :: rest) after [] rest :=
  ⟨_, ended.isCalm_next token, of_token (Region.allows_of_quiet ended apart quiet)⟩

theorem of_value (expression : Reads .value before tokens after nodes rest) :
    Reads .code before tokens after nodes rest := by
  obtain ⟨text, slips, rfl, spelled, traced⟩ := expression
  exact ⟨text, slips, rfl, .value spelled, traced⟩

theorem wrap {node : Node} (inside : Reads region before tokens after nodes rest)
    (wraps : node.Wraps nodes) : Reads region before tokens after [node] rest := by
  obtain ⟨text, slips, rfl, spelled, traced⟩ := inside
  exact ⟨text, slips, rfl, .wrap spelled wraps, traced⟩

theorem parentheses (opens : opening.text = "(") (closes : closing.text = ")")
    (place : region.parenthesised before = some after)
    (inside : Reads .code .other tokens inner nodes (closing :: rest)) :
    Reads region before (opening :: tokens) after nodes rest := by
  obtain ⟨text, slips, rfl, spelled, traced⟩ := inside
  exact ⟨_, _, by simp, .parentheses opens closes place spelled,
    traced.within (List.suffix_cons ..)⟩

theorem braces {held : Region} (opens : opening.text = openBrace)
    (closes : closing.text = closeBrace) (place : region.braced before = some held)
    (inside : Reads held .other tokens inner nodes (closing :: rest)) :
    Reads region before (opening :: tokens) .other nodes rest := by
  obtain ⟨text, slips, rfl, spelled, traced⟩ := inside
  exact ⟨_, _, by simp, .braces opens closes place spelled, traced.within (List.suffix_cons ..)⟩

theorem of_dot (calm : before.IsCalm) (dotted : token.text = ".") (lexical : token.IsLexical) :
    Reads region before (token :: rest) .other [] rest := by
  have next_eq : before.next token = .other := by
    rw [Behind.next, lexical.not_isIdentifier dotted (by decide), if_neg Bool.false_ne_true, dotted,
      if_neg (by decide), if_neg fun both => calm.1.2 both.1]
  rw [← next_eq]
  refine of_token (Region.allows_of_quiet calm.1 (.inl calm.2) ?_)
  rw [dotted]
  decide

/-- A bracket, which is all that may stand behind a new type without arguments. -/
theorem of_bracket (ended : before.IsEnd ∨ before = .newType) (opens : token.text = "[")
    (lexical : token.IsLexical) : Reads .value before (token :: rest) .other [] rest := by
  rcases ended with ended | rfl
  · exact of_sign ended opens lexical (by decide) (by decide)
  · have next_eq : Behind.newType.next token = .other := by
      rw [Behind.next, lexical.not_isIdentifier opens (by decide), if_neg Bool.false_ne_true, opens]
      rfl
    rw [← next_eq]
    exact of_token (by simp [Region.allows, opens, structural, openBrace, closeBrace])

/-- A word that parentheses may follow. -/
theorem of_headWord (ended : before.IsEnd) {text : String} (text_eq : token.text = text)
    (lexical : token.IsLexical) (separates : region.separates text = true)
    (head : headWords.contains text = true) :
    Reads region before (token :: rest) .word [] rest := by
  have known : reserved.contains text = true := by
    unfold Region.separates at separates
    simp_all
  have next_eq : before.next token = .word := by
    rw [Behind.next, lexical.not_isIdentifier text_eq known, if_neg Bool.false_ne_true, text_eq,
      head, if_pos rfl]
  rw [← next_eq]
  exact of_token (Region.allows_of_separates ended (text_eq ▸ separates))

theorem classWord {dot word : Token} (calm : before.IsCalm) (dotted : dot.text = ".")
    (named : word.text = "class") : Reads region before (dot :: word :: rest) .other [] rest :=
  ⟨plain [dot, word], [], by simp, .classWord dotted named ⟨calm.2, calm.1.1⟩, .nil⟩

theorem newReference {sign word : Token} {arguments : List Token} (signed : sign.text = "::")
    (created : Created arguments) (named : word.text = "new") :
    Reads region before (sign :: (arguments ++ word :: rest)) .other [] rest :=
  ⟨plain (sign :: (arguments ++ [word])), [], by simp, .newReference signed created named, .nil⟩

theorem newBasic {word type : Token} (named : word.text = "new") (basic : type.isBasicType) :
    Reads region before (word :: type :: rest) .other [] rest :=
  ⟨plain [word, type], [], by simp, .newBasic named basic, .nil⟩

theorem newType {word : Token} {path : List Token} (named : word.text = "new")
    (created : Created path) : Reads region before (word :: (path ++ rest)) .newType [] rest :=
  ⟨plain (word :: path), [], by simp, .newType named created, .nil⟩

theorem call {name : Token} {given : List Node} {made : Call} (named : name.isIdentifier)
    (opens : opening.text = "(") (closes : closing.text = ")")
    (place : region = .code ∨ region = .value) (name_eq : made.name = name.text)
    (inside : Reads .value .other tokens inner given (closing :: rest)) :
    Reads region .other (name :: opening :: tokens) .other [Grammar.bare (.call made) given]
      rest := by
  obtain ⟨text, slips, rfl, spelled, traced⟩ := inside
  exact ⟨_, _, by simp, .call named opens closes place name_eq spelled,
    traced.within ⟨[name, opening], rfl⟩⟩

theorem genericCall {dot sign name : Token} {arguments : List Token} {given : List Node}
    (made : Call) (dotted : dot.text = ".") (signed : sign.text = "<")
    (typed : Angled (sign :: arguments)) (named : name.isIdentifier)
    (opens : opening.text = "(") (closes : closing.text = ")")
    (place : region = .code ∨ region = .value)
    (inside : Reads .value .other tokens inner given (closing :: rest)) :
    Reads region .name (dot :: sign :: (arguments ++ name :: opening :: tokens)) .other
      [Grammar.bare (.call made) given] rest := by
  obtain ⟨text, slips, rfl, spelled, traced⟩ := inside
  refine ⟨_, _, ?_, .genericCall dotted signed typed named opens closes place spelled, ?_⟩
  · simp
  · exact .append (traced.within ⟨dot :: sign :: (arguments ++ [name, opening]), by simp⟩)
      (.of_if rfl)

theorem chain {between : List Token} {link : Link} {parts selectors : List Node}
    (head : Reads region before tokens middle [Grammar.bare link parts] between)
    (behind : Reads region middle between after selectors rest)
    (flat : ∀ selector ∈ selectors, selector.isBare) :
    Reads region before tokens after [.primary link parts selectors] rest := by
  obtain ⟨text, slips, rfl, spelled, traced⟩ := head
  obtain ⟨more, later, rfl, further, traced_later⟩ := behind
  exact ⟨_, _, by simp, .chain spelled further flat,
    traced.append (traced_later.within (List.suffix_append ..))⟩

theorem parenthesised {between : List Token} {node : Node} {selectors : List Node}
    (opens : opening.text = "(") (closes : closing.text = ")")
    (place : region = .code ∨ region = .value)
    (inside : Reads .value .other tokens inner [node] (closing :: between))
    (behind : Reads region .other between after selectors rest)
    (flat : ∀ selector ∈ selectors, selector.isBare) :
    Reads region .other (opening :: tokens) after [Grammar.withSelectors selectors node] rest := by
  obtain ⟨text, slips, rfl, spelled, traced⟩ := inside
  obtain ⟨more, later, rfl, further, traced_later⟩ := behind
  refine ⟨_, _, ?_, .parenthesised opens closes place spelled further flat, ?_⟩
  · simp
  · refine .append (.append (traced.within (List.suffix_cons ..)) (traced_later.within
      ⟨opening :: (text.map Written.token ++ [closing]), by simp⟩)) (.of_others fun slip mem => ?_)
    rcases mem_parenthesisSlips mem with rfl | rfl <;> rfl

theorem annotationName {path : List Token} (signed : token.text = "@")
    (named : ∀ token ∈ path, token.isIdentifier ∨ token.text = ".") :
    Reads region before (token :: (path ++ rest)) .annotationName [] rest :=
  ⟨plain (token :: path), [], by simp, .annotationName signed named, .nil⟩

theorem loop {word again : Token} {between : List Token} {body condition : Node} {outer : Behind}
    (starts : word.text = "do") (repeats : again.text = "while") (opens : opening.text = "(")
    (closes : closing.text = ")")
    (first : Reads .code .other tokens inner [body] (again :: opening :: between))
    (second : Reads .code .other between outer [condition] (closing :: rest)) :
    Reads .code before (word :: tokens) .other [.group .doStatement [condition, body]] rest := by
  obtain ⟨text, slips, rfl, spelled, traced⟩ := first
  obtain ⟨more, later, rfl, further, traced_later⟩ := second
  refine ⟨_, _, ?_, .loop starts repeats opens closes spelled further, ?_⟩
  · simp
  · exact .append (.append (traced.within (List.suffix_cons ..)) (traced_later.within
      ⟨word :: (text.map Written.token ++ [again, opening]), by simp⟩)) (.of_if rfl)

theorem caught {word : Token} {read path : List Token} {types : List String} {name : String}
    (starts : word.text = "catch") (opens : opening.text = "(") (closes : closing.text = ")")
    (inside : Reads .code .other (read ++ path ++ closing :: rest) middle nodes
      (path ++ closing :: rest))
    (marked : nodes = [] ∨ ∃ sign ∈ read, sign.text = "@") (typed : Angled path) :
    Reads .code before (word :: opening :: (read ++ path ++ closing :: rest)) .other
      [.caught types name] rest := by
  obtain ⟨text, slips, tokens_eq, spelled, traced⟩ := inside
  have read_eq : read = text.map Written.token := by
    rw [List.append_assoc] at tokens_eq
    exact List.append_cancel_right tokens_eq
  subst read_eq
  refine ⟨_, _, ?_, .caught starts opens closes spelled ?_ typed, ?_⟩
  · simp
  · simpa using marked
  · exact .append (traced.within ⟨[word, opening], rfl⟩) (.of_if rfl)

theorem typeBody {word name : Token} {header : List Token}
    (declares : word.text = "class" ∨ word.text = "interface") (named : name.isIdentifier)
    (flat : ∀ token ∈ header, token.text ∉ structural) (opens : opening.text = openBrace)
    (closes : closing.text = closeBrace)
    (inside : Reads .members .other tokens inner nodes (closing :: rest)) :
    Reads region before (word :: name :: (header ++ opening :: tokens)) .other nodes rest := by
  obtain ⟨text, slips, rfl, spelled, traced⟩ := inside
  exact ⟨_, _, by simp, .typeBody declares named flat opens closes spelled,
    traced.within ⟨word :: name :: (header ++ [opening]), by simp⟩⟩

/-- An enum with a semicolon behind its constants. -/
theorem enumBody {word name semicolon : Token} {header between : List Token} {outer : Behind}
    (declares : word.text = "enum") (named : name.isIdentifier)
    (flat : ∀ token ∈ header, token.text ∉ structural) (opens : opening.text = openBrace)
    (closes : closing.text = closeBrace) (separates : semicolon.text = ";")
    (constants : Reads .constants .other tokens inner nodes (semicolon :: between))
    (members : Reads .members .other between outer others (closing :: rest)) :
    Reads region before (word :: name :: (header ++ opening :: tokens)) .other (nodes ++ others)
      rest := by
  obtain ⟨text, slips, rfl, spelled, traced⟩ := constants
  obtain ⟨more, later, rfl, further, traced_later⟩ := members
  refine ⟨_, _, ?_, .enumBody declares named flat opens closes spelled
    (.inl (show [semicolon].map Token.text = [";"] by rw [List.map_singleton, separates])) further,
    .append (traced.within ⟨word :: name :: (header ++ [opening]), by simp⟩) (traced_later.within
      ⟨word :: name :: (header ++ opening :: (text.map Written.token ++ [semicolon])), by simp⟩)⟩
  simp

/-- An enum with nothing but constants. -/
theorem constantsBody {word name : Token} {header : List Token} (declares : word.text = "enum")
    (named : name.isIdentifier) (flat : ∀ token ∈ header, token.text ∉ structural)
    (opens : opening.text = openBrace) (closes : closing.text = closeBrace)
    (constants : Reads .constants .other tokens inner nodes (closing :: rest)) :
    Reads region before (word :: name :: (header ++ opening :: tokens)) .other nodes rest := by
  obtain ⟨text, slips, rfl, spelled, traced⟩ := constants
  rw [← List.append_nil nodes]
  refine ⟨_, _, ?_, .enumBody declares named flat opens closes spelled (.inr ⟨rfl, rfl⟩)
    (.nil .members .other),
    .append (traced.within ⟨word :: name :: (header ++ [opening]), by simp⟩) .nil⟩
  simp

/-- The initial values of a field, or the default of an element. -/
theorem initial {word semicolon : Token}
    (opens : word.text = "=" ∨ before = .parameters ∧ word.text = "default")
    (closes : semicolon.text = ";")
    (inside : Reads .value .other tokens inner nodes (semicolon :: rest)) :
    Reads .members before (word :: tokens) .other nodes rest := by
  obtain ⟨text, slips, rfl, spelled, traced⟩ := inside
  exact ⟨_, _, by simp, .initial opens closes spelled, traced.within (List.suffix_cons ..)⟩

theorem method {between : List Token} {header : MethodHeader} {annotations parameters : List Node}
    (head : Reads .members before tokens middle (annotations ++ parameters) (opening :: between))
    (opens : opening.text = openBrace) (closes : closing.text = closeBrace)
    (inside : Reads .code .other between inner nodes (closing :: rest)) :
    Reads .members before tokens .other [.method header annotations parameters nodes] rest := by
  obtain ⟨text, slips, rfl, spelled, traced⟩ := head
  obtain ⟨more, later, rfl, further, traced_later⟩ := inside
  exact ⟨_, _, by simp, .method spelled opens closes further,
    traced.append (traced_later.within ⟨text.map Written.token ++ [opening], by simp⟩)⟩

/-- Go on behind tokens that are left out. -/
theorem astray {depth : Nat} {read later : List Token} (deep : 3 * (read ++ later).length ≤ depth)
    (strays : IsAstray (Grammar.meet depth) (read ++ later) read later) :
    Reads region .other (read ++ later) .other [] later :=
  ⟨plain read, _, by simp, .astray deep strays,
    .cons (List.suffix_refl _) ⟨depth, read, later, deep, strays⟩ .nil⟩

theorem astrayControl {depth : Nat} {word : Token} {read later : List Token}
    (deep : 3 * (word :: opening :: (read ++ later)).length ≤ depth)
    (strays : IsAstray (Grammar.meet depth) (word :: opening :: (read ++ later)) read later)
    (opens : opening.text = "(") (closes : closing.text = ")")
    (inside : Reads .code .other later inner nodes (closing :: rest)) :
    Reads .code before (word :: opening :: (read ++ later)) .other nodes rest := by
  obtain ⟨text, slips, rfl, spelled, traced⟩ := inside
  exact ⟨_, _, by simp, .astrayControl deep strays opens closes spelled,
    .cons (List.suffix_refl _) ⟨depth, read, _, deep, strays⟩
      (traced.within ⟨word :: opening :: read, by simp⟩)⟩

end Reads

/-- The tokens in front of the rest spell nodes, up to where something may end. -/
def Ends (region : Region) (before : Behind) (tokens : List Token) (nodes : List Node)
    (rest : List Token) : Prop :=
  ∃ after : Behind, after.IsEnd ∧ Reads region before tokens after nodes rest

namespace Ends

variable {region : Region} {before middle : Behind} {tokens between rest : List Token}
  {nodes others : List Node} {token : Token}

theorem refl (ended : before.IsEnd) : Ends region before tokens [] tokens :=
  ⟨before, ended, .refl⟩

theorem behind (first : Reads region before tokens middle nodes between)
    (second : Ends region middle between others rest) :
    Ends region before tokens (nodes ++ others) rest := by
  obtain ⟨after, ended, further⟩ := second
  exact ⟨after, ended, first.trans further⟩

/-- Start with tokens that leave no node. -/
theorem past (first : Reads region before tokens middle [] between)
    (second : Ends region middle between nodes rest) : Ends region before tokens nodes rest :=
  behind first second

theorem trans (first : Ends region before tokens nodes between)
    (second : ∀ middle : Behind, middle.IsEnd → Ends region middle between others rest) :
    Ends region before tokens (nodes ++ others) rest := by
  obtain ⟨middle, ended, reads⟩ := first
  exact behind reads (second middle ended)

theorem suffix (ends : Ends region before tokens nodes rest) : ∃ read, tokens = read ++ rest := by
  obtain ⟨_, _, text, _, rfl, _, _⟩ := ends
  exact ⟨_, rfl⟩

theorem of_value (expression : Ends .value before tokens nodes rest) :
    Ends .code before tokens nodes rest := by
  obtain ⟨after, ended, reads⟩ := expression
  exact ⟨after, ended, reads.of_value⟩

theorem wrap {node : Node} (inside : Ends region before tokens nodes rest)
    (wraps : node.Wraps nodes) : Ends region before tokens [node] rest := by
  obtain ⟨after, ended, reads⟩ := inside
  exact ⟨after, ended, reads.wrap wraps⟩

/-- Go on with a word or a sign. -/
theorem sign (first : Ends region before tokens nodes (token :: rest)) {text : String}
    (text_eq : token.text = text) (lexical : token.IsLexical)
    (separates : region.separates text = true) (apart : isApart text = true) :
    Reads region before tokens .other nodes rest := by
  obtain ⟨middle, ended, reads⟩ := first
  exact reads.onward (.of_sign ended text_eq lexical separates apart)

end Ends

namespace Grammar

/-! ## Parsers at tokens -/

def AllLexical (tokens : List Token) : Prop :=
  ∀ token ∈ tokens, token.IsLexical

theorem AllLexical.of_suffix {tokens rest : List Token} (lexical : AllLexical tokens)
    (within : rest <:+ tokens) : AllLexical rest :=
  fun token mem => lexical token (within.subset mem)

/-- What a parser comes to meets a condition, if it is a result.  Neither the tokens that
are left nor those to go back to are any others than the ones at hand. -/
def Reaches {α : Type} (tokens back : List Token) (post : α → List Token → Prop) :
    Except Failure (α × Place) → Prop
  | .ok (result, place) => post result place.tokens ∧ place.tokens <:+ tokens ∧
      (place.back = back ∨ place.back <:+ tokens)
  | .error (.mismatch later) => later = back ∨ later <:+ tokens
  | .error _ => True

/-- What a parser comes to at the given tokens. -/
def At {α : Type} (limit : Nat) (tokens : List Token) (parser : Parser α)
    (post : α → List Token → Prop) : Prop :=
  tokens.length < limit → AllLexical tokens →
    ∀ back, Reaches tokens back post (parser ⟨tokens, back⟩)

namespace Reaches

variable {α β : Type} {tokens back rest later : List Token} {post : α → List Token → Prop}
  {outcome : Except Failure (α × Place)}

theorem mono {weaker : α → List Token → Prop} (reached : Reaches tokens back post outcome)
    (implies : ∀ result rest, post result rest → weaker result rest) :
    Reaches tokens back weaker outcome := by
  match outcome with
  | .ok (result, place) => exact ⟨implies _ _ reached.1, reached.2⟩
  | .error (.mismatch _) => exact reached
  | .error .exhausted | .error .abruptEnd => trivial

/-- Start earlier. -/
theorem extend (reached : Reaches rest later post outcome) (within : rest <:+ tokens)
    (back_eq : later = back ∨ later <:+ tokens) : Reaches tokens back post outcome := by
  have settle : ∀ {other : List Token}, other = later ∨ other <:+ rest →
      other = back ∨ other <:+ tokens := by
    rintro other (rfl | inner)
    · exact back_eq
    · exact .inr (inner.trans within)
  match outcome with
  | .ok (result, place) => exact ⟨reached.1, reached.2.1.trans within, settle reached.2.2⟩
  | .error (.mismatch _) => exact settle reached
  | .error .exhausted | .error .abruptEnd => trivial

theorem error {failure : Failure} (reached : Reaches tokens back post (.error failure))
    (other : β → List Token → Prop) : Reaches tokens back other (.error failure) := by
  cases failure with
  | mismatch later => exact reached
  | exhausted => trivial
  | abruptEnd => trivial

end Reaches

namespace At

variable {α β : Type} {limit : Nat} {tokens : List Token} {parser : Parser α}
  {post : α → List Token → Prop}

theorem pure {result : α} (holds : post result tokens) :
    At limit tokens (Pure.pure result) post :=
  fun _ _ _ => ⟨holds, List.suffix_refl tokens, .inl rfl⟩

theorem mismatch : At limit tokens (mismatch : Parser α) post :=
  fun _ _ _ => .inl rfl

theorem bind {middle : α → List Token → Prop} {next : α → Parser β}
    {post : β → List Token → Prop} (first : At limit tokens parser middle)
    (second : ∀ result rest, middle result rest → At limit rest (next result) post) :
    At limit tokens (parser >>= next) post := by
  intro fits lexical back
  have reached := first fits lexical back
  simp only [Bind.bind, StateT.bind, Except.bind]
  split
  · rename_i failure failure_eq
    rw [failure_eq] at reached
    exact reached.error post
  · rename_i found found_eq
    rw [found_eq] at reached
    obtain ⟨holds, within, back_eq⟩ := reached
    exact (second found.1 found.2.tokens holds (Nat.lt_of_le_of_lt within.length_le fits)
      (lexical.of_suffix within) found.2.back).extend within back_eq

/-- Go on with a value at hand. -/
theorem given {value : α} {next : α → Parser β} {post : β → List Token → Prop}
    (reads : At limit tokens (next value) post) :
    At limit tokens (Pure.pure value >>= next) post := by
  rwa [pure_bind]

theorem mono {weaker : α → List Token → Prop} (reads : At limit tokens parser post)
    (implies : ∀ result rest, post result rest → weaker result rest) :
    At limit tokens parser weaker :=
  fun fits lexical back => (reads fits lexical back).mono implies

theorem assuming (reads : tokens.length < limit → AllLexical tokens → At limit tokens parser post) :
    At limit tokens parser post :=
  fun fits lexical => reads fits lexical fits lexical

/-- Parsers never put tokens back. -/
theorem within (reads : At limit tokens parser post) :
    At limit tokens parser fun result rest => post result rest ∧ rest <:+ tokens := by
  intro fits lexical back
  have reached := reads fits lexical back
  match outcome_eq : parser ⟨tokens, back⟩ with
  | .ok (result, place) =>
      rw [outcome_eq] at reached
      exact ⟨⟨reached.1, reached.2.1⟩, reached.2⟩
  | .error failure =>
      rw [outcome_eq] at reached
      exact reached.error _

/-- Another limit that the tokens fit. -/
theorem of_fits {other : Nat} (fits : tokens.length < other) (reads : At other tokens parser post) :
    At limit tokens parser post :=
  fun _ lexical => reads fits lexical

theorem lower (reads : At (limit + 1) tokens parser post) : At limit tokens parser post :=
  fun fits => reads (Nat.lt_succ_of_lt fits)

/-- A choice.  The second alternative starts where the first one does, unless the first
one strays. -/
theorem orElse {second : Parser α} {middle : List Token → α → List Token → Prop}
    (first : At limit tokens parser post) (other : ∀ later, At limit later second (middle later))
    (stays : ∀ result rest, middle tokens result rest → post result rest)
    (skips : ∀ read later, tokens = read ++ later → Strays parser read later →
      ∀ result rest, middle later result rest → post result rest) :
    At limit tokens (orElse parser second) post := by
  intro fits lexical back
  have tried := first fits lexical tokens
  simp only [Grammar.orElse]
  split
  · rename_i later given_up
    rw [given_up] at tried
    have within : later <:+ tokens := by
      rcases tried with rfl | within
      · exact List.suffix_refl later
      · exact within
    have reached := (other later (Nat.lt_of_le_of_lt within.length_le fits)
      (lexical.of_suffix within) back).extend within (.inl rfl)
    refine reached.mono ?_
    obtain ⟨_ | ⟨token, read⟩, rfl⟩ := within
    · exact stays
    · exact skips (token :: read) later rfl ⟨by simp, given_up⟩
  · exact tried.extend (List.suffix_refl tokens) (.inr (List.suffix_refl tokens))

/-! ## Single tokens -/

theorem left : At limit tokens left fun found rest => found = tokens ∧ rest = tokens :=
  fun _ _ _ => ⟨⟨rfl, rfl⟩, List.suffix_refl tokens, .inl rfl⟩

theorem peek : At limit tokens peek fun found rest => found = tokens.head? ∧ rest = tokens :=
  fun _ _ _ => ⟨⟨rfl, rfl⟩, List.suffix_refl tokens, .inl rfl⟩

theorem next : At limit tokens next fun token rest =>
    tokens = token :: rest ∧ token.IsLexical := by
  intro _ lexical back
  cases tokens with
  | nil => trivial
  | cons token rest =>
      exact ⟨⟨rfl, lexical _ List.mem_cons_self⟩, List.suffix_cons _ rest, .inl rfl⟩

theorem expect {text : String} : At limit tokens (expect text) fun _ rest =>
    ∃ token, tokens = token :: rest ∧ token.text = text ∧ token.IsLexical := by
  refine bind next ?_
  rintro token rest ⟨rfl, lexical⟩
  split
  · rename_i same
    exact pure ⟨token, rfl, same, lexical⟩
  · exact mismatch

theorem word : At limit tokens word fun name rest =>
    tokens = .identifier name :: rest ∧ (Token.identifier name).IsLexical := by
  refine bind next ?_
  rintro token rest ⟨rfl, lexical⟩
  cases token with
  | identifier name => exact pure ⟨rfl, lexical⟩
  | _ => exact mismatch

theorem identifier : At limit tokens identifier fun text rest => ∃ name : Word,
    tokens = .identifier name :: rest ∧ (Token.identifier name).IsLexical ∧ text = name.text := by
  refine bind word ?_
  rintro name rest ⟨rfl, lexical⟩
  exact pure ⟨name, rfl, lexical, rfl⟩

theorem ahead {texts : List String} : At limit tokens (ahead texts) fun found rest =>
    rest = tokens ∧ (found = true ↔ (tokens.take texts.length).map Token.text = texts) := by
  refine bind left ?_
  rintro _ _ ⟨rfl, rfl⟩
  exact pure ⟨rfl, beq_iff_eq⟩

theorem identifierAhead {texts : List String} :
    At limit tokens (identifierAhead texts) fun found rest =>
      rest = tokens ∧ (found = true → ∃ name more, tokens = .identifier name :: more) := by
  refine bind left ?_
  rintro _ _ ⟨rfl, rfl⟩
  split
  · exact pure ⟨rfl, fun _ => ⟨_, _, rfl⟩⟩
  · exact pure ⟨rfl, fun found => by cases found⟩

theorem basicTypeAhead : At limit tokens basicTypeAhead fun _ rest => rest = tokens := by
  refine bind peek ?_
  rintro _ _ ⟨rfl, rfl⟩
  exact pure rfl

theorem oneOfAhead {texts : List String} : At limit tokens (oneOfAhead texts) fun found rest =>
    rest = tokens ∧ (found = true → ∃ token more, tokens = token :: more ∧ token.text ∈ texts) := by
  refine bind peek ?_
  rintro _ rest ⟨rfl, rfl⟩
  refine pure ⟨rfl, fun found => ?_⟩
  cases rest with
  | nil => cases found
  | cons token more => exact ⟨token, more, rfl, List.contains_iff_mem.1 found⟩

theorem accept {texts : List String} : At limit tokens (accept texts) fun found rest =>
    match found with
    | true => ∃ read, tokens = read ++ rest ∧ read.map Token.text = texts ∧
        ∀ token ∈ read, token.IsLexical
    | false => rest = tokens ∧ (tokens.take texts.length).map Token.text ≠ texts := by
  refine assuming fun _ all_lexical => ?_
  refine bind ahead ?_
  rintro (_ | _) _ ⟨rfl, found_iff⟩
  · exact pure ⟨rfl, fun texts_eq => Bool.false_ne_true (found_iff.2 texts_eq)⟩
  · refine bind left ?_
    rintro _ _ ⟨rfl, rfl⟩
    intro _ _ back
    refine ⟨?_, List.drop_suffix .., .inl rfl⟩
    refine ⟨_, (List.take_append_drop texts.length _).symm, found_iff.1 rfl, fun token mem => ?_⟩
    exact all_lexical token (List.mem_of_mem_take mem)

theorem enoughRounds : At limit tokens enoughRounds fun _ rest => rest = tokens := by
  refine bind left ?_
  rintro _ _ ⟨rfl, rfl⟩
  exact pure rfl

/-! ## Branches -/

/-- Take a token that has been looked at. -/
theorem entering {token : Token} (head : tokens.head? = some token) {next : Token → Parser α}
    (taken : ∀ rest, tokens = token :: rest → token.IsLexical →
      At limit rest (next token) post) :
    At (limit + 1) tokens (Grammar.next >>= next) post := by
  refine assuming fun fits _ => bind Grammar.At.next ?_
  rintro _ rest ⟨rfl, lexical⟩
  cases head
  exact of_fits (Nat.lt_of_succ_lt_succ fits) (taken rest rfl lexical)

theorem expecting {text : String} {next : Unit → Parser α}
    (taken : ∀ token rest, tokens = token :: rest → token.text = text → token.IsLexical →
      At limit rest (next ()) post) : At limit tokens (Grammar.expect text >>= next) post := by
  refine bind expect ?_
  rintro ⟨⟩ rest ⟨token, tokens_eq, text_eq, lexical⟩
  exact taken token rest tokens_eq text_eq lexical

/-- Behind a token the limit is lower. -/
theorem opening {text : String} {next : Unit → Parser α}
    (taken : ∀ token rest, tokens = token :: rest → token.text = text → token.IsLexical →
      At limit rest (next ()) post) :
    At (limit + 1) tokens (Grammar.expect text >>= next) post := by
  refine assuming fun fits _ => expecting ?_
  rintro token rest rfl text_eq lexical
  exact of_fits (Nat.lt_of_succ_lt_succ fits) (taken token rest rfl text_eq lexical)

theorem naming {next : String → Parser α}
    (taken : ∀ (name : Word) rest, tokens = .identifier name :: rest →
      (Token.identifier name).IsLexical → At limit rest (next name.text) post) :
    At limit tokens (Grammar.identifier >>= next) post := by
  refine bind identifier ?_
  rintro _ rest ⟨name, tokens_eq, lexical, rfl⟩
  exact taken name rest tokens_eq lexical

theorem looking {texts : List String} {whenFound otherwise : Parser α}
    (found : (tokens.take texts.length).map Token.text = texts → At limit tokens whenFound post)
    (missing : At limit tokens otherwise post) :
    At limit tokens (Grammar.ahead texts >>= fun found =>
      if found = true then whenFound else otherwise) post := by
  refine bind ahead ?_
  rintro (_ | _) rest ⟨rfl, found_iff⟩
  · exact missing
  · exact found (found_iff.1 rfl)

theorem optional {text : String} {next : Bool → Parser α}
    (taken : ∀ token rest, tokens = token :: rest → token.text = text → token.IsLexical →
      At limit rest (next true) post) (missing : At limit tokens (next false) post) :
    At limit tokens (Grammar.accept [text] >>= next) post := by
  refine bind accept ?_
  rintro (_ | _) rest outcome
  · exact outcome.1 ▸ missing
  · obtain ⟨read, tokens_eq, texts_eq, lexical⟩ := outcome
    obtain ⟨token, rfl, text_eq⟩ := List.map_eq_singleton_iff.1 texts_eq
    exact taken token rest tokens_eq text_eq (lexical token (by simp))

theorem accepting {text : String} {whenTaken otherwise : Parser α}
    (taken : ∀ token rest, tokens = token :: rest → token.text = text → token.IsLexical →
      At limit rest whenTaken post) (missing : At limit tokens otherwise post) :
    At limit tokens (Grammar.accept [text] >>= fun found =>
      if found = true then whenTaken else otherwise) post :=
  optional taken missing

theorem acceptingPair {text other : String} {whenTaken otherwise : Parser α}
    (taken : ∀ first second rest, tokens = first :: second :: rest → first.text = text →
      second.text = other → first.IsLexical → second.IsLexical → At limit rest whenTaken post)
    (missing : At limit tokens otherwise post) :
    At limit tokens (Grammar.accept [text, other] >>= fun found =>
      if found = true then whenTaken else otherwise) post := by
  refine bind accept ?_
  rintro (_ | _) rest outcome
  · exact outcome.1 ▸ missing
  · obtain ⟨read, tokens_eq, texts_eq, lexical⟩ := outcome
    obtain ⟨first, _, rfl, text_eq, texts_eq⟩ := List.map_eq_cons_iff.1 texts_eq
    obtain ⟨second, rfl, other_eq⟩ := List.map_eq_singleton_iff.1 texts_eq
    exact taken first second rest tokens_eq text_eq other_eq (lexical first (by simp))
      (lexical second (by simp))

/-! ## Repetitions -/

theorem untilIn {stop : Parser Bool} {item : Parser α}
    {post : List Token → List α → List Token → Prop}
    (step : ∀ tokens, At limit tokens stop fun stopped rest =>
      match stopped with
      | true => post tokens [] rest
      | false => At limit rest item fun first more => ∀ others last, post more others last →
          post tokens (first :: others) last)
    (rounds : Nat) (tokens : List Token) :
    At limit tokens (untilIn stop item rounds) (post tokens) := by
  induction rounds generalizing tokens with
  | zero => exact mismatch
  | succ rounds ih =>
      refine bind (step tokens) ?_
      rintro (_ | _) rest outcome
      · refine bind outcome ?_
        intro first more joins
        refine bind (ih more) ?_
        intro others last holds
        exact pure (joins others last holds)
      · exact pure outcome

theorem untilHolds {stop : Parser Bool} {item : Parser α}
    {post : List Token → List α → List Token → Prop}
    (step : ∀ tokens, At limit tokens stop fun stopped rest =>
      match stopped with
      | true => post tokens [] rest
      | false => At limit rest item fun first more => ∀ others last, post more others last →
          post tokens (first :: others) last)
    (tokens : List Token) : At limit tokens (untilHolds stop item) (post tokens) := by
  refine bind enoughRounds ?_
  rintro rounds _ rfl
  exact untilIn step rounds _

theorem whileHolds {condition : Parser Bool} {item : Parser α}
    {post : List Token → List α → List Token → Prop}
    (step : ∀ tokens, At limit tokens condition fun found rest =>
      match found with
      | true => At limit rest item fun first more => ∀ others last, post more others last →
          post tokens (first :: others) last
      | false => post tokens [] rest)
    (tokens : List Token) : At limit tokens (whileHolds condition item) (post tokens) := by
  refine untilHolds (fun tokens => ?_) tokens
  refine bind (step tokens) ?_
  rintro (_ | _) rest outcome
  · exact pure outcome
  · exact pure outcome

/-- Items behind separators. -/
theorem repeated {separator : String} {item : Parser α}
    {post : List Token → List α → List Token → Prop} (done : ∀ tokens, post tokens [] tokens)
    (step : ∀ sign tokens, sign.text = separator → sign.IsLexical →
      At limit tokens item fun first rest => ∀ others last, post rest others last →
        post (sign :: tokens) (first :: others) last)
    (tokens : List Token) :
    At limit tokens (Grammar.whileHolds (Grammar.accept [separator]) item) (post tokens) := by
  refine whileHolds (fun tokens => ?_) tokens
  refine accept.mono ?_
  rintro (_ | _) rest outcome
  · rw [outcome.1]
    exact done tokens
  · obtain ⟨read, rfl, texts_eq, lexical⟩ := outcome
    obtain ⟨sign, rfl, text_eq⟩ := List.map_eq_singleton_iff.1 texts_eq
    exact step sign rest text_eq (lexical sign (by simp))

end At

end Grammar

end JavaUml.Java
