import JavaUml.Proofs.Java.Spelling

/-!
# Where slips may occur

Where no choice goes astray, each slip needs something in the text that can be seen from
one token and the one in front of it: the word `do`, a handler and an annotation, type
arguments behind a dot, or a parenthesis where an operand starts.  A text without these
has no other slips, however it is read.
-/

namespace JavaUml.Java

/-! ## Tokens of a text -/

/-- The words and signs that are no names. -/
def reserved : List String :=
  modifierWords ++ basicTypeWords ++ keywordWords ++ literalWords ++ operators ++
    separators.map String.singleton ++ ["@"]

/-- A token as it is cut from a text: names are not reserved, and the others are what
they are called. -/
def Token.IsLexical : Token → Prop
  | .identifier name => name.text ∉ reserved
  | .basicType name => name.text ∈ basicTypeWords
  | .modifier word => word ∈ modifierWords
  | _ => True

theorem Token.IsLexical.not_isIdentifier {token : Token} (lexical : token.IsLexical)
    {text : String} (text_eq : token.text = text) (known : reserved.contains text = true) :
    token.isIdentifier = false := by
  cases token with
  | identifier name =>
      subst text_eq
      exact absurd (List.contains_iff_mem.1 known) lexical
  | _ => rfl

/-! ## Looking at tokens with those in front of them -/

/-- The last of the given tokens, or what stands in front of them. -/
def lastBehind : Option Token → List Token → Option Token
  | front, [] => front
  | _, token :: rest => lastBehind (some token) rest

/-- Whether a test holds of a token and the one in front of it somewhere. -/
def somewhere (test : Option Token → Token → Bool) : Option Token → List Token → Bool
  | _, [] => false
  | front, token :: rest => test front token || somewhere test (some token) rest

@[simp]
theorem lastBehind_append (front : Option Token) (tokens others : List Token) :
    lastBehind front (tokens ++ others) = lastBehind (lastBehind front tokens) others := by
  induction tokens generalizing front with
  | nil => rfl
  | cons token rest ih => exact ih (some token)

@[simp]
theorem somewhere_append (test : Option Token → Token → Bool) (front : Option Token)
    (tokens others : List Token) :
    somewhere test front (tokens ++ others) =
      (somewhere test front tokens || somewhere test (lastBehind front tokens) others) := by
  induction tokens generalizing front with
  | nil => rfl
  | cons token rest ih =>
      rw [List.cons_append, somewhere, somewhere, lastBehind, ih, Bool.or_assoc]

theorem somewhere_of_mem {test : Option Token → Token → Bool} {tokens : List Token}
    {token : Token} (mem : token ∈ tokens) (holds : ∀ front, test front token = true)
    (front : Option Token) : somewhere test front tokens = true := by
  obtain ⟨before, behind, rfl⟩ := List.append_of_mem mem
  rw [somewhere_append, somewhere, holds, Bool.true_or, Bool.or_true]

/-- Whether parentheses behind a token may belong to it. -/
def takesParentheses (front : Option Token) : Bool :=
  front.any fun token => token.isIdentifier || headWords.contains token.text

/-- What has to be found in a text for a slip. -/
def Slip.signs : Slip → List (Option Token → Token → Bool)
  | renamed => [fun front token => token.text == "<" && front.any fun dot => dot.text == "."]
  | selectorsInside => [fun front token => token.text == "(" && !takesParentheses front]
  | selectorsBehind => [fun front token => token.text == "(" && !takesParentheses front]
  | conditionFirst => [fun _ token => token.text == "do"]
  | dropped => [fun _ token => token.text == "catch", fun _ token => token.text == "@"]
  | astray _ => [fun _ _ => true]

def Slip.isAstray : Slip → Bool
  | astray _ => true
  | _ => false

/-- Whether all that is needed for a slip is found. -/
def Slip.isPossible (slip : Slip) (front : Option Token) (tokens : List Token) : Bool :=
  slip.signs.all fun test => somewhere test front tokens

theorem Slip.isPossible_nil (slip : Slip) (front : Option Token) :
    slip.isPossible front [] = false := by
  cases slip <;> rfl

theorem Slip.isPossible_append_left {slip : Slip} {front : Option Token} {tokens : List Token}
    (possible : slip.isPossible front tokens = true) (others : List Token) :
    slip.isPossible front (tokens ++ others) = true := by
  unfold isPossible at possible ⊢
  rw [List.all_eq_true] at possible ⊢
  intro test mem
  rw [somewhere_append, possible test mem, Bool.true_or]

theorem Slip.isPossible_append_right {slip : Slip} {front : Option Token} (tokens : List Token)
    {others : List Token} (possible : slip.isPossible (lastBehind front tokens) others = true) :
    slip.isPossible front (tokens ++ others) = true := by
  unfold isPossible at possible ⊢
  rw [List.all_eq_true] at possible ⊢
  intro test mem
  rw [somewhere_append, possible test mem, Bool.or_true]

/-! ## Slips of a text -/

/-- What stands in front is known to be none of the words that take parentheses. -/
def Behind.Fits (behind : Behind) (front : Option Token) : Prop :=
  behind = .other → takesParentheses front = false

/-- Reserved words and signs that never take parentheses. -/
def isApart (text : String) : Bool :=
  reserved.contains text && !headWords.contains text

theorem Behind.fits_of_text (behind : Behind) {token : Token} (lexical : token.IsLexical)
    {text : String} (text_eq : token.text = text) (apart : isApart text = true) :
    behind.Fits (some token) := by
  rw [isApart, Bool.and_eq_true, Bool.not_eq_true'] at apart
  intro _
  simp only [takesParentheses, Option.any_some, text_eq, apart.2, Bool.or_false]
  exact lexical.not_isIdentifier text_eq apart.1

theorem Behind.fits_of_isBasicType (behind : Behind) {token : Token} (lexical : token.IsLexical)
    (basic : token.isBasicType) : behind.Fits (some token) := by
  have apart : ∀ word ∈ basicTypeWords, isApart word = true := by decide
  cases token with
  | basicType name => exact behind.fits_of_text lexical rfl (apart _ lexical)
  | _ => cases basic

/-- The slips of a text are possible, and its end is what it is taken for. -/
structure Shows (text : List Written) (slips : List Slip) (after : Behind)
    (front : Option Token) : Prop where
  possible : ∀ slip ∈ slips, slip.isPossible front (text.map Written.token) = true
  fits : after.Fits (lastBehind front (text.map Written.token))

theorem Behind.fits_next (behind : Behind) (token : Token) :
    (behind.next token).Fits (some token) := by
  unfold Fits next
  intro other
  simp only [takesParentheses, Option.any_some]
  split at other
  · cases other
  · split at other
    · cases other
    · simp_all

theorem Shows.possible_within {text whole before behind : List Written} {slips : List Slip}
    {inner : Behind} {front : Option Token}
    (inside : Shows text slips inner (lastBehind front (before.map Written.token)))
    (whole_eq : whole = before ++ text ++ behind) :
    ∀ slip ∈ slips, slip.isPossible front (whole.map Written.token) = true := by
  intro slip mem
  rw [whole_eq, List.map_append, List.map_append]
  exact Slip.isPossible_append_left (Slip.isPossible_append_right _ (inside.possible slip mem)) _

theorem Shows.append {text more : List Written} {slips later : List Slip}
    {middle after : Behind} {front : Option Token} (first : Shows text slips middle front)
    (second : Shows more later after (lastBehind front (text.map Written.token))) :
    Shows (text ++ more) (slips ++ later) after front := by
  constructor
  · rw [List.forall_mem_append]
    exact ⟨@possible_within _ _ [] _ _ _ _ first rfl,
      second.possible_within (List.append_nil _).symm⟩
  · simpa using second.fits

theorem Shows.ended {text : List Written} {slips : List Slip} {inner after : Behind}
    {front : Option Token} {closing : Written} (shown : Shows text slips inner front)
    (closed : after.Fits (some closing.token)) : Shows (text ++ [closing]) slips after front := by
  have last : Shows [closing] [] after (lastBehind front (text.map Written.token)) :=
    ⟨by simp, closed⟩
  simpa using shown.append last

/-- A text in brackets, with what stands in front of these and in front of the closing
one. -/
theorem Shows.bracketed {text whole : List Written} {slips : List Slip} {inner after : Behind}
    {front : Option Token} {opens closes : String} (before behind : List Written)
    (opening closing : Written) (opens_eq : opening.token.text = opens)
    (closes_eq : closing.token.text = closes) (apart : isApart opens = true ∧ isApart closes = true)
    (lexical : ∀ written ∈ whole, written.token.IsLexical)
    (inside : (∀ written ∈ text, written.token.IsLexical) →
      ∀ {front}, Behind.other.Fits front → Shows text slips inner front)
    (whole_eq : whole = before ++ opening :: (text ++ behind ++ [closing])) :
    Shows whole slips after front := by
  have opened : Behind.other.Fits (some opening.token) :=
    Behind.fits_of_text _ (lexical opening (by simp [whole_eq])) opens_eq apart.1
  have closed : after.Fits (some closing.token) :=
    Behind.fits_of_text _ (lexical closing (by simp [whole_eq])) closes_eq apart.2
  have shown := inside (fun written mem => lexical written (by simp [whole_eq, mem])) opened
  constructor
  · refine @possible_within text whole (before ++ [opening]) (behind ++ [closing]) slips inner
      front ?_ (by simp [whole_eq])
    simpa [lastBehind] using shown
  · simpa [whole_eq, lastBehind] using closed

theorem Shows.add {text : List Written} {slips own : List Slip} {after : Behind}
    {front : Option Token} (shown : Shows text slips after front)
    (possible : ∀ slip ∈ own, slip.isPossible front (text.map Written.token) = true) :
    Shows text (slips ++ own) after front :=
  ⟨List.forall_mem_append.2 ⟨shown.possible, possible⟩, shown.fits⟩

/-- The constants of an enum in braces, and members behind a semicolon if there is one. -/
theorem Shows.enumBody {text more : List Written} {slips later : List Slip}
    {inner outer after : Behind} {front : Option Token} (header : List Token)
    {separator : List Token} {opening closing : Token} (opens : opening.text = openBrace)
    (closes : closing.text = closeBrace)
    (separated : separator.map Token.text = [";"] ∨ separator = [] ∧ more = [])
    (lexical : ∀ written ∈ plain (header ++ [opening]) ++ text ++ plain separator ++ more ++
      plain [closing], written.token.IsLexical)
    (constants : (∀ written ∈ text, written.token.IsLexical) →
      ∀ {front}, Behind.other.Fits front → Shows text slips inner front)
    (members : (∀ written ∈ more, written.token.IsLexical) →
      ∀ {front}, Behind.other.Fits front → Shows more later outer front) :
    Shows (plain (header ++ [opening]) ++ text ++ plain separator ++ more ++ plain [closing])
      (slips ++ later) after front := by
  have closed : ∀ behind : Behind, behind.Fits (some closing) := fun behind =>
    behind.fits_of_text (lexical ⟨closing, none⟩ (by simp [plain])) closes (by decide)
  rcases separated with separated | ⟨rfl, rfl⟩
  · obtain ⟨semicolon, rfl, ends⟩ := List.map_eq_singleton_iff.1 separated
    have first : Shows (plain (header ++ [opening]) ++ text ++ plain [semicolon]) slips .other
        front :=
      .bracketed (plain header) [] ⟨opening, none⟩ ⟨semicolon, none⟩ opens ends (by decide)
        (fun written mem => lexical written (by grind)) constants (by simp [plain])
    have second := members (fun written mem => lexical written (by simp [mem])) first.fits
    rw [List.append_assoc _ more]
    exact first.append (second.ended (closed after))
  · have whole : Shows (plain (header ++ [opening]) ++ text ++ plain [closing]) slips after front :=
      .bracketed (plain header) [] ⟨opening, none⟩ ⟨closing, none⟩ opens closes (by decide)
        (fun written mem => lexical written (by grind)) constants (by simp [plain])
    have none_later := members (by simp) (closed .other)
    refine Shows.add (by simpa [plain] using whole) fun slip mem => ?_
    have impossible := none_later.possible slip mem
    rw [List.map_nil, slip.isPossible_nil] at impossible
    cases impossible

/-- Calls are dropped from the parameter of a handler only if there is an annotation. -/
theorem isPossible_dropped {word opening : Token} {text : List Written} {nodes : List Node}
    (starts : word.text = "catch")
    (marked : nodes = [] ∨ ∃ written ∈ text, written.token.text = "@")
    (some_call : callNames nodes ≠ []) (front : Option Token) (behind : List Token) :
    Slip.dropped.isPossible front (word :: opening :: (text.map Written.token ++ behind)) =
      true := by
  have found : ∃ written ∈ text, written.token.text = "@" := by
    refine marked.resolve_left ?_
    rintro rfl
    exact some_call rfl
  obtain ⟨written, mem, text_eq⟩ := found
  have marks : somewhere (fun _ token => token.text == "@") (some opening)
      (text.map Written.token) = true :=
    somewhere_of_mem (List.mem_map_of_mem mem) (by simp [text_eq]) _
  simp [Slip.isPossible, Slip.signs, somewhere, starts, marks]

/-- If nothing is left out, slips are found where they are possible. -/
theorem Spells.shows {region : Region} {before after : Behind} {text : List Written}
    {nodes : List Node} {slips : List Slip}
    (spelled : Spells region before text after nodes slips)
    (straight : ∀ slip ∈ slips, slip.isAstray = false)
    (lexical : ∀ written ∈ text, written.token.IsLexical) {front : Option Token}
    (fits : before.Fits front) : Shows text slips after front := by
  induction spelled generalizing front with
  | nil => exact ⟨by simp, fits⟩
  | append _ _ first second =>
      obtain ⟨left, right⟩ := List.forall_mem_append.1 lexical
      obtain ⟨early, late⟩ := List.forall_mem_append.1 straight
      exact (first early left fits).append (second late right (first early left fits).fits)
  | token => exact ⟨by simp, Behind.fits_next _ _⟩
  | classWord _ named _ =>
      exact ⟨by simp, Behind.fits_of_text _ (lexical ⟨_, none⟩ (by simp [plain])) named (by decide)⟩
  | newReference _ _ named =>
      refine ⟨by simp, ?_⟩
      simp only [map_token_plain, lastBehind, lastBehind_append]
      exact Behind.fits_of_text _ (lexical ⟨_, none⟩ (by simp [plain])) named (by decide)
  | newBasic _ basic =>
      exact ⟨by simp, Behind.fits_of_isBasicType _ (lexical ⟨_, none⟩ (by simp [plain])) basic⟩
  | newType | annotationName => exact ⟨by simp, fun impossible => by cases impossible⟩
  | @call _ _ name opening closing _ _ _ _ _ opens closes _ _ _ inside =>
      exact .bracketed [⟨name, none⟩] [] ⟨opening, none⟩ ⟨closing, some name.text⟩ opens closes
        (by decide) lexical (inside straight) (by simp)
  | @genericCall _ _ dot sign name opening closing arguments _ _ _ _ dotted signed _ _ opens
      closes _ _ inside =>
      refine Shows.add ?_ fun slip mem => ?_
      · exact .bracketed (plain (dot :: sign :: arguments) ++ [⟨name, none⟩]) [] ⟨opening, none⟩
          ⟨closing, some name.text⟩ opens closes (by decide) lexical
          (inside (List.forall_mem_append.1 straight).1) (by simp)
      · split at mem
        · cases mem
        · rw [List.mem_singleton] at mem
          simp [mem, Slip.isPossible, Slip.signs, somewhere, plain, dotted, signed]
  | @parentheses _ _ _ _ opening closing _ _ _ opens closes _ _ inside =>
      exact .bracketed [] [] ⟨opening, none⟩ ⟨closing, none⟩ opens closes (by decide) lexical
        (inside straight) (by simp)
  | @braces _ _ _ _ opening closing _ _ _ opens closes _ _ inside =>
      exact .bracketed [] [] ⟨opening, none⟩ ⟨closing, none⟩ opens closes (by decide) lexical
        (inside straight) (by simp)
  | @typeBody _ _ _ word name opening closing header _ _ _ _ _ _ opens closes _ inside =>
      exact .bracketed (plain (word :: name :: header)) [] ⟨opening, none⟩ ⟨closing, none⟩ opens
        closes (by decide) lexical (inside straight) (by simp [plain])
  | @enumBody _ _ _ _ word name _ _ header _ _ _ _ _ _ _ _ _ _ opens closes _ separated _ constants
      members =>
      obtain ⟨early, late⟩ := List.forall_mem_append.1 straight
      exact .enumBody (word :: name :: header) opens closes separated lexical (constants early)
        (members late)
  | @initial _ _ word semicolon _ _ _ starts closes _ inside =>
      rcases starts with starts | ⟨_, starts⟩
      · exact .bracketed [] [] ⟨word, none⟩ ⟨semicolon, none⟩ starts closes (by decide) lexical
          (inside straight) (by simp)
      · exact .bracketed [] [] ⟨word, none⟩ ⟨semicolon, none⟩ starts closes (by decide) lexical
          (inside straight) (by simp)
  | value _ inside => exact inside straight lexical fits
  | wrap _ _ inside => exact inside straight lexical fits
  | @method _ _ _ _ _ _ _ _ _ opening closing _ _ _ opens closes _ head inside =>
      obtain ⟨left, right⟩ := List.forall_mem_append.1 lexical
      obtain ⟨early, late⟩ := List.forall_mem_append.1 straight
      refine (head early left fits).append ?_
      exact .bracketed [] [] ⟨opening, none⟩ ⟨closing, none⟩ opens closes (by decide) right
        (inside late) (by simp)
  | chain _ _ _ head behind =>
      obtain ⟨left, right⟩ := List.forall_mem_append.1 lexical
      obtain ⟨early, late⟩ := List.forall_mem_append.1 straight
      exact (head early left fits).append (behind late right (head early left fits).fits)
  | @parenthesised _ _ _ opening closing text more node selectors slips later opens closes _ _ _ _
      inside behind =>
      obtain ⟨early, late⟩ := List.forall_mem_append.1 (List.forall_mem_append.1 straight).1
      have first : Shows (⟨opening, none⟩ :: (text ++ [⟨closing, none⟩])) slips .other front :=
        .bracketed [] [] ⟨opening, none⟩ ⟨closing, none⟩ opens closes (by decide)
          (fun written mem => lexical written (by grind)) (inside early) (by simp)
      have second := behind late (fun written mem => lexical written (by simp [mem])) first.fits
      have both := first.append second
      rw [List.cons_append, List.append_assoc, List.singleton_append] at both
      refine both.add fun slip mem => ?_
      -- The parenthesis at the start is one where an operand starts.
      have operand := fits rfl
      rcases mem_parenthesisSlips mem with rfl | rfl <;>
        simp [Slip.isPossible, Slip.signs, somewhere, opens, operand]
  | @caught _ _ word opening closing path text nodes _ _ _ starts opens closes _ marked _ inside =>
      refine Shows.add ?_ fun slip mem => ?_
      · exact .bracketed [⟨word, none⟩] (plain path) ⟨opening, none⟩ ⟨closing, none⟩ opens closes
          (by decide) lexical (inside (List.forall_mem_append.1 straight).1) (by simp [plain])
      · split at mem
        · cases mem
        · rename_i some_call
          rw [List.mem_singleton.1 mem]
          simpa using isPossible_dropped starts marked some_call front (path ++ [closing])
  | @loop _ _ _ word again opening closing text more body condition slips later starts repeats opens
      closes _ _ first second =>
      obtain ⟨early, late⟩ := List.forall_mem_append.1 (List.forall_mem_append.1 straight).1
      have body_shown : Shows (⟨word, none⟩ :: (text ++ plain [again, opening])) slips .other
          front :=
        .bracketed [] [⟨again, none⟩] ⟨word, none⟩ ⟨opening, none⟩ starts opens (by decide)
          (fun written mem => lexical written (by grind)) (first early) (by simp [plain])
      have condition_shown := @Shows.ended _ _ _ .other _ ⟨closing, none⟩
        (second late (fun written mem => lexical written (by grind)) body_shown.fits)
        (Behind.fits_of_text _ (lexical ⟨closing, none⟩ (by simp [plain])) closes (by decide))
      have both := body_shown.append condition_shown
      rw [List.cons_append, ← List.append_assoc] at both
      refine Shows.add both fun slip mem => ?_
      unfold loopSlips at mem
      split at mem
      · cases mem
      · rw [List.mem_singleton] at mem
        simp [mem, Slip.isPossible, Slip.signs, somewhere, starts]
  | astray | astrayControl => cases straight _ List.mem_cons_self

end JavaUml.Java
