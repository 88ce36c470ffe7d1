import JavaUml.Java.Grammar.Unit
import JavaUml.Proofs.Java.CallOrder

/-!
# Calls as they are written

A call is written as a name with arguments in parentheses, and it ends where these
close.  Not every name in front of a parenthesis is called, though: behind `new` it
is the name of a type, behind `@` the name of an annotation, and among the members
of a type it is declared.  `Spells` says which is which, for a stretch of tokens and
for the nodes that these are read as, and marks the parenthesis that ends a call.

Nodes do not always keep the calls of their text in order.  The rules where they do
not leave a slip, and so do those where tokens are left out, since an alternative that
is given up need not go back to where it started.  Without slips the calls of the nodes
are the calls of the text, in the order in which they end there.
-/

namespace JavaUml.Java

/-! ## Texts -/

/-- A token in a text, with the name of the call that it ends. -/
structure Written where
  token : Token
  ends : Option String
  deriving DecidableEq, Repr

/-- Tokens that end no call. -/
def plain (tokens : List Token) : List Written :=
  tokens.map fun token => ⟨token, none⟩

/-- The names of the calls in a text, in the order in which they end. -/
def callsEnding (text : List Written) : List String :=
  text.filterMap Written.ends

@[simp]
theorem callsEnding_nil : callsEnding [] = [] :=
  rfl

@[simp]
theorem callsEnding_append (text other : List Written) :
    callsEnding (text ++ other) = callsEnding text ++ callsEnding other :=
  List.filterMap_append

@[simp]
theorem callsEnding_cons (written : Written) (text : List Written) :
    callsEnding (written :: text) = written.ends.toList ++ callsEnding text := by
  cases ends : written.ends <;> simp [callsEnding, ends]

@[simp]
theorem callsEnding_plain (tokens : List Token) : callsEnding (plain tokens) = [] := by
  simp [callsEnding, plain]

@[simp]
theorem map_token_plain (tokens : List Token) : (plain tokens).map Written.token = tokens := by
  simp [plain, Function.comp_def]

/-- What kind of text a stretch belongs to. -/
inductive Region where
  /-- Statements. -/
  | code
  /-- Expressions, with no semicolon outside of brackets. -/
  | value
  /-- The members of a type. -/
  | members
  /-- The constants of an enum. -/
  | constants
  deriving DecidableEq, Repr

/-- What stands in front of a token. -/
inductive Behind where
  /-- Nothing of what follows. -/
  | other
  /-- A name. -/
  | name
  /-- A word that parentheses may follow. -/
  | word
  /-- The name of an annotation. -/
  | annotationName
  /-- The name of a type behind `new`. -/
  | newType
  /-- What a body of members may follow: the arguments of a constructor. -/
  | created
  /-- The parameters of a method, and dimensions behind them. -/
  | parameters
  deriving DecidableEq, Repr

/-- Words that parentheses may follow. -/
def headWords : List String :=
  ["if", "while", "for", "switch", "synchronized", "catch", "try", "this", "super"]

/-- What stands in front of the token behind the given one. -/
def Behind.next (behind : Behind) (token : Token) : Behind :=
  if token.isIdentifier then name
  else if headWords.contains token.text then word
  else if behind = parameters ∧ (token.text = "[" ∨ token.text = "]") then parameters
  else other

/-- Tokens that open or close something, or say what the tokens behind them are. -/
def structural : List String :=
  ["(", ")", openBrace, closeBrace, "new", "@", "class", "interface", "enum", "do"]

/-- Whether a token says nothing but itself. -/
def Region.allows (region : Region) (behind : Behind) (token : Token) : Bool :=
  !structural.contains token.text &&
    (match behind with
      | .annotationName => token.text != "."
      | .newType => token.text == "["
      | .parameters => token.text != "default"
      | _ => true) &&
    match region with
      | .code => true
      | .value => token.text != ";"
      | .members => token.text != "="
      | .constants => token.text != ";" && token.text != "="

/-- What stands in front of the token behind parentheses that end no call, where
there may be such. -/
def Region.parenthesised : Region → Behind → Option Behind
  | _, .annotationName => some .other
  | .code, .other => some .other
  | .code, .word => some .other
  | .value, .other => some .other
  | .value, .word => some .other
  | .code, .newType => some .created
  | .value, .newType => some .created
  | .members, .name => some .parameters
  | .constants, .name => some .created
  | _, _ => none

/-- What braces hold, where there may be such. -/
def Region.braced : Region → Behind → Option Region
  | .code, .created => some .members
  | .value, .created => some .members
  | .code, .newType => none
  | .value, .newType => none
  | .code, _ => some .code
  | .value, _ => some .code
  | .members, _ => some .code
  | .constants, .name => some .members
  | .constants, .created => some .members
  | .constants, _ => none

/-- Tokens that no type holds. -/
def unquiet : List String :=
  structural ++ [";", "=", "default"]

/-- Type arguments and the like: angle brackets in pairs. -/
inductive Angled : List Token → Prop
  | nil : Angled []
  | token {token : Token} {rest : List Token} (quiet : token.text ∉ unquiet)
      (flat : token.text ≠ "<" ∧ token.text ≠ ">") (behind : Angled rest) : Angled (token :: rest)
  | pair {opening closing : Token} {inside rest : List Token} (opens : opening.text = "<")
      (closes : closing.text = ">") (within : Angled inside) (behind : Angled rest) :
      Angled (opening :: (inside ++ closing :: rest))

/-- The name of a type behind `new`: names with dots between them, and type arguments
behind them. -/
inductive Created : List Token → Prop
  | nil : Created []
  | name {token : Token} {rest : List Token} (named : token.isIdentifier ∨ token.text = ".")
      (behind : Created rest) : Created (token :: rest)
  | arguments {opening closing : Token} {inside rest : List Token} (opens : opening.text = "<")
      (closes : closing.text = ">") (within : Angled inside) (behind : Created rest) :
      Created (opening :: (inside ++ closing :: rest))

/-! ## Calls of nodes -/

/-- The names of the calls that are recorded for nodes, in order. -/
def callNames (nodes : List Node) : List String :=
  (callSitesAll nodes).map fun site => site.call.name

/-- A node around others that is no call itself. -/
structure Node.Wraps (node : Node) (nodes : List Node) : Prop where
  parts_eq : node.parts = nodes
  selectors_eq : node.selectors = []
  call?_eq : node.call? = none
  body_eq : node.body = []

/-- An alternative that is given up does not go back to where it started. -/
def Strays {α : Type} (alternative : Grammar.Parser α) (read later : List Token) : Prop :=
  read ≠ [] ∧ alternative (.start (read ++ later)) = .error (.mismatch later)

/-- A choice leaves tokens out: those that were read for its first alternative stay read
when the second one is tried.  The stretch is where the choice is seen to be made. -/
inductive IsAstray (rules : Grammar.Rules) : (stretch read later : List Token) → Prop
  | lambda {read later : List Token} (strays : Strays (Grammar.lambda rules) read later) :
      IsAstray rules (read ++ later) read later
  | cast {read later : List Token} (strays : Strays (Grammar.cast rules) read later) :
      IsAstray rules (read ++ later) read later
  | localVariables {read later : List Token} {first : Token}
      (opens : Grammar.opening (read ++ later) = .token (some first) false)
      (named : first.isIdentifier) (strays : Strays (Grammar.localVariables rules) read later) :
      IsAstray rules (read ++ later) read later
  | declaringControl {word opening : Token} {read later : List Token} (starts : word.text = "for")
      (opens : opening.text = "(") (strays : Strays (Grammar.declaringControl rules) read later) :
      IsAstray rules (word :: opening :: (read ++ later)) read later

/-- How the nodes of a text may fail to keep its calls. -/
inductive Slip where
  /-- A call is recorded under another name. -/
  | renamed
  /-- Selectors inside of parentheses are replaced by those behind them. -/
  | selectorsInside
  /-- Selectors behind parentheses are dropped with what stands there. -/
  | selectorsBehind
  /-- The condition of a loop comes before the body that it is written behind. -/
  | conditionFirst
  /-- The annotations of a caught parameter are dropped. -/
  | dropped
  /-- Tokens are left out where a choice was made. -/
  | astray (stretch : List Token)
  deriving DecidableEq, Repr

/-- What goes wrong with selectors behind parentheses, or inside of them. -/
def parenthesisSlips (inside : Node) (selectors : List Node) : List Slip :=
  match inside with
  | .primary link _ own => if (selectorSites [link] own).isEmpty then [] else [.selectorsInside]
  | _ => if callNames selectors = [] then [] else [.selectorsBehind]

/-- What goes wrong with the order of a loop. -/
def loopSlips (body condition : Node) : List Slip :=
  if callNames [body] = [] ∨ callNames [condition] = [] then [] else [.conditionFirst]

/-! ## The rules -/

open Grammar (withSelectors bare)

/-- A text is read as nodes, from behind one thing to behind another.  The rules up to
`braces` tell which parentheses are the arguments of calls; the others say what nodes
stand for a text. -/
inductive Spells : Region → Behind → List Written → Behind → List Node → List Slip → Prop
  | nil (region : Region) (behind : Behind) : Spells region behind [] behind [] []
  | append {region : Region} {before middle after : Behind} {text more : List Written}
      {nodes others : List Node} {slips later : List Slip}
      (first : Spells region before text middle nodes slips)
      (second : Spells region middle more after others later) :
      Spells region before (text ++ more) after (nodes ++ others) (slips ++ later)
  | token {region : Region} {before : Behind} {token : Token}
      (allowed : region.allows before token = true) :
      Spells region before (plain [token]) (before.next token) [] []
  /-- A class as a value, as in `Item.class`. -/
  | classWord {region : Region} {before : Behind} {dot word : Token} (dotted : dot.text = ".")
      (named : word.text = "class") (apart : before ≠ .annotationName ∧ before ≠ .newType) :
      Spells region before (plain [dot, word]) .other [] []
  /-- A constructor as a value, as in `Item::new`. -/
  | newReference {region : Region} {before : Behind} {sign word : Token}
      {arguments : List Token} (signed : sign.text = "::") (created : Created arguments)
      (named : word.text = "new") :
      Spells region before (plain (sign :: (arguments ++ [word]))) .other [] []
  | newBasic {region : Region} {before : Behind} {word type : Token} (named : word.text = "new")
      (basic : type.isBasicType) : Spells region before (plain [word, type]) .other [] []
  | newType {region : Region} {before : Behind} {word : Token} {path : List Token}
      (named : word.text = "new") (created : Created path) :
      Spells region before (plain (word :: path)) .newType [] []
  | annotationName {region : Region} {before : Behind} {sign : Token} {path : List Token}
      (signed : sign.text = "@")
      (named : ∀ token ∈ path, token.isIdentifier ∨ token.text = ".") :
      Spells region before (plain (sign :: path)) .annotationName [] []
  /-- A name with arguments. -/
  | call {region : Region} {inner : Behind} {name opening closing : Token}
      {text : List Written} {given : List Node} {made : Call} {slips : List Slip}
      (named : name.isIdentifier) (opens : opening.text = "(") (closes : closing.text = ")")
      (place : region = .code ∨ region = .value) (name_eq : made.name = name.text)
      (inside : Spells .value .other text inner given slips) :
      Spells region .other
        (⟨name, none⟩ :: ⟨opening, none⟩ :: (text ++ [⟨closing, some name.text⟩])) .other
        [bare (.call made) given] slips
  /-- A name with type arguments in front and arguments behind. -/
  | genericCall {region : Region} {inner : Behind} {dot sign name opening closing : Token}
      {arguments : List Token} {text : List Written} {given : List Node} {made : Call}
      {slips : List Slip}
      (dotted : dot.text = ".") (signed : sign.text = "<") (typed : Angled (sign :: arguments))
      (named : name.isIdentifier) (opens : opening.text = "(") (closes : closing.text = ")")
      (place : region = .code ∨ region = .value)
      (inside : Spells .value .other text inner given slips) :
      Spells region .name
        (plain (dot :: sign :: arguments) ++
          ⟨name, none⟩ :: ⟨opening, none⟩ :: (text ++ [⟨closing, some name.text⟩]))
        .other [bare (.call made) given]
        (slips ++ if made.name = name.text then [] else [.renamed])
  | parentheses {region : Region} {before inner after : Behind} {opening closing : Token}
      {text : List Written} {nodes : List Node} {slips : List Slip}
      (opens : opening.text = "(") (closes : closing.text = ")")
      (place : region.parenthesised before = some after)
      (inside : Spells .code .other text inner nodes slips) :
      Spells region before (⟨opening, none⟩ :: (text ++ [⟨closing, none⟩])) after nodes slips
  | braces {region held : Region} {before inner : Behind} {opening closing : Token}
      {text : List Written} {nodes : List Node} {slips : List Slip}
      (opens : opening.text = openBrace) (closes : closing.text = closeBrace)
      (place : region.braced before = some held)
      (inside : Spells held .other text inner nodes slips) :
      Spells region before (⟨opening, none⟩ :: (text ++ [⟨closing, none⟩])) .other nodes slips
  /-- A class, an interface or an annotation type. -/
  | typeBody {region : Region} {before inner : Behind} {word name opening closing : Token}
      {header : List Token} {text : List Written} {nodes : List Node} {slips : List Slip}
      (declares : word.text = "class" ∨ word.text = "interface") (named : name.isIdentifier)
      (flat : ∀ token ∈ header, token.text ∉ structural)
      (opens : opening.text = openBrace) (closes : closing.text = closeBrace)
      (inside : Spells .members .other text inner nodes slips) :
      Spells region before
        (plain (word :: name :: (header ++ [opening])) ++ text ++ plain [closing]) .other nodes
        slips
  /-- An enum: its constants, and members behind a semicolon. -/
  | enumBody {region : Region} {before inner outer : Behind} {word name opening closing : Token}
      {header separator : List Token} {text more : List Written} {nodes others : List Node}
      {slips later : List Slip}
      (declares : word.text = "enum") (named : name.isIdentifier)
      (flat : ∀ token ∈ header, token.text ∉ structural)
      (opens : opening.text = openBrace) (closes : closing.text = closeBrace)
      (constants : Spells .constants .other text inner nodes slips)
      (separated : separator.map Token.text = [";"] ∨ separator = [] ∧ more = [])
      (members : Spells .members .other more outer others later) :
      Spells region before
        (plain (word :: name :: (header ++ [opening])) ++ text ++ plain separator ++ more ++
          plain [closing])
        .other (nodes ++ others) (slips ++ later)
  /-- The initial values of a field, or the default of an annotation element. -/
  | initial {before inner : Behind} {word semicolon : Token} {text : List Written}
      {nodes : List Node} {slips : List Slip}
      (opens : word.text = "=" ∨ before = .parameters ∧ word.text = "default")
      (closes : semicolon.text = ";") (inside : Spells .value .other text inner nodes slips) :
      Spells .members before (⟨word, none⟩ :: (text ++ [⟨semicolon, none⟩])) .other nodes slips
  | value {before after : Behind} {text : List Written} {nodes : List Node} {slips : List Slip}
      (expression : Spells .value before text after nodes slips) :
      Spells .code before text after nodes slips
  | wrap {region : Region} {before after : Behind} {text : List Written} {nodes : List Node}
      {node : Node} {slips : List Slip} (inside : Spells region before text after nodes slips)
      (wraps : node.Wraps nodes) : Spells region before text after [node] slips
  /-- A method with its body. -/
  | method {before middle inner : Behind} {text body : List Written} {header : MethodHeader}
      {annotations parameters nodes : List Node} {opening closing : Token}
      {slips later : List Slip}
      (head : Spells .members before text middle (annotations ++ parameters) slips)
      (opens : opening.text = openBrace) (closes : closing.text = closeBrace)
      (inside : Spells .code .other body inner nodes later) :
      Spells .members before (text ++ ⟨opening, none⟩ :: (body ++ [⟨closing, none⟩])) .other
        [.method header annotations parameters nodes] (slips ++ later)
  /-- A primary with the selectors behind it. -/
  | chain {region : Region} {before middle after : Behind} {text more : List Written}
      {link : Link} {parts selectors : List Node} {slips later : List Slip}
      (head : Spells region before text middle [bare link parts] slips)
      (behind : Spells region middle more after selectors later)
      (flat : ∀ selector ∈ selectors, selector.isBare) :
      Spells region before (text ++ more) after [.primary link parts selectors] (slips ++ later)
  /-- An expression in parentheses with selectors behind them. -/
  | parenthesised {region : Region} {inner after : Behind} {opening closing : Token}
      {text more : List Written} {node : Node} {selectors : List Node} {slips later : List Slip}
      (opens : opening.text = "(") (closes : closing.text = ")")
      (place : region = .code ∨ region = .value)
      (inside : Spells .value .other text inner [node] slips)
      (behind : Spells region .other more after selectors later)
      (flat : ∀ selector ∈ selectors, selector.isBare) :
      Spells region .other (⟨opening, none⟩ :: (text ++ ⟨closing, none⟩ :: more)) after
        [withSelectors selectors node] (slips ++ later ++ parenthesisSlips node selectors)
  | loop {before inner outer : Behind} {word again opening closing : Token}
      {text more : List Written} {body condition : Node} {slips later : List Slip}
      (starts : word.text = "do") (repeats : again.text = "while") (opens : opening.text = "(")
      (closes : closing.text = ")") (first : Spells .code .other text inner [body] slips)
      (second : Spells .code .other more outer [condition] later) :
      Spells .code before
        (⟨word, none⟩ :: (text ++ plain [again, opening] ++ more ++ plain [closing])) .other
        [.group .doStatement [condition, body]] (slips ++ later ++ loopSlips body condition)
  /-- The parameter of a handler, which keeps no annotations. -/
  | caught {before middle : Behind} {word opening closing : Token} {path : List Token}
      {text : List Written} {nodes : List Node} {types : List String} {name : String}
      {slips : List Slip}
      (starts : word.text = "catch") (opens : opening.text = "(") (closes : closing.text = ")")
      (inside : Spells .code .other text middle nodes slips)
      (marked : nodes = [] ∨ ∃ written ∈ text, written.token.text = "@") (typed : Angled path) :
      Spells .code before
        (⟨word, none⟩ :: ⟨opening, none⟩ :: (text ++ plain path ++ plain [closing])) .other
        [.caught types name] (slips ++ if callNames nodes = [] then [] else [.dropped])
  /-- Tokens that are left out.  Goals may be nested as deep as the tokens allow. -/
  | astray {region : Region} {depth : Nat} {read later : List Token}
      (deep : 3 * (read ++ later).length ≤ depth)
      (strays : IsAstray (Grammar.meet depth) (read ++ later) read later) :
      Spells region .other (plain read) .other [] [.astray (read ++ later)]
  /-- The control of a loop, some of which is left out. -/
  | astrayControl {before inner : Behind} {depth : Nat} {word opening closing : Token}
      {read later : List Token} {text : List Written} {nodes : List Node} {slips : List Slip}
      (deep : 3 * (word :: opening :: (read ++ later)).length ≤ depth)
      (strays : IsAstray (Grammar.meet depth) (word :: opening :: (read ++ later)) read later)
      (opens : opening.text = "(") (closes : closing.text = ")")
      (inside : Spells .code .other text inner nodes slips) :
      Spells .code before (plain (word :: opening :: read) ++ text ++ plain [closing]) .other nodes
        (.astray (word :: opening :: (read ++ later)) :: slips)

/-! ## Calls of nodes and of texts -/

@[simp]
theorem callNames_nil : callNames [] = [] :=
  rfl

@[simp]
theorem callNames_append (nodes others : List Node) :
    callNames (nodes ++ others) = callNames nodes ++ callNames others := by
  simp [callNames, callSitesAll_append]

theorem callNames_cons (node : Node) (nodes : List Node) :
    callNames (node :: nodes) = callNames [node] ++ callNames nodes := by
  rw [← callNames_append, List.singleton_append]

theorem Node.Wraps.callNames_eq {node : Node} {nodes : List Node} (wraps : node.Wraps nodes) :
    callNames [node] = callNames nodes := by
  have silent : node.link?.toList.flatMap (Link.site []) = [] := by
    have none_eq := wraps.call?_eq
    match node with
    | .primary (.call made) _ _ => cases none_eq
    | .primary .this _ _ | .primary (.name _ _) _ _ | .primary (.create _) _ _
    | .primary (.other _) _ _ => rfl
    | .type .. | .constant .. | .field .. | .method .. | .parameter .. | .variables ..
    | .caught .. | .group .. => rfl
  rw [callNames, callSitesAll, callSitesAll, List.append_nil, Node.callSites_eq, wraps.parts_eq,
    wraps.selectors_eq, silent, selectorSites, List.append_nil, List.append_nil, callNames]

theorem callNames_selectors {selectors : List Node} (flat : ∀ selector ∈ selectors, selector.isBare)
    (chain : List Link) :
    (selectorSites chain selectors).map (fun site => site.call.name) = callNames selectors := by
  induction selectors generalizing chain with
  | nil => rfl
  | cons selector rest ih =>
      obtain ⟨link, parts, rfl⟩ := Node.eq_primary_of_isBare (flat selector (by simp))
      have own : (link.site chain).map (fun site => site.call.name) =
          (link.site []).map fun site => site.call.name := by
        cases link <;> rfl
      rw [selectorSites, List.map_append, List.map_append, own,
        ih (fun other mem => flat other (by simp [mem])), callNames_cons]
      simp [callNames, callSitesAll, Node.callSites, selectorSites]

theorem callNames_primary (link : Link) (parts selectors : List Node) :
    callNames [.primary link parts selectors] =
      callNames [bare link parts] ++
        (selectorSites [link] selectors).map fun site => site.call.name := by
  simp [callNames, callSitesAll, Node.callSites, bare, selectorSites]

theorem callNames_call (made : Call) (given : List Node) :
    callNames [bare (.call made) given] = callNames given ++ [made.name] := by
  simp [callNames, callSitesAll, Node.callSites, bare, selectorSites, Link.site]

theorem callNames_parenthesised {node : Node} {selectors : List Node}
    (flat : ∀ selector ∈ selectors, selector.isBare)
    (clean : parenthesisSlips node selectors = []) :
    callNames [withSelectors selectors node] = callNames [node] ++ callNames selectors := by
  match node with
  | .primary link parts own =>
      have silent : selectorSites [link] own = [] := by
        simpa [parenthesisSlips] using clean
      rw [withSelectors, callNames_primary, callNames_primary, silent, callNames_selectors flat,
        List.map_nil, List.append_nil]
  | .type .. | .constant .. | .field .. | .method .. | .parameter .. | .variables .. | .caught ..
  | .group .. =>
      have silent : callNames selectors = [] := by simpa [parenthesisSlips] using clean
      rw [silent, List.append_nil, withSelectors]
      all_goals exact fun _ _ _ impossible => by cases impossible

theorem mem_parenthesisSlips {node : Node} {selectors : List Node} {slip : Slip}
    (mem : slip ∈ parenthesisSlips node selectors) :
    slip = .selectorsInside ∨ slip = .selectorsBehind := by
  unfold parenthesisSlips at mem
  split at mem <;> split at mem <;> simp_all

theorem callNames_method (header : MethodHeader) (annotations parameters body : List Node) :
    callNames [.method header annotations parameters body] =
      callNames annotations ++ callNames parameters ++ callNames body := by
  simp [callNames, callSitesAll, Node.callSites]

theorem callNames_loop (body condition : Node) :
    callNames [.group .doStatement [condition, body]] =
      callNames [condition] ++ callNames [body] := by
  simp [callNames, callSitesAll, Node.callSites]

/-- A way to compare names of calls that respects putting them together. -/
structure IsComparison (related : List String → List String → Prop) : Prop where
  refl : ∀ names, related names names
  trans : ∀ {names between others}, related names between → related between others →
    related names others
  append : ∀ {names others more further}, related names others → related more further →
    related (names ++ more) (others ++ further)

/-- If no calls are lost, the calls of the nodes are those of the text, in the order of
the text up to conditions that come first. -/
theorem Spells.compares {related : List String → List String → Prop}
    (comparison : IsComparison related) {region : Region} {before after : Behind}
    {text : List Written} {nodes : List Node} {slips : List Slip}
    (spelled : Spells region before text after nodes slips)
    (allowed : ∀ slip ∈ slips, slip = .conditionFirst ∧
      ∀ names others, related (names ++ others) (others ++ names)) :
    related (callNames nodes) (callsEnding text) := by
  induction spelled with
  | nil | token | classWord | newReference | newBasic | newType | annotationName =>
      simpa using comparison.refl []
  | append _ _ first second =>
      obtain ⟨left, right⟩ := List.forall_mem_append.1 allowed
      rw [callNames_append, callsEnding_append]
      exact comparison.append (first left) (second right)
  | call _ _ _ _ name_eq _ inside =>
      simpa [callNames_call, name_eq] using
        comparison.append (inside allowed) (comparison.refl _)
  | @genericCall _ _ _ _ name _ _ _ _ _ made _ _ _ _ _ _ _ _ _ inside =>
      obtain ⟨inner, own⟩ := List.forall_mem_append.1 allowed
      have name_eq : made.name = name.text := by
        by_contra other
        cases (own .renamed (by simp [other])).1
      simpa [callNames_call, name_eq] using
        comparison.append (inside inner) (comparison.refl _)
  | parentheses _ _ _ _ inside => simpa using inside allowed
  | braces _ _ _ _ inside => simpa using inside allowed
  | typeBody _ _ _ _ _ _ inside => simpa using inside allowed
  | enumBody _ _ _ _ _ _ _ _ constants members =>
      obtain ⟨left, right⟩ := List.forall_mem_append.1 allowed
      simpa using comparison.append (constants left) (members right)
  | initial _ _ _ inside => simpa using inside allowed
  | value _ inside => exact inside allowed
  | wrap _ wraps inside =>
      rw [wraps.callNames_eq]
      exact inside allowed
  | method _ _ _ _ head inside =>
      obtain ⟨left, right⟩ := List.forall_mem_append.1 allowed
      simpa [callNames_method] using comparison.append (head left) (inside right)
  | chain _ _ flat head behind =>
      obtain ⟨left, right⟩ := List.forall_mem_append.1 allowed
      rw [callNames_primary, callNames_selectors flat, callsEnding_append]
      exact comparison.append (head left) (behind right)
  | @parenthesised _ _ _ _ _ _ _ node selectors _ _ _ _ _ _ _ flat inside behind =>
      obtain ⟨both, own⟩ := List.forall_mem_append.1 allowed
      obtain ⟨left, right⟩ := List.forall_mem_append.1 both
      have clean : parenthesisSlips node selectors = [] := by
        rw [List.eq_nil_iff_forall_not_mem]
        intro slip mem
        rcases mem_parenthesisSlips mem with rfl | rfl <;> cases (own _ mem).1
      rw [callNames_parenthesised flat clean]
      simpa using comparison.append (inside left) (behind right)
  | @loop _ _ _ _ _ _ _ _ _ body condition _ _ _ _ _ _ _ _ first second =>
      obtain ⟨both, own⟩ := List.forall_mem_append.1 allowed
      obtain ⟨left, right⟩ := List.forall_mem_append.1 both
      have order : related (callNames [.group .doStatement [condition, body]])
          (callNames [body] ++ callNames [condition]) := by
        rw [callNames_loop]
        by_cases silent : callNames [body] = [] ∨ callNames [condition] = []
        · rcases silent with silent | silent <;> simpa [silent] using comparison.refl _
        · exact (own .conditionFirst (by simp [loopSlips, silent])).2 _ _
      simpa using comparison.trans order (comparison.append (first left) (second right))
  | @caught _ _ _ _ _ _ _ nodes _ _ _ _ _ _ _ _ _ inside =>
      obtain ⟨inner, own⟩ := List.forall_mem_append.1 allowed
      have silent : callNames nodes = [] := by
        by_contra some
        cases (own .dropped (by simp [some])).1
      have same := inside inner
      rw [silent] at same
      simpa [callNames, callSitesAll, Node.callSites] using same
  | astray | astrayControl => cases (allowed _ List.mem_cons_self).1

/-- Without slips, the calls of the nodes are the calls of the text. -/
theorem Spells.callNames_eq {region : Region} {before after : Behind} {text : List Written}
    {nodes : List Node} (spelled : Spells region before text after nodes []) :
    callNames nodes = callsEnding text :=
  spelled.compares ⟨fun _ => rfl, Eq.trans, fun first second => by rw [first, second]⟩ (by simp)

/-- Conditions that come first do no more than change the order. -/
theorem Spells.callNames_perm {region : Region} {before after : Behind} {text : List Written}
    {nodes : List Node} {slips : List Slip}
    (spelled : Spells region before text after nodes slips)
    (lossless : ∀ slip ∈ slips, slip = .conditionFirst) :
    (callNames nodes).Perm (callsEnding text) :=
  spelled.compares ⟨List.Perm.refl, List.Perm.trans, List.Perm.append⟩ fun slip mem =>
    ⟨lossless slip mem, fun _ _ => List.perm_append_comm⟩

/-! ## Bodies of methods -/

/-- If a node has a body with something in it, a stretch of a text in braces is read as the
body, with some of the given slips.  Only methods have a body. -/
def HasBody (text : List Written) (slips : List Slip) (node : Node) : Prop :=
  node.body ≠ [] → ∃ front opening body closing back inner own,
    text = front ++ plain [opening] ++ body ++ plain [closing] ++ back ∧
      opening.text = openBrace ∧ closing.text = closeBrace ∧ own ⊆ slips ∧
        Spells .code .other body inner node.body own

theorem HasBody.of_body_eq_nil {node : Node} (empty : node.body = []) (text : List Written)
    (slips : List Slip) : HasBody text slips node :=
  fun held => absurd empty held

theorem HasBody.within {text whole : List Written} {slips all : List Slip} {node : Node}
    (has : HasBody text slips node) (before behind : List Written)
    (whole_eq : whole = before ++ text ++ behind) (among : slips ⊆ all) :
    HasBody whole all node := by
  intro held
  obtain ⟨front, opening, body, closing, back, inner, own, rfl, opens, closes, kept, spelled⟩ :=
    has held
  exact ⟨before ++ front, opening, body, closing, back ++ behind, inner, own, by simp [whole_eq],
    opens, closes, List.Subset.trans kept among, spelled⟩

theorem mem_preorderAll_singleton_iff {node tree : Node} :
    node ∈ preorderAll [tree] ↔
      node = tree ∨ node ∈ preorderAll tree.selectors ∨ node ∈ preorderAll tree.parts := by
  simp [preorderAll, Node.preorder_eq tree]

theorem mem_preorderAll_withSelectors {node inside : Node} {selectors : List Node}
    (mem : node ∈ preorderAll [withSelectors selectors inside]) :
    node.body = [] ∨ node ∈ preorderAll [inside] ∨ node ∈ preorderAll selectors := by
  match inside with
  | .primary link parts own =>
      rw [withSelectors, mem_preorderAll_singleton_iff] at mem
      rcases mem with rfl | behind | below
      · exact .inl rfl
      · exact .inr (.inr behind)
      · exact .inr (.inl (mem_preorderAll_singleton_iff.2 (.inr (.inr below))))
  | .type .. | .constant .. | .field .. | .method .. | .parameter .. | .variables .. | .caught ..
  | .group .. => exact .inr (.inl mem)

/-- The body of every method among the nodes of a text is a stretch of the text. -/
theorem Spells.hasBody {region : Region} {before after : Behind} {text : List Written}
    {nodes : List Node} {slips : List Slip}
    (spelled : Spells region before text after nodes slips) {node : Node}
    (mem : node ∈ preorderAll nodes) : HasBody text slips node := by
  induction spelled with
  | nil | token | classWord | newReference | newBasic | newType | annotationName | astray => cases mem
  | append _ _ first second =>
      rw [preorderAll_append, List.mem_append] at mem
      rcases mem with left | right
      · exact (first left).within [] _ rfl (by simp)
      · exact (second right).within _ [] (List.append_nil _).symm (by simp)
  | call _ _ _ _ _ _ inside =>
      rcases mem_preorderAll_singleton_iff.1 mem with rfl | none | below
      · exact .of_body_eq_nil rfl _ _
      · cases none
      · exact (inside below).within [_, _] [_] rfl (by simp)
  | @genericCall _ _ dot sign name opening closing arguments _ _ _ _ _ _ _ _ _ _ _ _ inside =>
      rcases mem_preorderAll_singleton_iff.1 mem with rfl | none | below
      · exact .of_body_eq_nil rfl _ _
      · cases none
      · exact (inside below).within
          (plain (dot :: sign :: arguments) ++ [⟨name, none⟩, ⟨opening, none⟩])
          [⟨closing, some name.text⟩] (by simp) (by simp)
  | parentheses _ _ _ _ inside => exact (inside mem).within [_] [_] rfl (by simp)
  | braces _ _ _ _ inside => exact (inside mem).within [_] [_] rfl (by simp)
  | typeBody _ _ _ _ _ _ inside => exact (inside mem).within _ _ rfl (by simp)
  | @enumBody _ _ _ _ word name opening closing header separator _ more _ _ _ _ _ _ _ _ _ _ _ _
      constants members =>
      rw [preorderAll_append, List.mem_append] at mem
      rcases mem with left | right
      · exact (constants left).within (plain (word :: name :: (header ++ [opening])))
          (plain separator ++ more ++ plain [closing]) (by simp only [List.append_assoc]) (by simp)
      · exact (members right).within _ _ rfl (by simp)
  | initial _ _ _ inside => exact (inside mem).within [_] [_] rfl (by simp)
  | value _ inside => exact inside mem
  | wrap _ wraps inside =>
      rcases mem_preorderAll_singleton_iff.1 mem with rfl | behind | below
      · exact .of_body_eq_nil wraps.body_eq _ _
      · rw [wraps.selectors_eq] at behind
        cases behind
      · exact inside (wraps.parts_eq ▸ below)
  | @method _ _ inner text body _ _ _ _ opening closing _ later _ opens closes spelled head
      inside =>
      rcases mem_preorderAll_singleton_iff.1 mem with rfl | none | below
      · exact fun _ => ⟨text, opening, body, closing, [], inner, later, by simp [plain], opens,
          closes, by simp, spelled⟩
      · cases none
      · rw [Node.parts, preorderAll_append, List.mem_append] at below
        rcases below with left | right
        · exact (head left).within [] _ rfl (by simp)
        · exact (inside right).within (text ++ [⟨opening, none⟩]) [⟨closing, none⟩] (by simp)
            (by simp)
  | chain _ _ _ head behind =>
      rcases mem_preorderAll_singleton_iff.1 mem with rfl | selector | below
      · exact .of_body_eq_nil rfl _ _
      · exact (behind selector).within _ [] (List.append_nil _).symm (by simp)
      · exact (head (mem_preorderAll_singleton_iff.2 (.inr (.inr below)))).within [] _ rfl (by simp)
  | @parenthesised _ _ _ opening closing text _ _ _ _ _ _ _ _ _ _ _ inside behind =>
      rcases mem_preorderAll_withSelectors mem with empty | own | selector
      · exact .of_body_eq_nil empty _ _
      · exact (inside own).within [_] (_ :: _) rfl (by simp)
      · exact (behind selector).within (⟨opening, none⟩ :: (text ++ [⟨closing, none⟩])) [] (by simp)
          (by simp)
  | @loop _ _ _ word again opening closing text more _ _ _ _ _ _ _ _ _ _ first second =>
      rcases mem_preorderAll_singleton_iff.1 mem with rfl | none | below
      · exact .of_body_eq_nil rfl _ _
      · cases none
      · rw [Node.parts, ← List.singleton_append, preorderAll_append, List.mem_append] at below
        rcases below with condition | body
        · exact (second condition).within (⟨word, none⟩ :: (text ++ plain [again, opening]))
            (plain [closing]) (by simp) (by simp)
        · exact (first body).within [⟨word, none⟩]
            (plain [again, opening] ++ more ++ plain [closing]) (by simp) (by simp)
  | caught =>
      rcases mem_preorderAll_singleton_iff.1 mem with rfl | none | none
      · exact .of_body_eq_nil rfl _ _
      all_goals cases none
  | astrayControl _ _ _ _ _ inside => exact (inside mem).within _ _ rfl (by simp)

end JavaUml.Java
