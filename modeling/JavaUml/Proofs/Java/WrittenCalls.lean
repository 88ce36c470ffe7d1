import JavaUml.Proofs.Java.Grammar.Unit
import Mathlib.Data.List.Infix

/-!
# The calls of a method and the calls in its text

The body of every method of a unit that is parsed is a stretch of the tokens of the
unit.  Without slips, the calls recorded for the method are the calls written there, in
the order in which they end.  Where the condition of a loop comes first they are the
same calls in another order.  Any other slip is due to something in the text.

In a text that neither declares nor creates anything, which calls are written can be
told from parentheses alone: those behind a name are the arguments of a call.
-/

namespace JavaUml.Java

/-! ## Calls told by their parentheses -/

/-- The names in front of parentheses, in the order in which these close.  The list of
open ones holds the names of those that stand behind one. -/
def closedCalls : Option Token → List (Option String) → List Token → List String
  | _, _, [] => []
  | front, pending, token :: rest =>
      if token.text = "(" then
        closedCalls (some token) ((front.filter Token.isIdentifier).map Token.text :: pending) rest
      else if token.text = ")" then
        pending.head?.join.toList ++ closedCalls (some token) pending.tail rest
      else closedCalls (some token) pending rest

/-- Words behind which a name in front of parentheses is not called. -/
def declaringWords : List String :=
  ["new", "@", "class", "interface", "enum"]

section

variable {front : Option Token} {pending : List (Option String)} {token : Token}
  {tokens rest : List Token}

theorem closedCalls_open (opens : token.text = "(") :
    closedCalls front pending (token :: rest) =
      closedCalls (some token) ((front.filter Token.isIdentifier).map Token.text :: pending) rest := by
  rw [closedCalls, if_pos opens]

theorem closedCalls_close {name : Option String} (closes : token.text = ")") :
    closedCalls front (name :: pending) (token :: rest) =
      name.toList ++ closedCalls (some token) pending rest := by
  rw [closedCalls, closes, if_neg (by decide), if_pos rfl]
  rfl

theorem closedCalls_quiet (quiet : ∀ token ∈ tokens, token.text ≠ "(" ∧ token.text ≠ ")") :
    closedCalls front pending (tokens ++ rest) =
      closedCalls (lastBehind front tokens) pending rest := by
  induction tokens generalizing front with
  | nil => rfl
  | cons token more ih =>
      rw [List.forall_mem_cons] at quiet
      rw [List.cons_append, closedCalls, if_neg quiet.1.1, if_neg quiet.1.2, ih quiet.2, lastBehind]

end

/-- What stands behind a text that declares and creates nothing. -/
def Behind.IsSimple (behind : Behind) : Prop :=
  behind = .other ∨ behind = .name ∨ behind = .word

/-- The token in front of a text is a name only if it is known to be one. -/
def Behind.Tells (behind : Behind) (front : Option Token) : Prop :=
  behind ≠ .name → front.any Token.isIdentifier = false

/-- The calls that end in a text are those told by its parentheses. -/
structure Scans (text : List Written) (after : Behind) (front : Option Token) : Prop where
  simple : after.IsSimple
  tells : after.Tells (lastBehind front (text.map Written.token))
  closed : ∀ pending rest, closedCalls front pending (text.map Written.token ++ rest) =
    callsEnding text ++ closedCalls (lastBehind front (text.map Written.token)) pending rest

theorem Scans.append {text more : List Written} {middle after : Behind} {front : Option Token}
    (first : Scans text middle front)
    (second : Scans more after (lastBehind front (text.map Written.token))) :
    Scans (text ++ more) after front where
  simple := second.simple
  tells := by simpa using second.tells
  closed pending rest := by
    rw [List.map_append, List.append_assoc, first.closed, second.closed, callsEnding_append,
      lastBehind_append, List.append_assoc]

theorem Scans.of_quiet {tokens : List Token} {after : Behind} {front : Option Token}
    (quiet : ∀ token ∈ tokens, token.text ≠ "(" ∧ token.text ≠ ")") (simple : after.IsSimple)
    (tells : after.Tells (lastBehind front tokens)) : Scans (plain tokens) after front where
  simple := simple
  tells := by simpa using tells
  closed pending rest := by
    rw [map_token_plain, closedCalls_quiet quiet, callsEnding_plain, List.nil_append]

theorem Behind.tells_of_text (behind : Behind) {token : Token} (lexical : token.IsLexical)
    {text : String} (text_eq : token.text = text) (known : reserved.contains text = true) :
    behind.Tells (some token) := by
  intro _
  exact lexical.not_isIdentifier text_eq known

/-- A text in parentheses, which end a call if a name stands in front of them. -/
theorem Scans.parenthesised {text : List Written} {inner : Behind} {front : Option Token}
    {opening closing : Token} (name : Option String) (opens : opening.text = "(")
    (closes : closing.text = ")") (lexical : closing.IsLexical)
    (named : (front.filter Token.isIdentifier).map Token.text = name)
    (inside : Scans text inner (some opening)) :
    Scans (⟨opening, none⟩ :: (text ++ [⟨closing, name⟩])) .other front where
  simple := .inl rfl
  tells := by
    simpa [lastBehind] using Behind.tells_of_text .other lexical closes (by decide)
  closed pending rest := by
    simp only [List.map_cons, List.map_append, List.map_nil, List.cons_append, List.append_assoc,
      List.nil_append]
    rw [closedCalls_open opens, named, inside.closed, closedCalls_close closes]
    simp [lastBehind]

theorem Scans.of_token {token : Token} {after : Behind} {front : Option Token}
    (quiet : token.text ≠ "(" ∧ token.text ≠ ")") (simple : after.IsSimple)
    (tells : after.Tells (some token)) : Scans [⟨token, none⟩] after front :=
  @of_quiet [token] after front (by simpa using quiet) simple tells

/-- A name, which a parenthesis may follow. -/
theorem Scans.of_name {name : Token} (front : Option Token) (named : name.isIdentifier)
    (lexical : name.IsLexical) : Scans [⟨name, none⟩] .name front := by
  refine .of_token ⟨?_, ?_⟩ (.inr (.inl rfl)) fun other => absurd rfl other
  · intro opens
    rw [lexical.not_isIdentifier opens (by decide)] at named
    cases named
  · intro closes
    rw [lexical.not_isIdentifier closes (by decide)] at named
    cases named

/-- A reserved word or a sign other than a parenthesis. -/
theorem Scans.of_sign {token : Token} (front : Option Token) {text : String}
    (text_eq : token.text = text) (lexical : token.IsLexical)
    (known : reserved.contains text = true) (quiet : text ≠ "(" ∧ text ≠ ")") :
    Scans [⟨token, none⟩] .other front := by
  refine .of_token ?_ (.inl rfl) (Behind.tells_of_text _ lexical text_eq known)
  rwa [text_eq]

theorem Angled.noParentheses {tokens : List Token} (angled : Angled tokens) :
    ∀ token ∈ tokens, token.text ≠ "(" ∧ token.text ≠ ")" := by
  intro token mem
  have quiet := angled.quiet token mem
  constructor
  · rintro opens
    exact quiet (opens ▸ by decide)
  · rintro closes
    exact quiet (closes ▸ by decide)

theorem Behind.tells_next (behind : Behind) (token : Token) :
    (behind.next token).Tells (some token) := by
  unfold Tells next
  intro other
  by_contra named
  simp_all

theorem Behind.IsSimple.next {behind : Behind} (simple : behind.IsSimple) (token : Token) :
    (behind.next token).IsSimple := by
  unfold Behind.next IsSimple
  rcases simple with rfl | rfl | rfl <;> grind

theorem unnamed_of_any {front : Option Token}
    (apart : front.any Token.isIdentifier = false) :
    (front.filter Token.isIdentifier).map Token.text = none := by
  cases front with
  | none => rfl
  | some token => simp_all

/-- A token as it is cut from a text, other than the words that declare or create. -/
structure Token.IsOrdinary (token : Token) : Prop where
  lexical : token.IsLexical
  plainly : token.text ∉ declaringWords

theorem Token.IsOrdinary.text_ne {token : Token} (ordinary : token.IsOrdinary) {word : String}
    (declares : word ∈ declaringWords) : token.text ≠ word := by
  rintro rfl
  exact ordinary.plainly declares

/-- The parentheses around a text that starts behind the first of them. -/
theorem Scans.enclosed {text : List Written} {inner : Behind} {front : Option Token}
    {opening closing : Token} (name : Option String) (opens : opening.text = "(")
    (closes : closing.text = ")")
    (ordinary : ∀ written ∈ ⟨opening, none⟩ :: (text ++ [⟨closing, name⟩]),
      written.token.IsOrdinary)
    (named : (front.filter Token.isIdentifier).map Token.text = name)
    (inside : (∀ written ∈ text, written.token.IsOrdinary) →
      ∀ {front}, Behind.other.Tells front → Scans text inner front) :
    Scans (⟨opening, none⟩ :: (text ++ [⟨closing, name⟩])) .other front := by
  rw [List.forall_mem_cons, List.forall_mem_append, List.forall_mem_singleton] at ordinary
  obtain ⟨first, within, last⟩ := ordinary
  exact .parenthesised name opens closes last.lexical named
    (inside within (Behind.tells_of_text _ first.lexical opens (by decide)))

/-- A name and the arguments behind it. -/
theorem Scans.called {text : List Written} {inner : Behind} (front : Option Token)
    {name opening closing : Token} (named : name.isIdentifier) (opens : opening.text = "(")
    (closes : closing.text = ")")
    (ordinary : ∀ written ∈ ⟨name, none⟩ :: ⟨opening, none⟩ ::
      (text ++ [⟨closing, some name.text⟩]), written.token.IsOrdinary)
    (inside : (∀ written ∈ text, written.token.IsOrdinary) →
      ∀ {front}, Behind.other.Tells front → Scans text inner front) :
    Scans (⟨name, none⟩ :: ⟨opening, none⟩ :: (text ++ [⟨closing, some name.text⟩])) .other
      front := by
  rw [List.forall_mem_cons] at ordinary
  exact (of_name front named ordinary.1.lexical).append
    (.enclosed (some name.text) opens closes ordinary.2 (by simp [lastBehind, named]) inside)

/-- Where nothing is left out, declared or created, the calls that end in a text are told
by its parentheses. -/
theorem Spells.scans {region : Region} {before after : Behind} {text : List Written}
    {nodes : List Node} {slips : List Slip}
    (spelled : Spells region before text after nodes slips)
    (straight : ∀ slip ∈ slips, slip.isAstray = false)
    (ordinary : ∀ written ∈ text, written.token.IsOrdinary)
    (place : region = .code ∨ region = .value) (simple : before.IsSimple) {front : Option Token}
    (tells : before.Tells front) : Scans text after front := by
  induction spelled generalizing front with
  | nil => exact ⟨simple, tells, fun _ _ => rfl⟩
  | append _ _ first second =>
      obtain ⟨early, late⟩ := List.forall_mem_append.1 straight
      obtain ⟨left, right⟩ := List.forall_mem_append.1 ordinary
      have scanned := first early left place simple tells
      exact scanned.append (second late right place scanned.simple scanned.tells)
  | token allowed =>
      refine .of_token ?_ (simple.next _) (Behind.tells_next _ _)
      simp only [Region.allows, Bool.and_eq_true, Bool.not_eq_true'] at allowed
      constructor
      all_goals
        intro parenthesis
        rw [parenthesis] at allowed
        cases allowed.1.1
  | @classWord _ _ _ word _ named _ =>
      exact absurd named ((ordinary ⟨word, none⟩ (by simp [plain])).text_ne (by decide))
  | @newReference _ _ _ word _ _ _ named =>
      exact absurd named ((ordinary ⟨word, none⟩ (by simp [plain])).text_ne (by decide))
  | @newBasic _ _ word _ named _ =>
      exact absurd named ((ordinary ⟨word, none⟩ (by simp [plain])).text_ne (by decide))
  | @newType _ _ word _ named _ =>
      exact absurd named ((ordinary ⟨word, none⟩ (by simp [plain])).text_ne (by decide))
  | @annotationName _ _ sign _ signed _ =>
      exact absurd signed ((ordinary ⟨sign, none⟩ (by simp [plain])).text_ne (by decide))
  | @typeBody _ _ _ word _ _ _ _ _ _ _ declares =>
      have plainly := ordinary ⟨word, none⟩ (by simp [plain])
      rcases declares with declares | declares
      · exact absurd declares (plainly.text_ne (by decide))
      · exact absurd declares (plainly.text_ne (by decide))
  | @enumBody _ _ _ _ word _ _ _ _ _ _ _ _ _ _ _ declares =>
      exact absurd declares ((ordinary ⟨word, none⟩ (by simp [plain])).text_ne (by decide))
  | call named opens closes _ _ _ inside =>
      exact .called front named opens closes ordinary fun within =>
        inside straight within (.inr rfl) (.inl rfl)
  | @genericCall _ _ dot sign name opening closing arguments _ _ _ _ dotted signed typed named opens
      closes _ _ inside =>
      obtain ⟨_, behind⟩ := List.forall_mem_append.1 ordinary
      have path : Scans (plain (dot :: sign :: arguments)) .name front := by
        refine .of_quiet ?_ (.inr (.inl rfl)) fun other => absurd rfl other
        rw [List.forall_mem_cons]
        exact ⟨by simp [dotted], typed.noParentheses⟩
      exact path.append (.called _ named opens closes behind fun within =>
        inside (List.forall_mem_append.1 straight).1 within (.inr rfl) (.inl rfl))
  | @parentheses _ before _ after _ _ _ _ _ opens closes allowed _ inside =>
      have apart : before ≠ .name ∧ after = .other := by
        rcases place with rfl | rfl <;> rcases simple with rfl | rfl | rfl <;> cases allowed <;>
          exact ⟨by decide, rfl⟩
      rw [apart.2]
      exact .enclosed none opens closes ordinary (unnamed_of_any (tells apart.1)) fun within =>
        inside straight within (.inl rfl) (.inl rfl)
  | @braces _ held _ _ opening closing _ _ _ opens closes allowed _ inside =>
      have code : held = .code := by
        rcases place with rfl | rfl <;> rcases simple with rfl | rfl | rfl <;> cases allowed <;> rfl
      rw [List.forall_mem_cons, List.forall_mem_append, List.forall_mem_singleton] at ordinary
      obtain ⟨first, within, last⟩ := ordinary
      have started := Scans.of_sign front opens first.lexical (by decide) (by decide)
      have scanned := inside straight within (.inl code) (.inl rfl) started.tells
      exact started.append
        (scanned.append (.of_sign _ closes last.lexical (by decide) (by decide)))
  | initial | method => rcases place with impossible | impossible <;> cases impossible
  | value _ inside => exact inside straight ordinary (.inr rfl) simple tells
  | wrap _ _ inside => exact inside straight ordinary place simple tells
  | chain _ _ _ head behind =>
      obtain ⟨early, late⟩ := List.forall_mem_append.1 straight
      obtain ⟨left, right⟩ := List.forall_mem_append.1 ordinary
      have scanned := head early left place simple tells
      exact scanned.append (behind late right place scanned.simple scanned.tells)
  | @parenthesised _ _ _ opening closing text _ _ _ _ _ opens closes _ _ _ _ inside behind =>
      obtain ⟨early, late⟩ := List.forall_mem_append.1 (List.forall_mem_append.1 straight).1
      have operand : Scans (⟨opening, none⟩ :: (text ++ [⟨closing, none⟩])) .other front :=
        .enclosed none opens closes (fun written mem => ordinary written (by grind [plain]))
          (unnamed_of_any (tells (by decide))) fun within =>
            inside early within (.inr rfl) (.inl rfl)
      have selected := behind late (fun written mem => ordinary written (by simp [mem])) place
        (.inl rfl) operand.tells
      simpa using operand.append selected
  | @loop _ _ _ word again opening closing text more _ _ _ _ starts repeats opens closes _ _ first
      second =>
      obtain ⟨early, late⟩ := List.forall_mem_append.1 (List.forall_mem_append.1 straight).1
      have started := Scans.of_sign front starts (ordinary ⟨word, none⟩ (by simp)).lexical
        (by decide) (by decide)
      have body := first early (fun written mem => ordinary written (by simp [mem])) (.inl rfl)
        (.inl rfl) started.tells
      have repeated := Scans.of_sign (lastBehind (some word) (text.map Written.token)) repeats
        (ordinary ⟨again, none⟩ (by simp [plain])).lexical (by decide) (by decide)
      have condition : Scans (⟨opening, none⟩ :: (more ++ [⟨closing, none⟩])) .other
          (some again) :=
        .enclosed none opens closes (fun written mem => ordinary written (by grind [plain]))
          (unnamed_of_any (repeated.tells (by decide))) fun within =>
            second late within (.inl rfl) (.inl rfl)
      simpa [plain] using started.append (body.append (repeated.append condition))
  | @caught _ _ _ _ _ path text _ _ _ _ starts opens closes _ _ typed inside =>
      obtain ⟨first, behind⟩ := List.forall_mem_cons.1 ordinary
      have started := Scans.of_sign front starts first.lexical (by decide) (by decide)
      have parameter : (∀ written ∈ text ++ plain path, written.token.IsOrdinary) →
          ∀ {front}, Behind.other.Tells front → Scans (text ++ plain path) .name front := by
        intro within _ opened
        have scanned := inside (List.forall_mem_append.1 straight).1
          (List.forall_mem_append.1 within).1 (.inl rfl) (.inl rfl) opened
        exact scanned.append
          (.of_quiet typed.noParentheses (.inr (.inl rfl)) fun other => absurd rfl other)
      exact started.append (.enclosed none opens closes behind
        (unnamed_of_any (started.tells (by decide))) parameter)
  | astray | astrayControl => cases straight _ List.mem_cons_self

/-! ## Choices that go back -/

theorem not_strays {α : Type} {alternative : Grammar.Parser α} {read later : List Token}
    (stops : read ++ later ≠ [] →
      alternative (.start (read ++ later)) = .error (.mismatch (read ++ later))) :
    ¬Strays alternative read later := by
  rintro ⟨some_read, given⟩
  rw [stops fun none_left => some_read (List.append_eq_nil_iff.1 none_left).1] at given
  have kept := Grammar.Failure.mismatch.inj (Except.error.inj given)
  exact some_read (List.append_left_eq_self.1 kept)

/-- The first alternatives are given up where they start, whatever the rules that they use
further in. -/
def Stops (tokens : List Token) : Prop :=
  ∀ rules, Grammar.lambda rules (.start tokens) = .error (.mismatch tokens) ∧
    Grammar.cast rules (.start tokens) = .error (.mismatch tokens) ∧
      Grammar.localVariables rules (.start tokens) = .error (.mismatch tokens)

theorem not_goesAstray {tokens : List Token} (stops : tokens ≠ [] → Stops tokens)
    (unlooped : ∀ token ∈ tokens, token.text ≠ "for") : ¬GoesAstray tokens := by
  rintro ⟨depth, read, later, -, astray⟩
  cases astray with
  | lambda strays => exact not_strays (fun held => (stops held _).1) strays
  | cast strays => exact not_strays (fun held => (stops held _).2.1) strays
  | localVariables _ _ strays => exact not_strays (fun held => (stops held _).2.2) strays
  | declaringControl starts => exact unlooped _ List.mem_cons_self starts

/-! ## Recorded calls -/

/-- Call sites are those of a text, up to slips that can be traced to the text and to the
tokens that it is a stretch of. -/
structure Records (whole : List Token) (text : List Written) (sites : List CallSite)
    (slips : List Slip) : Prop where
  /-- Without slips they are the calls of the text, in the order in which they end. -/
  ordered : slips = [] → sites.map (fun site => site.call.name) = callsEnding text
  /-- Conditions that come first change the order and nothing else. -/
  lossless : (∀ slip ∈ slips, slip = .conditionFirst) →
    (sites.map fun site => site.call.name).Perm (callsEnding text)
  traced : Traced slips whole
  possible : (∀ slip ∈ slips, slip.isAstray = false) →
    ∀ slip ∈ slips, slip.isPossible none (text.map Written.token) = true
  /-- Where nothing is declared or created, parentheses tell the calls of the text. -/
  told : (∀ slip ∈ slips, slip.isAstray = false) →
    (∀ written ∈ text, written.token.text ∉ declaringWords) →
      callsEnding text = closedCalls none [] (text.map Written.token)

theorem Spells.records {text : List Written} {after : Behind} {nodes : List Node}
    {slips : List Slip} (spelled : Spells .code .other text after nodes slips)
    {whole : List Token} (lexical : ∀ written ∈ text, written.token.IsLexical)
    (traced : Traced slips whole) : Records whole text (callSitesAll nodes) slips where
  ordered none_slips := by
    subst none_slips
    exact spelled.callNames_eq
  lossless := spelled.callNames_perm
  traced := traced
  possible straight := (spelled.shows straight lexical fun _ => rfl).possible
  told straight plainly := by
    have tells : Behind.other.Tells none := fun _ => rfl
    have scanned := spelled.scans straight
      (fun written mem => ⟨lexical written mem, plainly written mem⟩) (.inl rfl) (.inl rfl) tells
    have closed := scanned.closed [] []
    rw [List.append_nil] at closed
    rw [closed, closedCalls, List.append_nil]

/-- Where no choice goes astray, no slip is possible, and nothing is declared or created,
the parentheses of a text tell what is recorded for it. -/
theorem Records.names_eq {whole : List Token} {text : List Written} {sites : List CallSite}
    {slips : List Slip} (records : Records whole text sites slips)
    (straight : ∀ stretch, stretch <:+ whole → ¬GoesAstray stretch)
    (clean : ∀ slip : Slip, slip.isAstray = false →
      slip.isPossible none (text.map Written.token) = false)
    (plainly : ∀ written ∈ text, written.token.text ∉ declaringWords) :
    sites.map (fun site => site.call.name) = closedCalls none [] (text.map Written.token) := by
  have kept : ∀ slip ∈ slips, slip.isAstray = false := by
    intro slip mem
    cases slip with
    | astray stretch =>
        obtain ⟨within, strays⟩ := records.traced stretch mem
        exact absurd strays (straight stretch within)
    | _ => rfl
  have none_slips : slips = [] := by
    refine List.eq_nil_iff_forall_not_mem.2 fun slip mem => ?_
    have possible := records.possible kept slip mem
    rw [clean slip (kept slip mem)] at possible
    cases possible
  rw [records.ordered none_slips, records.told kept plainly]

/-- The body of every method of a parsed unit that holds something is a stretch of its tokens
in braces, and the calls recorded for it are those written there, up to slips. -/
theorem recorded_calls_of_parse {text : String} {unit : CompilationUnit}
    (parsed : parse text = .ok unit) {method : Node} (mem : method ∈ preorderAll unit.types)
    (held : method.body ≠ []) :
    ∃ front opening body closing back after slips,
      tokens text = .ok (front ++ opening :: (body.map Written.token ++ closing :: back)) ∧
        opening.text = openBrace ∧ closing.text = closeBrace ∧
          Spells .code .other body after method.body slips ∧
            Records (front ++ opening :: (body.map Written.token ++ closing :: back)) body
              method.bodySites slips := by
  obtain ⟨found, cut, lexical, built⟩ := parse_eq_ok parsed
  obtain ⟨rest, ⟨header, rfl⟩, written, slips, rfl, spelled, traced⟩ :=
    Grammar.reads_unitOf lexical built
  obtain ⟨front, opening, body, closing, back, after, own, rfl, opens, closes, among, inside⟩ :=
    spelled.hasBody mem held
  have found_eq : header ++ ((front ++ plain [opening] ++ body ++ plain [closing] ++ back).map
      Written.token ++ []) = header ++ front.map Written.token ++
        opening :: (body.map Written.token ++ closing :: back.map Written.token) := by
    simp [plain]
  rw [found_eq] at cut lexical
  refine ⟨_, opening, body, closing, _, after, own, cut, opens, closes, inside,
    inside.records (fun written mem => ?_) fun stretch mem => ?_⟩
  · have within := List.mem_map_of_mem (f := Written.token) mem
    exact lexical written.token (by simp [within])
  · obtain ⟨within, strays⟩ := traced stretch (among mem)
    exact ⟨found_eq ▸ within.trans (List.suffix_append ..), strays⟩

theorem exists_of_eq_ok {ε α : Type} {outcome : Except ε α} {holds : α → Prop}
    [DecidablePred holds] (found : outcome.toOption.any (fun value => decide (holds value)) = true) :
    ∃ value, outcome = .ok value ∧ holds value := by
  cases outcome with
  | error fault => cases found
  | ok value => exact ⟨value, rfl, of_decide_eq_true found⟩

/-- A call with another one among its arguments and a third one behind it. -/
def chainedText : String :=
  "class T \x7b void m() \x7b a(b()).c(); \x7d \x7d"

def chainedTokens : List Token :=
  let name (word : Word) : Token := .identifier word
  [.keyword "class", name ⟨"T", by decide, by decide⟩, .sign openBrace, .keyword "void",
    name ⟨"m", by decide, by decide⟩, .sign "(", .sign ")", .sign openBrace,
    name ⟨"a", by decide, by decide⟩, .sign "(", name ⟨"b", by decide, by decide⟩, .sign "(",
    .sign ")", .sign ")", .sign ".", name ⟨"c", by decide, by decide⟩, .sign "(", .sign ")",
    .sign ";", .sign closeBrace, .sign closeBrace]

theorem straight_chainedTokens (stretch : List Token) (within : stretch <:+ chainedTokens) :
    ¬GoesAstray stretch := by
  have unlooped : ∀ token ∈ chainedTokens, token.text ≠ "for" := by decide
  have stops : ∀ stretch ∈ chainedTokens.tails, stretch ≠ [] → Stops stretch := by
    simp only [chainedTokens, List.tails, List.forall_mem_cons]
    repeat' apply And.intro
    all_goals first
      | exact fun _ _ => ⟨rfl, rfl, rfl⟩
      | simp
  exact not_goesAstray (stops stretch ((List.mem_tails ..).2 within)) fun token mem =>
    unlooped token (within.subset mem)

theorem recorded_calls_chainedText :
    ∃ unit method, parse chainedText = .ok unit ∧ method ∈ preorderAll unit.types ∧
      method.bodySites.map (fun site => site.call.name) = ["b", "a", "c"] ∧
        ∃ front opening body closing back,
          tokens chainedText = .ok (front ++ opening :: (body ++ closing :: back)) ∧
            opening.text = openBrace ∧ closing.text = closeBrace ∧
              closedCalls none [] body = ["b", "a", "c"] := by
  obtain ⟨unit, parsed, method, mem, held, names⟩ : ∃ unit, parse chainedText = .ok unit ∧
      ∃ method ∈ preorderAll unit.types, method.body ≠ [] ∧
        method.bodySites.map (fun site => site.call.name) = ["b", "a", "c"] :=
    exists_of_eq_ok (by decide +kernel)
  obtain ⟨front, opening, body, closing, back, _, slips, cut, opens, closes, -, records⟩ :=
    recorded_calls_of_parse parsed mem held
  have whole : front ++ opening :: (body.map Written.token ++ closing :: back) = chainedTokens :=
    Except.ok.inj (cut.symm.trans (by decide +kernel))
  have clean : ∀ stretch ∈ chainedTokens.tails, stretch.head?.map Token.text = some openBrace →
      (∀ slip ∈ [Slip.renamed, .selectorsInside, .selectorsBehind, .conditionFirst, .dropped],
        slip.isPossible none stretch.tail = false) ∧
      ∀ token ∈ stretch.tail, token.text ∉ declaringWords := by decide +kernel
  obtain ⟨impossible, plainly⟩ :=
    clean _ ((List.mem_tails ..).2 ⟨front, whole⟩) (congrArg some opens)
  refine ⟨unit, method, parsed, mem, names, front, opening, _, closing, back, cut, opens, closes,
    (records.names_eq ?_ (fun slip kept => ?_) fun written mem => ?_).symm.trans names⟩
  · rw [whole]
    exact straight_chainedTokens
  · refine Bool.eq_false_iff.2 fun possible => ?_
    have spread := Slip.isPossible_append_left possible (closing :: back)
    rw [List.tail_cons] at impossible
    rw [impossible slip (by cases slip <;> simp_all [Slip.isAstray])] at spread
    cases spread
  · exact plainly _ (List.mem_append_left _ (List.mem_map_of_mem mem))

/-- A loop whose condition is tested behind its body. -/
def doLoopText : String :=
  "class T \x7b void m() \x7b do \x7b body(); \x7d while (check()); \x7d \x7d"

/-- The condition of the loop ends last and is recorded first. -/
theorem recorded_calls_doLoopText :
    ∃ unit, parse doLoopText = .ok unit ∧
      (∃ method ∈ preorderAll unit.types,
        method.bodySites.map (fun site => site.call.name) = ["check", "body"]) ∧
      ((tokens doLoopText).map fun found => closedCalls none [] (found.drop 8)) =
        .ok ["body", "check"] :=
  exists_of_eq_ok (by decide +kernel)

end JavaUml.Java
