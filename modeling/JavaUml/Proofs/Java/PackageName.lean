import JavaUml.Proofs.Java.Grammar.Unit

/-!
# Names of packages

The package of a unit that is read from a text is a path of identifiers, or empty if
none is declared.  An identifier has no other characters than those of words, and it
is not reserved.
-/

namespace JavaUml.Java

/-- A name as Java text spells it. -/
structure IsIdentifier (name : String) : Prop where
  isIdentifierPart : ∀ c ∈ name.toList, Text.isIdentifierPart c = true
  not_reserved : name ∉ reserved

/-- Identifiers with dots between them.  There are none in the unnamed package. -/
def IsPackageName (name : String) : Prop :=
  ∃ parts : List String, name = ".".intercalate parts ∧ ∀ part ∈ parts, IsIdentifier part

/-! ## Identifiers of a text -/

theorem isIdentifierPart_of_start {c : Char} (starts : Text.isIdentifierStart c = true) :
    Text.isIdentifierPart c = true := by
  simp only [Text.isIdentifierPart]
  split
  · rename_i ascii
    simp only [Text.isIdentifierStart, if_pos ascii, Bool.or_eq_true] at starts
    simp only [Bool.or_eq_true]
    tauto
  · simp [starts]

theorem isIdentifierPart_startingWith (c : Char) (starts : Text.isIdentifierStart c = true)
    (rest : List Char) :
    ∀ part ∈ (Word.startingWith c starts rest).text.toList, Text.isIdentifierPart part = true := by
  rw [Word.startingWith, String.toList_ofList, List.forall_mem_cons]
  exact ⟨isIdentifierPart_of_start starts, List.all_eq_true.1 List.all_takeWhile⟩

/-- An identifier is a word as it starts in the text. -/
theorem isIdentifierPart_of_takeToken {c : Char} {rest behind : List Char} {token : Token}
    (taken : takeToken c rest = .ok (some token, behind)) :
    ∀ name, token = .identifier name → ∀ part ∈ name.text.toList,
      Text.isIdentifierPart part = true := by
  rintro name rfl
  have operator : ∀ found, operator? (c :: rest) = some found → found.1 ≠ .identifier name := by
    rintro found found_eq
    obtain ⟨sign, _, rfl⟩ := Option.map_eq_some_iff.1 found_eq
    simp
  have word : ∀ starts, Token.ofWord (.startingWith c starts rest) = .identifier name →
      name = .startingWith c starts rest := by
    intro starts same
    grind [Token.ofWord]
  simp only [takeToken, Bind.bind, Except.bind] at taken
  by_cases starts : Text.isIdentifierStart c = true
  · have spelled := isIdentifierPart_startingWith c starts rest
    have same := word starts
    grind
  · rw [dif_neg starts] at taken
    cases found : operator? (c :: rest) with
    | none => grind
    | some sign =>
        have other := operator sign found
        grind

theorem isIdentifier_of_mem_tokens {text : String} {found : List Token} {name : Word}
    (cut : tokens text = .ok found) (mem : .identifier name ∈ found) : IsIdentifier name.text where
  isIdentifierPart := forall_mem_tokens isIdentifierPart_of_takeToken cut _ mem name rfl
  not_reserved := forall_mem_tokens isLexical_of_takeToken cut _ mem

/-! ## The package of a unit -/

namespace Grammar

/-- The result of a parser meets a condition, wherever in a text it is read. -/
def Gives {α : Type} (tokens : List Token) (parser : Parser α) (holds : α → Prop) : Prop :=
  ∀ place result later, place.tokens <:+ tokens → place.back <:+ tokens →
    parser place = .ok (result, later) → holds result

namespace Gives

variable {α β : Type} {tokens : List Token} {parser : Parser α} {next : α → Parser β}
  {middle : α → Prop} {holds : β → Prop}

theorem bind (stays : StaysIn tokens parser) (first : Gives tokens parser middle)
    (second : ∀ result, middle result → Gives tokens (next result) holds) :
    Gives tokens (parser >>= next) holds := by
  intro place result later inside back ran
  simp only [Bind.bind, StateT.bind, Except.bind] at ran
  split at ran
  · cases ran
  · rename_i reached reached_eq
    obtain ⟨inside_then, back_then⟩ := stays place reached.1 reached.2 inside back reached_eq
    exact second reached.1 (first place reached.1 reached.2 inside back reached_eq) reached.2
      result later inside_then back_then ran

theorem after (stays : StaysIn tokens parser)
    (second : ∀ result, Gives tokens (next result) holds) : Gives tokens (parser >>= next) holds :=
  have first : Gives tokens parser fun _ => True := fun _ _ _ _ _ _ => trivial
  bind stays first fun result _ => second result

theorem pure {result : β} (held : holds result) : Gives tokens (Pure.pure result) holds := by
  rintro place _ _ _ _ ⟨⟩
  exact held

theorem of_at {post : α → Prop} (lexical : AllLexical tokens)
    (reads : ∀ rest, rest <:+ tokens →
      At (rest.length + 1) rest parser fun result _ => post result) :
    Gives tokens parser post := by
  intro place result later inside back ran
  have reached := reads place.tokens inside (Nat.lt_succ_self _) (lexical.of_suffix inside)
    place.back
  rw [ran] at reached
  exact reached.1

end Gives

/-- A path of identifiers among tokens. -/
def IsPathOf (tokens : List Token) (name : String) : Prop :=
  ∃ words : List Word, name = ".".intercalate (words.map Word.text) ∧
    ∀ word ∈ words, .identifier word ∈ tokens

theorem isPathOf_qualifiedName {limit : Nat} (tokens : List Token) :
    At limit tokens qualifiedName fun name _ => IsPathOf tokens name := by
  have others : ∀ tokens, At limit tokens (whileHolds (accept ["."]) identifier) fun names _ =>
      ∃ words : List Word, names = words.map Word.text ∧
        ∀ word ∈ words, .identifier word ∈ tokens := by
    refine At.repeated (fun tokens => ⟨[], rfl, by simp⟩) fun dot tokens _ _ => ?_
    refine At.identifier.mono ?_
    rintro _ rest ⟨name, rfl, _, rfl⟩ _ _ ⟨words, rfl, among⟩
    refine ⟨name :: words, rfl, ?_⟩
    rw [List.forall_mem_cons]
    exact ⟨by simp, fun word mem => by simp [among word mem]⟩
  refine .bind (.naming ?_) fun _ _ path => .pure path
  rintro name tokens rfl _
  refine (others tokens).bind ?_
  rintro _ rest ⟨words, rfl, among⟩
  refine .pure ⟨name :: words, rfl, ?_⟩
  rw [List.forall_mem_cons]
  exact ⟨by simp, fun word mem => by simp [among word mem]⟩

/-- Without a declaration the package has no name, whatever is gone back to. -/
theorem gives_goBack (tokens : List Token) :
    Gives tokens (do goTo (← get).back; return ("", ([] : List Node))) fun found =>
      IsPathOf tokens found.1 := by
  rintro place _ _ _ _ ⟨⟩
  exact ⟨[], rfl, by simp⟩

theorem gives_packageDeclaration {tokens : List Token} (lexical : AllLexical tokens) :
    Gives tokens packageDeclaration fun found => IsPathOf tokens found.1 := by
  have finish : ∀ found : List Node, Gives tokens
      (do
        if ← accept ["package"] then
          let name ← qualifiedName
          expect ";"
          return (name, found)
        else
          goTo (← get).back
          return ("", [])) fun found => IsPathOf tokens found.1 := by
    intro found
    refine .after (.of_at lexical fun _ => At.accept.mono fun _ _ _ => trivial) ?_
    rintro (_ | _)
    · exact gives_goBack tokens
    · refine .of_at lexical fun rest inside => ?_
      refine (isPathOf_qualifiedName rest).bind ?_
      rintro name _ ⟨words, rfl, among⟩
      exact .expecting fun _ _ _ _ _ =>
        .pure ⟨words, rfl, fun word mem => inside.subset (among word mem)⟩
  refine .after (.of_at lexical fun tokens =>
    (reads_annotationAhead tokens).mono fun _ _ _ => trivial) ?_
  rintro (_ | _)
  · exact finish []
  · dsimp only
    rw [if_pos rfl, ← bind_assoc]
    refine .after (.of_at lexical fun tokens => ?_) finish
    refine (reads_rulesHere tokens).bind ?_
    rintro rules tokens ⟨rfl, meets⟩
    exact (reads_annotations (meets _ (Nat.le_refl _)) tokens).mono fun _ _ _ => trivial

theorem gives_unitHeader {tokens : List Token} (lexical : AllLexical tokens) :
    Gives tokens unitHeader fun found => IsPathOf tokens found.1 := by
  refine .bind (staysIn_packageDeclaration lexical) (gives_packageDeclaration lexical) ?_
  rintro ⟨package, annotations⟩ path
  refine .after (staysIn_imports lexical) fun imports => ?_
  exact .pure path

end Grammar

/-- The package of a unit that is read from a text is a path of identifiers. -/
theorem isPackageName_of_parse {text : String} {unit : CompilationUnit}
    (parsed : parse text = .ok unit) : IsPackageName unit.package := by
  obtain ⟨found, cut, lexical, read⟩ := parse_eq_ok parsed
  obtain ⟨header, place, _, header_eq, _, package_eq⟩ := Grammar.unitOf_eq_ok read
  obtain ⟨words, name_eq, among⟩ := Grammar.gives_unitHeader lexical (.start found) header place
    (List.suffix_refl found) (List.suffix_refl found) header_eq
  refine ⟨words.map Word.text, package_eq.trans name_eq, ?_⟩
  rw [List.forall_mem_map]
  exact fun word mem => isIdentifier_of_mem_tokens cut (among word mem)

/-! ## Characters -/

theorem mem_toList_intercalate {c : Char} {parts : List String}
    (mem : c ∈ (".".intercalate parts).toList) : c = '.' ∨ ∃ part ∈ parts, c ∈ part.toList := by
  induction parts with
  | nil => cases mem
  | cons first rest ih =>
      cases rest with
      | nil => exact .inr ⟨first, by simp, by simpa using mem⟩
      | cons second rest =>
          rw [String.intercalate_cons_cons] at mem
          simp only [String.toList_append, List.mem_append] at mem
          rcases mem with (own | dot) | later
          · exact .inr ⟨first, by simp, own⟩
          · exact .inl (by simpa using dot)
          · exact (ih later).imp_right fun ⟨part, among, held⟩ =>
              ⟨part, List.mem_cons_of_mem _ among, held⟩

/-- The characters of a package name are dots and those of words. -/
theorem IsPackageName.eq_dot_or_isIdentifierPart {name : String} (named : IsPackageName name)
    {c : Char} (mem : c ∈ name.toList) : c = '.' ∨ Text.isIdentifierPart c = true := by
  obtain ⟨parts, rfl, spelled⟩ := named
  exact (mem_toList_intercalate mem).imp_right fun ⟨part, among, held⟩ =>
    (spelled part among).isIdentifierPart c held

/-- A package name without a dot is not reserved. -/
theorem IsPackageName.not_reserved {name : String} (named : IsPackageName name)
    (declared : name ≠ "") (undotted : '.' ∉ name.toList) : name ∉ reserved := by
  obtain ⟨parts, rfl, spelled⟩ := named
  match parts with
  | [] => exact absurd rfl declared
  | [part] => simpa using (spelled part (by simp)).not_reserved
  | first :: second :: rest =>
      rw [String.intercalate_cons_cons] at undotted
      simp at undotted

end JavaUml.Java
