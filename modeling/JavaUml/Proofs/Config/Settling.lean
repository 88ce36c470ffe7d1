import JavaUml.Proofs.Config.Evolution
import JavaUml.Proofs.Config.FixedPoint
import Mathlib.Data.Nat.Digits.Defs

/-!
# Resolving documents with shared parts

A round writes into the mappings that it reads, and a mapping may stand in many
places.  Each step of a round lets the parts evolve, so whatever place one looks
at, the tree that it holds keeps its shape.  And as long as no step reports a
change, all trees stay as they are, so that a round is silent exactly if it meets
no text that a substitution would change.  A document on which rounds settle is
therefore one that further rounds keep.

Two kinds of documents cannot be resolved: those in which a part stands inside
itself, and those in which a text refers to a number too long to be written.
-/

namespace JavaUml.Config

/-! ## Texts -/

/-- What may become of a text in a round that reports a change or none. -/
def Became (changed : Bool) (text replaced : String) : Prop :=
  MayBecome text replaced ∧ (changed = false → text = replaced)

theorem Became.refl (changed : Bool) (text : String) : Became changed text text :=
  ⟨mayBecome_refl text, fun _ => rfl⟩

theorem mayBecome_trans (text middle last : String) (first : MayBecome text middle)
    (second : MayBecome middle last) : MayBecome text last := by
  intro closed
  have same := first closed
  rw [← same] at closed
  rw [second closed, same]

theorem Became.trans {changed : Bool} (text middle last : String)
    (first : Became changed text middle) (second : Became changed middle last) :
    Became changed text last :=
  ⟨mayBecome_trans _ _ _ first.1 second.1, fun silent => (first.2 silent).trans (second.2 silent)⟩

theorem Became.weaken {changed more : Bool} (implied : changed = true → more = true)
    (text replaced : String) (became : Became changed text replaced) :
    Became more text replaced := by
  refine ⟨became.1, fun silent => became.2 ?_⟩
  cases changed with
  | false => rfl
  | true => rw [implied rfl] at silent; cases silent

theorem Scalar.isUnwritable_whole_iff {value : Int} :
    (Scalar.number (.whole value)).isUnwritable ↔ 10 ^ Text.greatestDigits ≤ value.natAbs := by
  have length : (toString value.natAbs).length = (Nat.toDigits 10 value.natAbs).length :=
    String.length_ofList
  rw [isUnwritable, decide_eq_true_iff, length, ← Nat.not_le,
    Nat.length_toDigits_le_iff (by decide) (by decide), Nat.not_lt]

/-- A text with its references to a configuration replaced. -/
def replaced (config : Setting) (text : String) : String :=
  String.ofList (substitute (referenceText? config) text.toList)

theorem became_replaced (config : Setting) (text : String) :
    Became (replaced config text ≠ text) text (replaced config text) := by
  refine ⟨fun closed => ?_, fun same => ?_⟩
  · rw [replaced, substitute_of_not_infix _ closed, String.ofList_toList]
  · exact (of_decide_eq_false same |> not_not.1).symm

theorem reference?_eq_some {text name rest : List Char}
    (found : reference? text = some (name, rest)) : text = name ++ '\x7d' :: rest := by
  have parts : text.takeWhile isNamePart ++ text.dropWhile isNamePart = text :=
    List.takeWhile_append_dropWhile
  unfold reference? at found
  split at found
  · cases found
  · rename_i after _
    rw [after] at parts
    simp only [Option.some.injEq, Prod.mk.injEq] at found
    rw [← parts, found.1, found.2]
  · cases found

/-- Without names a text stays as it is. -/
theorem substitute_none (text : List Char) : substitute (fun _ => none) text = text := by
  induction size : text.length using Nat.strong_induction_on generalizing text with
  | _ size ih =>
      subst size
      have shorter {rest : List Char} (less : rest.length < text.length) := ih _ less rest rfl
      rcases text with _ | ⟨c, rest⟩
      · exact substitute_nil _
      by_cases dollar : c = '$'
      · subst dollar
        by_cases noBrace : rest.head? ≠ some '\x7b'
        · rw [substitute_dollar _ noBrace, shorter (by simp)]
        obtain ⟨after, rfl⟩ := List.head?_eq_some_iff.1 (not_not.1 noBrace)
        rw [substitute_eq, List.takeWhile_cons_of_neg (by decide),
          List.dropWhile_cons_of_neg (by decide), List.nil_append, reopened]
        split
        · rename_i name rest named
          have less := length_of_reference? named
          rw [shorter (by simp; omega), reference?_eq_some named]
          exact written_append name rest
        · rw [shorter (by simp)]
      · rw [substitute_cons_of_ne _ dollar, shorter (by simp)]

/-- A text refers to something in a configuration that cannot be written. -/
def Refuses (config : Setting) (text : String) : Prop :=
  Parts.refersTo (fun name => (config.named? name).any (!·.isWritable)) text.toList = true

theorem not_refuses {config : Setting} (writable : NamesWritable config) (text : String) :
    ¬ Refuses config text := by
  have none_unwritable : (fun name => if (config.named? name).any (!·.isWritable) then some ""
      else none) = fun _ => none := by
    funext name
    cases named : config.named? name with
    | none => rfl
    | some setting => simp [writable name setting named]
  rw [Refuses, Parts.refersTo, none_unwritable, substitute_none]
  simp

namespace Parts

/-- Work gives something with a property, or a condition holds under which it may
fail at what cannot be written. -/
def Gives {α : Type} (work : Working α) (parts : Parts) (failing : Prop)
    (property : α → Parts → Prop) : Prop :=
  (failing ∧ work.run parts = .error .unwritable) ∨
    ∃ result after, work.run parts = .ok (result, after) ∧ property result after

theorem Gives.pure {α : Type} {result : α} {parts : Parts} {failing : Prop}
    {property : α → Parts → Prop} (holds : property result parts) :
    Gives (pure result) parts failing property :=
  .inr ⟨result, parts, rfl, holds⟩

theorem Gives.bind {α β : Type} {work : Working α} {next : α → Working β} {parts : Parts}
    {failing : Prop} {middle : α → Parts → Prop} {property : β → Parts → Prop}
    (first : Gives work parts failing middle)
    (second : ∀ result after, middle result after → Gives (next result) after failing property) :
    Gives (work >>= next) parts failing property := by
  rcases first with ⟨fails, ran⟩ | ⟨result, after, ran, holds⟩
  · refine .inl ⟨fails, ?_⟩
    rw [StateT.run_bind, ran]
    rfl
  · rw [Gives, StateT.run_bind, ran]
    exact second result after holds

theorem Gives.mono {α : Type} {work : Working α} {parts : Parts} {failing other : Prop}
    {property : α → Parts → Prop} (gives : Gives work parts failing property)
    (implied : failing → other) : Gives work parts other property :=
  gives.imp_left fun fails => ⟨implied fails.1, fails.2⟩

theorem Gives.of_run_eq {α : Type} {work other : Working α} {parts : Parts} {failing : Prop}
    {property : α → Parts → Prop} (same : work.run parts = other.run parts)
    (gives : Gives other parts failing property) : Gives work parts failing property := by
  rw [Gives, same]
  exact gives

theorem Gives.modify {update : Parts → Parts} {parts : Parts} {failing : Prop}
    {property : Unit → Parts → Prop} (holds : property () (update parts)) :
    Gives (modify update) parts failing property :=
  .inr ⟨(), update parts, rfl, holds⟩

theorem replace_run {parts : Parts} {root : Item} {config : Setting}
    (holds : parts.Holds root config) {text : String} (accepted : ¬ Refuses config text) :
    (replace root text).run parts = .ok (replaced config text, parts) := by
  have names : parts.named? root = config.named? := funext holds.named?
  have silent : refersTo (fun name => (config.named? name).any (!·.isWritable)) text.toList =
      false := Bool.eq_false_iff.2 accepted
  have texts : (fun name => (config.named? name).map Setting.display) = referenceText? config :=
    funext config.display_named?
  simp [replace, names, silent, texts, replaced]
  rfl

theorem replace_run_of_refersTo {parts : Parts} {root : Item} {text : String}
    (refers : refersTo (fun name => (parts.named? root name).any (!·.isWritable)) text.toList) :
    (replace root text).run parts = .error .unwritable := by
  rw [replace, StateT.run_bind, StateT.run_get, pure_bind]
  simp only [refers, if_true]
  rfl

theorem replace_run_of_refuses {parts : Parts} {root : Item} {config : Setting}
    (holds : parts.Holds root config) {text : String} (refuses : Refuses config text) :
    (replace root text).run parts = .error .unwritable := by
  have names : parts.named? root = config.named? := funext holds.named?
  exact replace_run_of_refersTo (names ▸ refuses)

end Parts

/-! ## What a round meets -/

/-- A round meets a text in a setting.  Of several keys of one form it meets the
value of the first. -/
inductive Setting.Visits : Setting → String → Prop
  | text (value : String) : Visits (.scalar (.text value)) value
  | item {items : List Setting} {item : Setting} {leaf : String} (mem : item ∈ items)
      (below : Visits item leaf) : Visits (.sequence items) leaf
  | entry {entries : Entries} {key : Scalar} {value : Setting} {leaf : String}
      (found : Ordered.getBy? Scalar.keyForm key entries = some value)
      (below : Visits value leaf) : Visits (.mapping entries) leaf

/-- No text that a round meets in a setting changes or cannot be replaced. -/
def Setting.IsSettledIn (setting config : Setting) : Prop :=
  ∀ leaf, setting.Visits leaf → replaced config leaf = leaf ∧ ¬ Refuses config leaf

/-- Why a round may fail: not all is settled, and some name stands for what cannot
be written. -/
def MayFail (config : Setting) (settled : Prop) : Prop :=
  ¬ NamesWritable config ∧ ¬ settled

theorem isSettledIn_text_iff {config : Setting} {value : String} :
    (Setting.scalar (.text value)).IsSettledIn config ↔
      replaced config value = value ∧ ¬ Refuses config value := by
  constructor
  · intro settled
    exact settled value (.text value)
  · rintro same leaf ⟨⟩
    exact same

theorem isSettledIn_sequence_iff {config : Setting} {items : List Setting} :
    (Setting.sequence items).IsSettledIn config ↔
      ∀ item ∈ items, item.IsSettledIn config := by
  constructor
  · intro settled item mem leaf below
    exact settled leaf (.item mem below)
  · rintro each leaf ⟨⟩
    rename_i mem below
    exact each _ mem leaf below

theorem isSettledIn_mapping_iff {config : Setting} {entries : Entries} :
    (Setting.mapping entries).IsSettledIn config ↔
      ∀ key ∈ entries.map Prod.fst, ∀ value,
        Ordered.getBy? Scalar.keyForm key entries = some value →
          value.IsSettledIn config := by
  constructor
  · intro settled key _ value found leaf below
    exact settled leaf (.entry found below)
  · rintro each leaf ⟨⟩
    rename_i key value found below
    obtain ⟨known, same, mem⟩ := Ordered.mem_of_getBy? found
    rw [← Ordered.getBy?_congr same] at found
    exact each known (List.mem_map_of_mem mem) value found leaf below

theorem isSettledIn_of_isFixed {config setting : Setting} (isFixed : setting.isFixed) :
    setting.IsSettledIn config := by
  rintro leaf ⟨⟩
  all_goals simp [Setting.isFixed] at isFixed

/-! ## One round -/

namespace Parts

/-! ### Steps -/

variable {root : Item} {depth number : Nat} {parts : Parts}

theorem run_expandKeys_cons {expand : Item → Working (Item × Bool)} {key : Scalar} {item : Item}
    (value : parts.value? number key = some item) (keys : List Scalar) :
    (expandKeys expand number (key :: keys)).run parts =
      (expand item >>= fun result => modify (write number key result.1) >>= fun _ =>
        expandKeys expand number keys >>= fun more => pure (result.2 || more)).run parts := by
  rw [expandKeys, StateT.run_bind, StateT.run_get, pure_bind]
  simp only [value]

theorem run_expandKeys_cons_of_none {expand : Item → Working (Item × Bool)} {key : Scalar}
    (value : parts.value? number key = none) (keys : List Scalar) :
    (expandKeys expand number (key :: keys)).run parts =
      (expandKeys expand number keys).run parts := by
  rw [expandKeys, StateT.run_bind, StateT.run_get, pure_bind]
  simp only [value]

theorem run_expand_sequence {items : List Item}
    (found : parts[number]? = some (.sequence items)) :
    (expand root (depth + 1) (.part number)).run parts =
      (expandItems (expand root depth) items >>= fun result =>
        modifyGet (fun parts =>
          ((.part parts.size, result.2), parts.push (.sequence result.1)))).run parts := by
  rw [expand, StateT.run_bind, StateT.run_get, pure_bind]
  simp only [found]
  rfl

theorem run_expand_mapping {entries : List (Scalar × Item)}
    (found : parts[number]? = some (.mapping entries)) :
    (expand root (depth + 1) (.part number)).run parts =
      (expandKeys (expand root depth) number (entries.map Prod.fst) >>= fun changed =>
        pure (.part number, changed)).run parts := by
  rw [expand, StateT.run_bind, StateT.run_get, pure_bind]
  simp only [found]

/-- Pairs and sets stay as they are. -/
theorem run_expand_fixed {setting : Setting} (holds : parts.Holds (.part number) setting)
    (isFixed : setting.isFixed) :
    (expand root (depth + 1) (.part number)).run parts =
      (pure (.part number, false) : Working (Item × Bool)).run parts := by
  rw [expand, StateT.run_bind, StateT.run_get, pure_bind]
  cases holds with
  | sequence | mapping => simp [Setting.isFixed] at isFixed
  | pair found | members found => simp only [found]

/-! ### Places -/

/-- What one round on a place does that holds a setting. -/
structure Expanded (config setting : Setting) (before : Parts) (item : Item)
    (result : Item × Bool) (after : Parts) : Prop where
  evolves : before.Evolves (Became result.2) after
  replaces : after.Replaces (Became result.2) item result.1
  silent_iff : result.2 = false ↔ setting.IsSettledIn config

/-- A round on places that hold trees of at most the given height. -/
def Expands (root : Item) (depth : Nat) (expand : Item → Working (Item × Bool)) : Prop :=
  ∀ {parts item setting config}, parts.Holds item setting → setting.height ≤ depth →
    parts.Holds root config →
      Gives (expand item) parts (MayFail config (setting.IsSettledIn config))
        (Expanded config setting parts item)

theorem expandKeys_gives {root : Item} {depth : Nat} {expand : Item → Working (Item × Bool)}
    (each : Expands root depth expand) {number : Nat} (keys : List Scalar) {parts : Parts}
    {settings : Entries} {config : Setting}
    (holds : parts.Holds (.part number) (.mapping settings))
    (low : (Setting.mapping settings).height ≤ depth + 1)
    (root_holds : parts.Holds root config) :
    Gives (expandKeys expand number keys) parts
      (MayFail config (∀ key ∈ keys, ∀ setting,
        Ordered.getBy? Scalar.keyForm key settings = some setting → setting.IsSettledIn config))
      fun changed after => parts.Evolves (Became changed) after ∧
        (changed = false ↔ ∀ key ∈ keys, ∀ setting,
          Ordered.getBy? Scalar.keyForm key settings = some setting →
            setting.IsSettledIn config) := by
  induction keys generalizing parts settings config with
  | nil => exact .pure ⟨.refl _ _, by simp⟩
  | cons key keys ih =>
      have values := holds.value? key
      generalize value : parts.value? number key = place at values
      generalize setting_found : Ordered.getBy? Scalar.keyForm key settings = old at values
      cases values with
      | none =>
          refine .of_run_eq (run_expandKeys_cons_of_none value keys) ?_
          simpa [setting_found] using ih holds low root_holds
      | @some item setting item_holds =>
          have setting_low : setting.height ≤ depth := by
            obtain ⟨known, _, mem⟩ := Ordered.mem_of_getBy? setting_found
            exact Setting.height_mapping_le_iff.1 low _ mem
          simp only [List.forall_mem_cons, setting_found, Option.some.injEq, forall_eq']
          refine .of_run_eq (run_expandKeys_cons value keys)
            (.bind ((each item_holds setting_low root_holds).mono fun fails => ?_) ?_)
          · exact ⟨fails.1, fun settled => fails.2 settled.1⟩
          rintro ⟨replaced, changed⟩ middle ⟨evolves, replaces, silent_iff⟩
          have written {failing : Prop} : Gives (modify (write number key replaced)) middle failing
              fun _ after => parts.Evolves (Became changed) after :=
            .modify (evolves.write value replaces)
          refine .bind written fun _ after evolves => ?_
          obtain ⟨current, holds_after, like⟩ := evolves.holds (Became.refl _) holds (.same _)
          obtain ⟨config_after, root_after, config_like⟩ :=
            evolves.holds (Became.refl _) root_holds (.same _)
          cases like with
          | @mapping _ currents current_keys current_each =>
          have like := Resembles.mapping current_keys current_each
          -- If the value is settled, then the rest sees what was there before.
          have unchanged (silent : changed = false) : settings = currents ∧ config = config_after :=
            ⟨Setting.mapping.inj (like.eq fun _ _ texts => texts.2 silent),
              config_like.eq fun _ _ texts => texts.2 silent⟩
          refine .bind ((ih holds_after (like.height_le low) root_after).mono fun fails => ?_) ?_
          · refine ⟨fun writable => fails.1 (writable.of_resembles config_like), fun settled => ?_⟩
            obtain ⟨rfl, rfl⟩ := unchanged (silent_iff.2 settled.1)
            exact fails.2 settled.2
          rintro more last ⟨evolves_more, more_iff⟩
          refine .pure ⟨?_, ?_⟩
          · exact (evolves.mono (Became.weaken (by simp +contextual))).trans Became.trans
              (evolves_more.mono (Became.weaken (by simp +contextual)))
          · rw [Bool.or_eq_false_iff]
            constructor
            · rintro ⟨silent, more_silent⟩
              obtain ⟨rfl, rfl⟩ := unchanged silent
              exact ⟨silent_iff.1 silent, more_iff.1 more_silent⟩
            · rintro ⟨settled, rest_settled⟩
              obtain ⟨rfl, rfl⟩ := unchanged (silent_iff.2 settled)
              exact ⟨silent_iff.2 settled, more_iff.2 rest_settled⟩

theorem expandItems_gives {root : Item} {depth : Nat} {expand : Item → Working (Item × Bool)}
    (each : Expands root depth expand) {items : List Item} {parts : Parts}
    {settings : List Setting} {config : Setting} (holds : List.Forall₂ parts.Holds items settings)
    (low : ∀ setting ∈ settings, setting.height ≤ depth)
    (root_holds : parts.Holds root config) :
    Gives (expandItems expand items) parts
      (MayFail config (∀ setting ∈ settings, setting.IsSettledIn config))
      fun result after => parts.Evolves (Became result.2) after ∧
        List.Forall₂ (after.Replaces (Became result.2)) items result.1 ∧
          (result.2 = false ↔ ∀ setting ∈ settings, setting.IsSettledIn config) := by
  induction items generalizing parts settings config with
  | nil =>
      cases holds
      exact .pure ⟨.refl _ _, .nil, by simp⟩
  | cons item items ih =>
      cases holds with
      | @cons _ setting _ settings item_holds holds =>
      rw [List.forall_mem_cons] at low
      simp only [List.forall_mem_cons]
      refine .bind ((each item_holds low.1 root_holds).mono fun fails => ?_) ?_
      · exact ⟨fails.1, fun settled => fails.2 settled.1⟩
      rintro ⟨replaced, changed⟩ middle ⟨evolves, replaces, silent_iff⟩
      obtain ⟨config_after, root_after, config_like⟩ :=
        evolves.holds (Became.refl _) root_holds (.same _)
      obtain ⟨currents, holds_after, like⟩ := evolves.holds_each (Became.refl _) holds
      have low_after : ∀ current ∈ currents, current.height ≤ depth := by
        intro current mem
        obtain ⟨setting, setting_mem, here⟩ := exists_mem_of_forall₂ like mem
        exact here.height_le (low.2 setting setting_mem)
      have unchanged (silent : changed = false) : settings = currents ∧ config = config_after :=
        ⟨Setting.sequence.inj ((Resembles.sequence like).eq fun _ _ texts => texts.2 silent),
          config_like.eq fun _ _ texts => texts.2 silent⟩
      refine .bind ((ih holds_after low_after root_after).mono fun fails => ?_) ?_
      · refine ⟨fun writable => fails.1 (writable.of_resembles config_like), fun settled => ?_⟩
        obtain ⟨rfl, rfl⟩ := unchanged (silent_iff.2 settled.1)
        exact fails.2 settled.2
      rintro ⟨others, more⟩ last ⟨evolves_more, replaces_more, more_iff⟩
      refine .pure ⟨?_, ?_, ?_⟩
      · exact (evolves.mono (Became.weaken (by simp +contextual))).trans Became.trans
          (evolves_more.mono (Became.weaken (by simp +contextual)))
      · refine .cons ?_ (replaces_more.imp fun _ _ here => ?_)
        · exact replaces.mono (Became.weaken (by simp +contextual)) fun _ _ found =>
            evolves_more.sequence found
        · exact here.mono (Became.weaken (by simp +contextual)) fun _ _ found => found
      · rw [Bool.or_eq_false_iff]
        constructor
        · rintro ⟨silent, more_silent⟩
          obtain ⟨rfl, rfl⟩ := unchanged silent
          exact ⟨silent_iff.1 silent, more_iff.1 more_silent⟩
        · rintro ⟨settled, rest_settled⟩
          obtain ⟨rfl, rfl⟩ := unchanged (silent_iff.2 settled)
          exact ⟨silent_iff.2 settled, more_iff.2 rest_settled⟩

theorem Expanded.unchanged {config setting : Setting} {parts : Parts} {item : Item}
    (isFixed : setting.isFixed) : Expanded config setting parts item (item, false) parts where
  evolves := .refl _ _
  replaces := .same item
  silent_iff := iff_of_true rfl (isSettledIn_of_isFixed isFixed)

theorem expand_scalar_gives {root : Item} (depth : Nat) (value : Scalar) {parts : Parts}
    {config : Setting} (root_holds : parts.Holds root config) :
    Gives (expand root depth (.scalar value)) parts
      (MayFail config ((Setting.scalar value).IsSettledIn config))
      (Expanded config (.scalar value) parts (.scalar value)) := by
  cases value with
  | text value =>
      rw [isSettledIn_text_iff]
      by_cases refuses : Refuses config value
      · refine .inl ⟨⟨fun writable => ?_, fun settled => settled.2 refuses⟩, ?_⟩
        · exact not_refuses writable value refuses
        · rw [expand, StateT.run_bind, replace_run_of_refuses root_holds refuses]
          rfl
      · refine .inr ⟨(.scalar (.text (replaced config value)), replaced config value ≠ value),
          parts, ?_, .refl _ _, .text (became_replaced config value), ?_⟩
        · rw [expand, StateT.run_bind, replace_run root_holds refuses]
          rfl
        · rw [isSettledIn_text_iff]
          simp [refuses]
  | _ =>
      rw [expand]
      · exact .pure (.unchanged rfl)
      · simp

/-- A round on any place that holds a tree. -/
theorem expand_expands (root : Item) (depth : Nat) : Expands root depth (expand root depth) := by
  induction depth with
  | zero =>
      intro parts item setting config holds low root_holds
      cases holds with
      | scalar value => exact expand_scalar_gives _ value root_holds
      | _ => simp [Setting.height] at low
  | succ depth ih =>
      intro parts item setting config holds low root_holds
      cases holds with
      | scalar value => exact expand_scalar_gives _ value root_holds
      | @sequence number items settings found each =>
          rw [isSettledIn_sequence_iff]
          refine .of_run_eq (run_expand_sequence found) (.bind (expandItems_gives ih each
            (Setting.height_sequence_le_iff.1 low) root_holds) ?_)
          rintro ⟨others, changed⟩ after ⟨evolves, replaces, silent_iff⟩
          have grown := evolves.push (.sequence others)
          refine .inr ⟨_, _, rfl, grown, ?_, ?_⟩
          · refine .sequence (grown.sequence found) Array.getElem?_push_size ?_
            exact replaces.imp fun _ _ here => here.mono (fun _ _ texts => texts) fun _ _ found =>
              ((Evolves.refl (Became changed) after).push _).sequence found
          · rw [isSettledIn_sequence_iff]
            exact silent_iff
      | @mapping number entries settings found keys each =>
          rw [isSettledIn_mapping_iff, ← keys]
          refine .of_run_eq (run_expand_mapping found) (.bind (expandKeys_gives ih
            (entries.map Prod.fst) (.mapping found keys each) low root_holds) ?_)
          rintro changed after ⟨evolves, silent_iff⟩
          refine .pure ⟨evolves, .same _, ?_⟩
          rw [isSettledIn_mapping_iff, ← keys]
          exact silent_iff
      | pair found first_holds second_holds =>
          exact .of_run_eq (run_expand_fixed (.pair found first_holds second_holds) rfl)
            (.pure (.unchanged rfl))
      | members found =>
          exact .of_run_eq (run_expand_fixed (.members found) rfl) (.pure (.unchanged rfl))

end Parts

/-! ## All rounds -/

namespace Document

/-- One round on a document. -/
theorem round_gives {document : Document} {config : Setting} (holds : document.Holds config) :
    (MayFail config (config.IsSettledIn config) ∧ document.round = .error .unwritable) ∨
      ∃ result changed current, document.round = .ok (result, changed) ∧ result.Holds current ∧
        Resembles (Became changed) config current ∧
          (changed = false ↔ config.IsSettledIn config) := by
  have low := (Parts.Holds.height_le holds).trans (Nat.le_succ _)
  rcases Parts.expand_expands document.root document.depth holds low holds with
    ⟨fails, ran⟩ | ⟨⟨root, changed⟩, parts, ran, evolves, replaces, silent_iff⟩
  · refine .inl ⟨fails, ?_⟩
    rw [round, ran]
    rfl
  · obtain ⟨current, held, like⟩ := evolves.holds (Became.refl _) holds replaces
    refine .inr ⟨⟨parts, root⟩, changed, current, ?_, held, like, silent_iff⟩
    rw [round, ran]
    rfl

/-- A round on a document whose texts are settled is silent. -/
theorem round_of_isSettledIn {document : Document} {config : Setting}
    (holds : document.Holds config) (settled : config.IsSettledIn config) :
    ∃ result, document.round = .ok (result, false) ∧ result.Holds config := by
  rcases round_gives holds with ⟨fails, _⟩ | ⟨result, changed, current, ran, held, like, silent_iff⟩
  · exact absurd settled fails.2
  · obtain rfl := silent_iff.2 settled
    obtain rfl := like.eq fun _ _ texts => texts.2 rfl
    exact ⟨result, ran, held⟩

/-- Rounds on a document. -/
theorem rounds_gives (left : Nat) {document : Document} {config : Setting}
    (holds : document.Holds config) :
    (¬ NamesWritable config ∧ document.rounds left = .error .unwritable) ∨
      ∃ result settled current, document.rounds left = .ok (result, settled) ∧
        result.Holds current ∧ Resembles MayBecome config current ∧
          (settled = true → current.IsSettledIn current) := by
  induction left generalizing document config with
  | zero => exact .inr ⟨document, false, config, rfl, holds, .refl mayBecome_refl config, by simp⟩
  | succ left ih =>
      rcases round_gives holds with
        ⟨fails, ran⟩ | ⟨middle, changed, next, ran, held, like, silent_iff⟩
      · exact .inl ⟨fails.1, by rw [rounds, ran]; rfl⟩
      have like_next := like.mono fun _ _ texts => texts.1
      cases changed with
      | false =>
          refine .inr ⟨middle, true, next, by rw [rounds, ran]; rfl, held, like_next, fun _ => ?_⟩
          obtain rfl := like.eq fun _ _ texts => texts.2 rfl
          exact silent_iff.1 rfl
      | true =>
          rcases ih held with ⟨fails, ran_on⟩ | ⟨result, settled, current, ran_on, held_on, like_on,
            settles⟩
          · refine .inl ⟨fun writable => fails (writable.of_resembles like), ?_⟩
            rw [rounds, ran]
            exact ran_on
          · refine .inr ⟨result, settled, current, ?_, held_on, ?_, settles⟩
            · rw [rounds, ran]
              exact ran_on
            · exact like_next.trans mayBecome_trans like_on

theorem resolve_of_isSettledIn {document : Document} {config : Setting}
    (holds : document.Holds config) (settled : config.IsSettledIn config) :
    ∃ result, document.resolve = .ok (result, []) ∧ result.Holds config := by
  obtain ⟨result, ran, held⟩ := round_of_isSettledIn holds settled
  have ran_all : document.rounds greatestRounds = .ok (result, true) := by
    rw [greatestRounds, rounds, ran]
    rfl
  exact ⟨result, by rw [resolve, ran_all]; rfl, held⟩

/-- Resolving a document that has an end fails only at something that cannot be
written, and only if a name stands for such a thing.  Otherwise it keeps the keys
and their order, the lengths of sequences, every value that is no text and every
text in which no reference opens, wherever they stand.  If nothing is logged, then
neither a further round nor resolving again changes the result. -/
theorem resolve_keeps_shape_and_settles {document : Document} {config : Setting}
    (holds : document.Holds config) :
    (¬ NamesWritable config ∧ document.resolve = .error .unwritable) ∨
      ∃ result log resolved, document.resolve = .ok (result, log) ∧ result.Holds resolved ∧
        Resembles MayBecome config resolved ∧
        (log = [] →
          (∃ again, result.round = .ok (again, false) ∧ again.Holds resolved) ∧
            ∃ again, result.resolve = .ok (again, []) ∧ again.Holds resolved) := by
  rcases rounds_gives greatestRounds holds with
    ⟨fails, ran⟩ | ⟨result, settled, resolved, ran, held, like, settles⟩
  · refine .inl ⟨fails, ?_⟩
    rw [resolve, ran]
    rfl
  refine .inr ⟨result, if settled then [] else [unresolvedWarning], resolved, ?_, held, like, ?_⟩
  · rw [resolve, ran]
    rfl
  · intro silent
    have settled_after : resolved.IsSettledIn resolved := by
      cases settled with
      | false => cases silent
      | true => exact settles rfl
    exact ⟨round_of_isSettledIn held settled_after, resolve_of_isSettledIn held settled_after⟩

/-- A mapping that stands in three places, one of them in a pair, and a text that
names the sequence in which it stands. -/
def shared : Document where
  parts := #[
    .mapping [(.text "x", .scalar (.text "$\x7bb\x7d"))],
    .sequence [.scalar (.text "$\x7bl\x7d"), .part 0],
    .pair (.scalar (.text "$\x7bb\x7d")) (.part 0),
    .mapping [(.text "b", .scalar (.text "v")), (.text "a", .part 0), (.text "l", .part 1),
      (.text "p", .part 2)]]
  root := .part 3

/-- The tree that `shared` holds, by the text in the mapping. -/
def sharedTree (inside : String) : Setting :=
  let standing : Setting := .fields [("x", .text inside)]
  .fields [("b", .text "v"), ("a", standing), ("l", .sequence [.text "$\x7bl\x7d", standing]),
    ("p", .pair (.text "$\x7bb\x7d") standing)]

theorem shared_holds : shared.Holds (sharedTree "$\x7bb\x7d") := by
  have standing : shared.parts.Holds (.part 0) (.fields [("x", .text "$\x7bb\x7d")]) :=
    .mapping rfl rfl (.cons (.scalar _) .nil)
  have list : shared.parts.Holds (.part 1) (.sequence [.text "$\x7bl\x7d", _]) :=
    .sequence rfl (.cons (.scalar _) (.cons standing .nil))
  have pair : shared.parts.Holds (.part 2) (.pair (.text "$\x7bb\x7d") _) :=
    .pair rfl (.scalar _) standing
  exact .mapping rfl rfl (.cons (.scalar _) (.cons standing (.cons list (.cons pair .nil))))

/-- What is written into the mapping shows in all its places. -/
theorem resolve_shared_settles :
    ((¬ NamesWritable (sharedTree "$\x7bb\x7d") ∧ shared.resolve = .error .unwritable) ∨
      ∃ result log resolved, shared.resolve = .ok (result, log) ∧ result.Holds resolved ∧
        Resembles MayBecome (sharedTree "$\x7bb\x7d") resolved ∧
        (log = [] →
          (∃ again, result.round = .ok (again, false) ∧ again.Holds resolved) ∧
            ∃ again, result.resolve = .ok (again, []) ∧ again.Holds resolved)) ∧
      NamesWritable (sharedTree "$\x7bb\x7d") ∧
      shared.resolve.map (fun result => (result.1.unfold, result.2)) =
        .ok (sharedTree "v", []) := by
  refine ⟨resolve_keeps_shape_and_settles shared_holds, namesWritable_of_isWritable rfl, ?_⟩
  cbv

/-! ## Documents that cannot be resolved -/

/-- A text refers to the given number. -/
def referringTo (value : Int) : Document where
  parts := #[.mapping [(.text "d", .scalar (.number (.whole value))),
    (.text "b", .scalar (.text "$\x7bd\x7d"))]]
  root := .part 0

theorem round_referringTo {value : Int} (long : 10 ^ Text.greatestDigits ≤ value.natAbs) :
    (referringTo value).round = .error .unwritable := by
  have found : (referringTo value).parts[0]? =
      some (.mapping [(.text "d", .scalar (.number (.whole value))),
        (.text "b", .scalar (.text "$\x7bd\x7d"))]) := rfl
  have first : (referringTo value).parts.value? 0 (.text "d") =
      some (.scalar (.number (.whole value))) := rfl
  have second : (referringTo value).parts.value? 0 (.text "b") =
      some (.scalar (.text "$\x7bd\x7d")) := rfl
  have kept : (referringTo value).parts.write 0 (.text "d") (.scalar (.number (.whole value))) =
      (referringTo value).parts := rfl
  have named : (referringTo value).parts.named? (.part 0) (String.ofList ['d']) =
      some (.scalar (.number (.whole value))) := rfl
  have refused : (Parts.replace (.part 0) "$\x7bd\x7d").run (referringTo value).parts =
      .error .unwritable := by
    have text : "$\x7bd\x7d".toList = written ['d'] ++ [] := by decide
    refine Parts.replace_run_of_refersTo ?_
    rw [Parts.refersTo, text, substitute_written_append _ (by decide), named]
    simp [Setting.isWritable, Scalar.isUnwritable_whole_iff.2 long, written]
  have root : (referringTo value).root = .part 0 := rfl
  have depth : (referringTo value).depth = 2 := rfl
  simp [round, root, depth, found, first, second, kept, refused, Parts.expand, Parts.expandKeys]

/-- A sequence that is its own item. -/
def heldInItself : Document where
  parts := #[.sequence [.part 0], .mapping [(.text "x", .part 0)]]
  root := .part 1

/-- Resolving fails if a text refers to a number too long to be written, and if a
part stands inside itself. -/
theorem resolve_fails :
    (referringTo (10 ^ Text.greatestDigits)).resolve = .error .unwritable ∧
      heldInItself.resolve = .error .endless := by
  constructor
  · have long (digits : Nat) : 10 ^ digits ≤ ((10 : Int) ^ digits).natAbs := by
      rw [Int.natAbs_pow]
      exact le_rfl
    rw [resolve, greatestRounds, rounds, round_referringTo (long _)]
    rfl
  · rfl

end Document

end JavaUml.Config
