import JavaUml.Proofs.Config.Holding

/-!
# What may become of parts

Parts evolve in two ways only.  A value in a mapping is replaced, which shows
wherever the mapping stands, and new parts are added.  In the place of a text
comes another text, and in the place of a sequence a new one whose items replace
the old ones.  So a place that holds a tree goes on to hold a tree of the same
shape.
-/

namespace JavaUml.Config

/-! ## Trees of one shape -/

/-- Settings of the same shape whose texts are related place by place.  That
includes those in pairs: a mapping in a pair may stand elsewhere as well, and is
then written into there. -/
inductive Resembles (related : String → String → Prop) : Setting → Setting → Prop
  | text {value other : String} (texts : related value other) :
      Resembles related (.scalar (.text value)) (.scalar (.text other))
  | scalar {value : Scalar} (fixed : (Setting.scalar value).isFixed) :
      Resembles related (.scalar value) (.scalar value)
  | sequence {items others : List Setting}
      (each : List.Forall₂ (Resembles related) items others) :
      Resembles related (.sequence items) (.sequence others)
  | mapping {entries others : Entries} (keys : entries.map Prod.fst = others.map Prod.fst)
      (each : List.Forall₂ (Resembles related) (entries.map Prod.snd) (others.map Prod.snd)) :
      Resembles related (.mapping entries) (.mapping others)
  | pair {one other first second : Setting} (one_resembles : Resembles related one first)
      (other_resembles : Resembles related other second) :
      Resembles related (.pair one other) (.pair first second)
  | set (members : List Scalar) : Resembles related (.set members) (.set members)

namespace Resembles

variable {related : String → String → Prop}

theorem refl (same : ∀ text, related text text) (setting : Setting) :
    Resembles related setting setting := by
  induction setting using Setting.induction with
  | scalar value =>
      cases value with
      | text value => exact .text (same value)
      | _ => exact .scalar rfl
  | sequence items ih => exact .sequence (List.forall₂_same.2 ih)
  | mapping entries ih =>
      refine .mapping rfl (List.forall₂_same.2 fun value mem => ?_)
      obtain ⟨entry, entry_mem, rfl⟩ := List.mem_map.1 mem
      exact ih entry entry_mem
  | pair first second first_same second_same => exact .pair first_same second_same
  | set members => exact .set members

theorem trans {next both : String → String → Prop}
    (join : ∀ a b c, related a b → next b c → both a c) {setting middle last : Setting}
    (first : Resembles related setting middle) (second : Resembles next middle last) :
    Resembles both setting last := by
  induction setting using Setting.induction generalizing middle last with
  | scalar value =>
      cases first with
      | text texts =>
          cases second with
          | text others => exact .text (join _ _ _ texts others)
          | scalar fixed => simp [Setting.isFixed] at fixed
      | scalar fixed =>
          cases second with
          | text => simp [Setting.isFixed] at fixed
          | scalar => exact .scalar fixed
  | sequence items ih =>
      cases first with
      | sequence each =>
          cases second with
          | sequence others =>
              exact .sequence (forall₂_of_forall₂ each (List.forall₂_same.2 fun _ _ => rfl) others
                fun item mem _ _ _ here same there => same ▸ ih item mem here there)
  | mapping entries ih =>
      cases first with
      | mapping keys each =>
          cases second with
          | mapping others_keys others =>
              refine .mapping (keys.trans others_keys)
                (forall₂_of_forall₂ each (List.forall₂_same.2 fun _ _ => rfl) others ?_)
              rintro _ mem _ _ _ here rfl there
              obtain ⟨entry, entry_mem, rfl⟩ := List.mem_map.1 mem
              exact ih entry entry_mem here there
  | pair one other one_ih other_ih =>
      cases first with
      | pair one_here other_here =>
          cases second with
          | pair one_there other_there =>
              exact .pair (one_ih one_here one_there) (other_ih other_here other_there)
  | set members =>
      cases first
      cases second
      exact .set members

theorem mono {other : String → String → Prop} {setting current : Setting}
    (resembles : Resembles related setting current)
    (weaken : ∀ a b, related a b → other a b) : Resembles other setting current :=
  resembles.trans (fun a b _ texts same => same ▸ weaken a b texts) (.refl (fun _ => rfl) current)

/-- Settings that resemble each other with equal texts are equal. -/
theorem eq {setting current : Setting} (resembles : Resembles related setting current)
    (equal : ∀ text other, related text other → text = other) : setting = current := by
  induction setting using Setting.induction generalizing current with
  | scalar value =>
      cases resembles with
      | text texts => rw [equal _ _ texts]
      | scalar => rfl
  | sequence items ih =>
      cases resembles with
      | @sequence _ others each =>
          have same : items = others := by
            rw [← List.forall₂_eq_eq_eq]
            exact forall₂_imp_mem each fun item mem _ _ here => ih item mem here
          rw [same]
  | mapping entries ih =>
      cases resembles with
      | @mapping _ others keys each =>
          have same : entries = others := by
            rw [← List.forall₂_eq_eq_eq]
            exact forall₂_imp_mem (entriesRel_iff.2 ⟨keys, each⟩) fun entry mem _ _ here =>
              Prod.ext here.1 (ih entry mem here.2)
          rw [same]
  | pair one other one_ih other_ih =>
      cases resembles with
      | pair one_here other_here => rw [one_ih one_here, other_ih other_here]
  | set members =>
      cases resembles
      rfl

theorem height_le {setting current : Setting} (resembles : Resembles related setting current)
    {bound : Nat} (low : setting.height ≤ bound) : current.height ≤ bound := by
  induction bound generalizing setting current with
  | zero =>
      cases resembles with
      | text | scalar => simp
      | _ => simp [Setting.height] at low
  | succ bound ih =>
      cases resembles with
      | text | scalar => simp
      | sequence each =>
          rw [Setting.height_sequence_le_iff] at *
          intro other mem
          obtain ⟨item, item_mem, here⟩ := exists_mem_of_forall₂ each mem
          exact ih here (low item item_mem)
      | mapping keys each =>
          rw [Setting.height_mapping_le_iff] at *
          intro other mem
          obtain ⟨entry, entry_mem, here⟩ :=
            exists_mem_of_forall₂ (entriesRel_iff.2 ⟨keys, each⟩) mem
          exact ih here.2 (low entry entry_mem)
      | pair one_here other_here =>
          rw [Setting.height_pair_le_iff] at *
          exact ⟨ih one_here low.1, ih other_here low.2⟩
      | set => exact low

/-- A path of keys leads to places that resemble each other. -/
theorem at? {setting current : Setting} (resembles : Resembles related setting current)
    (path : List String) :
    Option.Rel (Resembles related) (setting.at? path) (current.at? path) := by
  induction path generalizing setting current with
  | nil => exact .some resembles
  | cons key path ih =>
      cases resembles with
      | @mapping entries others keys each =>
          have found := EntriesRel.get? (entriesRel_iff.2 ⟨keys, each⟩) (.text key)
          rw [Setting.at?, Setting.at?]
          generalize Ordered.get? (.text key) entries = value at found ⊢
          generalize Ordered.get? (.text key) others = other at found ⊢
          cases found with
          | none => exact .none
          | some below => exact ih below
      | _ => exact .none

theorem named? {config current : Setting} (resembles : Resembles related config current)
    (name : String) :
    Option.Rel (Resembles related) (config.named? name) (current.named? name) := by
  have places := resembles.at? (dottedPath name)
  rw [Setting.named?, Setting.named?, lookup?, lookup?]
  generalize config.at? (dottedPath name) = setting at places ⊢
  generalize current.at? (dottedPath name) = other at places ⊢
  cases places with
  | none => exact .none
  | some below =>
      cases below with
      | sequence | mapping => exact .none
      | text texts => exact .some (.text texts)
      | scalar fixed => exact .some (.scalar fixed)
      | pair one other => exact .some (.pair one other)
      | set members => exact .some (.set members)

end Resembles

/-! ## Writable names -/

theorem Setting.areWritable_eq_all (items : List Setting) :
    Setting.areWritable items = items.all Setting.isWritable := by
  induction items with
  | nil => rfl
  | cons item rest ih => rw [areWritable, ih, List.all_cons]

theorem Setting.haveWritable_eq_all (entries : Entries) :
    Setting.haveWritable entries =
      ((entries.map Prod.fst).all (!·.isUnwritable) &&
        (entries.map Prod.snd).all Setting.isWritable) := by
  induction entries with
  | nil => rfl
  | cons entry rest ih =>
      simp only [haveWritable, ih, List.map_cons, List.all_cons]
      ac_rfl

/-- Texts can all be written, so what resembles a writable setting is writable. -/
theorem Resembles.isWritable {related : String → String → Prop} {setting current : Setting}
    (resembles : Resembles related setting current) (writable : setting.isWritable) :
    current.isWritable := by
  induction setting using Setting.induction generalizing current with
  | scalar value =>
      cases resembles with
      | text => rfl
      | scalar => exact writable
  | sequence items ih =>
      cases resembles with
      | sequence each =>
          rw [Setting.isWritable, Setting.areWritable_eq_all, List.all_eq_true] at *
          intro other mem
          obtain ⟨item, item_mem, here⟩ := exists_mem_of_forall₂ each mem
          exact ih item item_mem here (writable item item_mem)
  | mapping entries ih =>
      cases resembles with
      | mapping keys each =>
          rw [Setting.isWritable, Setting.haveWritable_eq_all, Bool.and_eq_true] at *
          refine ⟨keys ▸ writable.1, List.all_eq_true.2 fun other mem => ?_⟩
          obtain ⟨value, value_mem, here⟩ := exists_mem_of_forall₂ each mem
          obtain ⟨entry, entry_mem, rfl⟩ := List.mem_map.1 value_mem
          exact ih entry entry_mem here (List.all_eq_true.1 writable.2 _ value_mem)
  | pair one other one_ih other_ih =>
      cases resembles with
      | pair one_here other_here =>
          rw [Setting.isWritable, Bool.and_eq_true] at *
          exact ⟨one_ih one_here writable.1, other_ih other_here writable.2⟩
  | set members =>
      cases resembles
      exact writable

/-- Everything that a name stands for can be written. -/
def NamesWritable (config : Setting) : Prop :=
  ∀ name setting, config.named? name = some setting → setting.isWritable

theorem namesWritable_of_isWritable {config : Setting} (writable : config.isWritable) :
    NamesWritable config := by
  have below (path : List String) : ∀ {setting part : Setting}, setting.isWritable →
      setting.at? path = some part → part.isWritable := by
    induction path with
    | nil =>
        rintro setting part writable ⟨⟩
        exact writable
    | cons key path ih =>
        intro setting part writable found
        cases setting with
        | mapping entries =>
            rw [Setting.at?, Option.bind_eq_some_iff] at found
            obtain ⟨value, value_found, found⟩ := found
            rw [Setting.isWritable, Setting.haveWritable_eq_all, Bool.and_eq_true] at writable
            have mem := List.mem_map_of_mem (f := Prod.snd) (Ordered.mem_of_get? value_found)
            exact ih (List.all_eq_true.1 writable.2 _ mem) found
        | _ => cases found
  intro name setting named
  rw [Setting.named?, Option.bind_eq_some_iff] at named
  obtain ⟨part, found, referred⟩ := named
  have part_writable := below _ writable found
  cases part with
  | mapping | sequence => cases referred
  | scalar | pair | set =>
      cases referred
      exact part_writable

theorem NamesWritable.of_resembles {related : String → String → Prop} {config current : Setting}
    (writable : NamesWritable config) (resembles : Resembles related config current) :
    NamesWritable current := by
  intro name setting named
  have settings := resembles.named? name
  rw [named] at settings
  generalize before : config.named? name = other at settings
  cases settings with
  | some here => exact here.isWritable (writable name _ before)

/-! ## Places that are replaced -/

namespace Parts

/-- One item may be put in the place of another: a text for a text, and for a
sequence one whose items replace the old ones. -/
inductive Replaces (related : String → String → Prop) (parts : Parts) : Item → Item → Prop
  | text {value other : String} (texts : related value other) :
      Replaces related parts (.scalar (.text value)) (.scalar (.text other))
  | same (item : Item) : Replaces related parts item item
  | sequence {number made : Nat} {items others : List Item}
      (found : parts[number]? = some (.sequence items))
      (found_made : parts[made]? = some (.sequence others))
      (each : List.Forall₂ (Replaces related parts) items others) :
      Replaces related parts (.part number) (.part made)

/-- Induction on a replacement, with the hypothesis for every item. -/
theorem Replaces.induction {related : String → String → Prop} {parts : Parts}
    {motive : ∀ item replaced, parts.Replaces related item replaced → Prop}
    (text : ∀ value other (texts : related value other), motive _ _ (.text texts))
    (same : ∀ item, motive _ _ (.same item))
    (sequence : ∀ (number made : Nat) (items others : List Item)
      (found : parts[number]? = some (.sequence items))
      (found_made : parts[made]? = some (.sequence others))
      (each : List.Forall₂ (Replaces related parts) items others),
      List.Forall₂ (fun item replaced => ∃ replaces, motive item replaced replaces) items others →
        motive _ _ (.sequence found found_made each))
    {item replaced : Item} (replaces : parts.Replaces related item replaced) :
    motive item replaced replaces :=
  @Replaces.rec related parts motive
    (fun items others _ =>
      List.Forall₂ (fun item replaced => ∃ replaces, motive item replaced replaces) items others)
    (fun texts => text _ _ texts) same
    (fun found found_made each below => sequence _ _ _ _ found found_made each below)
    .nil (fun _ _ first rest => .cons ⟨_, first⟩ rest) item replaced replaces

/-- A replacement stays one as long as the sequences stay. -/
theorem Replaces.mono {related other : String → String → Prop} {before after : Parts}
    {item replaced : Item} (replaces : before.Replaces related item replaced)
    (weaken : ∀ a b, related a b → other a b)
    (kept : ∀ (number : Nat) (items : List Item), before[number]? = some (.sequence items) →
      after[number]? = some (.sequence items)) : after.Replaces other item replaced := by
  induction replaces using Replaces.induction with
  | text value changed texts => exact .text (weaken _ _ texts)
  | same item => exact .same item
  | sequence number made items others found found_made each ih =>
      exact .sequence (kept _ _ found) (kept _ _ found_made) (ih.imp fun _ _ below => below.2)

theorem Replaces.trans {related : String → String → Prop} {parts : Parts}
    (join : ∀ a b c, related a b → related b c → related a c) {item middle last : Item}
    (first : parts.Replaces related item middle) (second : parts.Replaces related middle last) :
    parts.Replaces related item last := by
  induction first using Replaces.induction generalizing last with
  | text value other texts =>
      cases second with
      | text others => exact .text (join _ _ _ texts others)
      | same => exact .text texts
  | same item => exact second
  | sequence number made items others found found_made each ih =>
      cases second with
      | same => exact .sequence found found_made each
      | @sequence _ last known thirds found_known found_last each_last =>
          cases found_made.symm.trans found_known
          refine .sequence found found_last
            (forall₂_of_forall₂ ih (List.forall₂_same.2 fun _ _ => rfl) each_last ?_)
          rintro item _ other _ third ⟨_, below⟩ rfl there
          exact below there

/-- Of the parts only a sequence is replaced. -/
theorem Replaces.eq_part {related : String → String → Prop} {parts : Parts} {number : Nat}
    {replaced : Item} (replaces : parts.Replaces related (.part number) replaced)
    (other : ∀ items, parts[number]? ≠ some (.sequence items)) : replaced = .part number := by
  cases replaces with
  | same => rfl
  | sequence found => exact absurd found (other _)

/-! ## Reading and writing -/

theorem value?_eq_some_iff {parts : Parts} {number : Nat} {key : Scalar} {item : Item} :
    parts.value? number key = some item ↔
      ∃ entries, parts[number]? = some (.mapping entries) ∧
        Ordered.getBy? Scalar.keyForm key entries = some item := by
  rw [value?, entries?]
  split
  · simp_all
  · simp_all

theorem size_write (parts : Parts) (number : Nat) (key : Scalar) (item : Item) :
    (parts.write number key item).size = parts.size := by
  rw [write]
  split
  · exact Array.size_setIfInBounds
  · rfl

theorem getElem?_write {parts : Parts} {number : Nat} {entries : List (Scalar × Item)}
    (found : parts[number]? = some (.mapping entries)) (key : Scalar) (item : Item) (other : Nat) :
    (parts.write number key item)[other]? =
      if number = other then some (.mapping (Ordered.putBy Scalar.keyForm key item entries))
      else parts[other]? := by
  have known : parts.entries? number = some entries := by rw [entries?, found]
  have bound := (Array.getElem?_eq_some_iff.1 found).1
  simp only [write, known, Array.getElem?_setIfInBounds, bound, if_true]

/-! ## Evolution -/

/-- What may become of parts: a mapping keeps its keys and gets values that
replace the old ones, and all else stays. -/
structure Evolves (related : String → String → Prop) (before after : Parts) : Prop where
  mapping : ∀ {number : Nat} {entries : List (Scalar × Item)},
    before[number]? = some (.mapping entries) →
      ∃ others, after[number]? = some (.mapping others) ∧
        EntriesRel (after.Replaces related) entries others
  kept : ∀ {number : Nat} {content : Content}, before[number]? = some content →
    (∀ entries, content ≠ .mapping entries) → after[number]? = some content

namespace Evolves

variable {related : String → String → Prop} {before after : Parts}

theorem sequence (evolves : before.Evolves related after) {number : Nat} {items : List Item}
    (found : before[number]? = some (.sequence items)) :
    after[number]? = some (.sequence items) :=
  evolves.kept found (by simp)

theorem refl (related : String → String → Prop) (parts : Parts) : parts.Evolves related parts where
  mapping found := ⟨_, found, List.forall₂_same.2 fun _ _ => ⟨rfl, .same _⟩⟩
  kept found _ := found

theorem mono {other : String → String → Prop} (evolves : before.Evolves related after)
    (weaken : ∀ a b, related a b → other a b) : before.Evolves other after where
  mapping found := by
    obtain ⟨others, found_after, each⟩ := evolves.mapping found
    exact ⟨others, found_after, each.imp fun _ _ pair =>
      ⟨pair.1, pair.2.mono weaken fun _ _ found => found⟩⟩
  kept := evolves.kept

theorem trans (join : ∀ a b c, related a b → related b c → related a c) {last : Parts}
    (first : before.Evolves related after) (second : after.Evolves related last) :
    before.Evolves related last where
  mapping found := by
    obtain ⟨others, found_after, each⟩ := first.mapping found
    obtain ⟨thirds, found_last, each_after⟩ := second.mapping found_after
    refine ⟨thirds, found_last, ?_⟩
    refine forall₂_of_forall₂ each (List.forall₂_same.2 fun _ _ => rfl) each_after ?_
    rintro entry _ other _ third here rfl there
    have still := here.2.mono (fun _ _ texts => texts) fun _ _ found => second.sequence found
    exact ⟨here.1.trans there.1, still.trans join there.2⟩
  kept found other := second.kept (first.kept found other) other

theorem push (evolves : before.Evolves related after) (content : Content) :
    before.Evolves related (after.push content) := by
  have still {number : Nat} {held : Content} (found : after[number]? = some held) :
      (after.push content)[number]? = some held := by
    obtain ⟨bound, _⟩ := Array.getElem?_eq_some_iff.1 found
    rwa [Array.getElem?_push_lt bound, ← Array.getElem?_eq_getElem bound]
  constructor
  · intro number entries found
    obtain ⟨others, found_after, each⟩ := evolves.mapping found
    exact ⟨others, still found_after, each.imp fun _ _ pair =>
      ⟨pair.1, pair.2.mono (fun _ _ texts => texts) fun _ _ found => still found⟩⟩
  · intro number held found other
    exact still (evolves.kept found other)

/-- A value may be replaced. -/
theorem write (evolves : before.Evolves related after) {number : Nat} {key : Scalar}
    {item replaced : Item} (found : before.value? number key = some item)
    (replaces : after.Replaces related item replaced) :
    before.Evolves related (after.write number key replaced) := by
  obtain ⟨entries, found_before, value⟩ := value?_eq_some_iff.1 found
  obtain ⟨others, found_after, each⟩ := evolves.mapping found_before
  have written := getElem?_write found_after key replaced
  have sequences (other : Nat) (items : List Item)
      (found : after[other]? = some (.sequence items)) :
      (after.write number key replaced)[other]? = some (.sequence items) := by
    rw [written, if_neg, found]
    rintro rfl
    cases found_after.symm.trans found
  have still {item replaced : Item} (here : after.Replaces related item replaced) :=
    here.mono (fun _ _ texts => texts) sequences
  constructor
  · intro other known found
    by_cases here : number = other
    · subst here
      cases found_before.symm.trans found
      refine ⟨_, by rw [written, if_pos rfl], ?_⟩
      have each : EntriesRel (Replaces related (after.write number key replaced)) entries others :=
        each.imp fun _ _ pair => ⟨pair.1, still pair.2⟩
      exact EntriesRel.putBy each value (still replaces)
    · obtain ⟨changed, found_changed, each⟩ := evolves.mapping found
      refine ⟨changed, by rw [written, if_neg here, found_changed], ?_⟩
      exact each.imp fun _ _ pair => ⟨pair.1, still pair.2⟩
  · intro other content found notMapping
    rw [written, if_neg, evolves.kept found notMapping]
    rintro rfl
    cases found_before.symm.trans found
    exact notMapping _ rfl

/-- A place goes on to hold a tree of the same shape, and so does one that
replaces it. -/
theorem holds (same : ∀ text, related text text) (evolves : before.Evolves related after)
    {item replaced : Item} {setting : Setting} (holds : before.Holds item setting)
    (replaces : after.Replaces related item replaced) :
    ∃ current, after.Holds replaced current ∧ Resembles related setting current := by
  induction setting using Setting.induction generalizing item replaced with
  | scalar value =>
      cases holds
      cases replaces with
      | text texts => exact ⟨_, .scalar _, .text texts⟩
      | same => exact ⟨_, .scalar _, .refl same _⟩
  | sequence settings ih =>
      obtain ⟨number, items, rfl, found, each⟩ := holds_sequence_iff.1 holds
      have found_after := evolves.sequence found
      obtain ⟨made, others, rfl, found_made, replaced_each⟩ : ∃ made others,
          replaced = .part made ∧ after[made]? = some (.sequence others) ∧
            List.Forall₂ (after.Replaces related) items others := by
        cases replaces with
        | same => exact ⟨number, items, rfl, found_after, List.forall₂_same.2 fun _ _ => .same _⟩
        | @sequence _ made known others found_known found_made each =>
            cases found_after.symm.trans found_known
            exact ⟨made, others, rfl, found_made, each⟩
      obtain ⟨currents, resembling, held⟩ := exists_forall₂ each replaced_each
        fun _ setting mem _ here there => (ih setting mem here there).imp fun _ both => both.symm
      exact ⟨.sequence currents, .sequence found_made held, .sequence resembling⟩
  | mapping settings ih =>
      obtain ⟨number, entries, rfl, found, each⟩ := holds_mapping_iff.1 holds
      obtain ⟨others, found_after, replaced_each⟩ := evolves.mapping found
      obtain rfl := replaces.eq_part (by simp [found_after])
      obtain ⟨currents, resembling, held⟩ : ∃ currents,
          EntriesRel (Resembles related) settings currents ∧
            EntriesRel after.Holds others currents := by
        refine exists_forall₂ each replaced_each ?_
        rintro entry setting mem other ⟨key, here⟩ ⟨other_key, there⟩
        obtain ⟨current, held, like⟩ := ih setting mem here there
        exact ⟨(setting.1, current), ⟨rfl, like⟩, other_key.symm.trans key, held⟩
      rw [entriesRel_iff] at resembling
      exact ⟨_, holds_mapping_iff.2 ⟨number, others, rfl, found_after, held⟩,
        .mapping resembling.1 resembling.2⟩
  | pair one other one_ih other_ih =>
      obtain ⟨number, first, second, rfl, found, first_holds, second_holds⟩ :=
        holds_pair_iff.1 holds
      have found_after := evolves.kept found (by simp)
      obtain rfl := replaces.eq_part (by simp [found_after])
      obtain ⟨first_now, first_held, first_like⟩ := one_ih first_holds (.same _)
      obtain ⟨second_now, second_held, second_like⟩ := other_ih second_holds (.same _)
      exact ⟨_, .pair found_after first_held second_held, .pair first_like second_like⟩
  | set keys =>
      obtain ⟨number, rfl, found⟩ := holds_set_iff.1 holds
      have found_after := evolves.kept found (by simp)
      obtain rfl := replaces.eq_part (by simp [found_after])
      exact ⟨_, .members found_after, .set keys⟩

theorem holds_each (same : ∀ text, related text text) (evolves : before.Evolves related after)
    {items : List Item} {settings : List Setting}
    (holds : List.Forall₂ before.Holds items settings) :
    ∃ currents, List.Forall₂ after.Holds items currents ∧
      List.Forall₂ (Resembles related) settings currents := by
  obtain ⟨currents, like, held⟩ := exists_forall₂ holds (List.forall₂_same.2 fun _ _ => rfl)
    fun item setting _ other here (unmoved : item = other) =>
      (evolves.holds same here (.same item)).imp fun _ both => ⟨both.2, unmoved ▸ both.1⟩
  exact ⟨currents, held, like⟩

end Evolves

end Parts

end JavaUml.Config
