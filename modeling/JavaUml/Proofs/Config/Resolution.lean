import JavaUml.Proofs.Config.Reordering

/-!
# Resolving a configuration

If the references among the texts of a configuration form no long chains, then
resolving it ends without a warning, and each text has become its full
expansion.  The order of the keys does not matter for that.
-/

namespace JavaUml.Config

/-! ## Chains of references -/

/-- A text refers to a text of the configuration. -/
def RefersTo (config : Setting) (text value : String) : Prop :=
  ∃ name, Mentions text.toList name ∧ meaning config name = .template value

/-- From no text of the configuration a chain of more than that many references
leads on. -/
def ChainsWithin (bound : Nat) (config : Setting) : Prop :=
  ∀ leaf, config.HasLeaf leaf →
    ∀ rest, (leaf :: rest).IsChain (RefersTo config) → rest.length ≤ bound

/-- What a path leads to is the setting itself, or lies below one of its entries. -/
theorem Setting.at?_cases {setting part : Setting} {path : List String}
    (found : setting.at? path = some part) :
    part = setting ∨ ∃ entries, setting = .mapping entries ∧
      ∃ entry ∈ entries, entry.2.at? path.tail = some part := by
  cases path with
  | nil => exact .inl (Option.some.inj found).symm
  | cons key path =>
      cases setting with
      | mapping entries =>
          obtain ⟨below, below_eq, found⟩ := Option.bind_eq_some_iff.1 found
          exact .inr ⟨entries, rfl, _, Ordered.mem_of_get? below_eq, found⟩
      | _ => simp [Setting.at?] at found

theorem Setting.eq_of_at? {setting part : Setting} {path : List String}
    (found : setting.at? path = some part) (noMapping : ∀ entries, setting ≠ .mapping entries) :
    part = setting := by
  rcases Setting.at?_cases found with same | ⟨entries, isMapping, _⟩
  · exact same
  · exact absurd isMapping (noMapping entries)

theorem Setting.hasLeaf_of_at? {setting : Setting} {path : List String} {value : String}
    (found : setting.at? path = some (.scalar (.text value))) : setting.HasLeaf value := by
  induction path generalizing setting with
  | nil =>
      obtain rfl := Option.some.inj found
      exact .text value
  | cons key path ih =>
      rcases Setting.at?_cases found with rfl | ⟨entries, rfl, entry, mem, found⟩
      · exact .text value
      · exact .entry mem (ih found)

theorem lookup?_of_meaning {config : Setting} {name : List Char} {means : Meaning}
    (meaning_eq : meaning config name = means) (named : means ≠ .nothing) :
    ∃ setting, lookup? config (String.ofList name) = some setting ∧ setting.meaning = means := by
  rw [meaning] at meaning_eq
  cases found : lookup? config (String.ofList name) with
  | none =>
      rw [found] at meaning_eq
      exact absurd meaning_eq.symm named
  | some setting =>
      rw [found] at meaning_eq
      exact ⟨setting, rfl, meaning_eq⟩

theorem hasLeaf_of_meaning {config : Setting} {name : List Char} {value : String}
    (means : meaning config name = .template value) : config.HasLeaf value := by
  obtain ⟨setting, found, setting_means⟩ := lookup?_of_meaning means (by simp)
  cases setting with
  | scalar scalar =>
      cases scalar with
      | text text =>
          obtain rfl := Meaning.template.inj setting_means
          exact Setting.hasLeaf_of_at? found
      | _ => simp [Setting.meaning] at setting_means
  | _ => simp [Setting.meaning] at setting_means

/-- A template expands if the texts that it refers to do, one level deeper. -/
theorem IsTemplate.exists_expands {names : List Char → Meaning} {height : Nat} {text : List Char}
    (template : IsTemplate text)
    (below : ∀ name value, Mentions text name → names name = .template value →
      ∃ out, ExpandsWithin names height value.toList out) :
    ∃ out, ExpandsWithin names (height + 1) text out := by
  induction template with
  | nil => exact ⟨[], .nil⟩
  | literal plain _ ih =>
      obtain ⟨out, expands⟩ := ih fun name value mentions =>
        below name value ((mentions_cons_iff plain).2 mentions)
      exact ⟨_, .literal plain expands⟩
  | @reference name rest isName _ ih =>
      obtain ⟨out, expands⟩ := ih fun name value mentions =>
        below name value ((mentions_written_append_iff isName).2 (.inr mentions))
      cases means : names name with
      | nothing => exact ⟨_, .kept isName means expands⟩
      | shown text => exact ⟨_, .shown isName means expands⟩
      | template value =>
          obtain ⟨inner, inner_expands⟩ :=
            below name value ((mentions_written_append_iff isName).2 (.inl rfl)) means
          exact ⟨_, .followed isName means inner_expands expands⟩

/-- A text from which only chains within a bound lead on expands one level
deeper than that: the last text of a chain may still refer to a value that is no
text. -/
theorem exists_expands_of_chains {config : Setting}
    (templates : ∀ leaf, config.HasLeaf leaf → IsTemplate leaf.toList) {bound : Nat} {text : String}
    (template : IsTemplate text.toList)
    (chains : ∀ rest, (text :: rest).IsChain (RefersTo config) → rest.length ≤ bound) :
    ∃ out, ExpandsWithin (meaning config) (bound + 1) text.toList out := by
  induction bound generalizing text with
  | zero =>
      refine template.exists_expands fun name value mentions means => ?_
      have longer := chains [value] (.cons_cons ⟨name, mentions, means⟩ (.singleton value))
      simp at longer
  | succ bound ih =>
      refine template.exists_expands fun name value mentions means => ?_
      refine ih (templates value (hasLeaf_of_meaning means)) fun rest chain => ?_
      have longer := chains (value :: rest) (.cons_cons ⟨name, mentions, means⟩ chain)
      simpa using longer

/-- A rank that each reference lowers bounds the chains. -/
theorem chainsWithin_of_rank {config : Setting} {bound : Nat} (rank : String → Nat)
    (bounded : ∀ leaf, config.HasLeaf leaf → rank leaf ≤ bound)
    (lower : ∀ leaf, config.HasLeaf leaf → ∀ value, RefersTo config leaf value →
      rank value < rank leaf) : ChainsWithin bound config := by
  intro leaf isLeaf rest chain
  refine le_trans ?_ (bounded leaf isLeaf)
  induction rest generalizing leaf with
  | nil => exact Nat.zero_le _
  | cons value rest ih =>
      cases chain with
      | cons_cons refers chain =>
          have lowered := lower leaf isLeaf value refers
          obtain ⟨_, _, means⟩ := refers
          have shorter := ih value (hasLeaf_of_meaning means) chain
          rw [List.length_cons]
          omega

/-! ## Values that are no texts -/

/-- Whether what shows a setting may hold a dollar sign although the setting is no
text. -/
def Setting.mayShowDollar : Setting → Bool
  | .scalar (.bytes _) => true
  | .pair _ _ => true
  | .set _ => true
  | _ => false

theorem Setting.isPlain_display {setting : Setting} (isFixed : setting.isFixed)
    (plain : setting.mayShowDollar → IsPlain setting.display) : IsPlain setting.display := by
  cases setting with
  | scalar value =>
      cases value with
      | null => decide
      | bool value => cases value <;> decide
      | number value =>
          cases value with
          | whole value => exact isPlain_intText value
          | floating value => exact isPlain_floatText value
      | text => simp [Setting.isFixed] at isFixed
      | date value => exact isPlain_dateText value
      | moment value => exact isPlain_momentText value
      | bytes => exact plain rfl
  | sequence => simp [Setting.isFixed] at isFixed
  | mapping => simp [Setting.isFixed] at isFixed
  | pair => exact plain rfl
  | set => exact plain rfl

theorem Setting.meaning_eq_shown {setting : Setting} {text : String}
    (means : setting.meaning = .shown text) : setting.isFixed ∧ setting.display = text := by
  cases setting with
  | scalar value => cases value <;> simp_all [Setting.meaning, Setting.isFixed]
  | _ => simp_all [Setting.meaning, Setting.isFixed]

/-! ## A reference to bytes -/

/-- References to a text that holds one in turn, to a mapping and to bytes. -/
def layered (bytes : List UInt8) : Setting :=
  .fields [("a", .text "x"), ("m", .fields [("b", .text "$\x7ba\x7dy")]),
    ("l", .sequence [.text "$\x7ba\x7dy"]), ("s", .text "$\x7bm.b\x7d$\x7bm\x7d$\x7bd\x7d"),
    ("d", .scalar (.bytes bytes))]

theorem hasLeaf_layered {bytes : List UInt8} {leaf : String}
    (isLeaf : (layered bytes).HasLeaf leaf) :
    leaf = "x" ∨ leaf = "$\x7ba\x7dy" ∨ leaf = "$\x7bm.b\x7d$\x7bm\x7d$\x7bd\x7d" := by
  unfold layered Setting.fields at isLeaf
  cases isLeaf with
  | entry mem below =>
      simp only [List.map_cons, List.map_nil, List.mem_cons, List.not_mem_nil, or_false] at mem
      rcases mem with rfl | rfl | rfl | rfl | rfl
      · cases below
        exact .inl rfl
      · cases below with
        | entry mem below =>
            obtain rfl := List.mem_singleton.1 mem
            cases below
            exact .inr (.inl rfl)
      · cases below with
        | item mem below =>
            obtain rfl := List.mem_singleton.1 mem
            cases below
            exact .inr (.inl rfl)
      · cases below
        exact .inr (.inr rfl)
      · cases below

theorem isTemplate_layered (bytes : List UInt8) (leaf : String)
    (isLeaf : (layered bytes).HasLeaf leaf) : IsTemplate leaf.toList := by
  rcases hasLeaf_layered isLeaf with rfl | rfl | rfl
  · exact .literal (by decide) .nil
  · exact @IsTemplate.reference ['a'] ['y'] (by decide) (.literal (by decide) .nil)
  · exact @IsTemplate.reference ['m', '.', 'b'] _ (by decide)
      (@IsTemplate.reference ['m'] _ (by decide) (@IsTemplate.reference ['d'] [] (by decide) .nil))

theorem meaning_layered (bytes : List UInt8) :
    meaning (layered bytes) ['a'] = .template "x" ∧
      meaning (layered bytes) ['m', '.', 'b'] = .template "$\x7ba\x7dy" ∧
      meaning (layered bytes) ['m'] = .nothing ∧
      meaning (layered bytes) ['d'] = .shown (Text.quotedBytes bytes) := by
  have found_d : lookup? (layered bytes) (String.ofList ['d']) = some (.scalar (.bytes bytes)) := by
    cbv
  refine ⟨by cbv, by cbv, by cbv, ?_⟩
  rw [meaning, found_d]
  rfl

theorem chainsWithin_layered (bytes : List UInt8) : ChainsWithin 19 (layered bytes) := by
  obtain ⟨means_a, means_b, means_m, means_d⟩ := meaning_layered bytes
  -- Here each reference leads to a shorter text.
  refine chainsWithin_of_rank String.length ?_ ?_
  · intro leaf isLeaf
    rcases hasLeaf_layered isLeaf with rfl | rfl | rfl <;> decide
  · rintro leaf isLeaf value ⟨name, mentions, means⟩
    rcases hasLeaf_layered isLeaf with rfl | rfl | rfl
    · change Mentions ['x'] name at mentions
      rw [mentions_cons_iff (by decide)] at mentions
      exact absurd mentions (not_mentions_nil name)
    · change Mentions (written ['a'] ++ ['y']) name at mentions
      rw [mentions_written_append_iff (by decide), mentions_cons_iff (by decide),
        or_iff_left (not_mentions_nil name)] at mentions
      rw [mentions, means_a, Meaning.template.injEq] at means
      rw [← means]
      decide
    · change Mentions (written ['m', '.', 'b'] ++ (written ['m'] ++ (written ['d'] ++ []))) name
        at mentions
      rw [mentions_written_append_iff (by decide), mentions_written_append_iff (by decide),
        mentions_written_append_iff (by decide), or_iff_left (not_mentions_nil name)] at mentions
      rcases mentions with rfl | rfl | rfl
      · rw [means_b, Meaning.template.injEq] at means
        rw [← means]
        decide
      · rw [means_m] at means
        cases means
      · rw [means_d] at means
        cases means

theorem isPlain_layered {bytes : List UInt8} (bytes_plain : IsPlain (Text.quotedBytes bytes))
    (key : String) (setting : Setting) (found : lookup? (layered bytes) key = some setting)
    (may : setting.mayShowDollar) : IsPlain setting.display := by
  rcases Setting.at?_cases found with rfl | ⟨_, same, entry, mem, found⟩
  · cases may
  · cases same
    simp only [List.map_cons, List.map_nil, List.mem_cons, List.not_mem_nil, or_false] at mem
    rcases mem with rfl | rfl | rfl | rfl | rfl
    · obtain rfl := Setting.eq_of_at? found (by rintro _ ⟨⟩)
      cases may
    · rcases Setting.at?_cases found with rfl | ⟨_, same, entry, mem, found⟩
      · cases may
      · cases same
        obtain rfl := List.mem_singleton.1 mem
        obtain rfl := Setting.eq_of_at? found (by rintro _ ⟨⟩)
        cases may
    · obtain rfl := Setting.eq_of_at? found (by rintro _ ⟨⟩)
      cases may
    · obtain rfl := Setting.eq_of_at? found (by rintro _ ⟨⟩)
      cases may
    · obtain rfl := Setting.eq_of_at? found (by rintro _ ⟨⟩)
      exact bytes_plain

theorem hasDistinctKeys_layered (bytes : List UInt8) : (layered bytes).HasDistinctKeys := by
  refine .mapping (by simp) ?_
  simp only [List.map_cons, List.map_nil, List.forall_mem_cons]
  refine ⟨.text _, .mapping (by simp) ?_, .sequence ?_, .text _, .fixed rfl, by simp⟩
  · simp only [List.map_cons, List.map_nil, List.forall_mem_cons]
    exact ⟨.text _, by simp⟩
  · simp only [List.forall_mem_cons]
    exact ⟨.text _, by simp⟩

/-- The bytes of a reference to the text of the key `a`. -/
def referenceBytes : List UInt8 :=
  [0x24, 0x7b, 0x61, 0x7d]

/-- What a reference to these bytes is replaced by holds a reference, which stays
in the full expansion. -/
theorem isExpansion_referenceBytes :
    IsExpansion (layered referenceBytes) "$\x7bm.b\x7d$\x7bm\x7d$\x7bd\x7d"
      "xy$\x7bm\x7db'$\x7ba\x7d'" := by
  obtain ⟨means_a, means_b, means_m, means_d⟩ := meaning_layered referenceBytes
  have shown_d : Text.quotedBytes referenceBytes = "b'$\x7ba\x7d'" := by cbv
  rw [shown_d] at means_d
  have inner : ExpandsWithin (meaning (layered referenceBytes)) 1 "$\x7ba\x7dy".toList ['x', 'y'] :=
    .followed (by decide) means_a (.literal (by decide) .nil) (.literal (by decide) .nil)
  exact ⟨2, .followed (by decide) means_b inner
    (.kept (by decide) means_m (.shown (by decide) means_d .nil))⟩

/-! ## Resolving -/

/-- A configuration whose texts are templates with chains of at most 19
references.  What shows its bytes, pairs and sets where they are named opens no
reference. -/
structure Resolvable (config : Setting) : Prop where
  templates : ∀ leaf, config.HasLeaf leaf → IsTemplate leaf.toList
  chains : ChainsWithin 19 config
  plain : ∀ key setting, lookup? config key = some setting → setting.mayShowDollar →
    IsPlain setting.display

namespace Resolvable

variable {config : Setting}

theorem showsPlain (resolvable : Resolvable config) : ShowsPlain config := by
  intro name text means
  obtain ⟨setting, found, setting_means⟩ := lookup?_of_meaning means (by simp)
  obtain ⟨isFixed, rfl⟩ := Setting.meaning_eq_shown setting_means
  exact Setting.isPlain_display isFixed (resolvable.plain _ setting found)

theorem exists_expands (resolvable : Resolvable config) (leaf : String)
    (isLeaf : config.HasLeaf leaf) : ∃ out, ExpandsWithin (meaning config) 20 leaf.toList out :=
  exists_expands_of_chains resolvable.templates (resolvable.templates leaf isLeaf)
    (resolvable.chains leaf isLeaf)

end Resolvable

/-- Resolving settles on the full expansion of all texts if these are known to
have one.  The height of the expansions is far below what the rounds can do. -/
theorem resolve_expanded {config : Setting}
    (plain : ShowsPlain config)
    (covered : ∀ leaf, config.HasLeaf leaf →
      ∃ out, ExpandsWithin (meaning config) 20 leaf.toList out) :
    ∃ result, resolve config = (result, []) ∧ Corresponds (IsExpansion config) config result := by
  have reached : 20 < 2 ^ 5 := by decide
  have enough : 5 < greatestRounds := by decide
  obtain ⟨result, rounds_eq, expanded⟩ := rounds_expand plain covered reached enough
  refine ⟨result, ?_, expanded⟩
  rw [resolve, rounds_eq]
  rfl

/-- Resolving logs nothing and makes each text its full expansion, and what comes
out does not depend on the order of the keys. -/
theorem resolve_expands_every_text {config : Setting} (resolvable : Resolvable config) :
    ∃ result, resolve config = (result, []) ∧ Corresponds (IsExpansion config) config result ∧
      (config.HasDistinctKeys → ∀ other, Reordered config other →
        ∃ another, resolve other = (another, []) ∧ Reordered result another) := by
  have plain := resolvable.showsPlain
  have covered := resolvable.exists_expands
  obtain ⟨result, resolved, expanded⟩ := resolve_expanded plain covered
  refine ⟨result, resolved, expanded, fun distinct other reordered => ?_⟩
  have names := meaning_eq_of_reordered reordered distinct
  have sameExpansion : IsExpansion other = IsExpansion config := by
    unfold IsExpansion
    rw [names]
  rw [ShowsPlain, ← names] at plain
  rw [← names] at covered
  obtain ⟨another, resolvedOther, expandedOther⟩ :=
    resolve_expanded plain fun leaf isLeaf => covered leaf (reordered.hasLeaf isLeaf)
  rw [sameExpansion] at expandedOther
  exact ⟨another, resolvedOther,
    reordered.of_corresponds expanded expandedOther fun _ _ _ _ => IsExpansion.unique⟩

/-- Bytes that open no reference. -/
theorem resolve_layered_expands :
    Resolvable (layered [0x7a]) ∧ (layered [0x7a]).HasDistinctKeys ∧
      ∃ result, resolve (layered [0x7a]) = (result, []) ∧
        Corresponds (IsExpansion (layered [0x7a])) (layered [0x7a]) result ∧
        ((layered [0x7a]).HasDistinctKeys → ∀ other, Reordered (layered [0x7a]) other →
          ∃ another, resolve other = (another, []) ∧ Reordered result another) := by
  have resolvable : Resolvable (layered [0x7a]) :=
    ⟨isTemplate_layered _, chainsWithin_layered _, isPlain_layered (by decide)⟩
  exact ⟨resolvable, hasDistinctKeys_layered _, resolve_expands_every_text resolvable⟩

/-- These bytes show a reference, which is replaced in a later round, so what
comes out is not the expansion. -/
theorem resolve_layered_reopens :
    (∀ leaf, (layered referenceBytes).HasLeaf leaf → IsTemplate leaf.toList) ∧
      ChainsWithin 19 (layered referenceBytes) ∧
      ¬ ∃ result, resolve (layered referenceBytes) = (result, []) ∧
        Corresponds (IsExpansion (layered referenceBytes)) (layered referenceBytes) result := by
  refine ⟨isTemplate_layered _, chainsWithin_layered _, ?_⟩
  rintro ⟨result, resolved, expanded⟩
  have found_s : (layered referenceBytes).at? ["s"] =
      some (.scalar (.text "$\x7bm.b\x7d$\x7bm\x7d$\x7bd\x7d")) := by cbv
  have resolved_s : (resolve (layered referenceBytes)).1.at? ["s"] =
      some (.scalar (.text "xy$\x7bm\x7db'x'")) := by cbv
  rw [resolved] at resolved_s
  have correspond := expanded.at? ["s"]
  rw [found_s, resolved_s] at correspond
  cases correspond with
  | some here =>
      obtain ⟨text, same, isExpansion⟩ := corresponds_text_iff.1 here
      have text_eq := isExpansion.unique isExpansion_referenceBytes
      rw [text_eq] at same
      simp at same

end JavaUml.Config
