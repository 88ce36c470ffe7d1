import JavaUml.Yaml.Value

/-!
# Keys of documents that are read

Whatever a text holds, no two keys of a mapping in its document have one form:
entries are put into a mapping one after the other, and nothing else makes one.
-/

namespace JavaUml.Config

/-- No two keys of a mapping have one form. -/
def Parts.AreKeyed (parts : Parts) : Prop :=
  ∀ (number : Nat) (entries : List (Scalar × Item)), parts[number]? = some (.mapping entries) →
    (Ordered.forms Scalar.keyForm entries).Nodup

/-- No two keys have one form, if this is a mapping. -/
def Content.IsKeyed (content : Content) : Prop :=
  ∀ entries, content = .mapping entries → (Ordered.forms Scalar.keyForm entries).Nodup

theorem Parts.AreKeyed.push {parts : Parts} (keyed : parts.AreKeyed) {content : Content}
    (isKeyed : content.IsKeyed) : AreKeyed (parts.push content) := by
  intro number entries found
  rw [Array.getElem?_push] at found
  split at found
  · exact isKeyed entries (Option.some.inj found)
  · exact keyed number entries found

theorem Parts.AreKeyed.set {parts : Parts} (keyed : parts.AreKeyed) (number : Nat)
    {content : Content} (isKeyed : content.IsKeyed) :
    AreKeyed (parts.setIfInBounds number content) := by
  intro other entries found
  rw [Array.getElem?_setIfInBounds] at found
  split at found
  · split at found
    · exact isKeyed entries (Option.some.inj found)
    · cases found
  · exact keyed other entries found

end JavaUml.Config

namespace JavaUml.Yaml

open Config (Scalar Item Content Document)

namespace Build

/-- A step keeps the keys of all mappings distinct, and what it gives has a
property. -/
def Keeps {α : Type} (step : Build α) (property : α → Prop) : Prop :=
  ∀ before result after, before.parts.AreKeyed → step.run before = .ok (result, after) →
    after.parts.AreKeyed ∧ property result

section Rules

variable {α β : Type}

theorem Keeps.pure {result : α} {property : α → Prop} (has : property result) :
    Keeps (pure result) property := by
  rintro before _ _ keyed ⟨⟩
  exact ⟨keyed, has⟩

theorem Keeps.throw (fault : Fault) (property : α → Prop) :
    Keeps (throw fault) property := by
  rintro _ _ _ _ ⟨⟩

theorem Keeps.bind {step : Build α} {next : α → Build β} {middle : α → Prop} {property : β → Prop}
    (first : Keeps step middle) (second : ∀ result, middle result → Keeps (next result) property) :
    Keeps (step >>= next) property := by
  intro before last after keyed ran
  rw [StateT.run_bind] at ran
  cases ran_first : step.run before with
  | error fault =>
      rw [ran_first] at ran
      cases ran
  | ok done =>
      rw [ran_first] at ran
      obtain ⟨keyed_after, has⟩ := first _ _ _ keyed ran_first
      exact second done.1 has _ _ _ keyed_after ran

theorem Keeps.get : Keeps get fun building : Building => building.parts.AreKeyed := by
  rintro _ _ _ keyed ⟨⟩
  exact ⟨keyed, keyed⟩

theorem Keeps.modify {update : Building → Building}
    (keeps : ∀ building, building.parts.AreKeyed → (update building).parts.AreKeyed) :
    Keeps (modify update) fun _ => True := by
  rintro _ _ _ keyed ⟨⟩
  exact ⟨keeps _ keyed, trivial⟩

theorem Keeps.weaken {step : Build α} {property : α → Prop} (keeps : Keeps step property) :
    Keeps step fun _ => True := by
  intro _ _ _ keyed ran
  exact ⟨(keeps _ _ _ keyed ran).1, trivial⟩

theorem Keeps.mapM {items : List α} {step : α → Build β}
    (each : ∀ item, Keeps (step item) fun _ => True) :
    Keeps (items.mapM step) fun _ => True := by
  induction items with
  | nil => exact .pure trivial
  | cons item items ih =>
      rw [List.mapM_cons]
      exact .bind (each item) fun _ _ => .bind ih fun _ _ => .pure trivial

theorem Keeps.foldlM {items : List α} {step : β → α → Build β} {property : β → Prop}
    (each : ∀ done item, property done → Keeps (step done item) property) {start : β}
    (has : property start) : Keeps (items.foldlM step start) property := by
  induction items generalizing start with
  | nil => exact .pure has
  | cons item items ih =>
      rw [List.foldlM_cons]
      exact .bind (each start item has) fun _ has => ih has

theorem Keeps.filterM {items : List α} {test : α → Build Bool}
    (each : ∀ item, Keeps (test item) fun _ => True) :
    Keeps (items.filterM test) fun _ => True := by
  have aux (kept : List α) : Keeps (items.filterAuxM test kept) fun _ => True := by
    induction items generalizing kept with
    | nil => exact .pure trivial
    | cons item items ih =>
        rw [List.filterAuxM]
        exact .bind (each item) fun _ _ => ih _
  exact .bind (aux []) fun _ _ => .pure trivial

end Rules

/-! ## Looking at nodes -/

theorem keeps_node? (number : Nat) : Keeps (node? number) fun _ => True :=
  .bind .get fun _ _ => .pure trivial

theorem keeps_tagOf (number : Nat) : Keeps (tagOf number) fun _ => True := by
  refine .bind (keeps_node? number) fun node _ => ?_
  split <;> exact .pure trivial

theorem keeps_entriesOf? (number : Nat) : Keeps (entriesOf? number) fun _ => True := by
  refine .bind (keeps_node? number) fun node _ => ?_
  split <;> exact .pure trivial

theorem keeps_setNode (number : Nat) (node : Node) : Keeps (setNode number node) fun _ => True :=
  .modify fun _ keyed => keyed

theorem keeps_setEntries (number : Nat) (entries : List (Nat × Nat)) :
    Keeps (setEntries number entries) fun _ => True :=
  .bind (keeps_tagOf number) fun _ _ => keeps_setNode number _

theorem keeps_mergedFrom {flatten : Nat → Build Unit}
    (each : ∀ number, Keeps (flatten number) fun _ => True) (value : Nat) :
    Keeps (mergedFrom flatten value) fun _ => True := by
  refine .bind (keeps_node? value) fun node _ => ?_
  split
  · exact .bind (each value) fun _ _ => .bind (keeps_entriesOf? value) fun _ _ => .pure trivial
  · refine .bind (.mapM fun item => .bind (keeps_entriesOf? item) fun entries _ => ?_) fun _ _ =>
      .pure trivial
    dsimp only
    split
    · exact .bind (.throw _ fun _ => True) fun _ _ => .bind (each item) fun _ _ =>
        .bind (keeps_entriesOf? item) fun _ _ => .pure trivial
    · exact .bind (each item) fun _ _ => .bind (keeps_entriesOf? item) fun _ _ => .pure trivial
  · exact .throw _ _

theorem keeps_flattenFrom (steps number index : Nat) (merged : List (Nat × Nat)) :
    Keeps (flattenFrom steps number index merged) fun _ => True := by
  induction steps generalizing number index merged with
  | zero => exact .throw _ _
  | succ steps ih =>
      rw [flattenFrom]
      refine .bind (keeps_entriesOf? number) fun entries _ => ?_
      dsimp only
      split
      · split
        · exact .pure trivial
        · exact keeps_setEntries number _
      · rename_i key value _
        refine .bind (keeps_tagOf key) fun tag _ => ?_
        split
        · exact .bind (keeps_setEntries number _) fun _ _ =>
            .bind (keeps_mergedFrom (fun source => ih source 0 []) value) fun _ _ => ih _ _ _
        · refine .bind (keeps_node? key) fun node _ => ?_
          split
          · exact .bind (keeps_setNode key _) fun _ _ => ih _ _ _
          · exact ih _ _ _
        · exact ih _ _ _

theorem keeps_flatten (number : Nat) : Keeps (flatten number) fun _ => True :=
  .bind .get fun _ _ => keeps_flattenFrom _ number 0 []

/-! ## Making parts -/

theorem keeps_textOf (steps number : Nat) : Keeps (textOf steps number) fun _ => True := by
  induction steps generalizing number with
  | zero => exact .throw _ _
  | succ steps ih =>
      rw [textOf]
      refine .bind (keeps_node? number) fun node _ => ?_
      split
      · exact .pure trivial
      · refine .bind (.filterM fun entry => .bind (keeps_tagOf entry.1) fun _ _ => .pure trivial)
          fun marked _ => ?_
        split
        · exact ih _
        · exact .throw _ _
      · exact .throw _ _

theorem Keeps.ofExcept {α : Type} (result : Except Fault α) :
    Keeps (liftM result : Build α) fun _ => True := by
  intro before value after keyed ran
  cases result with
  | error fault => cases ran
  | ok value =>
      cases ran
      exact ⟨keyed, trivial⟩

theorem keeps_item (number : Nat) : Keeps (item number) fun _ => True := by
  refine .bind (keeps_tagOf number) fun tag _ => ?_
  split
  · refine .bind (.modify fun building keyed => ?_) fun _ _ => .pure trivial
    split <;> exact keyed
  · split
    · exact .throw _ _
    · exact .throw _ _
    · exact .throw _ _
    · refine .bind .get fun _ _ => .bind (keeps_textOf _ number) fun text _ =>
        .bind (keeps_entriesOf? number) fun entries _ => ?_
      have value : Keeps (do return .scalar (← scalarValue tag text) : Build Item) fun _ => True :=
        .bind (.ofExcept _) fun _ _ => .pure trivial
      dsimp only
      split
      · exact .bind (.throw _ fun _ => True) fun _ _ => value
      · exact value

theorem keeps_key (number : Nat) : Keeps (key number) fun _ => True := by
  refine .bind (keeps_item number) fun item _ => ?_
  split
  · exact .pure trivial
  · exact .throw _ _

/-- Entries are put in one after the other. -/
theorem keeps_entries (number : Nat) :
    Keeps (entries number) fun entries => (Ordered.forms Scalar.keyForm entries).Nodup := by
  have puts (nodes : List (Nat × Nat)) : Keeps
      (nodes.foldlM (fun done (entry : Nat × Nat) => do
        let key ← key entry.1
        let value ← item entry.2
        return Ordered.putBy Scalar.keyForm key value done) [])
      fun entries : List (Scalar × Item) => (Ordered.forms Scalar.keyForm entries).Nodup :=
    .foldlM (fun done entry distinct => .bind (keeps_key entry.1) fun key _ =>
      .bind (keeps_item entry.2) fun value _ =>
        .pure (Ordered.nodup_forms_putBy distinct key value)) .nil
  refine .bind (keeps_entriesOf? number) fun nodes _ => ?_
  have all := Keeps.bind (keeps_flatten number) fun _ _ =>
    .bind (keeps_entriesOf? number) fun nodes _ => puts (nodes.getD [])
  dsimp only
  split
  · exact .bind (.throw _ fun _ => True) fun _ _ => all
  · exact all

theorem keeps_pairOf (number : Nat) : Keeps (pairOf number) fun _ => True := by
  refine .bind (keeps_entriesOf? number) fun entries _ => ?_
  split
  · rename_i first second
    refine .bind (keeps_item first) fun one _ => .bind (keeps_item second) fun other _ =>
      .bind .get fun building keyed => .bind (.modify fun _ _ => ?_) fun _ _ => .pure trivial
    exact keyed.push fun entries same => by cases same
  · exact .throw _ _

theorem keeps_content (number : Nat) : Keeps (content number) Content.IsKeyed := by
  refine .bind (keeps_tagOf number) fun tag _ => .bind (keeps_node? number) fun node _ => ?_
  split
  · refine .bind (keeps_entries number) fun entries distinct => .pure ?_
    rintro _ ⟨⟩
    exact distinct
  · exact .bind (keeps_entries number) fun _ _ => .pure (by rintro _ ⟨⟩)
  · exact .bind (.mapM keeps_item) fun _ _ => .pure (by rintro _ ⟨⟩)
  · exact .bind (.mapM keeps_pairOf) fun _ _ => .pure (by rintro _ ⟨⟩)
  · exact .bind (.mapM keeps_pairOf) fun _ _ => .pure (by rintro _ ⟨⟩)
  · exact .throw _ _

theorem keeps_fill (steps : Nat) : Keeps (fill steps) fun _ => True := by
  induction steps with
  | zero => exact .pure trivial
  | succ steps ih =>
      rw [fill]
      refine .bind .get fun building _ => ?_
      split
      · exact .pure trivial
      · refine .bind (.modify fun _ keyed => keyed) fun _ _ =>
          .bind (keeps_content _) fun filled isKeyed => .bind (.modify fun _ keyed => ?_)
            fun _ _ => ih
        exact keyed.set _ isKeyed

end Build

theorem Graph.areKeyed_of_document (graph : Graph) {document : Document}
    (built : graph.document = .ok document) : document.parts.AreKeyed := by
  let start : Building :=
    { nodes := graph.nodes
      parts := graph.nodes.map fun _ => .sequence []
      met := []
      waiting := [] }
  have start_keyed : start.parts.AreKeyed := by
    intro number entries found
    rw [Array.getElem?_map, Option.map_eq_some_iff] at found
    obtain ⟨_, _, same⟩ := found
    cases same
  rw [Graph.document] at built
  cases met : (Build.item graph.root).run start with
  | error fault =>
      rw [met] at built
      cases built
  | ok begun =>
      rw [met] at built
      have begun_keyed := (Build.keeps_item graph.root _ _ _ start_keyed met).1
      change (Build.fill (graph.nodes.size + 1)).run begun.2 >>= (fun done =>
        pure (⟨done.2.parts, begun.1⟩ : Document)) = .ok document at built
      cases filled : (Build.fill (graph.nodes.size + 1)).run begun.2 with
      | error fault =>
          rw [filled] at built
          cases built
      | ok done =>
          rw [filled] at built
          cases built
          exact (Build.keeps_fill _ _ _ _ begun_keyed filled).1

/-- No two keys of a mapping in a document that is read have one form. -/
theorem areKeyed_of_parse {source : Source} {document : Document}
    (read : parse source = .ok document) : document.parts.AreKeyed := by
  rw [parse] at read
  cases graphs : readGraph source with
  | error fault =>
      rw [graphs] at read
      cases read
  | ok graph =>
      rw [graphs] at read
      cases graph with
      | none =>
          cases read
          intro number entries found
          simp at found
      | some graph => exact graph.areKeyed_of_document read

end JavaUml.Yaml
