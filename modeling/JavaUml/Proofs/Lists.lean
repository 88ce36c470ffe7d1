import Mathlib.Data.List.Forall2
import Mathlib.Data.List.Induction
import Mathlib.Data.List.Nodup

/-!
# Lists

Facts about lists that several theories use: lists without repetitions, searches,
and lists whose members are related one by one.
-/

namespace JavaUml

/-! ## Repetitions -/

theorem eraseDups_concat {α : Type} [BEq α] [LawfulBEq α] (names : List α) (name : α) :
    (names ++ [name]).eraseDups =
      if name ∈ names then names.eraseDups else names.eraseDups ++ [name] := by
  rw [List.eraseDups_append]
  by_cases known : name ∈ names <;> simp [List.removeAll, known, List.eraseDups_cons]

theorem nodup_eraseDups {α : Type} [BEq α] [LawfulBEq α] (names : List α) :
    names.eraseDups.Nodup := by
  induction names using List.reverseRecOn with
  | nil => simp
  | append_singleton names name ih =>
      rw [eraseDups_concat]
      by_cases known : name ∈ names
      · rw [if_pos known]
        exact ih
      · rw [if_neg known, ← List.concat_eq_append, List.nodup_concat, List.mem_eraseDups]
        exact ⟨known, ih⟩

/-! ## Searches -/

/-- A search finds the one item that it can find. -/
theorem find?_eq_some_of_unique {α : Type} {found : α → Bool} {items : List α} {item : α}
    (member : item ∈ items) (holds : found item = true)
    (unique : ∀ other ∈ items, found other = true → other = item) :
    items.find? found = some item := by
  obtain ⟨first, first_eq⟩ := Option.isSome_iff_exists.1 (List.find?_isSome.2 ⟨item, member, holds⟩)
  rw [first_eq, unique first (List.mem_of_find?_eq_some first_eq) (List.find?_some first_eq)]

theorem mapM_eq_some_map {α β : Type} {read : α → Option β} {result : α → β} {items : List α}
    (each : ∀ item ∈ items, read item = some (result item)) :
    items.mapM read = some (items.map result) := by
  induction items with
  | nil => rfl
  | cons item items ih =>
      rw [List.forall_mem_cons] at each
      rw [List.mapM_cons, each.1, ih each.2]
      rfl

/-! ## Members related one by one -/

theorem exists_mem_of_forall₂ {α β : Type} {related : α → β → Prop} {items : List α}
    {others : List β} (each : List.Forall₂ related items others) {other : β}
    (mem : other ∈ others) : ∃ item ∈ items, related item other := by
  induction each with
  | nil => simp at mem
  | @cons item first items others pair _ ih =>
      rcases List.mem_cons.1 mem with rfl | behind
      · exact ⟨item, List.mem_cons_self, pair⟩
      · obtain ⟨item, item_mem, item_related⟩ := ih behind
        exact ⟨item, List.mem_cons_of_mem _ item_mem, item_related⟩

/-- A relation between lists may be replaced by one that holds as well for their
members. -/
theorem forall₂_imp_mem {α β : Type} {related other : α → β → Prop} {items : List α}
    {others : List β} (each : List.Forall₂ related items others)
    (weaken : ∀ a ∈ items, ∀ b ∈ others, related a b → other a b) :
    List.Forall₂ other items others := by
  induction each with
  | nil => exact .nil
  | @cons a b items others pair _ ih =>
      refine .cons (weaken a List.mem_cons_self b List.mem_cons_self pair) (ih ?_)
      intro a mem b behind
      exact weaken a (List.mem_cons_of_mem _ mem) b (List.mem_cons_of_mem _ behind)

/-- If something goes with what is related to one member, a list goes with the
lists that are related to one list. -/
theorem exists_forall₂ {α β γ δ : Type} {first : α → β → Prop} {second : α → γ → Prop}
    {left : β → δ → Prop} {right : γ → δ → Prop} {items : List α} {withItems : List β}
    {others : List γ} (firsts : List.Forall₂ first items withItems)
    (seconds : List.Forall₂ second items others)
    (join : ∀ item, ∀ withItem ∈ withItems, ∀ other, first item withItem → second item other →
      ∃ result, left withItem result ∧ right other result) :
    ∃ results, List.Forall₂ left withItems results ∧ List.Forall₂ right others results := by
  induction firsts generalizing others with
  | nil =>
      cases seconds
      exact ⟨[], .nil, .nil⟩
  | cons first_here _ ih =>
      cases seconds with
      | cons second_here seconds =>
          obtain ⟨result, left_here, right_here⟩ :=
            join _ _ List.mem_cons_self _ first_here second_here
          obtain ⟨results, lefts, rights⟩ := ih seconds fun item withItem mem =>
            join item withItem (List.mem_cons_of_mem _ mem)
          exact ⟨result :: results, .cons left_here lefts, .cons right_here rights⟩

/-- Lists that go with related lists are related, if what goes with related
members is. -/
theorem forall₂_of_forall₂ {α β γ δ : Type} {related : α → β → Prop} {first : α → γ → Prop}
    {second : β → δ → Prop} {result : γ → δ → Prop} {items : List α} {others : List β}
    (each : List.Forall₂ related items others) {withItems : List γ} {withOthers : List δ}
    (firsts : List.Forall₂ first items withItems) (seconds : List.Forall₂ second others withOthers)
    (join : ∀ item ∈ items, ∀ other withItem withOther, related item other →
      first item withItem → second other withOther → result withItem withOther) :
    List.Forall₂ result withItems withOthers := by
  induction each generalizing withItems withOthers with
  | nil =>
      cases firsts
      cases seconds
      exact .nil
  | cons pair _ ih =>
      cases firsts with
      | cons first_here firsts =>
          cases seconds with
          | cons second_here seconds =>
              exact .cons (join _ List.mem_cons_self _ _ _ pair first_here second_here)
                (ih firsts seconds fun item mem => join item (List.mem_cons_of_mem _ mem))

end JavaUml
