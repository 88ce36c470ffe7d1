/-!
# Associations in insertion order

A list of keys and values stands for a finite map that remembers the order in
which its keys came.  A new value for a known key takes the place of the old
one.

Keys of one form are one key, and the key that came first is kept.  Mostly each
key is its own form.
-/

namespace JavaUml.Ordered

/-! ## Keys with a form -/

section Form

variable {κ φ α : Type} [DecidableEq φ] (form : κ → φ)

/-- Set the value of a key among keys with a form. -/
def putBy (key : κ) (value : α) : List (κ × α) → List (κ × α)
  | [] => [(key, value)]
  | (other, old) :: rest =>
      if form other = form key then (other, value) :: rest
      else (other, old) :: putBy key value rest

/-- The value of a key among keys with a form. -/
def getBy? (key : κ) : List (κ × α) → Option α
  | [] => none
  | (other, value) :: rest => if form other = form key then some value else getBy? key rest

/-- The forms of the keys, in order. -/
def forms (entries : List (κ × α)) : List φ :=
  entries.map fun entry => form entry.1

omit [DecidableEq φ] in
theorem forms_eq (entries : List (κ × α)) : forms form entries = (entries.map Prod.fst).map form :=
  (List.map_map).symm

omit [DecidableEq φ] in
theorem mem_forms_cons {key other : κ} {value : α} {entries : List (κ × α)} :
    form key ∈ forms form ((other, value) :: entries) ↔
      form key = form other ∨ form key ∈ forms form entries :=
  List.mem_cons

@[simp]
theorem getBy?_putBy (key other : κ) (value : α) (map : List (κ × α)) :
    getBy? form other (putBy form key value map) =
      if form key = form other then some value else getBy? form other map := by
  induction map with
  | nil => simp [putBy, getBy?]
  | cons entry rest ih =>
      obtain ⟨known, old⟩ := entry
      by_cases same : form known = form key
      · by_cases hit : form known = form other
        · simp [putBy, getBy?, hit, ← same]
        · simp [putBy, getBy?, hit, ← same]
      · by_cases hit : form known = form other
        · have differ : ¬ form key = form other := fun h => same (hit.trans h.symm)
          rw [putBy, if_neg same, getBy?, if_pos hit, if_neg differ, getBy?, if_pos hit]
        · simp [putBy, getBy?, same, hit, ih]

variable {form}

/-- Keys of one form have one value. -/
theorem getBy?_congr {key other : κ} (same : form key = form other) (entries : List (κ × α)) :
    getBy? form key entries = getBy? form other entries := by
  induction entries with
  | nil => rfl
  | cons entry rest ih => rw [getBy?, getBy?, same, ih]

theorem getBy?_eq_none_iff {key : κ} {entries : List (κ × α)} :
    getBy? form key entries = none ↔ form key ∉ forms form entries := by
  induction entries with
  | nil => simp [getBy?, forms]
  | cons entry rest ih =>
      obtain ⟨known, old⟩ := entry
      rw [getBy?, mem_forms_cons]
      by_cases hit : form known = form key
      · simp [hit]
      · simp [hit, ih, Ne.symm hit]

/-- A known key stays in its position, and a new one comes last. -/
theorem map_fst_putBy (key : κ) (value : α) (entries : List (κ × α)) :
    (putBy form key value entries).map Prod.fst =
      if form key ∈ forms form entries then entries.map Prod.fst
      else entries.map Prod.fst ++ [key] := by
  induction entries with
  | nil => simp [putBy, forms]
  | cons entry rest ih =>
      obtain ⟨known, old⟩ := entry
      simp only [putBy, mem_forms_cons]
      by_cases hit : form known = form key
      · simp [hit]
      · by_cases mem : form key ∈ forms form rest <;> simp [hit, Ne.symm hit, ih, mem]

theorem nodup_forms_putBy {entries : List (κ × α)} (distinct : (forms form entries).Nodup)
    (key : κ) (value : α) : (forms form (putBy form key value entries)).Nodup := by
  rw [forms_eq, map_fst_putBy]
  split
  · rwa [← forms_eq]
  · rename_i absent
    rw [List.map_append, ← forms_eq, List.nodup_append]
    refine ⟨distinct, by simp, fun known mem other other_mem same => ?_⟩
    obtain rfl := List.mem_singleton.1 other_mem
    exact absent (same ▸ mem)

/-- Setting the value that a key has changes nothing. -/
theorem putBy_of_getBy? {key : κ} {value : α} {entries : List (κ × α)}
    (found : getBy? form key entries = some value) : putBy form key value entries = entries := by
  induction entries with
  | nil => simp [getBy?] at found
  | cons entry rest ih =>
      obtain ⟨known, old⟩ := entry
      by_cases hit : form known = form key
      · simp_all [getBy?, putBy]
      · simp_all [getBy?, putBy]

/-- Among keys of distinct forms, a new value takes the place of the old one. -/
theorem putBy_middle {front back : List (κ × α)} {key : κ} {old : α}
    (distinct : (forms form (front ++ (key, old) :: back)).Nodup) (new : α) :
    putBy form key new (front ++ (key, old) :: back) = front ++ (key, new) :: back := by
  induction front with
  | nil => simp [putBy]
  | cons entry front ih =>
      rw [List.cons_append, forms, List.map_cons, List.nodup_cons] at distinct
      have differ : form entry.1 ≠ form key := fun same => distinct.1 (by simp [same])
      rw [List.cons_append, putBy, if_neg differ, ih distinct.2, List.cons_append]

theorem mem_of_mem_putBy {key : κ} {value : α} {entries : List (κ × α)} {entry : κ × α}
    (mem : entry ∈ putBy form key value entries) : entry ∈ entries ∨ entry.2 = value := by
  induction entries with
  | nil =>
      obtain rfl := List.mem_singleton.1 mem
      exact .inr rfl
  | cons first rest ih =>
      rw [putBy] at mem
      split at mem
      · rcases List.mem_cons.1 mem with rfl | behind
        · exact .inr rfl
        · exact .inl (List.mem_cons_of_mem _ behind)
      · rcases List.mem_cons.1 mem with rfl | behind
        · exact .inl List.mem_cons_self
        · exact (ih behind).imp_left (List.mem_cons_of_mem _)

theorem mem_of_getBy? {key : κ} {value : α} {entries : List (κ × α)}
    (found : getBy? form key entries = some value) :
    ∃ known, form known = form key ∧ (known, value) ∈ entries := by
  induction entries with
  | nil => simp [getBy?] at found
  | cons entry rest ih =>
      obtain ⟨known, old⟩ := entry
      by_cases hit : form known = form key
      · rw [getBy?, if_pos hit, Option.some.injEq] at found
        exact ⟨known, hit, found ▸ List.mem_cons_self⟩
      · rw [getBy?, if_neg hit] at found
        obtain ⟨other, same, mem⟩ := ih found
        exact ⟨other, same, List.mem_cons_of_mem _ mem⟩

/-- Among keys of distinct forms, each entry gives the value of its key. -/
theorem getBy?_of_mem {key : κ} {value : α} {entries : List (κ × α)}
    (distinct : (forms form entries).Nodup) (mem : (key, value) ∈ entries) :
    getBy? form key entries = some value := by
  induction entries with
  | nil => simp at mem
  | cons entry rest ih =>
      obtain ⟨known, old⟩ := entry
      simp only [forms, List.map_cons, List.nodup_cons] at distinct
      rcases List.mem_cons.1 mem with same | behind
      · simp_all [getBy?]
      · have differ : form known ≠ form key := by
          intro same
          exact distinct.1 (List.mem_map.2 ⟨_, behind, same.symm⟩)
        rw [getBy?, if_neg differ, ih distinct.2 behind]

end Form

/-! ## Keys that are their own form -/

variable {κ : Type} {α : Type} [DecidableEq κ]

/-- Set the value of a key. -/
def put (key : κ) (value : α) (entries : List (κ × α)) : List (κ × α) :=
  putBy id key value entries

/-- The value of a key. -/
def get? (key : κ) (entries : List (κ × α)) : Option α :=
  getBy? id key entries

/-- Set values one after the other. -/
def ofList (entries : List (κ × α)) : List (κ × α) :=
  entries.foldl (fun map entry => put entry.1 entry.2 map) []

theorem get?_nil (key : κ) : get? key ([] : List (κ × α)) = none :=
  rfl

theorem get?_cons (key other : κ) (value : α) (entries : List (κ × α)) :
    get? key ((other, value) :: entries) =
      if other = key then some value else get? key entries :=
  rfl

@[simp]
theorem get?_put (key other : κ) (value : α) (map : List (κ × α)) :
    get? other (put key value map) = if key = other then some value else get? other map :=
  getBy?_putBy id key other value map

theorem get?_foldl_put (key : κ) (entries map : List (κ × α))
    (distinct : (entries.map Prod.fst).Nodup) :
    get? key (entries.foldl (fun map entry => put entry.1 entry.2 map) map) =
      ((entries.find? fun entry => entry.1 = key).map Prod.snd).or (get? key map) := by
  induction entries generalizing map with
  | nil => simp
  | cons entry rest ih =>
      obtain ⟨first, value⟩ := entry
      simp only [List.map_cons, List.nodup_cons] at distinct
      rw [List.foldl_cons, ih _ distinct.2, get?_put]
      by_cases same : first = key
      · subst same
        have absent : rest.find? (fun entry => entry.1 = first) = none := by
          simp only [List.find?_eq_none, decide_eq_true_eq]
          intro entry mem same
          exact distinct.1 (List.mem_map.2 ⟨entry, mem, same⟩)
        simp [absent]
      · simp [same]

/-- Among distinct keys, the value of a key is the one that was set for it. -/
theorem get?_ofList (key : κ) (entries : List (κ × α)) (distinct : (entries.map Prod.fst).Nodup) :
    get? key (ofList entries) = (entries.find? fun entry => entry.1 = key).map Prod.snd := by
  rw [ofList, get?_foldl_put key entries [] distinct]
  simp [get?_nil]

theorem mem_of_get? {key : κ} {value : α} {entries : List (κ × α)}
    (found : get? key entries = some value) : (key, value) ∈ entries := by
  obtain ⟨known, rfl, mem⟩ := mem_of_getBy? found
  exact mem

/-- Among distinct keys, each entry gives the value of its key. -/
theorem get?_of_mem {key : κ} {value : α} {entries : List (κ × α)}
    (distinct : (entries.map Prod.fst).Nodup) (mem : (key, value) ∈ entries) :
    get? key entries = some value :=
  getBy?_of_mem distinct mem

/-- Among distinct keys, the order of the entries does not matter. -/
theorem get?_perm {entries others : List (κ × α)} (key : κ)
    (distinct : (entries.map Prod.fst).Nodup) (reordered : entries.Perm others) :
    get? key others = get? key entries := by
  have distinctOthers : (others.map Prod.fst).Nodup := (reordered.map Prod.fst).nodup distinct
  ext value
  constructor
  · intro found
    exact get?_of_mem distinct (reordered.mem_iff.2 (mem_of_get? found))
  · intro found
    exact get?_of_mem distinctOthers (reordered.mem_iff.1 (mem_of_get? found))

end JavaUml.Ordered
