import JavaUml.Proofs.Lists
import JavaUml.Proofs.Resolve.TraceOutcome
import Mathlib.Logic.Relation
import Mathlib.Order.Lattice.Nat

/-!
# Hierarchies are breadth first

The search through a hierarchy is a loop over a queue and the records visited so far.
It looks at each record once, and what a record names as its supertypes enters the queue
then and only then.  So the supertypes of the records that are still unseen bound what can
enter the queue later, and the search never stops early.

Every turn takes one record off the queue, and why it waited there is known: it is the
start, or a supertype of a record visited before.  So the records visited are the start and
the supertypes of the visited ones, in the order in which they are named, without
repetitions.  At the end of the loop this is a law of the hierarchy, and what a hierarchy
holds and how it is ordered follow from it.
-/

namespace JavaUml.Resolve

open JavaUml.Model

/-! ## The loop -/

/-- Whether a record of the same full name was visited. -/
def isSeen (visited : List TypeRecord) (record : TypeRecord) : Bool :=
  visited.any fun other => other.fullName == record.fullName

theorem isSeen_eq_true_iff {visited : List TypeRecord} {record : TypeRecord} :
    isSeen visited record = true ↔ ∃ other ∈ visited, other.fullName = record.fullName := by
  simp [isSeen]

theorem isSeen_concat (visited : List TypeRecord) (current record : TypeRecord) :
    isSeen (visited ++ [current]) record =
      (isSeen visited record || current.fullName == record.fullName) := by
  simp [isSeen]

/-- A search on its way: the records that wait, and those visited. -/
structure Search where
  queue : List TypeRecord
  visited : List TypeRecord

/-- One turn of the loop.  The first record of the queue is passed by if one of its
full name was visited.  Otherwise it is visited, and its supertypes wait. -/
inductive Turn (index : Index) : Search → Search → Prop
  | skip {current : TypeRecord} {queue visited : List TypeRecord}
      (seen : isSeen visited current = true) :
      Turn index ⟨current :: queue, visited⟩ ⟨queue, visited⟩
  | visit {current : TypeRecord} {queue visited : List TypeRecord}
      (fresh : isSeen visited current = false) :
      Turn index ⟨current :: queue, visited⟩ ⟨queue ++ parents index current, visited ++ [current]⟩

/-! ## The loop ends -/

/-- How many names the records that are not visited yet can put into the queue. -/
def unseenSupertypes (records visited : List TypeRecord) : Nat :=
  ((records.filter fun record => !isSeen visited record).flatMap TypeRecord.supertypes).length

theorem unseenSupertypes_cons (first : TypeRecord) (rest visited : List TypeRecord) :
    unseenSupertypes (first :: rest) visited =
      (if isSeen visited first then 0 else first.supertypes.length) +
        unseenSupertypes rest visited := by
  cases seen : isSeen visited first <;> simp [unseenSupertypes, seen]

/-- One more record visited leaves no more names behind. -/
theorem unseenSupertypes_concat_le (records visited : List TypeRecord) (current : TypeRecord) :
    unseenSupertypes records (visited ++ [current]) ≤ unseenSupertypes records visited := by
  induction records with
  | nil => exact Nat.le_refl _
  | cons first rest ih =>
      rw [unseenSupertypes_cons, unseenSupertypes_cons, isSeen_concat]
      cases isSeen visited first with
      | true => simpa using ih
      | false =>
          simp only [Bool.false_or]
          split <;> simp <;> omega

/-- The names of a record leave with it. -/
theorem unseenSupertypes_concat_add_le {records visited : List TypeRecord} {current : TypeRecord}
    (known : current ∈ records) (fresh : isSeen visited current = false) :
    unseenSupertypes records (visited ++ [current]) + current.supertypes.length ≤
      unseenSupertypes records visited := by
  induction records with
  | nil => cases known
  | cons first rest ih =>
      rw [unseenSupertypes_cons, unseenSupertypes_cons, isSeen_concat]
      rcases List.mem_cons.1 known with rfl | later
      · have fewer := unseenSupertypes_concat_le rest visited current
        simp only [fresh, Bool.false_or, beq_self_eq_true, if_true]
        simp
        omega
      · have fewer := ih later
        cases isSeen visited first with
        | true => simpa using fewer
        | false =>
            simp only [Bool.false_or]
            split <;> simp <;> omega

theorem length_parents_le (index : Index) (record : TypeRecord) :
    (parents index record).length ≤ record.supertypes.length :=
  List.length_filterMap_le _ _

theorem parents_subset (index : Index) (record : TypeRecord) :
    parents index record ⊆ index.types.records := by
  intro parent among
  obtain ⟨name, _, found⟩ := List.mem_filterMap.1 among
  exact Index.mem_of_find? found

/-- A search that can take as many steps as it may need: one for each record that waits,
and one for each that can still enter the queue. -/
structure IsSearching (index : Index) (records : List TypeRecord) (fuel : Nat)
    (queue visited : List TypeRecord) : Prop where
  known : queue ⊆ records
  enough : queue.length + unseenSupertypes records visited ≤ fuel

section

variable {index : Index} {records queue visited : List TypeRecord} {current : TypeRecord}
  {fuel : Nat}

/-- A record that was visited before is passed by. -/
theorem IsSearching.skip
    (searching : IsSearching index records (fuel + 1) (current :: queue) visited) :
    IsSearching index records fuel queue visited where
  known := List.subset_of_cons_subset searching.known
  enough := by
    have enough := searching.enough
    rw [List.length_cons] at enough
    omega

/-- A new record is visited, and its supertypes wait. -/
theorem IsSearching.visit (inside : index.types.records ⊆ records)
    (searching : IsSearching index records (fuel + 1) (current :: queue) visited)
    (fresh : isSeen visited current = false) :
    IsSearching index records fuel (queue ++ parents index current) (visited ++ [current]) where
  known := by
    apply List.append_subset.2 ⟨List.subset_of_cons_subset searching.known, _⟩
    exact List.Subset.trans (parents_subset index current) inside
  enough := by
    have enough := searching.enough
    have fewer := unseenSupertypes_concat_add_le
      (searching.known List.mem_cons_self) fresh
    have few := length_parents_le index current
    rw [List.length_cons] at enough
    rw [List.length_append]
    omega

/-- A search that can take enough steps empties the queue. -/
theorem IsSearching.turns (inside : index.types.records ⊆ records)
    (searching : IsSearching index records fuel queue visited) :
    Relation.ReflTransGen (Turn index) ⟨queue, visited⟩
      ⟨[], hierarchyFrom index fuel queue visited⟩ := by
  fun_induction hierarchyFrom index fuel queue visited with
  | case1 queue visited =>
      -- Without fuel there is no queue.
      have emptied : queue = [] := by
        have enough := searching.enough
        exact List.length_eq_zero_iff.1 (by omega)
      rw [emptied]
  | case2 fuel visited => exact .refl
  | case3 fuel current queue visited seen ih =>
      exact .head (.skip seen) (ih searching.skip)
  | case4 fuel current queue visited unseen ih =>
      have fresh : isSeen visited current = false := Bool.eq_false_iff.2 unseen
      exact .head (.visit fresh) (ih (searching.visit inside fresh))

end

theorem isSearching_start (index : Index) (record : TypeRecord) :
    IsSearching index (record :: index.types.records) (hierarchyBound index record) [record]
      [] where
  known := by simp
  enough := by simp [unseenSupertypes, isSeen, hierarchyBound]

/-- The search through a hierarchy ends. -/
theorem turns_hierarchy (index : Index) (record : TypeRecord) :
    Relation.ReflTransGen (Turn index) ⟨[record], []⟩ ⟨[], hierarchy index record⟩ :=
  (isSearching_start index record).turns (List.subset_cons_self ..)

/-- A search takes one turn at most. -/
theorem Turn.unique {index : Index} {search next other : Search} (first : Turn index search next)
    (second : Turn index search other) : next = other := by
  cases first with
  | skip seen =>
      cases second with
      | skip _ => rfl
      | visit fresh => exact absurd seen (by simp [fresh])
  | visit fresh =>
      cases second with
      | skip seen => exact absurd seen (by simp [fresh])
      | visit _ => rfl

/-- Where turns lead to an empty queue, no turns go on for ever. -/
theorem acc_of_turns {index : Index} {search : Search} {visited : List TypeRecord}
    (turns : Relation.ReflTransGen (Turn index) search ⟨[], visited⟩) :
    Acc (fun next search => Turn index search next) search := by
  induction turns using Relation.ReflTransGen.head_induction_on with
  | refl => exact .intro _ fun _ turn => by cases turn
  | head first _ ih => exact .intro _ fun _ turn => first.unique turn ▸ ih

/-! ## What the loop keeps -/

/-- Whether a type has another one among its supertypes, directly or not. -/
def Reaches (index : Index) : TypeRecord → TypeRecord → Prop :=
  Relation.ReflTransGen fun type parent => parent ∈ parents index type

/-- The records taken off the queue and those left there are the start and the
supertypes of the visited ones, in the order of the latter.  The visited ones are
those taken, without repetitions. -/
structure IsInOrder (index : Index) (record : TypeRecord) (search : Search) : Prop where
  taken : ∃ taken, record :: search.visited.flatMap (parents index) = taken ++ search.queue ∧
    taken.eraseDups = search.visited
  reached : ∀ other ∈ search.visited, Reaches index record other

section

variable {index : Index} {record other : TypeRecord}

theorem Reaches.mem_records (known : record ∈ index.types.records)
    (reaches : Reaches index record other) : other ∈ index.types.records := by
  cases reaches with
  | refl => exact known
  | tail _ last => exact parents_subset index _ last

/-- Records of an index that have the same full name are the same. -/
theorem isSeen_iff_mem {visited : List TypeRecord} (inside : visited ⊆ index.types.records)
    (known : record ∈ index.types.records) : isSeen visited record = true ↔ record ∈ visited := by
  constructor
  · intro seen
    obtain ⟨other, member, same⟩ := isSeen_eq_true_iff.1 seen
    rwa [← List.inj_on_of_nodup_map index.types.distinct (inside member) known same]
  · intro member
    exact isSeen_eq_true_iff.2 ⟨record, member, rfl⟩

theorem isInOrder_start (index : Index) (record : TypeRecord) :
    IsInOrder index record ⟨[record], []⟩ where
  taken := ⟨[], rfl, rfl⟩
  reached := by simp

/-- What waits in the queue is reached from the start. -/
theorem IsInOrder.reaches_of_mem_queue {search : Search} (ordered : IsInOrder index record search)
    (waiting : other ∈ search.queue) : Reaches index record other := by
  obtain ⟨taken, taken_eq, -⟩ := ordered.taken
  have named : other ∈ record :: search.visited.flatMap (parents index) :=
    taken_eq ▸ List.mem_append_right taken waiting
  rcases List.mem_cons.1 named with rfl | above
  · exact .refl
  · obtain ⟨type, visited, parent⟩ := List.mem_flatMap.1 above
    exact (ordered.reached type visited).tail parent

theorem IsInOrder.turn (known : record ∈ index.types.records) {search next : Search}
    (ordered : IsInOrder index record search) (turn : Turn index search next) :
    IsInOrder index record next := by
  have inside : search.visited ⊆ index.types.records :=
    fun _ visited => (ordered.reached _ visited).mem_records known
  obtain ⟨taken, taken_eq, visited_eq⟩ := ordered.taken
  cases turn with
  | @skip current queue visited seen =>
      have current_mem : current ∈ index.types.records :=
        (ordered.reaches_of_mem_queue List.mem_cons_self).mem_records known
      have again : current ∈ taken := by
        rw [isSeen_iff_mem inside current_mem, ← visited_eq] at seen
        exact List.mem_eraseDups.1 seen
      refine ⟨⟨taken ++ [current], ?_, ?_⟩, ordered.reached⟩
      · rw [taken_eq, List.append_assoc, List.singleton_append]
      · rw [eraseDups_concat, if_pos again, visited_eq]
  | @visit current queue visited fresh =>
      have reaches : Reaches index record current :=
        ordered.reaches_of_mem_queue List.mem_cons_self
      have new : current ∉ taken := by
        intro again
        rw [← List.mem_eraseDups, visited_eq,
          ← isSeen_iff_mem inside (reaches.mem_records known), fresh] at again
        cases again
      refine ⟨⟨taken ++ [current], ?_, ?_⟩, ?_⟩
      · rw [List.flatMap_append, List.flatMap_singleton, ← List.cons_append, taken_eq]
        simp
      · rw [eraseDups_concat, if_neg new, visited_eq]
      · simp only [List.mem_append, List.mem_singleton]
        rintro other (earlier | rfl)
        · exact ordered.reached other earlier
        · exact reaches

theorem IsInOrder.turns (known : record ∈ index.types.records) {search next : Search}
    (ordered : IsInOrder index record search)
    (turns : Relation.ReflTransGen (Turn index) search next) : IsInOrder index record next := by
  induction turns with
  | refl => exact ordered
  | tail _ last ih => exact ih.turn known last

theorem isInOrder_hierarchy (known : record ∈ index.types.records) :
    IsInOrder index record ⟨[], hierarchy index record⟩ :=
  (isInOrder_start index record).turns known (turns_hierarchy index record)

/-! ## The law of a hierarchy -/

/-- A hierarchy is its start and the supertypes of its records, in its own order and
without repetitions. -/
theorem hierarchy_eq_eraseDups (known : record ∈ index.types.records) :
    (record :: (hierarchy index record).flatMap (parents index)).eraseDups =
      hierarchy index record := by
  obtain ⟨taken, taken_eq, visited_eq⟩ := (isInOrder_hierarchy known).taken
  rw [List.append_nil] at taken_eq
  rw [taken_eq, visited_eq]

theorem mem_hierarchy_of_reflTransGen (known : record ∈ index.types.records)
    (reaches : Relation.ReflTransGen (fun type parent => parent ∈ parents index type) record
      other) :
    other ∈ hierarchy index record := by
  have law := hierarchy_eq_eraseDups known
  induction reaches with
  | refl =>
      rw [← law, List.mem_eraseDups]
      exact List.mem_cons_self
  | tail _ last ih =>
      rw [← law, List.mem_eraseDups]
      exact List.mem_cons_of_mem _ (List.mem_flatMap.2 ⟨_, ih, last⟩)

theorem mem_hierarchy_iff (known : record ∈ index.types.records) :
    other ∈ hierarchy index record ↔ Reaches index record other := by
  constructor
  · exact (isInOrder_hierarchy known).reached other
  · exact mem_hierarchy_of_reflTransGen known

theorem nodup_hierarchy (known : record ∈ index.types.records) :
    (hierarchy index record).Nodup := by
  rw [← hierarchy_eq_eraseDups known]
  exact nodup_eraseDups _

/-- Each record of an index has a full name of its own. -/
theorem nodup_map_fullName_hierarchy (known : record ∈ index.types.records) :
    ((hierarchy index record).map TypeRecord.fullName).Nodup := by
  refine (nodup_hierarchy known).map_on ?_
  intro first first_mem second second_mem same
  exact List.inj_on_of_nodup_map index.types.distinct (hierarchy_subset known first_mem)
    (hierarchy_subset known second_mem) same

theorem head?_hierarchy (known : record ∈ index.types.records) :
    (hierarchy index record).head? = some record := by
  rw [← hierarchy_eq_eraseDups known, List.eraseDups_cons, List.head?_cons]

/-- The records in front of a place in a hierarchy, and their supertypes, fill its
front. -/
theorem eraseDups_prefix_hierarchy (known : record ∈ index.types.records)
    {front back : List TypeRecord} (split : hierarchy index record = front ++ back) :
    (record :: front.flatMap (parents index)).eraseDups <+: hierarchy index record := by
  have law := hierarchy_eq_eraseDups known
  rw [split, List.flatMap_append, ← List.cons_append, List.eraseDups_append] at law
  rw [split, ← law]
  exact List.prefix_append ..

/-! ## What comes first -/

/-- What stands before a member of a front is in the front, too. -/
theorem mem_front_of_pair_sublist {α : Type} {front items : List α} {first second : α}
    (distinct : items.Nodup) (isFront : front <+: items) (before : [first, second].Sublist items)
    (held : second ∈ front) : first ∈ front := by
  obtain ⟨back, rfl⟩ := isFront
  obtain ⟨left, right, split, left_sub, right_sub⟩ := List.sublist_append_iff.1 before
  cases left with
  | nil =>
      rw [List.nil_append] at split
      have behind : second ∈ back := right_sub.subset (by simp [← split])
      exact absurd behind (List.disjoint_of_nodup_append distinct held)
  | cons head rest =>
      rw [List.cons_append, List.cons.injEq] at split
      exact left_sub.subset (by simp [split.1])

/-- Of two items, the one in a front comes first where the other one is not in it. -/
theorem pair_sublist_eraseDups {α : Type} [BEq α] [LawfulBEq α] {front back : List α}
    {first second : α} (held : first ∈ front) (absent : second ∉ front) (behind : second ∈ back) :
    [first, second].Sublist (front ++ back).eraseDups := by
  rw [List.eraseDups_append]
  refine (List.singleton_sublist.2 (List.mem_eraseDups.2 held)).append
    (List.singleton_sublist.2 (List.mem_eraseDups.2 ?_))
  simpa [List.removeAll] using ⟨behind, absent⟩

/-- What stands before a supertype of a record is the start, or a supertype of that
record or of one before it. -/
theorem exists_parent_of_before (known : record ∈ index.types.records)
    {type first second : TypeRecord} (among : type ∈ hierarchy index record)
    (named : second ∈ parents index type)
    (before : [first, second].Sublist (hierarchy index record)) :
    first = record ∨ ∃ earlier, (earlier = type ∨
      [earlier, type].Sublist (hierarchy index record)) ∧ first ∈ parents index earlier := by
  obtain ⟨front, back, split⟩ := List.append_of_mem among
  have split_behind : hierarchy index record = (front ++ [type]) ++ back := by
    rw [split, List.append_assoc, List.singleton_append]
  have isFront := eraseDups_prefix_hierarchy known split_behind
  have held : second ∈ (record :: (front ++ [type]).flatMap (parents index)).eraseDups := by
    simp [named]
  have first_mem := mem_front_of_pair_sublist (nodup_hierarchy known) isFront before held
  rw [List.mem_eraseDups, List.mem_cons] at first_mem
  refine first_mem.imp_right fun above => ?_
  obtain ⟨earlier, earlier_mem, first_named⟩ := List.mem_flatMap.1 above
  refine ⟨earlier, ?_, first_named⟩
  rcases List.mem_append.1 earlier_mem with earlier_front | same
  · right
    rw [split]
    exact (List.singleton_sublist.2 earlier_front).append (by simp)
  · exact .inl (List.mem_singleton.1 same)

/-! ## Distances -/

/-- Whether a number of steps leads from a type to another one. -/
def Ascends (index : Index) : Nat → TypeRecord → TypeRecord → Prop
  | 0, type, other => other = type
  | steps + 1, type, other =>
      ∃ middle, Ascends index steps type middle ∧ other ∈ parents index middle

/-- The inheritance distance: the least number of steps. -/
noncomputable def distance (index : Index) (record other : TypeRecord) : Nat :=
  sInf {steps | Ascends index steps record other}

theorem Ascends.reaches {steps : Nat} (ascends : Ascends index steps record other) :
    Reaches index record other := by
  induction steps generalizing other with
  | zero =>
      rw [show other = record from ascends]
      exact .refl
  | succ steps ih =>
      obtain ⟨middle, first, last⟩ := ascends
      exact (ih first).tail last

theorem Reaches.exists_ascends (reaches : Reaches index record other) :
    ∃ steps, Ascends index steps record other := by
  induction reaches with
  | refl => exact ⟨0, rfl⟩
  | tail _ last ih =>
      obtain ⟨steps, first⟩ := ih
      exact ⟨steps + 1, _, first, last⟩

/-- No more steps lead to a record than to one behind it. -/
theorem exists_ascends_of_before (known : record ∈ index.types.records) {steps : Nat}
    {first second : TypeRecord} (ascends : Ascends index steps record second)
    (before : [first, second].Sublist (hierarchy index record)) :
    ∃ fewer ≤ steps, Ascends index fewer record first := by
  induction steps generalizing first second with
  | zero =>
      -- Nothing but the start itself is in the front that ends with the start.
      have isFront := eraseDups_prefix_hierarchy known (List.nil_append _).symm
      have held : second ∈ [record].eraseDups := by
        rw [show second = record from ascends]
        simp
      have start := mem_front_of_pair_sublist (nodup_hierarchy known) isFront before held
      exact ⟨0, Nat.le_refl _, List.mem_singleton.1 (List.mem_eraseDups.1 start)⟩
  | succ steps ih =>
      obtain ⟨middle, middle_ascends, named⟩ := ascends
      have among := (mem_hierarchy_iff known).2 middle_ascends.reaches
      rcases exists_parent_of_before known among named before with rfl | ⟨earlier, place, parent⟩
      · exact ⟨0, Nat.zero_le _, rfl⟩
      · obtain ⟨fewer, le, earlier_ascends⟩ :
            ∃ fewer ≤ steps, Ascends index fewer record earlier := by
          rcases place with rfl | place
          · exact ⟨steps, Nat.le_refl _, middle_ascends⟩
          · exact ih middle_ascends place
        exact ⟨fewer + 1, Nat.succ_le_succ le, earlier, earlier_ascends, parent⟩

theorem pairwise_distance_hierarchy (known : record ∈ index.types.records) :
    (hierarchy index record).Pairwise fun first second =>
      distance index record first ≤ distance index record second := by
  rw [List.pairwise_iff_forall_sublist]
  intro first second before
  have reaches := (mem_hierarchy_iff known).1 (before.subset (by simp : second ∈ [first, second]))
  obtain ⟨fewer, le, ascends⟩ :=
    exists_ascends_of_before known (Nat.sInf_mem reaches.exists_ascends) before
  exact (Nat.sInf_le ascends).trans le

/-! ## Superclasses before interfaces -/

/-- Whether a type is first reached from another one: it is named there as a
supertype, and by none that comes before in the hierarchy. -/
structure IsFirstReached (index : Index) (record type other : TypeRecord) : Prop where
  ne_start : other ≠ record
  named : other ∈ parents index type
  absent : ∀ earlier ∈ hierarchy index record,
    [earlier, type].Sublist (hierarchy index record) → other ∉ parents index earlier

/-- The superclass of a type comes before the interfaces that are first reached from
the type. -/
theorem superclass_before_interface (known : record ∈ index.types.records)
    {type parent : TypeRecord} (among : type ∈ hierarchy index record)
    (superclass : type.superclass?.bind index.find? = some parent) {name : String}
    (listed : name ∈ type.interfaces) (found : index.find? name = some other)
    (differ : other ≠ parent) (first : IsFirstReached index record type other) :
    [parent, other].Sublist (hierarchy index record) := by
  obtain ⟨front, back, split⟩ := List.append_of_mem among
  have parents_eq : parents index type = parent :: type.interfaces.filterMap index.find? := by
    obtain ⟨extended, extended_eq, extended_found⟩ := Option.bind_eq_some_iff.1 superclass
    simp [parents, TypeRecord.supertypes, extended_eq, extended_found]
  have absent : other ∉ record :: front.flatMap (parents index) := by
    rw [List.mem_cons, List.mem_flatMap]
    rintro (same | ⟨earlier, earlier_mem, named⟩)
    · exact first.ne_start same
    · have before : [earlier, type].Sublist (hierarchy index record) := by
        rw [split]
        exact (List.singleton_sublist.2 earlier_mem).append (by simp)
      exact first.absent earlier (before.subset (by simp)) before named
  have law : (record :: front.flatMap (parents index) ++ [parent] ++
      (type.interfaces.filterMap index.find? ++ back.flatMap (parents index))).eraseDups =
        hierarchy index record := by
    rw [← hierarchy_eq_eraseDups known, split]
    simp [parents_eq]
  rw [← law]
  apply pair_sublist_eraseDups
  · simp
  · rw [List.mem_append, List.mem_singleton, not_or]
    exact ⟨absent, differ⟩
  · exact List.mem_append_left _ (List.mem_filterMap.2 ⟨name, listed, found⟩)

end

/-- The search through the hierarchy of a record of an index ends, whatever cycles and
unknown names there are.  It returns the record first, then every record that is
reached by names of supertypes and no other one, each under a full name of its own.
The distance from the start never decreases, and the superclass of a type comes before
the interfaces that are first reached from the type. -/
theorem hierarchy_breadth_first (index : Index) {record : TypeRecord}
    (known : record ∈ index.types.records) :
    Acc (fun next search => Turn index search next) ⟨[record], []⟩ ∧
      Relation.ReflTransGen (Turn index) ⟨[record], []⟩ ⟨[], hierarchy index record⟩ ∧
      (hierarchy index record).head? = some record ∧
      (∀ other, other ∈ hierarchy index record ↔ Reaches index record other) ∧
      ((hierarchy index record).map TypeRecord.fullName).Nodup ∧
      ((hierarchy index record).Pairwise fun first second =>
        distance index record first ≤ distance index record second) ∧
      ∀ type ∈ hierarchy index record, ∀ parent other, ∀ name ∈ type.interfaces,
        type.superclass?.bind index.find? = some parent → index.find? name = some other →
          other ≠ parent → IsFirstReached index record type other →
            [parent, other].Sublist (hierarchy index record) := by
  have turns := turns_hierarchy index record
  refine ⟨acc_of_turns turns, turns, head?_hierarchy known, fun _ => mem_hierarchy_iff known,
    nodup_map_fullName_hierarchy known, pairwise_distance_hierarchy known, ?_⟩
  intro type among parent other name listed superclass found differ first
  exact superclass_before_interface known among superclass listed found differ first

/-! ### A knot

The start extends a class and implements an interface that both lead to the top, and
the top leads back to the start.  It is its own interface, too, and one name has no
type. -/

def knotStart : TypeRecord :=
  { TypeRecord.named "Start" with
    package := "a", superclass := some "Middle", interfaces := ["Lost", "Side"] }

def knotMiddle : TypeRecord :=
  { TypeRecord.named "Middle" with superclass := some "Top", interfaces := ["Side", "Rim"] }

def knotSide : TypeRecord :=
  { TypeRecord.named "Side" with isInterface := true, superclass := some "Top" }

def knotTop : TypeRecord :=
  { TypeRecord.named "Top" with superclass := some "a.Start", interfaces := ["Top"] }

def knotRim : TypeRecord :=
  { TypeRecord.named "Rim" with package := "b", isInterface := true }

def knot : Index :=
  ⟨.ofRecords [knotTop, knotStart, knotSide, knotMiddle, knotRim]⟩

theorem hierarchy_knot :
    knotStart ∈ knot.types.records ∧
      hierarchy knot knotStart = [knotStart, knotMiddle, knotSide, knotTop, knotRim] ∧
      Relation.ReflTransGen (Turn knot) ⟨[knotStart], []⟩ ⟨[], hierarchy knot knotStart⟩ ∧
      ((hierarchy knot knotStart).Pairwise fun first second =>
        distance knot knotStart first ≤ distance knot knotStart second) ∧
      IsFirstReached knot knotStart knotMiddle knotRim ∧
      [knotTop, knotRim].Sublist (hierarchy knot knotStart) := by
  have known : knotStart ∈ knot.types.records := by decide
  have first : IsFirstReached knot knotStart knotMiddle knotRim :=
    ⟨by decide, by decide +kernel, by decide +kernel⟩
  obtain ⟨-, turns, -, -, -, ordered, before⟩ := hierarchy_breadth_first knot known
  refine ⟨known, by decide +kernel, turns, ordered, first, ?_⟩
  exact before knotMiddle (by decide +kernel) knotTop knotRim "Rim" (by decide) (by decide +kernel)
    (by decide +kernel) (by decide) first

end JavaUml.Resolve
