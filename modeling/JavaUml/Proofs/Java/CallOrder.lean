import JavaUml.Java.CallSite
import Mathlib.Data.List.Forall2

/-!
# Every call once, in order

Call sites are values, and two calls of a tree may look alike.  To say that each
call is noted once and which one comes first, calls are told apart by their
positions: the turns that lead from the root to them.

`callPositions` visits a tree as `callSites` does and notes positions in place of
call sites.  Its laws are that it has each position of a call once, that the n-th
position is where the n-th call site stands, and that a call comes behind the
calls inside of it and those in front of it in its chain.
-/

namespace JavaUml.Java

/-! ## Parts and positions -/

theorem callSitesAll_append (nodes others : List Node) :
    callSitesAll (nodes ++ others) = callSitesAll nodes ++ callSitesAll others := by
  induction nodes with
  | nil => rfl
  | cons node rest ih => simp [callSitesAll, ih]

theorem preorderAll_append (nodes others : List Node) :
    preorderAll (nodes ++ others) = preorderAll nodes ++ preorderAll others := by
  induction nodes with
  | nil => rfl
  | cons node rest ih => simp [preorderAll, ih]

namespace Node

/-- The parts of a node in the order in which they are visited, without
selectors. -/
def parts : Node → List Node
  | .type _ annotations constants members => annotations ++ constants ++ members
  | .constant _ parts => parts
  | .field _ _ _ parts => parts
  | .method _ annotations parameters body => annotations ++ parameters ++ body
  | .parameter _ _ _ annotations => annotations
  | .variables _ _ parts => parts
  | .caught _ _ => []
  | .primary _ parts _ => parts
  | .group _ parts => parts

/-- The selectors behind a node. -/
def selectors : Node → List Node
  | .primary _ _ selectors => selectors
  | _ => []

/-- What a node is as an element of a chain. -/
def link? : Node → Option Link
  | .primary link _ _ => some link
  | _ => none

/-- The call that a node makes. -/
def call? : Node → Option Call
  | .primary (.call made) _ _ => some made
  | _ => none

/-- Whether a node is an element of a chain with no selectors behind it. -/
def isBare : Node → Bool
  | .primary _ _ [] => true
  | _ => false

/-- Selectors stand behind primaries that are no selectors themselves. -/
def HasFlatChains (tree : Node) : Prop :=
  ∀ node ∈ tree.preorder, ∀ selector ∈ node.selectors, selector.isBare

instance (tree : Node) : Decidable tree.HasFlatChains :=
  inferInstanceAs (Decidable (∀ node ∈ tree.preorder, ∀ selector ∈ node.selectors, selector.isBare))

theorem eq_primary_of_isBare {node : Node} (bare : node.isBare) :
    ∃ link parts, node = .primary link parts [] := by
  match node with
  | .primary link parts [] => exact ⟨link, parts, rfl⟩

theorem sizeOf_lt_of_mem_parts {node part : Node} (mem : part ∈ node.parts) :
    sizeOf part < sizeOf node := by
  cases node <;> simp only [parts, List.mem_append, List.not_mem_nil] at mem <;>
    grind [→ List.sizeOf_lt_of_mem]

theorem sizeOf_lt_of_mem_selectors {node selector : Node} (mem : selector ∈ node.selectors) :
    sizeOf selector < sizeOf node := by
  cases node <;> simp only [selectors, List.not_mem_nil] at mem
  grind [→ List.sizeOf_lt_of_mem]

/-- Induction over the parts and selectors of a node. -/
theorem tree_induction {motive : Node → Prop}
    (step : ∀ node, (∀ part ∈ node.parts, motive part) →
      (∀ selector ∈ node.selectors, motive selector) → motive node) (node : Node) :
    motive node :=
  step node (fun part _ => tree_induction step part)
    (fun selector _ => tree_induction step selector)
termination_by sizeOf node
decreasing_by
  · exact sizeOf_lt_of_mem_parts ‹_›
  · exact sizeOf_lt_of_mem_selectors ‹_›

theorem callSites_eq (node : Node) :
    node.callSites = callSitesAll node.parts ++ node.link?.toList.flatMap (Link.site []) ++
      selectorSites node.link?.toList node.selectors := by
  cases node <;>
    simp [callSites, parts, link?, selectors, selectorSites, callSitesAll, callSitesAll_append]

theorem preorder_eq (node : Node) :
    node.preorder = node :: (preorderAll node.selectors ++ preorderAll node.parts) := by
  cases node <;> simp [preorder, parts, selectors, preorderAll, preorderAll_append]

end Node

/-- A way down from a node. -/
inductive Turn where
  /-- To the part of the given number. -/
  | part (number : Nat)
  /-- To the selector of the given number. -/
  | selector (number : Nat)
  deriving DecidableEq, Repr

/-- A place in a tree: the turns to take from its root on. -/
abbrev Position := List Turn

/-- Where a way down leads. -/
def Node.below? (node : Node) : Turn → Option Node
  | .part number => node.parts[number]?
  | .selector number => node.selectors[number]?

/-- The node at a position. -/
def Node.at? (node : Node) : Position → Option Node
  | [] => some node
  | turn :: turns => (node.below? turn).bind fun child => child.at? turns

/-- The call at a position. -/
def Node.callAt? (node : Node) (position : Position) : Option Call :=
  (node.at? position).bind Node.call?

/-- Whether a position is that of a selector. -/
def Position.IsSelector (position : Position) : Prop :=
  ∃ front number, position = front ++ [.selector number]

/-- What is to be noted for the call at a position.  The chain of a selector is
the primary with the selectors in between, and any other call has none. -/
inductive Node.SiteAt (tree : Node) : Position → CallSite → Prop where
  | selector {front : Position} {number : Nat} {head : Link} {parts selectors : List Node}
      {made : Call} {given behind : List Node}
      (primary : tree.at? front = some (.primary head parts selectors))
      (there : selectors[number]? = some (.primary (.call made) given behind)) :
      SiteAt tree (front ++ [.selector number])
        ⟨made, head :: (selectors.take number).filterMap Node.link?⟩
  | other {position : Position} {made : Call} {given selectors : List Node}
      (there : tree.at? position = some (.primary (.call made) given selectors))
      (plain : ¬ position.IsSelector) : SiteAt tree position ⟨made, []⟩

/-- The call at the first position has to be noted before the call at the second
one. -/
inductive Position.Precedes : Position → Position → Prop where
  /-- It stands in the arguments of the second one or in what they hold. -/
  | inside (call : Position) (number : Nat) (turns : Position) :
      Precedes (call ++ .part number :: turns) call
  /-- The second one is a selector behind it. -/
  | head (primary : Position) (number : Nat) : Precedes primary (primary ++ [.selector number])
  /-- Both are selectors of one primary, and the second one comes later. -/
  | chain (primary : Position) {earlier later : Nat} (order : earlier < later) :
      Precedes (primary ++ [.selector earlier]) (primary ++ [.selector later])

/-- Positions below the children of a node, child by child. -/
def positionsBelow (turn : Nat → Turn) : Nat → List (List Position) → List Position
  | _, [] => []
  | number, first :: rest =>
      first.map (turn number :: ·) ++ positionsBelow turn (number + 1) rest

/-- The positions of the calls of a tree, in the order in which they are noted. -/
def Node.callPositions (node : Node) : List Position :=
  positionsBelow .part 0 (node.parts.attach.map fun part => part.1.callPositions) ++
    node.call?.toList.map (fun _ => []) ++
    positionsBelow .selector 0 (node.selectors.attach.map fun selector => selector.1.callPositions)
termination_by sizeOf node
decreasing_by
  · exact Node.sizeOf_lt_of_mem_parts part.2
  · exact Node.sizeOf_lt_of_mem_selectors selector.2

theorem Node.callPositions_eq (node : Node) :
    node.callPositions =
      positionsBelow .part 0 (node.parts.map Node.callPositions) ++
        node.call?.toList.map (fun _ => []) ++
        positionsBelow .selector 0 (node.selectors.map Node.callPositions) := by
  rw [callPositions]
  simp

/-! ## Each position once -/

theorem mem_positionsBelow_iff (turn : Nat → Turn) (start : Nat) (lists : List (List Position))
    (position : Position) :
    position ∈ positionsBelow turn start lists ↔
      ∃ number list turns, lists[number]? = some list ∧ turns ∈ list ∧
        position = turn (start + number) :: turns := by
  induction lists generalizing start with
  | nil => simp [positionsBelow]
  | cons first rest ih =>
      rw [positionsBelow, List.mem_append, ih, List.mem_map]
      constructor
      · rintro (⟨turns, mem, rfl⟩ | ⟨number, list, turns, there, mem, rfl⟩)
        · exact ⟨0, first, turns, rfl, mem, rfl⟩
        · exact ⟨number + 1, list, turns, there, mem, by rw [Nat.add_right_comm, Nat.add_assoc]⟩
      · rintro ⟨number, list, turns, there, mem, rfl⟩
        cases number with
        | zero =>
            obtain rfl : first = list := by simpa using there
            exact .inl ⟨turns, mem, rfl⟩
        | succ number =>
            refine .inr ⟨number, list, turns, there, mem, ?_⟩
            rw [Nat.add_right_comm, Nat.add_assoc]

/-- The calls below a child are noted where the way down leads to it. -/
theorem Node.mem_callPositions_cons_iff (node : Node) (turn : Turn) (turns : Position) :
    turn :: turns ∈ node.callPositions ↔
      ∃ child, node.below? turn = some child ∧ turns ∈ child.callPositions := by
  rw [callPositions_eq]
  cases turn with
  | part number => simp [mem_positionsBelow_iff, below?]
  | selector number => simp [mem_positionsBelow_iff, below?]

theorem Node.nil_mem_callPositions_iff (node : Node) :
    [] ∈ node.callPositions ↔ node.call?.isSome := by
  rw [callPositions_eq]
  simp [mem_positionsBelow_iff, Option.isSome_iff_ne_none]

/-- A position is noted exactly if a call stands there. -/
theorem Node.mem_callPositions_iff (node : Node) (position : Position) :
    position ∈ node.callPositions ↔ (node.callAt? position).isSome := by
  induction position generalizing node with
  | nil => exact nil_mem_callPositions_iff node
  | cons turn turns ih =>
      rw [mem_callPositions_cons_iff, callAt?, at?, Option.bind_assoc]
      cases node.below? turn with
      | none => simp
      | some child => simpa [callAt?] using ih child

/-! ## The order of calls -/

/-- What holds of a position and of one that is noted later. -/
def Position.ComesBefore (earlier later : Position) : Prop :=
  earlier ≠ later ∧ ¬ later.Precedes earlier

namespace Position

theorem Precedes.ne {first second : Position} (precedes : first.Precedes second) :
    first ≠ second := by
  cases precedes with
  | inside call number turns => simp
  | head primary number => simp
  | chain primary order => simp [Nat.ne_of_lt order]

theorem precedes_nil {position : Position} (precedes : position.Precedes []) :
    ∃ number turns, position = .part number :: turns := by
  generalize last : ([] : Position) = target at precedes
  cases precedes with
  | inside call number turns =>
      subst last
      exact ⟨number, turns, rfl⟩
  | head primary number => simp at last
  | chain primary order => simp at last

theorem nil_precedes {position : Position} (precedes : Precedes [] position) :
    ∃ number, position = [.selector number] := by
  generalize first : ([] : Position) = source at precedes
  cases precedes with
  | inside call number turns => simp at first
  | head primary number =>
      subst first
      exact ⟨number, rfl⟩
  | chain primary order => simp at first

/-- Two positions below a node are ordered by their rest, or they are selectors of
this node. -/
theorem precedes_cons_cons {turn other : Turn} {turns others : Position}
    (precedes : Precedes (turn :: turns) (other :: others)) :
    turn = other ∧ turns.Precedes others ∨
      ∃ earlier later, earlier < later ∧ turn = .selector earlier ∧ other = .selector later := by
  generalize first : turn :: turns = source at precedes
  generalize second : other :: others = target at precedes
  cases precedes with
  | inside call number below =>
      subst second
      obtain ⟨rfl, rfl⟩ := List.cons.inj first
      exact .inl ⟨rfl, .inside others number below⟩
  | head primary number =>
      subst first
      obtain ⟨rfl, rfl⟩ := List.cons.inj second
      exact .inl ⟨rfl, .head turns number⟩
  | @chain primary earlier later order =>
      cases primary with
      | nil =>
          obtain ⟨rfl, rfl⟩ := List.cons.inj first
          obtain ⟨rfl, rfl⟩ := List.cons.inj second
          exact .inr ⟨earlier, later, order, rfl, rfl⟩
      | cons step steps =>
          obtain ⟨rfl, rfl⟩ := List.cons.inj first
          obtain ⟨rfl, rfl⟩ := List.cons.inj second
          exact .inl ⟨rfl, .chain steps order⟩

theorem ComesBefore.cons {earlier later : Position} (before : earlier.ComesBefore later)
    (turn : Turn) : ComesBefore (turn :: earlier) (turn :: later) := by
  refine ⟨fun same => before.1 (List.cons.inj same).2, fun precedes => ?_⟩
  rcases precedes_cons_cons precedes with ⟨_, rest⟩ | ⟨first, second, order, rfl, same⟩
  · exact before.2 rest
  · exact Nat.ne_of_lt order (Turn.selector.inj same)

/-- Children of one kind are visited by their numbers. -/
theorem comesBefore_of_lt {turn : Nat → Turn} (kind : turn = .part ∨ turn = .selector)
    {first second : Nat} (order : first < second) (turns others : Position) :
    ComesBefore (turn first :: turns) (turn second :: others) := by
  have differ : turn second ≠ turn first := by
    rcases kind with rfl | rfl <;> simp [Nat.ne_of_gt order]
  refine ⟨fun same => differ (List.cons.inj same).1.symm, fun precedes => ?_⟩
  rcases precedes_cons_cons precedes with ⟨same, _⟩ | ⟨earlier, later, less, here, there⟩
  · exact differ same
  · rcases kind with rfl | rfl
    · cases here
    · cases here
      cases there
      omega

theorem part_comesBefore_nil (number : Nat) (turns : Position) :
    ComesBefore (.part number :: turns) [] := by
  refine ⟨by simp, fun precedes => ?_⟩
  obtain ⟨_, impossible⟩ := nil_precedes precedes
  simp at impossible

theorem nil_comesBefore_selector (number : Nat) (turns : Position) :
    ComesBefore [] (.selector number :: turns) := by
  refine ⟨by simp, fun precedes => ?_⟩
  obtain ⟨_, _, impossible⟩ := precedes_nil precedes
  simp at impossible

theorem part_comesBefore_selector (number other : Nat) (turns others : Position) :
    ComesBefore (.part number :: turns) (.selector other :: others) := by
  refine ⟨by simp, fun precedes => ?_⟩
  rcases precedes_cons_cons precedes with ⟨impossible, _⟩ | ⟨_, _, _, _, impossible⟩ <;>
    cases impossible

end Position

theorem pairwise_positionsBelow {turn : Nat → Turn} (kind : turn = .part ∨ turn = .selector)
    (start : Nat) {lists : List (List Position)}
    (ordered : ∀ list ∈ lists, list.Pairwise Position.ComesBefore) :
    (positionsBelow turn start lists).Pairwise Position.ComesBefore := by
  induction lists generalizing start with
  | nil => exact .nil
  | cons first rest ih =>
      rw [positionsBelow, List.pairwise_append]
      refine ⟨(ordered first (by simp)).map _ fun _ _ before => before.cons _,
        ih (start + 1) fun list mem => ordered list (by simp [mem]), ?_⟩
      intro here here_mem later later_mem
      obtain ⟨turns, _, rfl⟩ := List.mem_map.1 here_mem
      obtain ⟨number, _, others, _, _, rfl⟩ := (mem_positionsBelow_iff ..).mp later_mem
      exact Position.comesBefore_of_lt kind (by omega) turns others

/-- Calls are noted once, behind those inside of them and those in front of
them. -/
theorem Node.pairwise_callPositions (node : Node) :
    node.callPositions.Pairwise Position.ComesBefore := by
  induction node using tree_induction with
  | step node ordered_parts ordered_selectors =>
      have parts := pairwise_positionsBelow (.inl rfl) 0
        (List.forall_mem_map.mpr ordered_parts)
      have selectors := pairwise_positionsBelow (.inr rfl) 0
        (List.forall_mem_map.mpr ordered_selectors)
      rw [callPositions_eq, List.pairwise_append, List.pairwise_append]
      refine ⟨⟨parts, ?_, ?_⟩, selectors, ?_⟩
      · cases node.call? <;> simp
      · intro below below_mem own own_mem
        obtain ⟨_, _, _, _, _, rfl⟩ := (mem_positionsBelow_iff ..).mp below_mem
        obtain ⟨_, _, rfl⟩ := List.mem_map.1 own_mem
        exact Position.part_comesBefore_nil ..
      · intro earlier earlier_mem selector selector_mem
        obtain ⟨_, _, _, _, _, rfl⟩ := (mem_positionsBelow_iff ..).mp selector_mem
        rcases List.mem_append.1 earlier_mem with below_mem | own_mem
        · obtain ⟨_, _, _, _, _, rfl⟩ := (mem_positionsBelow_iff ..).mp below_mem
          exact Position.part_comesBefore_selector ..
        · obtain ⟨_, _, rfl⟩ := List.mem_map.1 own_mem
          exact Position.nil_comesBefore_selector ..

/-! ## What is noted -/

theorem mem_preorderAll_iff (nodes : List Node) (node : Node) :
    node ∈ preorderAll nodes ↔ ∃ tree ∈ nodes, node ∈ tree.preorder := by
  induction nodes with
  | nil => simp [preorderAll]
  | cons first rest ih => simp [preorderAll, ih]

namespace Node

theorem mem_preorder_iff {tree node : Node} :
    node ∈ tree.preorder ↔
      node = tree ∨ ∃ part ∈ tree.selectors ++ tree.parts, node ∈ part.preorder := by
  rw [preorder_eq, ← preorderAll_append, List.mem_cons, mem_preorderAll_iff]

theorem HasFlatChains.of_mem {tree child : Node} (flat : tree.HasFlatChains)
    (mem : child ∈ tree.selectors ++ tree.parts) : child.HasFlatChains := by
  intro node node_mem
  exact flat node (mem_preorder_iff.2 (.inr ⟨child, mem, node_mem⟩))

theorem HasFlatChains.selectors {tree : Node} (flat : tree.HasFlatChains) :
    ∀ selector ∈ tree.selectors, selector.isBare :=
  flat tree (mem_preorder_iff.2 (.inl rfl))

/-- What is noted below a child is noted there in the whole tree, unless the child
is a selector and itself the call: that call has a chain in the tree. -/
theorem SiteAt.cons {tree child : Node} {turn : Turn} {turns : Position} {site : CallSite}
    (leads : tree.below? turn = some child)
    (inside : turns ≠ [] ∨ ∃ number, turn = .part number) (noted : child.SiteAt turns site) :
    tree.SiteAt (turn :: turns) site := by
  have reaches : ∀ below, tree.at? (turn :: below) = child.at? below := by
    intro below
    rw [at?, leads, Option.bind_some]
  cases noted with
  | @selector front number head parts selectors made given behind primary there =>
      exact @SiteAt.selector tree (turn :: front) number head parts selectors made given behind
        ((reaches front).trans primary) there
  | other there plain =>
      refine .other ((reaches turns).trans there) ?_
      rintro ⟨front, number, same⟩
      cases front with
      | nil =>
          obtain ⟨rfl, rfl⟩ := List.cons.inj same
          rcases inside with nonempty | ⟨_, impossible⟩
          · exact nonempty rfl
          · cases impossible
      | cons first front => exact plain ⟨front, number, (List.cons.inj same).2⟩

/-- The calls below the parts of a tree are noted at their positions. -/
def NotesParts (tree : Node) : Prop :=
  List.Forall₂ (fun turns site => turns ≠ [] ∧ tree.SiteAt turns site)
    (positionsBelow .part 0 (tree.parts.map callPositions)) (callSitesAll tree.parts)

/-- The calls of a tree are noted at their positions. -/
def NotesAll (tree : Node) : Prop :=
  List.Forall₂ tree.SiteAt tree.callPositions tree.callSites

theorem notes_parts {tree : Node} {start : Nat} {children : List Node}
    (leads : ∀ (number : Nat) (child : Node), children[number]? = some child →
      tree.below? (.part (start + number)) = some child)
    (noted : ∀ child ∈ children, child.NotesAll) :
    List.Forall₂ (fun turns site => turns ≠ [] ∧ tree.SiteAt turns site)
      (positionsBelow .part start (children.map callPositions)) (callSitesAll children) := by
  induction children generalizing start with
  | nil => exact .nil
  | cons child rest ih =>
      rw [List.map_cons, positionsBelow, callSitesAll]
      refine List.rel_append ?_ (ih ?_ fun other mem => noted other (by simp [mem]))
      · rw [List.forall₂_map_left_iff]
        refine (noted child (by simp)).imp fun turns site here => ⟨by simp, ?_⟩
        exact here.cons (leads 0 child rfl) (.inr ⟨_, rfl⟩)
      · intro number other there
        have := leads (number + 1) other there
        rwa [Nat.add_right_comm, Nat.add_assoc]

/-- The call of a selector is noted with the primary and the selectors in front of
it. -/
theorem notes_own {head link : Link} {parts given done rest : List Node} :
    List.Forall₂ (Node.primary head parts (done ++ .primary link given [] :: rest)).SiteAt
      ((Node.primary link given []).call?.toList.map fun _ => [.selector done.length])
      (link.site (head :: done.filterMap link?)) := by
  cases link with
  | call made =>
      refine .cons ?_ .nil
      have noted := @SiteAt.selector
        (.primary head parts (done ++ .primary (.call made) given [] :: rest))
        [] done.length head parts _ made given [] rfl (by simp)
      rwa [List.take_left] at noted
  | this => exact .nil
  | name qualifier member => exact .nil
  | create type => exact .nil
  | other form => exact .nil

/-- The calls of selectors are noted at their positions, where some selectors in
front of them are done. -/
theorem notes_selectors {head : Link} {parts : List Node} (done : List Node) {todo : List Node}
    (flat : ∀ selector ∈ todo, selector.isBare)
    (noted : ∀ selector ∈ todo, selector.NotesParts) :
    List.Forall₂ (Node.primary head parts (done ++ todo)).SiteAt
      (positionsBelow .selector done.length (todo.map callPositions))
      (selectorSites (head :: done.filterMap link?) todo) := by
  induction todo generalizing done with
  | nil => exact .nil
  | cons selector rest ih =>
      obtain ⟨link, given, rfl⟩ := eq_primary_of_isBare (flat selector (by simp))
      have later := ih (done ++ [.primary link given []])
        (fun other mem => flat other (by simp [mem])) fun other mem => noted other (by simp [mem])
      have below := noted (.primary link given []) (by simp)
      rw [List.append_assoc, List.singleton_append] at later
      simp only [List.length_append, List.length_singleton, List.filterMap_append,
        List.filterMap_cons, link?, List.filterMap_nil, ← List.cons_append] at later
      rw [List.map_cons, positionsBelow, selectorSites]
      refine List.rel_append ?_ later
      rw [callPositions_eq, List.map_append, List.map_append, List.map_map]
      simp only [selectors, List.map_nil, positionsBelow, List.append_nil]
      refine List.rel_append ?_ notes_own
      rw [List.forall₂_map_left_iff]
      refine below.imp fun turns site here => here.2.cons ?_ (.inl here.1)
      simp [below?, selectors]

/-- A call that is no selector is noted without a chain. -/
theorem notes_root (tree : Node) :
    List.Forall₂ tree.SiteAt (tree.call?.toList.map fun _ => [])
      (tree.link?.toList.flatMap (Link.site [])) := by
  match tree with
  | .primary (.call made) _ _ =>
      refine .cons (.other rfl ?_) .nil
      rintro ⟨front, number, impossible⟩
      simp at impossible
  | .primary .this _ _ => exact .nil
  | .primary (.name _ _) _ _ => exact .nil
  | .primary (.create _) _ _ => exact .nil
  | .primary (.other _) _ _ => exact .nil
  | .type .. | .constant .. | .field .. | .method .. | .parameter .. | .variables ..
  | .caught .. | .group .. => exact .nil

/-- The calls of a tree are noted at their positions. -/
theorem notes_of_hasFlatChains (tree : Node) (flat : tree.HasFlatChains) :
    tree.NotesParts ∧ tree.NotesAll := by
  induction tree using tree_induction with
  | step tree noted_parts noted_selectors =>
      have below : tree.NotesParts := by
        refine notes_parts (fun number child there => ?_) fun part mem => ?_
        · simpa [below?] using there
        · exact (noted_parts part mem (flat.of_mem (by simp [mem]))).2
      refine ⟨below, ?_⟩
      rw [NotesAll, callPositions_eq, callSites_eq]
      refine List.rel_append (List.rel_append ?_ tree.notes_root) ?_
      · exact below.imp fun turns site here => here.2
      · have behind : ∀ selector ∈ tree.selectors, selector.NotesParts := fun selector mem =>
          (noted_selectors selector mem (flat.of_mem (by simp [mem]))).1
        have chains := flat.selectors
        match tree with
        | .primary head parts selectors => exact notes_selectors [] chains behind
        | .type .. | .constant .. | .field .. | .method .. | .parameter .. | .variables ..
        | .caught .. | .group .. => exact .nil

end Node

/-- In an ordered list two members stand in the only order they can. -/
theorem pair_sublist_of_pairwise {α : Type} {R : α → α → Prop} {items : List α} {first second : α}
    (ordered : items.Pairwise R) (first_mem : first ∈ items) (second_mem : second ∈ items)
    (differ : first ≠ second) (wrong : ¬ R second first) : [first, second].Sublist items := by
  induction items with
  | nil => simp at first_mem
  | cons item rest ih =>
      rw [List.pairwise_cons] at ordered
      rcases List.mem_cons.1 first_mem with rfl | first_rest
      · have second_rest := (List.mem_cons.1 second_mem).resolve_left differ.symm
        exact (List.singleton_sublist.mpr second_rest).cons_cons first
      · rcases List.mem_cons.1 second_mem with rfl | second_rest
        · exact absurd (ordered.1 first first_rest) wrong
        · exact (ih ordered.2 first_rest second_rest).cons item

/-- The call sites of a method body are those of all positions where a call
stands, each once.  A call comes behind the calls in its arguments and in what
they hold, and the calls of a primary with its selectors come from left to right.
The chain of a selector is the primary with the selectors in between, and any
other call has none. -/
theorem callSites_at_positions (body : List Node)
    (flat : (Node.group .block body).HasFlatChains) :
    ∃ order : List Position,
      order.Nodup ∧
        (∀ position, position ∈ order ↔
          ((Node.group .block body).callAt? position).isSome) ∧
        List.Forall₂ (Node.group .block body).SiteAt order (callSitesAll body) ∧
        ∀ first ∈ order, ∀ second ∈ order, first.Precedes second →
          [first, second].Sublist order := by
  have ordered := (Node.group .block body).pairwise_callPositions
  refine ⟨(Node.group .block body).callPositions, ordered.imp fun before => before.1,
    Node.mem_callPositions_iff _, (Node.notes_of_hasFlatChains _ flat).2, ?_⟩
  intro first first_mem second second_mem precedes
  exact pair_sublist_of_pairwise ordered first_mem second_mem precedes.ne
    fun before => before.2 precedes

/-- A call with a lambda among its arguments, and a chain behind it in which a call
occurs for a second time. -/
def chainedCalls : List Node :=
  let call (name : String) (given selectors : List Node) : Node :=
    .primary (.call ⟨false, "", name, given.length⟩) given selectors
  [.group .expressionStatement
    [call "a" [call "b" [] [], .group .lambda [call "c" [] []]]
      [.primary (.name "" "f") [] [], call "d" [call "b" [] []] []]]]

theorem callSites_chainedCalls :
    (Node.group .block chainedCalls).HasFlatChains ∧
      (callSitesAll chainedCalls).map (fun site => (site.call.name, site.chain.map Link.label)) =
        [("b", []), ("c", []), ("a", []), ("b", []),
          ("d", ["MethodInvocation", "MemberReference"])] ∧
      ∃ order : List Position,
        order.Nodup ∧
          (∀ position, position ∈ order ↔
            ((Node.group .block chainedCalls).callAt? position).isSome) ∧
          List.Forall₂ (Node.group .block chainedCalls).SiteAt order
            (callSitesAll chainedCalls) ∧
          ∀ first ∈ order, ∀ second ∈ order, first.Precedes second →
            [first, second].Sublist order := by
  have flat : (Node.group .block chainedCalls).HasFlatChains := by decide
  exact ⟨flat, by decide, callSites_at_positions chainedCalls flat⟩

end JavaUml.Java
