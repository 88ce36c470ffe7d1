import JavaUml.Resolve.Binding

/-!
# Blocks that share a scope

All blocks of a method share one scope, in which the last declaration of a name
wins.  A block therefore feels the declarations of its neighbours, but only
through the names that its receivers start with: nothing else of the scope is
read when a call is bound.

So the calls of two neighbouring blocks are bound as they are in each block alone,
unless one block declares a name that starts a receiver in the other one, and the
scope of both has another type for it than the scope of that other block.
-/

namespace JavaUml.Ordered

variable {κ α : Type} [DecidableEq κ]

theorem get?_foldl_put_eq (key : κ) (entries map : List (κ × α)) :
    get? key (entries.foldl (fun map entry => put entry.1 entry.2 map) map) =
      (((entries.filter fun entry => entry.1 = key).getLast?).map Prod.snd).or (get? key map) := by
  induction entries generalizing map with
  | nil => simp
  | cons entry rest ih =>
      rw [List.foldl_cons, ih, get?_put]
      by_cases same : entry.1 = key
      · simp [same, List.getLast?_cons]
      · simp [same]

/-- The value of a key is the last one that was set for it. -/
theorem get?_ofList_eq_getLast? (key : κ) (entries : List (κ × α)) :
    get? key (ofList entries) =
      ((entries.filter fun entry => entry.1 = key).getLast?).map Prod.snd := by
  rw [ofList, get?_foldl_put_eq]
  simp [get?_nil]

end JavaUml.Ordered

namespace JavaUml.Resolve

open JavaUml.Java JavaUml.Model

/-! ## What a receiver reads of the scope -/

/-- The first name of a dotted path. -/
def pathStart? (path : String) : Option String :=
  (Text.split '.' path).head?

/-- The name that the receiver of a call without a chain starts with.  A call on
`super` or on the current type has none. -/
def callStart? (call : Call) : Option String :=
  if call.isSuper then none
  else if call.qualifier = "" || call.qualifier = "this" then none
  else pathStart? call.qualifier

/-- The name that a chain with the given head starts with. -/
def linkStart? : Link → Option String
  | .call call => callStart? call
  | .name qualifier member => pathStart? (nameIn qualifier member)
  | _ => none

/-- The name that the receiver of a call starts with. -/
def siteStart? (site : CallSite) : Option String :=
  match site.chain with
  | [] => callStart? site.call
  | head :: _ => linkStart? head

section Reading

variable {index : Index} {current : TypeRecord} {locals others : List (String × String)}

theorem firstRecord_congr {name : String}
    (same : Ordered.get? name locals = Ordered.get? name others) :
    firstRecord index ⟨current, locals⟩ name = firstRecord index ⟨current, others⟩ name := by
  rw [firstRecord, firstRecord, same]

theorem pathRecord_congr {path : String}
    (same : ∀ name ∈ pathStart? path, Ordered.get? name locals = Ordered.get? name others) :
    pathRecord index ⟨current, locals⟩ path = pathRecord index ⟨current, others⟩ path := by
  unfold pathRecord
  unfold pathStart? at same
  cases parts : Text.split '.' path with
  | nil => rfl
  | cons first members =>
      rw [parts] at same
      dsimp only
      rw [firstRecord_congr (same first rfl)]

theorem plainReceiver_congr {call : Call}
    (same : ∀ name ∈ callStart? call, Ordered.get? name locals = Ordered.get? name others) :
    plainReceiver index ⟨current, locals⟩ call = plainReceiver index ⟨current, others⟩ call := by
  unfold plainReceiver
  unfold callStart? at same
  split
  · rfl
  · rename_i plain
    rw [if_neg plain] at same
    split
    · rfl
    · rename_i qualified
      rw [if_neg qualified] at same
      exact pathRecord_congr same

theorem headRecord_congr {link : Link}
    (same : ∀ name ∈ linkStart? link, Ordered.get? name locals = Ordered.get? name others) :
    headRecord index ⟨current, locals⟩ link = headRecord index ⟨current, others⟩ link := by
  cases link with
  | call call => rw [headRecord, headRecord, bindPlain, bindPlain, plainReceiver_congr same]
  | name qualifier member => exact pathRecord_congr same
  | this => rfl
  | create type => rfl
  | other form => rfl

/-- Scopes that agree on the name that a receiver starts with bind a call alike. -/
theorem bind_congr {site : CallSite}
    (same : ∀ name ∈ siteStart? site, Ordered.get? name locals = Ordered.get? name others) :
    bind index ⟨current, locals⟩ site = bind index ⟨current, others⟩ site := by
  have receiver_eq : receiver index ⟨current, locals⟩ site =
      receiver index ⟨current, others⟩ site := by
    unfold siteStart? at same
    unfold receiver
    cases chain : site.chain with
    | nil =>
        rw [chain] at same
        exact plainReceiver_congr same
    | cons head links =>
        rw [chain] at same
        dsimp only
        rw [headRecord_congr same]
  rw [bind, bind, receiver_eq]

end Reading

/-! ## What a block declares -/

/-- The names that statements declare with their types, wherever they do it: as
variables, as parameters and as caught parameters. -/
def declaredIn (statements : List Node) : List (String × String) :=
  (preorderAll statements).flatMap fun node =>
    parametersOf node ++ variablesOf node ++ caughtOf node

/-- Whether statements declare a name. -/
def Declares (statements : List Node) (name : String) : Prop :=
  name ∈ (declaredIn statements).map Prod.fst

instance (statements : List Node) (name : String) : Decidable (Declares statements name) :=
  inferInstanceAs (Decidable (name ∈ (declaredIn statements).map Prod.fst))

/-- The ways to declare a name. -/
def declarators : List (Node → List (String × String)) :=
  [parametersOf, variablesOf, caughtOf]

/-- A method with a body of blocks. -/
def methodOf (header : MethodHeader) (annotations parameters : List Node)
    (blocks : List (List Node)) : Node :=
  .method header annotations parameters (blocks.map (.group .block))

/-- What binding the calls in the body of a method comes to, in order. -/
def bindings (index : Index) (current : TypeRecord) (method : Node) :
    List (Asking (Except Unresolved BoundMethod)) :=
  method.bodySites.map fun site => (bind index ⟨current, localsOf method⟩ site).run

section Blocks

variable {header : MethodHeader} {annotations parameters : List Node}

/-- No declaration of a name that the statements do not declare. -/
theorem filter_eq_nil_of_not_declares {statements : List Node} {name : String}
    (absent : ¬Declares statements name) {collect : Node → List (String × String)}
    (way : collect ∈ declarators) :
    (((preorderAll statements).flatMap collect).filter fun entry => entry.1 = name) = [] := by
  rw [List.filter_eq_nil_iff]
  intro entry member
  obtain ⟨node, node_mem, entry_mem⟩ := List.mem_flatMap.1 member
  have declared : entry ∈ declaredIn statements := by
    refine List.mem_flatMap.2 ⟨node, node_mem, ?_⟩
    simp only [declarators, List.mem_cons, List.not_mem_nil, or_false] at way
    rcases way with rfl | rfl | rfl <;> simp [entry_mem]
  intro same
  exact absent (List.mem_map.2 ⟨entry, declared, of_decide_eq_true same⟩)

/-- A declaration comes from the head of the method or from one of its blocks. -/
theorem flatMap_preorder_methodOf {collect : Node → List (String × String)}
    (way : collect ∈ declarators) (blocks : List (List Node)) :
    (methodOf header annotations parameters blocks).preorder.flatMap collect =
      (preorderAll annotations ++ preorderAll parameters).flatMap collect ++
        blocks.flatMap fun block => (preorderAll block).flatMap collect := by
  have inside : (preorderAll (blocks.map (.group .block))).flatMap collect =
      blocks.flatMap fun block => (preorderAll block).flatMap collect := by
    induction blocks with
    | nil => rfl
    | cons block rest ih =>
        have own : collect (.group .block block) = [] := by
          simp only [declarators, List.mem_cons, List.not_mem_nil, or_false] at way
          rcases way with rfl | rfl | rfl <;> rfl
        rw [List.map_cons, preorderAll, Node.preorder, List.flatMap_append, List.flatMap_cons, own,
          ih, List.flatMap_cons, List.nil_append]
  have own : collect (methodOf header annotations parameters blocks) = [] := by
    simp only [declarators, List.mem_cons, List.not_mem_nil, or_false] at way
    rcases way with rfl | rfl | rfl <;> rfl
  rw [methodOf] at own ⊢
  rw [Node.preorder, List.flatMap_cons, own, List.flatMap_append, inside, List.nil_append]

/-- A block that does not declare a name does not change what the scope says about
it, whichever blocks stand around it. -/
theorem get?_localsOf_of_not_declares {block : List Node} {name : String}
    (absent : ¬Declares block name) (before behind : List (List Node)) :
    Ordered.get? name (localsOf (methodOf header annotations parameters
        (before ++ block :: behind))) =
      Ordered.get? name (localsOf (methodOf header annotations parameters (before ++ behind))) := by
  have unchanged : ∀ collect ∈ declarators,
      (((methodOf header annotations parameters (before ++ block :: behind)).preorder.flatMap
        collect).filter fun entry => entry.1 = name) =
      (((methodOf header annotations parameters (before ++ behind)).preorder.flatMap
        collect).filter fun entry => entry.1 = name) := by
    intro collect way
    simp only [flatMap_preorder_methodOf way, List.flatMap_append, List.flatMap_cons,
      List.filter_append, filter_eq_nil_of_not_declares absent way, List.nil_append]
  rw [localsOf, localsOf, Ordered.get?_ofList_eq_getLast?, Ordered.get?_ofList_eq_getLast?]
  simp only [List.filter_append]
  rw [unchanged parametersOf (by simp [declarators]), unchanged variablesOf (by simp [declarators]),
    unchanged caughtOf (by simp [declarators])]

/-- The calls of a body are those of its blocks, one block after the other. -/
theorem bodySites_methodOf (blocks : List (List Node)) :
    (methodOf header annotations parameters blocks).bodySites = blocks.flatMap callSitesAll := by
  rw [methodOf, Node.bodySites, Node.body]
  induction blocks with
  | nil => rfl
  | cons block rest ih => rw [List.map_cons, callSitesAll, ih, Node.callSites, List.flatMap_cons]

/-- A body of blocks binds the calls of one of them as the block alone does, if both
scopes have one type for each name that starts a receiver there. -/
theorem map_bind_eq_bindings {index : Index} {current : TypeRecord} {blocks : List (List Node)}
    {block : List Node}
    (same : ∀ site ∈ callSitesAll block, ∀ name ∈ siteStart? site,
      Ordered.get? name (localsOf (methodOf header annotations parameters blocks)) =
        Ordered.get? name (localsOf (methodOf header annotations parameters [block]))) :
    (callSitesAll block).map (fun site => (bind index
        ⟨current, localsOf (methodOf header annotations parameters blocks)⟩ site).run) =
      bindings index current (methodOf header annotations parameters [block]) := by
  rw [bindings, bodySites_methodOf, List.flatMap_cons, List.flatMap_nil, List.append_nil]
  apply List.map_congr_left
  intro site member
  rw [bind_congr (same site member)]

end Blocks

/-- Two blocks bind their calls as each of them does alone.  The one thing asked of
them is about names that start a receiver in one block and are declared in the
other: the scope of both blocks must have the type for such a name that the scope
of the first one alone has. -/
theorem bindings_of_blocks (index : Index) (current : TypeRecord) (header : MethodHeader)
    (annotations parameters first second : List Node)
    (first_keeps : ∀ site ∈ callSitesAll first, ∀ name ∈ siteStart? site, Declares second name →
      Ordered.get? name (localsOf (methodOf header annotations parameters [first, second])) =
        Ordered.get? name (localsOf (methodOf header annotations parameters [first])))
    (second_keeps : ∀ site ∈ callSitesAll second, ∀ name ∈ siteStart? site, Declares first name →
      Ordered.get? name (localsOf (methodOf header annotations parameters [first, second])) =
        Ordered.get? name (localsOf (methodOf header annotations parameters [second]))) :
    bindings index current (methodOf header annotations parameters [first, second]) =
      bindings index current (methodOf header annotations parameters [first]) ++
        bindings index current (methodOf header annotations parameters [second]) := by
  rw [bindings, bodySites_methodOf, List.flatMap_cons, List.flatMap_cons, List.flatMap_nil,
    List.append_nil, List.map_append]
  congr 1
  · apply map_bind_eq_bindings
    intro site member name starts
    by_cases shared : Declares second name
    · exact first_keeps site member name starts shared
    · exact get?_localsOf_of_not_declares shared [first] []
  · apply map_bind_eq_bindings
    intro site member name starts
    by_cases shared : Declares first name
    · exact second_keeps site member name starts shared
    · exact get?_localsOf_of_not_declares shared [] [second]

/-! ## Pets -/

/-- Two types with a method of one name and different return types. -/
def pets : Index :=
  let going (returned : String) : Method := ⟨"go", returned, .packageAccess, false, false, []⟩
  ⟨.ofRecords [{ TypeRecord.named "Cat" with methods := [going "int"] },
    { TypeRecord.named "Dog" with methods := [going "void"] }, TypeRecord.named "Main"]⟩

/-- The statements `Cat x; x.go();` with another type and variable. -/
def goingOn (type : Word) (pet : String) : List Node :=
  [.variables (.mk [.mk type []] 0) [pet] [],
    .group .expressionStatement [.primary (.call ⟨false, pet, "go", 0⟩) [] []]]

def catWord : Word := ⟨"Cat", by decide, by decide⟩

def dogWord : Word := ⟨"Dog", by decide, by decide⟩

/-- The head of a method without parameters. -/
def runHeader : MethodHeader := ⟨false, [], [], none, "run"⟩

/-- The methods that the calls of a body are bound to. -/
def boundIn (blocks : List (List Node)) : List (Option BoundMethod) :=
  (bindings pets (.named "Main") (methodOf runHeader [] [] blocks)).map fun outcome =>
    outcome.value.toOption

/-- Both blocks declare a cat under one name, and the second one a dog under another
one. -/
theorem bindings_catThenBoth :
    let first := goingOn catWord "x"
    let second := goingOn catWord "x" ++ goingOn dogWord "y"
    (∃ site ∈ callSitesAll first, ∃ name ∈ siteStart? site, Declares second name) ∧
      bindings pets (.named "Main") (methodOf runHeader [] [] [first, second]) =
        bindings pets (.named "Main") (methodOf runHeader [] [] [first]) ++
          bindings pets (.named "Main") (methodOf runHeader [] [] [second]) ∧
      boundIn [first, second] =
        [some ⟨"Cat", "go", "int"⟩, some ⟨"Cat", "go", "int"⟩, some ⟨"Dog", "go", "void"⟩] := by
  intro first second
  refine ⟨by decide, ?_, by decide⟩
  exact bindings_of_blocks pets (.named "Main") runHeader [] [] first second (by decide) (by decide)

/-- Blocks that declare whatever they use still disturb each other: a cat of the
first block is taken for the dog that the second block calls by the same name. -/
theorem bindings_catThenDog :
    let first := goingOn catWord "x"
    let second := goingOn dogWord "x"
    (∀ block ∈ [first, second], ∀ site ∈ callSitesAll block, ∀ name ∈ siteStart? site,
        Declares block name) ∧
      bindings pets (.named "Main") (methodOf runHeader [] [] [first, second]) ≠
        bindings pets (.named "Main") (methodOf runHeader [] [] [first]) ++
          bindings pets (.named "Main") (methodOf runHeader [] [] [second]) := by
  intro first second
  refine ⟨by decide, ?_⟩
  intro same
  have bound_eq : boundIn [first, second] = boundIn [first] ++ boundIn [second] := by
    rw [boundIn, same, List.map_append]
    rfl
  exact absurd bound_eq (by decide)

end JavaUml.Resolve
