import JavaUml.Proofs.Java.CallOrder
import JavaUml.Proofs.Resolve.NearestMethod

/-!
# Bound calls of a chain

Every call of a chain is bound on its own: the elements in front of it are typed once more from
the head on.  Still, the calls of a chain depend on each other.  A call among the elements in
front of another one is typed by the method that it is bound to, so the later call finds its
receiver only if the earlier one is bound, and the type that the earlier one returns is the
receiver of a call directly behind it.
-/

namespace JavaUml.Java

/-! ## The calls of a chain -/

/-- A primary and its selectors, as the elements of a chain. -/
def Node.chain (node : Node) : List Link :=
  node.link?.toList ++ node.selectors.filterMap Node.link?

/-- The calls among elements, each with all elements in front of it. -/
def linkSites (front : List Link) : List Link → List CallSite
  | [] => []
  | link :: links => link.site front ++ linkSites (front ++ [link]) links

/-- The calls of a primary and its selectors, without those in their arguments. -/
def Node.chainSites (node : Node) : List CallSite :=
  linkSites [] node.chain

section

variable {front links : List Link} {site : CallSite}

theorem Link.mem_site_iff {link : Link} :
    site ∈ link.site front ↔ link = .call site.call ∧ site.chain = front := by
  obtain ⟨made, chain⟩ := site
  cases link with
  | call other => simp [Link.site, eq_comm]
  | this => simp [Link.site]
  | name qualifier member => simp [Link.site]
  | create type => simp [Link.site]
  | other form => simp [Link.site]

/-- The calls among elements are those with nothing but elements of the chain around them. -/
theorem mem_linkSites_iff :
    site ∈ linkSites front links ↔
      ∃ before behind, links = before ++ .call site.call :: behind ∧
        site.chain = front ++ before := by
  induction links generalizing front with
  | nil => simp [linkSites]
  | cons link rest ih =>
      rw [linkSites, List.mem_append, Link.mem_site_iff, ih]
      constructor
      · rintro (⟨rfl, chain_eq⟩ | ⟨before, behind, rfl, chain_eq⟩)
        · exact ⟨[], rest, rfl, by simpa using chain_eq⟩
        · exact ⟨link :: before, behind, rfl, by simpa using chain_eq⟩
      · rintro ⟨before, behind, links_eq, chain_eq⟩
        cases before with
        | nil =>
            obtain ⟨rfl, rfl⟩ := List.cons.inj links_eq
            exact .inl ⟨rfl, by simpa using chain_eq⟩
        | cons first before =>
            obtain ⟨rfl, rfl⟩ := List.cons.inj links_eq
            exact .inr ⟨before, behind, rfl, by simpa using chain_eq⟩

/-- An earlier call is among the elements in front of a later one. -/
theorem pairwise_linkSites (front links : List Link) :
    (linkSites front links).Pairwise fun earlier later =>
      ∃ between, later.chain = earlier.chain ++ .call earlier.call :: between := by
  induction links generalizing front with
  | nil => exact .nil
  | cons link rest ih =>
      rw [linkSites, List.pairwise_append]
      refine ⟨?_, ih _, ?_⟩
      · cases link <;> simp [Link.site]
      · intro earlier own later behind
        obtain ⟨rfl, earlier_eq⟩ := Link.mem_site_iff.1 own
        obtain ⟨before, _, _, later_eq⟩ := mem_linkSites_iff.1 behind
        exact ⟨before, by rw [later_eq, earlier_eq]; simp⟩

theorem linkSites_sublist_selectorSites (front : List Link) (selectors : List Node) :
    (linkSites front (selectors.filterMap Node.link?)).Sublist (selectorSites front selectors) := by
  induction selectors generalizing front with
  | nil => exact .slnil
  | cons selector rest ih =>
      cases selector with
      | primary link parts _ =>
          simp only [List.filterMap_cons, Node.link?, linkSites, selectorSites]
          exact (List.sublist_append_right _ _).append (ih _)
      | _ => exact ih front

/-- The calls of a chain are noted in its order. -/
theorem Node.chainSites_sublist_callSites (node : Node) :
    node.chainSites.Sublist node.callSites := by
  rw [callSites_eq, chainSites, chain, List.append_assoc]
  refine List.Sublist.trans ?_ (List.sublist_append_right _ _)
  cases node.link? with
  | none => exact linkSites_sublist_selectorSites [] node.selectors
  | some link =>
      simp only [Option.toList_some, List.flatMap_singleton, List.singleton_append, linkSites]
      exact (List.Sublist.refl _).append (linkSites_sublist_selectorSites [link] node.selectors)

end

end JavaUml.Java

namespace JavaUml.Resolve

open JavaUml.Java JavaUml.Model

/-! ## What a receiver says about the calls in front of it -/

/-- Steps one after the other succeed if those of the first part do, and then the rest. -/
theorem value_foldlM_append_eq_ok_iff {α β : Type} {step : α → β → Resolving α}
    {items more : List β} {start last : α} :
    ((items ++ more).foldlM step start).run.value = .ok last ↔
      ∃ middle, (items.foldlM step start).run.value = .ok middle ∧
        (more.foldlM step middle).run.value = .ok last := by
  induction items generalizing start with
  | nil =>
      constructor
      · intro onward
        exact ⟨start, rfl, onward⟩
      · rintro ⟨_, ⟨⟩, onward⟩
        exact onward
  | cons item rest ih =>
      rw [List.cons_append, List.foldlM_cons, List.foldlM_cons, value_bind_eq_ok_iff]
      simp only [value_bind_eq_ok_iff, ih]
      constructor
      · rintro ⟨next, stepped, middle, reached, onward⟩
        exact ⟨middle, ⟨next, stepped, reached⟩, onward⟩
      · rintro ⟨middle, ⟨next, stepped, reached⟩, onward⟩
        exact ⟨next, stepped, middle, reached, onward⟩

section

variable {index : Index} {scope : Scope} {made call : Call} {front links : List Link}
  {record next : TypeRecord}

/-- A call inside of a chain leads to the type that the method it means returns. -/
theorem value_nextRecord_call
    (reached : (nextRecord index record (.call made)).run.value = .ok next) :
    ∃ bound, (findMethod index record made.name made.arity).run.value = .ok bound ∧
      (typeNamed index bound.returnType).run.value = .ok next := by
  unfold nextRecord at reached
  dsimp only at reached
  split at reached
  · cases reached
  · exact value_bind_eq_ok_iff.1 reached

/-- Where a receiver is found behind a call, this call is bound, and the elements behind it are
followed from the type that it returns. -/
theorem exists_bound_of_receiver
    (typed : (receiver index scope ⟨call, front ++ .call made :: links⟩).run.value = .ok record) :
    ∃ bound returned, (bind index scope ⟨made, front⟩).run.value = .ok bound ∧
      (typeNamed index bound.returnType).run.value = .ok returned ∧
      (links.foldlM (nextRecord index) returned).run.value = .ok record := by
  -- The head of a chain is bound as a call of its own, the other elements by what comes before.
  cases front with
  | nil =>
      obtain ⟨returned, head, onward⟩ := value_bind_eq_ok_iff.1 typed
      obtain ⟨bound, isBound, named⟩ := value_bind_eq_ok_iff.1 head
      exact ⟨bound, returned, isBound, named, onward⟩
  | cons first rest =>
      obtain ⟨start, head, onward⟩ := value_bind_eq_ok_iff.1 typed
      obtain ⟨middle, reached, behind⟩ := value_foldlM_append_eq_ok_iff.1 onward
      rw [List.foldlM_cons, value_bind_eq_ok_iff] at behind
      obtain ⟨returned, stepped, onward⟩ := behind
      obtain ⟨bound, found, named⟩ := value_nextRecord_call stepped
      have isBound : (bind index scope ⟨made, first :: rest⟩).run.value = .ok bound :=
        value_bind_eq_ok_iff.2 ⟨middle, value_bind_eq_ok_iff.2 ⟨start, head, reached⟩, found⟩
      exact ⟨bound, returned, isBound, named, onward⟩

theorem exists_receiver_of_bound? {site : CallSite} (isBound : (bound? index scope site).isSome) :
    ∃ record, (receiver index scope site).run.value = .ok record := by
  obtain ⟨bound, bound_eq⟩ := Option.isSome_iff_exists.1 isBound
  obtain ⟨record, typed, -⟩ := value_bind_eq_ok_iff.1 (bound?_eq_some_iff.1 bound_eq)
  exact ⟨record, typed⟩

/-- A bound call has bound calls in front of it. -/
theorem isSome_bound?_of_chain {earlier later : CallSite} {between : List Link}
    (chain_eq : later.chain = earlier.chain ++ .call earlier.call :: between)
    (isBound : (bound? index scope later).isSome) : (bound? index scope earlier).isSome := by
  obtain ⟨record, typed⟩ := exists_receiver_of_bound? isBound
  obtain ⟨call, chain⟩ := later
  subst chain_eq
  obtain ⟨bound, _, bound_eq, -, -⟩ := exists_bound_of_receiver typed
  exact Option.isSome_iff_exists.2 ⟨bound, bound?_eq_some_iff.2 bound_eq⟩

end

/-- What passes a test that no item passes behind one that fails is a front of the list. -/
theorem filter_prefix_of_pairwise {α : Type} {test : α → Bool} {items : List α}
    (closed : items.Pairwise fun earlier later => test later = true → test earlier = true) :
    items.filter test <+: items := by
  induction items with
  | nil => exact List.prefix_refl _
  | cons item rest ih =>
      rw [List.pairwise_cons] at closed
      by_cases passes : test item = true
      · rw [List.filter_cons_of_pos passes, List.prefix_cons_inj]
        exact ih closed.2
      · have none_behind : rest.filter test = [] := by
          rw [List.filter_eq_nil_iff]
          intro later among later_passes
          exact passes (closed.1 later among later_passes)
        rw [List.filter_cons_of_neg passes, none_behind]
        exact List.nil_prefix

/-- The calls of a primary and its selectors are noted in their order, each with the elements in
front of it.  If one of them is bound, so are all calls in front of it: the bound ones are a
front of the chain.  The receiver of a bound call directly behind another call is the type that
this other call is bound to return. -/
theorem bound_calls_front (index : Index) (scope : Scope) (link : Link)
    (parts selectors : List Node) :
    let primary := Node.primary link parts selectors
    primary.chainSites.Sublist primary.callSites ∧
      (∀ site, site ∈ primary.chainSites ↔ ∃ behind,
        link :: selectors.filterMap Node.link? = site.chain ++ .call site.call :: behind) ∧
      (∀ earlier later, [earlier, later].Sublist primary.chainSites →
        (bound? index scope later).isSome → (bound? index scope earlier).isSome) ∧
      (primary.chainSites.filter fun site => (bound? index scope site).isSome) <+:
        primary.chainSites ∧
      ∀ site ∈ primary.chainSites, (bound? index scope site).isSome → ∀ front made,
        site.chain = front ++ [.call made] →
          ⟨made, front⟩ ∈ primary.chainSites ∧
            ∃ bound record, bound? index scope ⟨made, front⟩ = some bound ∧
              (typeNamed index bound.returnType).run.value = .ok record ∧
              (receiver index scope site).run.value = .ok record := by
  intro primary
  have members : ∀ site, site ∈ primary.chainSites ↔ ∃ behind,
      link :: selectors.filterMap Node.link? = site.chain ++ .call site.call :: behind := by
    intro site
    rw [Node.chainSites, mem_linkSites_iff]
    constructor
    · rintro ⟨before, behind, links_eq, chain_eq⟩
      exact ⟨behind, by rw [chain_eq]; exact links_eq⟩
    · rintro ⟨behind, links_eq⟩
      exact ⟨site.chain, behind, links_eq, rfl⟩
  have closed : primary.chainSites.Pairwise fun earlier later =>
      (bound? index scope later).isSome → (bound? index scope earlier).isSome := by
    refine (pairwise_linkSites [] primary.chain).imp ?_
    rintro earlier later ⟨between, chain_eq⟩
    exact isSome_bound?_of_chain chain_eq
  refine ⟨primary.chainSites_sublist_callSites, members, ?_, filter_prefix_of_pairwise closed, ?_⟩
  · intro earlier later
    exact List.pairwise_iff_forall_sublist.1 closed
  · intro site among isBound front made chain_eq
    obtain ⟨behind, links_eq⟩ := (members site).1 among
    obtain ⟨record, typed⟩ := exists_receiver_of_bound? isBound
    refine ⟨(members _).2 ⟨.call site.call :: behind, by rw [links_eq, chain_eq]; simp⟩, ?_⟩
    obtain ⟨call, chain⟩ := site
    subst chain_eq
    obtain ⟨bound, returned, bound_eq, named, onward⟩ := exists_bound_of_receiver typed
    cases onward
    exact ⟨bound, record, bound?_eq_some_iff.2 bound_eq, named, typed⟩

/-! ### A relay

A race begins with a runner, who can be told to run on and has a friend.  Runners reach a
number of points, on which nothing can be called. -/

def raceType : TypeRecord :=
  { TypeRecord.named "Race" with
    methods := [⟨"begin", "Runner", .publicAccess, false, false, []⟩] }

def relay : Index :=
  let told : Method := ⟨"again", "Runner", .publicAccess, false, false, [⟨"pace", "int"⟩]⟩
  let reached : Method := ⟨"finish", "int", .publicAccess, false, false, []⟩
  ⟨.ofRecords [raceType, { TypeRecord.named "Runner" with
    fields := [⟨"friend", "Runner", .publicAccess⟩], methods := [told, reached] }]⟩

/-- The expression `begin().again(pace()).friend.finish().shown()`. -/
def relayChain : Node :=
  let call (name : String) (given selectors : List Node) : Node :=
    .primary (.call ⟨false, "", name, given.length⟩) given selectors
  call "begin" [] [call "again" [call "pace" [] []] [], .primary (.name "" "friend") [] [],
    call "finish" [] [], call "shown" [] []]

/-- The last call of the relay is not bound, and neither is the one among the arguments, which is
no part of the chain. -/
theorem bound_calls_relay :
    let scope : Scope := ⟨raceType, []⟩
    let isBound (site : CallSite) := (site.call.name, (bound? relay scope site).isSome)
    relayChain.callSites.map isBound =
        [("begin", true), ("pace", false), ("again", true), ("finish", true), ("shown", false)] ∧
      relayChain.chainSites.map isBound =
        [("begin", true), ("again", true), ("finish", true), ("shown", false)] ∧
      ∃ bound record, bound? relay scope ⟨⟨false, "", "begin", 0⟩, []⟩ = some bound ∧
        (typeNamed relay bound.returnType).run.value = .ok record ∧
        (receiver relay scope ⟨⟨false, "", "again", 1⟩,
          [.call ⟨false, "", "begin", 0⟩]⟩).run.value = .ok record := by
  intro scope isBound
  obtain ⟨-, members, -, -, receivers⟩ := bound_calls_front relay scope
    (.call ⟨false, "", "begin", 0⟩) [] relayChain.selectors
  have again_mem := (members ⟨⟨false, "", "again", 1⟩, [.call ⟨false, "", "begin", 0⟩]⟩).2 ⟨_, rfl⟩
  refine ⟨by decide +kernel, by decide +kernel, ?_⟩
  exact (receivers _ again_mem (by decide +kernel) [] _ rfl).2

end JavaUml.Resolve
