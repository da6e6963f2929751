import SheetBinding.Proofs.Markup.Places
import SheetBinding.Selector

/-!
# How far a search leads

A search promises elements at or below its scope, or children of the scope only.
It keeps an eye on the first compound of each chain and on nothing else: the
compounds after it stand wherever the combinators lead, and these are followed
in the whole tree. So the promise is a matter of where the combinators of a
chain can lead from the place of its first compound.

They lead in two ways only. A descendant or a child is below, and a place below
the scope has only places below the scope below it and beside it. A sibling is
beside, and stays a child of whatever the other one is a child of. From this it
is seen which chains break the promise, and where. A search at and below the
scope is left by a chain that starts at the scope itself and goes sideways
first; whatever comes then, it ends at or below a later sibling of the scope. A
search among the children is left by every chain that goes down at all.

`Leads` keeps the way that a chain takes apart from its compounds
(`exists_start`), and a way has three properties, each by induction on the
chain: which place above its end is a sibling of its start
(`exists_level_of_leads`), and what a first step down (`mem_ancestors_of_leads`)
and a first step sideways (`exists_precedes_of_leads`) leave behind.
`search?_stays_iff` puts them together.
-/

namespace SheetBinding

open Node Place

namespace Selector

/-! ## The way that a chain takes -/

/-- A combinator leads down the tree, and not sideways. -/
def Combinator.descends : Combinator → Bool
  | .descendant => true
  | .child => true
  | .adjacent => false
  | .sibling => false

/-- Whether a chain goes down anywhere after its first compound. -/
def Complex.descends : Complex → Bool
  | .single _ => false
  | .join left combinator _ => left.descends || combinator.descends

/-- The first combinator of a chain. -/
def Complex.opening? : Complex → Option Combinator
  | .single _ => none
  | .join left combinator _ => left.opening?.or (some combinator)

/-- A chain goes on sideways from its first compound. -/
def Complex.opensSideways (chain : Complex) : Bool :=
  chain.opening?.any fun combinator => !combinator.descends

/-- Whether the combinators of a chain lead from one place to another, whatever
its compounds are. -/
def Complex.Leads : Complex → Place → Place → Prop
  | .single _, o, p => o = p
  | .join left combinator _, o, p => ∃ q ∈ combinator.sources p, left.Leads o q

/-- A chain that ends at a place began at one from which it leads there, and
that its first compound was allowed to stand at this one place is all that was
needed. -/
theorem Complex.exists_start {axis : List Place} {start : Place → Bool}
    {chain : Complex} {p : Place} (h : chain.holds axis start p = true) :
    ∃ o, start o = true ∧ chain.Leads o p ∧
      ∀ other : Place → Bool, other o = true →
        chain.holds axis other p = true := by
  match chain with
  | .single compound =>
      rw [Complex.holds, Bool.and_eq_true] at h
      refine ⟨p, h.1, rfl, fun other hother => ?_⟩
      rw [Complex.holds, hother, h.2]
      rfl
  | .join left combinator compound =>
      rw [Complex.holds, Bool.and_eq_true, List.any_eq_true] at h
      obtain ⟨hcompound, q, hq, hleft⟩ := h
      obtain ⟨o, ho, hleads, hsame⟩ := Complex.exists_start hleft
      refine ⟨o, ho, ⟨q, hq, hleads⟩, fun other hother => ?_⟩
      rw [Complex.holds, Bool.and_eq_true, List.any_eq_true]
      exact ⟨hcompound, q, hq, hsame other hother⟩

theorem Combinator.of_mem_sources {c : Combinator} {p q : Place}
    (h : q ∈ c.sources p) :
    (c.descends = true ∧ q ∈ p.ancestors) ∨
      (c.descends = false ∧ q ∈ p.preceding) := by
  cases c with
  | descendant => exact .inl ⟨rfl, h⟩
  | child =>
      rw [sources, Option.mem_toList] at h
      exact .inl ⟨rfl, mem_ancestors_of_parent? h⟩
  | adjacent =>
      rw [sources, Option.mem_toList] at h
      exact .inr ⟨rfl, List.mem_of_find?_eq_some h⟩
  | sibling => exact .inr ⟨rfl, h⟩

theorem Combinator.ancestors_subset_of_mem_sources {c : Combinator}
    {p q : Place} (h : q ∈ c.sources p) : q.ancestors ⊆ p.ancestors := by
  rcases c.of_mem_sources h with ⟨-, hq⟩ | ⟨-, hq⟩
  · exact ancestors_subset_of_mem hq
  · rw [(precedes_of_mem_preceding hq).ancestors_eq]
    exact List.Subset.refl _

namespace Complex

/-- At the end of a way or above it there is a place beside the start: the end
itself if the chain never goes down, and one that is really above it if it
does. -/
theorem exists_level_of_leads {chain : Complex} {o p : Place}
    (h : chain.Leads o p) :
    ∃ a, a.ancestors = o.ancestors ∧ (chain.descends = false → a = p) ∧
      (chain.descends = true → a ∈ p.ancestors) := by
  match chain with
  | .single compound =>
      cases h
      exact ⟨o, rfl, fun _ => rfl, fun hdown => by cases hdown⟩
  | .join left combinator compound =>
      obtain ⟨q, hq, hleads⟩ := h
      obtain ⟨a, ha, hstay, hdown⟩ := exists_level_of_leads hleads
      have habove := combinator.ancestors_subset_of_mem_sources hq
      rw [Complex.descends]
      rcases combinator.of_mem_sources hq with ⟨hc, hq⟩ | ⟨hc, hq⟩
      · refine ⟨a, ha, by simp [hc], fun _ => ?_⟩
        cases hl : left.descends with
        | false => exact hstay hl ▸ hq
        | true => exact habove (hdown hl)
      · cases hl : left.descends with
        | false =>
            -- Not yet below the level of the start, so the end itself is still
            -- beside it.
            refine ⟨p, ?_, fun _ => rfl, by simp [hc]⟩
            rw [← (precedes_of_mem_preceding hq).ancestors_eq, ← hstay hl, ha]
        | true => exact ⟨a, ha, by simp, fun _ => habove (hdown hl)⟩

theorem eq_of_leads {chain : Complex} {o p : Place} (h : chain.Leads o p)
    (hopen : chain.opening? = none) : o = p := by
  match chain with
  | .single compound => exact h
  | .join left combinator compound =>
      rw [opening?, Option.or_eq_none_iff] at hopen
      cases hopen.2

theorem mem_ancestors_of_leads {chain : Complex} {c : Combinator} {o p : Place}
    (h : chain.Leads o p) (hopen : chain.opening? = some c)
      (hc : c.descends = true) :
    o ∈ p.ancestors := by
  match chain with
  | .single compound => cases hopen
  | .join left combinator compound =>
      obtain ⟨q, hq, hleads⟩ := h
      rw [opening?] at hopen
      cases hl : left.opening? with
      | none =>
          rw [hl, Option.none_or, Option.some.injEq] at hopen
          cases eq_of_leads hleads hl
          rcases combinator.of_mem_sources hq with ⟨-, hq⟩ | ⟨hside, -⟩
          · exact hq
          · rw [hopen, hc] at hside
            cases hside
      | some d =>
          rw [hl, Option.some_or] at hopen
          have ho := mem_ancestors_of_leads hleads (hl.trans hopen) hc
          exact combinator.ancestors_subset_of_mem_sources hq ho

theorem exists_precedes_of_leads {chain : Complex} {o p : Place}
    (h : chain.Leads o p) (hopen : chain.opensSideways = true) :
    ∃ a, (a = p ∨ a ∈ p.ancestors) ∧ o.Precedes a := by
  match chain with
  | .single compound => cases hopen
  | .join left combinator compound =>
      obtain ⟨q, hq, hleads⟩ := h
      rw [opensSideways, opening?] at hopen
      cases hl : left.opening? with
      | none =>
          rw [hl, Option.none_or, Option.any_some] at hopen
          cases eq_of_leads hleads hl
          rcases combinator.of_mem_sources hq with ⟨hdown, -⟩ | ⟨-, hq⟩
          · rw [hdown] at hopen
            cases hopen
          · exact ⟨p, .inl rfl, precedes_of_mem_preceding hq⟩
      | some d =>
          rw [hl, Option.some_or, ← hl] at hopen
          obtain ⟨a, ha, hoa⟩ := exists_precedes_of_leads hleads hopen
          rcases ha with rfl | ha
          · rcases combinator.of_mem_sources hq with ⟨-, hq⟩ | ⟨-, hq⟩
            · exact ⟨a, .inr hq, hoa⟩
            · exact ⟨p, .inl rfl, hoa.trans (precedes_of_mem_preceding hq)⟩
          · exact ⟨a, .inr (combinator.ancestors_subset_of_mem_sources hq ha),
              hoa⟩

end Complex

/-! ## The places of a tree -/

section Tree

variable {tree node : Node} {scope : Nat}

theorem Combinator.standsIn_of_mem_sources {c : Combinator} {p q : Place}
    (hp : StandsIn tree p) (hq : q ∈ c.sources p) : StandsIn tree q := by
  rcases c.of_mem_sources hq with ⟨-, hq⟩ | ⟨-, hq⟩
  · exact hp.of_mem_ancestors hq
  · exact hp.of_mem_preceding hq

theorem Complex.standsIn_of_leads {chain : Complex} {o p : Place}
    (hp : StandsIn tree p) (h : chain.Leads o p) : StandsIn tree o := by
  match chain with
  | .single compound => exact h ▸ hp
  | .join left combinator compound =>
      obtain ⟨q, hq, hleads⟩ := h
      exact Complex.standsIn_of_leads
        (combinator.standsIn_of_mem_sources hp hq) hleads

variable {chain : Complex} {o p : Place}

theorem node_eq_of_id (hnodup : tree.ids.Nodup)
    (hfind : tree.find? scope = some node) (hp : StandsIn tree p)
    (hid : p.id = scope) : p.node = node := by
  have h := hp.find?_eq hnodup
  rw [hid, hfind, Option.some.injEq] at h
  exact h.symm

theorem onAxis_true_iff :
    onAxis scope true p = true ↔
      p.id = scope ∨ ∃ a ∈ p.ancestors, a.id = scope := by
  simp [onAxis]

theorem onAxis_false_iff :
    onAxis scope false p = true ↔ ∃ q, p.parent? = some q ∧ q.id = scope := by
  simp [onAxis, Option.any_eq_true]

mutual

/-- The places of the axis of a search hold the nodes at and below its scope,
and no others. -/
theorem map_node_onAxis_under {n : Node} {levels : List Level}
    (hnodup : n.ids.Nodup) (hup : ∀ a ∈ ancestorsOf levels, a.id ≠ scope) :
    ((n.placesUnder levels).filter (onAxis scope true)).map Place.node =
      (n.find? scope).elim [] nodes := by
  by_cases hid : n.id = scope
  · have hall : ∀ p ∈ n.placesUnder levels, onAxis scope true p = true :=
      fun p hp => by
      rw [onAxis_true_iff]
      rcases eq_or_mem_ancestors hp with rfl | habove
      · exact .inl hid
      · exact .inr ⟨_, habove, hid⟩
    rw [List.filter_eq_self.2 hall, map_node_placesUnder, ← hid, find?_self]
    rfl
  · have hself : onAxis scope true ⟨n, levels⟩ = false := by
      rw [Bool.eq_false_iff, Ne, onAxis_true_iff]
      rintro (h | ⟨a, ha, h⟩)
      · exact hid h
      · exact hup a ha h
    match n with
    | element i tag as text cs tail =>
        rw [id_element] at hid
        rw [placesUnder, List.filter_cons, hself, if_neg Bool.false_ne_true,
          find?, if_neg (by simpa using hid)]
        rw [ids, List.nodup_cons] at hnodup
        exact map_node_onAxis_among hnodup.2 (List.forall_mem_cons.2 ⟨hid, hup⟩)
    | comment i content tail =>
        rw [id_comment] at hid
        rw [placesUnder, List.filter_cons, hself, if_neg Bool.false_ne_true,
          find?, if_neg (by simpa using hid)]
        rfl

theorem map_node_onAxis_among {parent : Node} {up : List Level}
    {before ns : List Node} (hnodup : (idsAmong ns).Nodup)
    (hup : ∀ a ∈ (⟨parent, up⟩ : Place) :: ancestorsOf up, a.id ≠ scope) :
    ((placesAmong parent up before ns).filter (onAxis scope true)).map
      Place.node =
      (findAmong? scope ns).elim [] nodes := by
  match ns with
  | [] => rw [placesAmong, findAmong?]; rfl
  | n :: rest =>
      have hparts := hnodup
      rw [idsAmong, List.nodup_append] at hparts
      have hhere : ∀ a ∈ ancestorsOf (⟨parent, before, rest⟩ :: up), a.id ≠
          scope := hup
      rw [placesAmong, List.filter_append, List.map_append,
        map_node_onAxis_under hparts.1 hhere,
        map_node_onAxis_among hparts.2.1 hup, findAmong?]
      cases hn : n.find? scope with
      | none => rfl
      | some m =>
          obtain ⟨hid, hin⟩ := find?_some hn
          have hnot : scope ∉ idsAmong rest := fun hrest =>
            hparts.2.2 scope (hin.subset (hid ▸ m.id_mem_ids)) scope hrest rfl
          rw [findAmong?_of_not_mem hnot]
          exact List.append_nil _

end

theorem map_node_onAxis (hnodup : tree.ids.Nodup)
    (hfind : tree.find? scope = some node) :
    (tree.places.filter (onAxis scope true)).map Place.node = node.nodes := by
  have hnone : ∀ a ∈ ancestorsOf [], a.id ≠ scope := fun _ ha => by cases ha
  rw [places, selfAndBelow]
  exact (map_node_onAxis_under hnodup hnone).trans (by rw [hfind]; rfl)

theorem id_mem_ids_of_start_below (hnodup : tree.ids.Nodup)
    (hfind : tree.find? scope = some node) (hp : StandsIn tree p)
    (h : chain.Leads o p) {b : Place} (hb : b ∈ o.ancestors)
    (hid : b.id = scope) : p.id ∈ node.ids := by
  obtain ⟨a, ha, hstay, hdown⟩ := chain.exists_level_of_leads h
  have hbp : b ∈ p.ancestors := by
    rw [← ha] at hb
    cases hd : chain.descends with
    | false => exact hstay hd ▸ hb
    | true => exact ancestors_subset_of_mem (hdown hd) hb
  rw [← node_eq_of_id hnodup hfind (hp.of_mem_ancestors hbp) hid]
  exact hp.id_mem_ids (.inr hbp)

/-- A chain that starts at the scope leaves it just when it goes sideways
first. -/
theorem id_mem_ids_iff_of_start_at (hnodup : tree.ids.Nodup)
    (hfind : tree.find? scope = some node) (hp : StandsIn tree p)
      (h : chain.Leads o p)
    (hid : o.id = scope) : p.id ∈ node.ids ↔ chain.opensSideways = false := by
  rw [← node_eq_of_id hnodup hfind (Complex.standsIn_of_leads hp h) hid]
  constructor
  · intro hmem
    by_contra hopen
    rw [Bool.not_eq_false] at hopen
    -- The end is at or below a later sibling of the scope, with which the scope
    -- shares no number.
    obtain ⟨a, ha, hoa⟩ := chain.exists_precedes_of_leads h hopen
    have haTree : StandsIn tree a :=
      ha.elim (fun he => he ▸ hp) hp.of_mem_ancestors
    exact haTree.not_mem_ids hnodup hoa (hp.id_mem_ids ha) hmem
  · intro hopen
    refine hp.id_mem_ids ?_
    rw [Complex.opensSideways] at hopen
    cases hc : chain.opening? with
    | none => exact .inl (Complex.eq_of_leads h hc)
    | some c =>
        rw [hc, Option.any_some, Bool.not_eq_false'] at hopen
        exact .inr (Complex.mem_ancestors_of_leads h hc hopen)

/-- A chain that starts at a child of the scope ends at or below a child of it,
and at a child just when it never goes down. -/
theorem mem_children_iff_of_start_child (hnodup : tree.ids.Nodup)
    (hfind : tree.find? scope = some node) (hp : StandsIn tree p)
      (h : chain.Leads o p)
    (hstart : onAxis scope false o = true) :
    p.id ∈ idsAmong node.children ∧
      (p.id ∈ node.children.map Node.id ↔ chain.descends = false) := by
  obtain ⟨q, hq, hid⟩ := onAxis_false_iff.1 hstart
  obtain ⟨a, ha, hstay, hdown⟩ := chain.exists_level_of_leads h
  have hap : a = p ∨ a ∈ p.ancestors := by
    cases hd : chain.descends with
    | false => exact .inl (hstay hd)
    | true => exact .inr (hdown hd)
  have haTree : StandsIn tree a :=
    hap.elim (fun he => he ▸ hp) hp.of_mem_ancestors
  have haq : a.parent? = some q := by
    rw [parent?_eq_head?, ha, ← parent?_eq_head?, hq]
  have hqNode : q.node = node :=
    node_eq_of_id hnodup hfind
      (haTree.of_mem_ancestors (mem_ancestors_of_parent? haq)) hid
  have hchild : a.node ∈ node.children := hqNode ▸ haTree.node_mem_children haq
  refine ⟨ids_subset_idsAmong hchild (hp.id_mem_ids hap), ?_⟩
  constructor
  · intro hmem
    by_contra hd
    rw [Bool.not_eq_false] at hd
    -- A child with the number of the end would be the child above it, and have
    -- its own number among those below it.
    obtain ⟨c, hc, hcid⟩ := List.mem_map.1 hmem
    have hbelow : c.id ∈ idsAmong a.node.children :=
      hcid ▸ hp.ids_subset (hdown hd) p.node.id_mem_ids
    have hsiblings :=
      (nodup_children_of_mem_nodes hnodup (mem_nodes_of_find? hnodup hfind)).2
    cases eq_of_mem_ids hsiblings hc hchild c.id_mem_ids
      (idsAmong_children_subset _ hbelow)
    exact (nodup_children_of_mem_nodes hnodup haTree.node_mem_nodes).1 hbelow
  · intro hd
    rw [hstay hd] at hchild
    exact List.mem_map_of_mem hchild

end Tree

/-! ## What a search finds -/

/-- The places that a chain selects when its first compound can only be the
element searched from. -/
def Complex.selectFrom (chain : Complex) (tree : Node) (scope : Nat) :
    List Place :=
  tree.places.filter fun p =>
    chain.holds (axis tree scope true) (·.id == scope) p

theorem Group.mem_select_iff {group : Group} {tree : Node} {scope : Nat}
    {descendants : Bool} {p : Place} :
    p ∈ group.select tree scope descendants ↔ p ∈ tree.places ∧
      ∃ chain ∈ group,
        chain.holds (axis tree scope descendants) (onAxis scope descendants) p =
          true := by
  rw [select, List.mem_filter, List.any_eq_true]

section Search

variable {group : Group} {tree node : Node} {scope : Nat}

theorem Group.select_stays_iff (hnodup : tree.ids.Nodup)
    (hfind : tree.find? scope = some node) :
    (∀ p ∈ group.select tree scope true, p.id ∈ node.ids) ↔
      ∀ chain ∈ group, chain.opensSideways = true →
        chain.selectFrom tree scope = [] := by
  constructor
  · intro hall chain hchain hopen
    refine List.filter_eq_nil_iff.2 fun p hp hholds => ?_
    obtain ⟨o, ho, hleads, hsame⟩ := chain.exists_start hholds
    have hid : o.id = scope := eq_of_beq ho
    have hfound : p ∈ group.select tree scope true :=
      mem_select_iff.2 ⟨hp, chain, hchain,
        hsame _ (onAxis_true_iff.2 (.inl hid))⟩
    have hin := (id_mem_ids_iff_of_start_at hnodup hfind
      (standsIn_of_mem_places hp) hleads hid).1 (hall p hfound)
    rw [hopen] at hin
    cases hin
  · intro hnone p hfound
    obtain ⟨hp, chain, hchain, hholds⟩ := mem_select_iff.1 hfound
    have hpTree := standsIn_of_mem_places hp
    obtain ⟨o, ho, hleads, hsame⟩ := chain.exists_start hholds
    rcases onAxis_true_iff.1 ho with hid | ⟨b, hb, hid⟩
    · rw [id_mem_ids_iff_of_start_at hnodup hfind hpTree hleads hid]
      by_contra hopen
      rw [Bool.not_eq_false] at hopen
      have hempty := List.filter_eq_nil_iff.1 (hnone chain hchain hopen) p hp
      exact hempty (hsame _ (beq_iff_eq.2 hid))
    · exact id_mem_ids_of_start_below hnodup hfind hpTree hleads hb hid

theorem Complex.mem_children_iff_of_holds {chain : Complex} {axis : List Place}
    {p : Place} (hnodup : tree.ids.Nodup) (hfind : tree.find? scope = some node)
    (hp : p ∈ tree.places)
    (h : chain.holds axis (onAxis scope false) p = true) :
    p.id ∈ idsAmong node.children ∧
      (p.id ∈ node.children.map Node.id ↔ chain.descends = false) := by
  obtain ⟨o, ho, hleads, -⟩ := chain.exists_start h
  exact mem_children_iff_of_start_child hnodup hfind (standsIn_of_mem_places hp)
    hleads ho

theorem Group.select_children_iff (hnodup : tree.ids.Nodup)
    (hfind : tree.find? scope = some node) :
    (∀ p ∈ group.select tree scope false, p.id ∈ node.children.map Node.id) ↔
      ∀ chain ∈ group, chain.descends = true →
        select [chain] tree scope false = [] := by
  constructor
  · intro hall chain hchain hdown
    refine List.eq_nil_iff_forall_not_mem.2 fun p hmem => ?_
    obtain ⟨hp, only, honly, hholds⟩ := mem_select_iff.1 hmem
    cases List.mem_singleton.1 honly
    have hfound := hall p (mem_select_iff.2 ⟨hp, chain, hchain, hholds⟩)
    have hflat :=
      (Complex.mem_children_iff_of_holds hnodup hfind hp hholds).2.1 hfound
    rw [hdown] at hflat
    cases hflat
  · intro hnone p hfound
    obtain ⟨hp, chain, hchain, hholds⟩ := mem_select_iff.1 hfound
    refine (Complex.mem_children_iff_of_holds hnodup hfind hp hholds).2.2 ?_
    by_contra hdown
    rw [Bool.not_eq_false] at hdown
    have hmem : p ∈ select [chain] tree scope false :=
      mem_select_iff.2 ⟨hp, chain, List.mem_singleton_self _, hholds⟩
    rw [hnone chain hchain hdown] at hmem
    cases hmem

end Search

/-- In a search from an element, all that is found is at or below it just when
no chain that goes sideways first can start at the element itself. In a search
among its children, all that is found is below it, and all of it is children
just when no chain that goes down finds anything. -/
theorem search?_stays_iff {s : Selector} {tree node : Node} {scope : Nat}
    (hnodup : tree.ids.Nodup) (hfind : tree.find? scope = some node)
    (hdeclared : s.hasUndeclaredPrefix = false) :
    (∃ found, s.search? tree scope true = some found ∧
      ((∀ p ∈ found, p.id ∈ node.ids) ↔
        ∀ chain ∈ s.group, chain.opensSideways = true →
          chain.selectFrom tree scope = [])) ∧
    ∃ found, s.search? tree scope false = some found ∧
      (∀ p ∈ found, p.id ∈ idsAmong node.children) ∧
      ((∀ p ∈ found, p.id ∈ node.children.map Node.id) ↔
        ∀ chain ∈ s.group, chain.descends = true →
          Group.select [chain] tree scope false = []) := by
  have hsearch : ∀ descendants, s.search? tree scope descendants =
      some (s.group.select tree scope descendants) := fun descendants => by
    rw [search?, hdeclared]
    rfl
  refine ⟨⟨_, hsearch true, Group.select_stays_iff hnodup hfind⟩, ⟨_,
    hsearch false, fun p hfound => ?_, Group.select_children_iff hnodup hfind⟩⟩
  obtain ⟨hp, chain, -, hholds⟩ := Group.mem_select_iff.1 hfound
  exact (Complex.mem_children_iff_of_holds hnodup hfind hp hholds).1

/-- A list of two items. -/
def listNode : Node :=
  .element 1 "ul" [] "" [.element 2 "li" [] "a" [] "",
    .element 3 "li" [] "b" [] ""] ""

/-- A list with a note beside it. -/
def listAndNote : Node :=
  .element 0 "div" [] "" [listNode, .element 4 "p" [] "c" [] ""] ""

/-- The compound of a tag alone. -/
def Compound.ofTag (tag : String) : Compound :=
  .mk (.named tag) []

/-- The paragraphs beside a list. -/
def besideList : Selector :=
  ⟨"ul + p", [.join (.single (.ofTag "ul")) .adjacent (.ofTag "p")]⟩

/-- A search from the list leaves it, for the one chain goes sideways and can
start at the list; among the items of the list nothing is found. -/
theorem search?_stays_iff_beside :
    listAndNote.ids.Nodup ∧ listAndNote.find? 1 = some listNode ∧
      besideList.hasUndeclaredPrefix = false ∧
      (∃ chain ∈ besideList.group, chain.opensSideways = true ∧
        chain.selectFrom listAndNote 1 ≠ []) ∧
      (∃ found, besideList.search? listAndNote 1 true = some found ∧
        ¬ ∀ p ∈ found, p.id ∈ listNode.ids) ∧
      (∀ chain ∈ besideList.group, chain.descends = false) ∧
      ∃ found, besideList.search? listAndNote 1 false = some found ∧
        ∀ p ∈ found, p.id ∈ listNode.children.map Node.id := by
  have hnodup : listAndNote.ids.Nodup := by decide
  have hfind : listAndNote.find? 1 = some listNode := rfl
  have hdeclared : besideList.hasUndeclaredPrefix = false := by decide
  obtain ⟨⟨found, hfound, hiff⟩, found', hfound', -, hiff'⟩ :=
    search?_stays_iff hnodup hfind hdeclared
  have hchain : ∃ chain ∈ besideList.group, chain.opensSideways = true ∧
      chain.selectFrom listAndNote 1 ≠ [] := by
    refine ⟨_, List.mem_singleton_self _, rfl, fun hnone => ?_⟩
    have hsome : ((Complex.join (.single (.ofTag "ul")) .adjacent
        (.ofTag "p")).selectFrom listAndNote 1).isEmpty = false := by
      decide +kernel
    rw [hnone] at hsome
    cases hsome
  have hflat : ∀ chain ∈ besideList.group, chain.descends = false := by
    intro chain hmem
    rw [List.mem_singleton.1 hmem]
    rfl
  refine ⟨hnodup, hfind, hdeclared, hchain, ⟨found, hfound, fun hall => ?_⟩,
    hflat, found', hfound', hiff'.2 fun chain hmem hdown => ?_⟩
  · obtain ⟨chain, hmem, hopens, hne⟩ := hchain
    exact hne (hiff.1 hall chain hmem hopens)
  · rw [hflat chain hmem] at hdown
    cases hdown

/-- The numbers of the nodes that a search finds for the text of a selector. -/
def foundIds? (text : String) (tree : Node) (scope : Nat) (descendants : Bool) :
    Option (List Nat) :=
  (compile text).toOption.bind fun s =>
    (s.search? tree scope descendants).map fun found => found.map Place.id

theorem exists_of_foundIds? {text : String} {tree : Node} {scope : Nat}
    {descendants : Bool} {ids : List Nat}
    (h : foundIds? text tree scope descendants = some ids) :
    ∃ s found, compile text = .ok s ∧ s.hasUndeclaredPrefix = false ∧
      s.search? tree scope descendants = some found ∧
        found.map Place.id = ids := by
  rw [foundIds?] at h
  cases hcompile : compile text with
  | error e => rw [hcompile] at h; cases h
  | ok s =>
      rw [hcompile] at h
      obtain ⟨found, hfound, hids⟩ := Option.map_eq_some_iff.1 h
      refine ⟨s, found, rfl, ?_, hfound, hids⟩
      rw [search?] at hfound
      split at hfound
      · cases hfound
      · next hdeclared => exact Bool.eq_false_iff.2 hdeclared

/-- A search from the list finds the note beside it, and one among the children
of what is around both finds the items of the list. -/
theorem search?_leaves_scope :
    (¬ ∀ (text : String) (s : Selector) (tree node : Node)
      (scope : Nat) (found : List Place), compile text = .ok s →
      s.hasUndeclaredPrefix = false → tree.ids.Nodup →
        tree.find? scope = some node → s.search? tree scope true = some found →
        ∀ p ∈ found, p.id ∈ node.ids) ∧
    ¬ ∀ (text : String) (s : Selector) (tree node : Node) (scope : Nat)
      (found : List Place),
      compile text = .ok s → s.hasUndeclaredPrefix = false → tree.ids.Nodup →
        tree.find? scope = some node → s.search? tree scope false = some found →
        ∀ p ∈ found, p.id ∈ node.children.map Node.id := by
  have hnodup : listAndNote.ids.Nodup := by decide
  constructor
  · intro hall
    have hbeside : foundIds? "ul + p" listAndNote 1 true = some [4] := by
      decide +kernel
    obtain ⟨s, found, hcompile, hdeclared, hfound, hids⟩ :=
      exists_of_foundIds? hbeside
    obtain ⟨p, hp, hid⟩ := List.mem_map.1 (hids ▸ List.mem_singleton_self 4)
    have hin := hall _ s listAndNote listNode 1 found hcompile hdeclared hnodup
      rfl hfound p hp
    rw [hid] at hin
    exact absurd hin (by decide)
  · intro hall
    have hinside : foundIds? "ul > li" listAndNote 0 false = some [2, 3] := by
      decide +kernel
    obtain ⟨s, found, hcompile, hdeclared, hfound, hids⟩ :=
      exists_of_foundIds? hinside
    obtain ⟨p, hp, hid⟩ := List.mem_map.1 (hids ▸ List.mem_cons_self (a := 2))
    have hin := hall _ s listAndNote listAndNote 0 found hcompile hdeclared
      hnodup rfl hfound p hp
    rw [hid] at hin
    exact absurd hin (by decide)

end Selector

end SheetBinding
