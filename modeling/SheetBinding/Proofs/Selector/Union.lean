import SheetBinding.Binding.Apply
import SheetBinding.Proofs.Markup.Order
import SheetBinding.Proofs.Selector.Endings
import SheetBinding.Proofs.Selector.Joins
import SheetBinding.Proofs.Selector.Scope
import SheetBinding.Proofs.Text.Blank

/-!
# A group finds the union of its parts

The text of a group is cut at the commas that stand outside all parentheses,
brackets, strings and comments. Each part is a text that spells a chain by
itself, and the group is made of these chains (`exists_isGroupOf`). A search
goes through the places of the tree once and keeps those that one of the chains
selects, so it finds what the parts find, in document order and without
repetition, and nothing depends on how the parts are arranged (`search_union`).

A part may be taken for a selector of its own, and the parts may be put together
in another order. Both give what they should as long as no part takes in what is
not its own: a comment that is not closed makes one part of itself and of all
that is put behind it.
-/

namespace SheetBinding.Selector

/-! ## The parts of a group -/

/-- A selector is a group of parts: its text is theirs with commas between them,
each part is a single chain that its own text spells, and these chains are those
of the selector. -/
structure IsGroupOf (s : Selector) (parts : List Selector) : Prop where
  text : s.text = ",".intercalate (parts.map Selector.text)
  group : s.group = parts.flatMap Selector.group
  single : ∀ part ∈ parts, ∃ chain, part.group = [chain]
  alone : ∀ part ∈ parts, read? part.text.toList = some part.group

theorem isGroupOf_single {cs : List Char} {chain : Complex}
    (h : read? cs = some [chain]) :
    IsGroupOf ⟨String.ofList cs, [chain]⟩ [⟨String.ofList cs, [chain]⟩] where
  text := String.intercalate_singleton.symm
  group := rfl
  single := fun part hpart => ⟨chain, by rw [List.mem_singleton.1 hpart]⟩
  alone := fun part hpart => by
    rw [List.mem_singleton.1 hpart, String.toList_ofList]
    exact h

theorem IsGroupOf.cons {cs rest : List Char} {chain : Complex} {group : Group}
    {part : Selector} {parts : List Selector} (hchain : read? cs = some [chain])
    (h : IsGroupOf ⟨String.ofList rest, group⟩ (part :: parts)) :
    IsGroupOf ⟨String.ofList (cs ++ ',' :: rest), chain :: group⟩
      (⟨String.ofList cs, [chain]⟩ :: part :: parts) where
  text := by
    rw [List.map_cons, List.map_cons, String.intercalate_cons_cons,
      ← List.map_cons, ← h.text]
    rw [← String.toList_inj]
    simp
  group := by
    rw [List.flatMap_cons, ← h.group]
    rfl
  single := fun p hp => by
    rcases List.mem_cons.1 hp with rfl | hp
    · exact ⟨chain, rfl⟩
    · exact h.single p hp
  alone := fun p hp => by
    rcases List.mem_cons.1 hp with rfl | hp
    · rw [String.toList_ofList]
      exact hchain
    · exact h.alone p hp

/-- The chains of a group are spelled by the parts of its text. -/
theorem exists_isGroupOf {rounds : Nat} {cs : List Char} {ts : List Token}
    {group : Group} (htokens : tokens? cs = some ts)
    (hgroup : readGroup rounds ts = some group) :
    ∃ part parts, IsGroupOf ⟨String.ofList cs, group⟩ (part :: parts) := by
  induction rounds generalizing cs ts group with
  | zero => cases hgroup
  | succ rounds ih =>
      rw [readGroup] at hgroup
      split at hgroup
      · next chain hchain =>
          cases hgroup
          obtain ⟨us, rfl, halone⟩ := groupOf?_of_readComplex hchain
          rw [List.append_nil] at htokens
          exact ⟨_, [],
            isGroupOf_single (by rw [read?, htokens, Option.bind_some, halone])⟩
      · next chain rest hchain =>
          obtain ⟨others, hothers, rfl⟩ := Option.map_eq_some_iff.1 hgroup
          obtain ⟨us, rfl, halone⟩ := groupOf?_of_readComplex hchain
          obtain ⟨a, b, rfl, ha, hb⟩ := exists_tokens?_cut htokens
          obtain ⟨part, parts, hparts⟩ := ih hb hothers
          exact ⟨_, _, hparts.cons (by rw [read?, ha, Option.bind_some,
            halone])⟩
      · cases hgroup

theorem exists_isGroupOf_of_compile {text : String} {s : Selector}
    (h : compile text = .ok s) :
    ∃ part parts, s.IsGroupOf (part :: parts) := by
  obtain ⟨htext, hread, -⟩ := compile_eq_ok_iff.1 h
  obtain ⟨ts, htokens, hgroup⟩ := Option.bind_eq_some_iff.1 hread
  obtain ⟨part, parts, hparts⟩ := exists_isGroupOf htokens hgroup
  rw [← htext, String.ofList_toList] at hparts
  exact ⟨part, parts, hparts⟩

/-! ## Blanks at the ends of a text -/

section Ends

variable {l : List Char} {group : Group}

theorem read?_dropWhile_isSpace (h : read? l = some group) :
    read? (l.dropWhile isSpace) = some group := by
  cases l with
  | nil => exact h
  | cons c rest =>
      by_cases hspace : isSpace c = true
      · rw [read?, tokens?_of_piece? (piece?_of_isSpace hspace rest),
          drop_length_takeWhile, Option.bind_eq_some_iff] at h
        obtain ⟨ts, hts, hgroup⟩ := h
        obtain ⟨us, hus, rfl⟩ := Option.map_eq_some_iff.1 hts
        rw [read?, hus, Option.bind_some]
        exact groupOf?_of_blank hgroup
      · rw [List.dropWhile_cons_of_neg hspace]
        exact h

/-- Spaces that are not taken in by the text before them count for nothing. -/
theorem read?_of_append_spaces {back : List Char}
    (h : read? (l ++ back) = some group)
    (hback : ∀ c ∈ back, isSpace c = true)
    (hclosed : ∀ c ∈ back.head?, ClosedBefore c l) :
    read? l = some group := by
  cases back with
  | nil => rwa [List.append_nil] at h
  | cons c rest =>
      have hspace := hback c List.mem_cons_self
      have hblank : tokens? (c :: rest) = some [.blank] := by
        have hall : (c :: rest).takeWhile isSpace = c :: rest :=
          List.takeWhile_eq_self_iff.2 hback
        rw [tokens?_of_piece? (piece?_of_isSpace hspace rest), hall,
          List.drop_length]
        rfl
      rw [read?, tokens?_append (.inr hspace) (hclosed c rfl), hblank,
        Option.bind_eq_some_iff] at h
      obtain ⟨ts, hts, hgroup⟩ := h
      obtain ⟨us, hus, he⟩ := Option.bind_eq_some_iff.1 hts
      cases he
      rw [read?, hus, Option.bind_some]
      exact groupOf?_of_append_blank hgroup

end Ends

/-- What is trimmed off a text counts for nothing in a selector: it is made of
blanks that may stand between tokens, and those at the end are not taken in by
what is before them. -/
def TrimsFreely (text : String) : Prop :=
  ∃ front back,
    text.toList = front ++ ((Text.trimmed text).toList ++ back) ∧
      (∀ c ∈ front ++ back, isSpace c = true) ∧
      ∀ c ∈ back.head?, ClosedBefore c (Text.trimmed text).toList

theorem read?_of_trimsFreely {text : String} {group : Group}
    (h : read? text.toList = some group) (htrim : TrimsFreely text) :
    read? (Text.trimmed text).toList = some group := by
  obtain ⟨front, back, htext, hspaces, hclosed⟩ := htrim
  have hfront : ∀ c ∈ front, isSpace c = true := fun c hc =>
    hspaces c (List.mem_append_left back hc)
  have hback : ∀ c ∈ back, isSpace c = true := fun c hc =>
    hspaces c (List.mem_append_right front hc)
  have hread := read?_dropWhile_isSpace h
  rw [htext, List.dropWhile_append_of_pos hfront] at hread
  rw [Text.trimmed, String.toList_ofList] at hread hclosed ⊢
  rcases Text.trim_eq_nil_or_cons text.toList with hnil |
    ⟨c, rest, hcons, hc, -⟩
  · rw [hnil] at hread ⊢
    rwa [List.nil_append, List.dropWhile_eq_nil_iff.2 hback] at hread
  · refine read?_of_append_spaces ?_ hback hclosed
    have hspace : ¬ isSpace c = true := by
      rw [isSpace, Text.isGap_of_not_isBlank hc]
      exact Bool.false_ne_true
    rw [hcons] at hread ⊢
    rwa [List.cons_append, List.dropWhile_cons_of_neg hspace] at hread

variable {s : Selector} {parts : List Selector} {part : Selector}

theorem IsGroupOf.mem_mentions (h : s.IsGroupOf parts) {m : Mention} :
    m ∈ s.group.mentions ↔ ∃ part ∈ parts, m ∈ part.group.mentions := by
  rw [Group.mentions, h.group, List.flatMap_assoc, List.mem_flatMap]
  rfl

/-- The groups of the parts are the chains of the selector, each by itself. -/
theorem IsGroupOf.mem_groups_iff (h : s.IsGroupOf parts) {group : Group} :
    group ∈ parts.map Selector.group ↔ ∃ chain ∈ s.group, group = [chain] := by
  rw [h.group, List.mem_map]
  constructor
  · rintro ⟨part, hpart, rfl⟩
    obtain ⟨chain, hchain⟩ := h.single part hpart
    have hmem : chain ∈ part.group := by simp [hchain]
    exact ⟨chain, List.mem_flatMap.2 ⟨part, hpart, hmem⟩, hchain⟩
  · rintro ⟨chain, hmem, rfl⟩
    obtain ⟨part, hpart, hmem⟩ := List.mem_flatMap.1 hmem
    obtain ⟨other, hother⟩ := h.single part hpart
    rw [hother, List.mem_singleton] at hmem
    exact ⟨part, hpart, by rw [hother, hmem]⟩

theorem IsGroupOf.declared (h : s.IsGroupOf parts)
    (hdeclared : s.hasUndeclaredPrefix = false) (hpart : part ∈ parts) :
    part.hasUndeclaredPrefix = false := by
  rw [hasUndeclaredPrefix, List.any_eq_false] at hdeclared ⊢
  exact fun m hm => hdeclared m (h.mem_mentions.2 ⟨part, hpart, hm⟩)

/-- A part is what its text compiles to, if trimming takes nothing off the text
that counts. -/
theorem IsGroupOf.compile_part {text : String} (h : s.IsGroupOf parts)
    (hs : compile text = .ok s) (hpart : part ∈ parts)
    (htrim : TrimsFreely part.text) :
    compile part.text = .ok ⟨Text.trimmed part.text, part.group⟩ := by
  obtain ⟨-, -, hmentions⟩ := compile_eq_ok_iff.1 hs
  exact compile_eq_ok_iff.2
    ⟨rfl, read?_of_trimsFreely (h.alone part hpart) htrim, fun m hm =>
      hmentions m (h.mem_mentions.2 ⟨part, hpart, hm⟩)⟩

/-! ## Parts put together -/

theorem read?_append_comma {a b : List Char} {chain : Complex} {group : Group}
    (ha : read? a = some [chain]) (hclosed : ClosedBefore ',' a)
    (hb : read? b = some group) :
    read? (a ++ ',' :: b) = some (chain :: group) := by
  obtain ⟨ts, hts, hchain⟩ := Option.bind_eq_some_iff.1 ha
  obtain ⟨us, hus, hgroup⟩ := Option.bind_eq_some_iff.1 hb
  have hcomma : piece? (',' :: b) = some (some (.delim ','), 1) := by rfl
  have htokens : tokens? (',' :: b) = some (.delim ',' :: us) := by
    rw [tokens?_of_piece? hcomma, List.drop_one, List.tail_cons, hus]
    rfl
  rw [read?, tokens?_append (.inl rfl) hclosed, hts, Option.bind_some, htokens,
    Option.map_some, Option.bind_some]
  exact groupOf?_append_comma hchain hgroup

/-- The text of a group spells its chains, if no part but the last takes in the
comma behind it. -/
theorem IsGroupOf.read? (h : s.IsGroupOf (part :: parts))
    (hclosed : ∀ p ∈ (part :: parts).dropLast,
      ClosedBefore ',' p.text.toList) :
    read? s.text.toList = some s.group := by
  induction parts generalizing s part with
  | nil =>
      rw [h.text, h.group, List.map_singleton, String.intercalate_singleton,
        List.flatMap_singleton]
      exact h.alone part List.mem_cons_self
  | cons next parts ih =>
      have hrest : IsGroupOf
          ⟨",".intercalate ((next :: parts).map Selector.text),
            (next :: parts).flatMap Selector.group⟩ (next :: parts) :=
        { text := rfl
          group := rfl
          single := fun p hp => h.single p (List.mem_cons_of_mem part hp)
          alone := fun p hp => h.alone p (List.mem_cons_of_mem part hp) }
      obtain ⟨chain, hchain⟩ := h.single part List.mem_cons_self
      have hpart := h.alone part List.mem_cons_self
      rw [hchain] at hpart
      have hread := ih hrest fun p hp =>
        hclosed p (List.mem_cons_of_mem part hp)
      have hjoined := read?_append_comma hpart
        (hclosed part List.mem_cons_self) hread
      rw [h.text, h.group, List.flatMap_cons, hchain, List.map_cons,
        List.map_cons, String.intercalate_cons_cons, ← List.map_cons]
      simpa using hjoined

/-- A group put together of parts that other selectors were compiled with
compiles, if no part but the last takes in the comma behind it. -/
theorem IsGroupOf.compile {text : String} {s' : Selector}
    {parts' : List Selector} (h : s.IsGroupOf parts)
    (hs : compile text = .ok s) (h' : s'.IsGroupOf parts') (hne : parts' ≠ [])
    (hparts : ∀ p ∈ parts', ∃ part ∈ parts, p.group = part.group)
    (hclosed : ∀ p ∈ parts'.dropLast, ClosedBefore ',' p.text.toList)
    (htrim : TrimsFreely s'.text) :
    compile s'.text = .ok ⟨Text.trimmed s'.text, s'.group⟩ := by
  obtain ⟨-, -, hmentions⟩ := compile_eq_ok_iff.1 hs
  obtain ⟨first, rest, rfl⟩ := List.exists_cons_of_ne_nil hne
  refine compile_eq_ok_iff.2
    ⟨rfl, read?_of_trimsFreely (h'.read? hclosed) htrim, fun m hm => ?_⟩
  obtain ⟨p, hp, hm⟩ := h'.mem_mentions.1 hm
  obtain ⟨part, hpart, hgroup⟩ := hparts p hp
  exact hmentions m (h.mem_mentions.2 ⟨part, hpart, hgroup ▸ hm⟩)

/-! ## What a group finds -/

/-- Every search with a selector finds what its parts find, each place once, in
document order. -/
def FindsUnionOf (s : Selector) (parts : List Selector) : Prop :=
  ∀ (tree : Node) (scope : Nat) (descendants : Bool), ∃ found,
    s.search? tree scope descendants = some found ∧ found.Pairwise
      Place.Before ∧ found.Nodup ∧ ∀ p, p ∈ found ↔ ∃ part ∈ parts, ∃ own,
      part.search? tree scope descendants = some own ∧ p ∈ own

/-- Two selectors find the same in every search, and a rule that binds a list
leaves the same document with either. -/
def Alike (s s' : Selector) : Prop :=
  (∀ (tree : Node) (scope : Nat) (descendants : Bool),
    s'.search? tree scope descendants = s.search? tree scope descendants) ∧
  ∀ (r : Rule) (doc : Document) (scope : Option Nat) (descendants : Bool),
    r.sourceType = .enumerable →
      ({ r with selector := s' }.apply doc scope descendants).document =
        ({ r with selector := s }.apply doc scope descendants).document

theorem search?_of_declared (h : s.hasUndeclaredPrefix = false) (tree : Node)
    (scope : Nat) (descendants : Bool) :
    s.search? tree scope descendants =
      some (s.group.select tree scope descendants) := by
  rw [search?, h, if_neg Bool.false_ne_true]

theorem IsGroupOf.findsUnionOf (h : s.IsGroupOf parts)
    (hdeclared : s.hasUndeclaredPrefix = false) :
    s.FindsUnionOf parts := by
  intro tree scope descendants
  have hsorted : (s.group.select tree scope descendants).Pairwise
      Place.Before :=
    (Place.pairwise_before_places tree).sublist List.filter_sublist
  refine ⟨_, search?_of_declared hdeclared tree scope descendants, hsorted, ?_,
    fun p => ?_⟩
  · exact hsorted.imp Place.ne_of_before
  · rw [Group.mem_select_iff, h.group]
    constructor
    · rintro ⟨hp, chain, hchain, hholds⟩
      obtain ⟨part, hpart, hchain⟩ := List.mem_flatMap.1 hchain
      exact ⟨part, hpart, _,
        search?_of_declared (h.declared hdeclared hpart) tree scope descendants,
        Group.mem_select_iff.2 ⟨hp, chain, hchain, hholds⟩⟩
    · rintro ⟨part, hpart, own, hown, hp⟩
      rw [search?_of_declared (h.declared hdeclared hpart),
        Option.some_inj] at hown
      subst hown
      obtain ⟨hp, chain, hchain, hholds⟩ := Group.mem_select_iff.1 hp
      exact ⟨hp, chain, List.mem_flatMap.2 ⟨part, hpart, hchain⟩, hholds⟩

/-- What is bound to elements that are found does not depend on how they were
found. -/
theorem document_bindItems_selector (r : Rule) (s : Selector) (doc : Document)
    (elements : List Nat) : ({ r with selector := s }.bindItems doc
      elements).document =
      (r.bindItems doc elements).document := by
  rw [Rule.bindItems, Rule.bindItems]
  have hrun : bindTo { r with selector := s }.bindItem doc
      { r with selector := s }.items elements { r with selector := s }.default =
      bindTo r.bindItem doc r.items elements r.default := rfl
  rw [hrun]
  split <;> rfl

theorem alike_of_search? {s' : Selector}
    (h : ∀ tree scope descendants, s'.search? tree scope descendants =
      s.search? tree scope descendants) : Alike s s' := by
  refine ⟨h, fun r doc scope descendants hr => ?_⟩
  cases scope with
  | none => rfl
  | some scope =>
      have helements : { r with selector := s' }.elements?
          doc scope descendants =
          { r with selector := s }.elements? doc scope descendants := by
        rw [Rule.elements?, Rule.elements?]
        dsimp only
        rw [h]
      rw [Rule.apply, Rule.apply, Rule.applyAt, Rule.applyAt, helements]
      dsimp only
      split
      · rfl
      · rw [Rule.bindElements, Rule.bindElements]
        dsimp only
        rw [hr]
        exact (document_bindItems_selector _ _ doc _).trans
          (document_bindItems_selector _ _ doc _).symm

/-- A search asks for the chains of a selector, not for their order or
number. -/
theorem search?_congr {s' : Selector}
    (h : ∀ chain, chain ∈ s'.group ↔ chain ∈ s.group) (tree : Node)
    (scope : Nat) (descendants : Bool) :
    s'.search? tree scope descendants = s.search? tree scope descendants := by
  have hmentions : ∀ m, m ∈ s'.group.mentions ↔ m ∈ s.group.mentions :=
    fun m => by
    rw [Group.mentions, Group.mentions, List.mem_flatMap, List.mem_flatMap]
    simp only [h]
  have hdeclared : s'.hasUndeclaredPrefix = s.hasUndeclaredPrefix := by
    rw [hasUndeclaredPrefix, hasUndeclaredPrefix, Bool.eq_iff_iff,
      List.any_eq_true, List.any_eq_true]
    simp only [hmentions]
  have hselect : s'.group.select tree scope descendants =
      s.group.select tree scope descendants := by
    refine List.filter_congr fun p _ => ?_
    rw [Bool.eq_iff_iff, List.any_eq_true, List.any_eq_true]
    simp only [h]
  rw [search?, search?, hdeclared, hselect]

/-- Groups are alike that are made of the same parts, in whatever order and
number. -/
theorem IsGroupOf.alike {s' : Selector} {parts' : List Selector}
    (h : s.IsGroupOf parts) (h' : s'.IsGroupOf parts')
    (hsame : ∀ group, group ∈ parts'.map Selector.group ↔
      group ∈ parts.map Selector.group) :
    Alike s s' := by
  refine alike_of_search? (search?_congr fun chain => ?_)
  rw [h.group, h'.group, List.flatMap_def, List.flatMap_def, List.mem_flatten,
    List.mem_flatten]
  simp only [hsame]

/-- A compiled selector without prefixes is a group of parts that are read by
themselves. Every search with it finds what the parts find, in document order
and each place once. Neither what is found nor what a rule makes of it is
changed by arranging the parts otherwise, and the text of parts so arranged
compiles, unless one of them takes in what is behind it. -/
theorem search_union {text : String} {s : Selector}
    (hcompile : compile text = .ok s)
    (hdeclared : s.hasUndeclaredPrefix = false) :
    ∃ parts, s.IsGroupOf parts ∧ s.FindsUnionOf parts ∧
      (∀ part ∈ parts, TrimsFreely part.text →
        compile part.text = .ok ⟨Text.trimmed part.text, part.group⟩) ∧
      ∀ s' parts', s'.IsGroupOf parts' →
        (∀ group, group ∈ parts'.map Selector.group ↔
          group ∈ parts.map Selector.group) →
        Alike s s' ∧
          ((∀ part ∈ parts'.dropLast, ClosedBefore ',' part.text.toList) →
            TrimsFreely s'.text →
            compile s'.text = .ok ⟨Text.trimmed s'.text, s'.group⟩) := by
  obtain ⟨part, parts, hparts⟩ := exists_isGroupOf_of_compile hcompile
  refine ⟨part :: parts, hparts, hparts.findsUnionOf hdeclared,
    fun part hpart => hparts.compile_part hcompile hpart,
    fun s' parts' h' hsame => ⟨hparts.alike h' hsame, fun hclosed htrim => ?_⟩⟩
  have hne : parts' ≠ [] := by
    rintro rfl
    cases (hsame part.group).2 (List.mem_map_of_mem List.mem_cons_self)
  refine hparts.compile hcompile h' hne (fun p hp => ?_) hclosed htrim
  obtain ⟨part, hpart, hgroup⟩ :=
    List.mem_map.1 ((hsame p.group).1 (List.mem_map_of_mem hp))
  exact ⟨part, hpart, hgroup.symm⟩

/-- A comma behind a comment that is not closed is in the comment. -/
example : ClosedBefore ',' "p".toList ∧ ¬ ClosedBefore ',' "p /*".toList := by
  refine ⟨⟨_, _, rfl, rfl, rfl⟩, ?_⟩
  rintro ⟨ts, us, hts, hus, hboth⟩
  cases hts
  cases hus
  cases hboth

/-- The chain of a name alone. -/
def nameChain (name : String) : Complex :=
  .single (.mk (.named name) [])

theorem isGroupOf_items_and_note :
    IsGroupOf ⟨"li,p", [nameChain "li", nameChain "p"]⟩
      [⟨"li", [nameChain "li"]⟩, ⟨"p", [nameChain "p"]⟩] where
  text := by decide
  group := rfl
  single := by
    simp only [List.forall_mem_cons, List.not_mem_nil, false_implies,
      implies_true, and_true]
    exact ⟨⟨_, rfl⟩, ⟨_, rfl⟩⟩
  alone := by
    simp only [List.forall_mem_cons, List.not_mem_nil, false_implies,
      implies_true, and_true]
    exact ⟨rfl, rfl⟩

/-- The items of a list come before the note behind it, though the part for the
note comes first, and a selector with the parts the other way round is alike. -/
theorem search_union_note_and_items :
    ∃ s, compile "p, li" = .ok s ∧ s.hasUndeclaredPrefix = false ∧
      foundIds? "p, li" listAndNote 0 true = some [2, 3, 4] ∧
      (∃ parts, s.IsGroupOf parts ∧ s.FindsUnionOf parts) ∧
      ∃ s', compile "li,p" = .ok s' ∧ Alike s s' := by
  have hfound : foundIds? "p, li" listAndNote 0 true = some [2, 3, 4] := by
    decide +kernel
  obtain ⟨s, found, hcompile, hdeclared, -⟩ := exists_of_foundIds? hfound
  obtain ⟨parts, hparts, hunion, -, harranged⟩ :=
    search_union hcompile hdeclared
  refine ⟨s, hcompile, hdeclared, hfound, ⟨parts, hparts, hunion⟩, ?_⟩
  have hgroup : s.group = [nameChain "p", nameChain "li"] := by
    have hread : read? (Text.trimmed "p, li").toList =
        some [nameChain "p", nameChain "li"] := by rfl
    exact Option.some_inj.1
      ((compile_eq_ok_iff.1 hcompile).2.1.symm.trans hread)
  obtain ⟨halike, hcompiles⟩ := harranged _ _ isGroupOf_items_and_note
    fun group => by
      rw [hparts.mem_groups_iff, isGroupOf_items_and_note.mem_groups_iff,
        hgroup]
      simp [or_comm]
  refine ⟨_, hcompiles (fun part hpart => ?_) ⟨[], [], ?_, ?_, ?_⟩, ?_⟩
  · rw [List.mem_singleton.1 hpart]
    exact ⟨_, _, rfl, rfl, rfl⟩
  · decide
  · simp
  · simp
  · exact halike

end SheetBinding.Selector
