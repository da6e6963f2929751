import SheetBinding.Proofs.Markup.Removal
import SheetBinding.Markup.Reader

/-!
# Markup is read with a number for each node

The reader numbers a node when it opens it and only later puts it where it
belongs: an element that is open waits on the stack, and what is left open at
the end is closed there. So what is counted is the whole stack (`stackIds`), and
not the tree that has been finished. No number is lost when elements are closed,
one after the other or all together; they change their order only. Every step
takes the next number or none.

The parts that are supplied when a document leaves out its tags take the numbers
after those of the text.
-/

namespace SheetBinding

open Node

/-- Numbers from `first` on and below `next`, none of them twice. -/
structure HandedOut (first next : Nat) (l : List Nat) : Prop where
  nodup : l.Nodup
  bounds : ∀ i ∈ l, first ≤ i ∧ i < next

namespace HandedOut

variable {first next : Nat} {l k : List Nat}

theorem nil : HandedOut first next [] :=
  ⟨List.nodup_nil, fun i hi => by cases hi⟩

theorem perm (h : HandedOut first next l) (hp : k.Perm l) :
    HandedOut first next k :=
  ⟨hp.nodup_iff.2 h.nodup, fun i hi => h.bounds i (hp.subset hi)⟩

theorem sublist (h : HandedOut first next l) (hs : k.Sublist l) :
    HandedOut first next k :=
  ⟨h.nodup.sublist hs, fun i hi => h.bounds i (hs.subset hi)⟩

/-- The next number is handed out. -/
theorem cons (h : HandedOut first next l) (hle : first ≤ next) :
    HandedOut first (next + 1) (next :: l) := by
  refine ⟨List.nodup_cons.2 ⟨fun hmem => ?_, h.nodup⟩,
    List.forall_mem_cons.2 ⟨?_, fun i hi => ?_⟩⟩
  · have := (h.bounds next hmem).2
    omega
  · omega
  · have := h.bounds i hi
    omega

/-- The next number is handed out, wherever it is put. -/
theorem insert (h : HandedOut first next (l ++ k)) (hle : first ≤ next) :
    HandedOut first (next + 1) (l ++ next :: k) :=
  (h.cons hle).perm List.perm_middle

end HandedOut

theorem Node.idsAmong_reverse_perm (ns : List Node) :
    (idsAmong ns.reverse).Perm (idsAmong ns) := by
  induction ns with
  | nil => exact .refl _
  | cons n rest ih =>
      have hlast : idsAmong [n] = n.ids := by
        rw [idsAmong, idsAmong, List.append_nil]
      rw [List.reverse_cons, idsAmong_append, hlast, idsAmong]
      exact List.perm_append_comm.trans (ih.append_left n.ids)

namespace Markup

/-! ## The stack of open elements -/

/-- The numbers given to open elements and to what they hold so far; what
surrounds all elements has none. -/
def stackIds (inner : Open) : List Open → List Nat
  | [] => idsAmong inner.reversed
  | o :: rest => inner.id :: (idsAmong inner.reversed ++ stackIds o rest)

theorem stackIds_addText (inner : Open) (outer : List Open) (s : String) :
    stackIds (inner.addText s) outer = stackIds inner outer := by
  have hids : idsAmong (inner.addText s).reversed =
      idsAmong inner.reversed := by
    rw [Open.addText]
    split
    · rfl
    · next n rest h => rw [h, idsAmong, idsAmong, ids_addTail]
  have hid : (inner.addText s).id = inner.id := by
    rw [Open.addText]
    split <;> rfl
  cases outer with
  | nil => exact hids
  | cons o rest => rw [stackIds, stackIds, hid, hids]

theorem stackIds_addNode (inner : Open) (outer : List Open) (n : Node) :
    (stackIds (inner.addNode n) outer).Perm
      (n.ids ++ stackIds inner outer) := by
  cases outer with
  | nil =>
      rw [stackIds, stackIds, Open.addNode, idsAmong]
  | cons o rest =>
      rw [stackIds, stackIds, Open.addNode, idsAmong, List.append_assoc]
      exact List.perm_middle.symm

theorem ids_close (o : Open) :
    o.close.ids.Perm (o.id :: idsAmong o.reversed) := by
  rw [Open.close, ids]
  exact (idsAmong_reverse_perm _).cons _

theorem stackIds_closeInto (inner o : Open) (rest : List Open) :
    (stackIds (closeInto inner o) rest).Perm (stackIds inner (o :: rest)) := by
  rw [closeInto, stackIds]
  exact (stackIds_addNode o rest inner.close).trans
    ((ids_close inner).append_right _)

theorem stackIds_closeAll (inner : Open) (outer : List Open) :
    (idsAmong (closeAll inner outer).reversed).Perm (stackIds inner outer) := by
  induction outer generalizing inner with
  | nil => exact .refl _
  | cons o rest ih =>
      exact (ih (closeInto inner o)).trans (stackIds_closeInto inner o rest)

theorem stackIds_closeTag? {tag : String} {inner inner' : Open}
    {outer outer' : List Open}
    (h : closeTag? tag inner outer = some (inner', outer')) :
    (stackIds inner' outer').Perm (stackIds inner outer) := by
  induction outer generalizing inner with
  | nil => cases h
  | cons o rest ih =>
      rw [closeTag?] at h
      split at h
      · cases h
        exact stackIds_closeInto inner o _
      · exact (ih h).trans (stackIds_closeInto inner o rest)

theorem handedOut_build {first next : Nat} {inner : Open} {outer : List Open}
    (ps : List Piece) (hle : first ≤ next)
    (h : HandedOut first next (stackIds inner outer)) :
    first ≤ (build next inner outer ps).2 ∧
      HandedOut first (build next inner outer ps).2
        (idsAmong (build next inner outer ps).1.children) := by
  induction ps generalizing next inner outer with
  | nil =>
      rw [build]
      exact ⟨hle, h.perm ((idsAmong_reverse_perm _).trans
        (stackIds_closeAll inner outer))⟩
  | cons p ps ih =>
      cases p with
      | text s =>
          rw [build]
          exact ih hle (by rwa [stackIds_addText])
      | comment s =>
          rw [build]
          exact ih (Nat.le_succ_of_le hle)
            ((h.cons hle).perm (stackIds_addNode _ _ _))
      | opening tag as =>
          simp only [build]
          split
          · exact ih (Nat.le_succ_of_le hle)
              ((h.cons hle).perm (stackIds_addNode _ _ _))
          · refine ih (Nat.le_succ_of_le hle) ?_
            rw [stackIds, idsAmong, List.nil_append]
            exact h.cons hle
      | closing tag =>
          rw [build]
          split
          · next hclose => exact ih hle (h.perm (stackIds_closeTag? hclose))
          · exact ih hle h

theorem handedOut_contentOf (s : String) (next : Nat) :
    next ≤ (contentOf s next).2 ∧
      HandedOut next (contentOf s next).2
        (idsAmong (contentOf s next).1.children) :=
  handedOut_build (pieces s) (Nat.le_refl next) HandedOut.nil

/-! ## Whole documents -/

/-- Nodes are put into a new element, unless there are none. -/
theorem handedOut_wrap {first next : Nat} {l k : List Nat} {part ns : List Node}
    (hle : first ≤ next) (h : HandedOut first next (l ++ (idsAmong ns ++ k)))
    (hpart : part = [] ∧ ns = [] ∨
      ∃ tag text, part = [.element next tag [] text ns ""]) :
    first ≤ next + part.length ∧
      HandedOut first (next + part.length) (l ++ (idsAmong part ++ k)) := by
  rcases hpart with ⟨rfl, rfl⟩ | ⟨tag, text, rfl⟩
  · exact ⟨hle, h⟩
  · refine ⟨Nat.le_succ_of_le hle, ?_⟩
    rw [idsAmong, idsAmong, List.append_nil, ids]
    exact h.insert hle

/-- The parts that are supplied take the next numbers, whatever else has been
handed out. -/
theorem handedOut_supplyParts {first next : Nat} {l : List Nat} (c : Content)
    (hle : first ≤ next) (h : HandedOut first next (l ++ idsAmong c.children)) :
    first ≤ (supplyParts c next).2 ∧
      HandedOut first (supplyParts c next).2
        (l ++ idsAmong (supplyParts c next).1) := by
  rw [supplyParts]
  generalize (if Text.allBlank c.text then "" else c.text) = text
  have hsplit : ∃ heads, heads <+: c.children ∧
      (if text == "" then c.children.takeWhile inHead else []) = heads := by
    refine ⟨_, ?_, rfl⟩
    split
    · exact List.takeWhile_prefix _
    · exact List.nil_prefix
  obtain ⟨heads, hheads, heq⟩ := hsplit
  dsimp only
  rw [heq]
  rw [← List.prefix_iff_eq_append.1 hheads, idsAmong_append] at h
  generalize c.children.drop heads.length = others at h ⊢
  generalize hhead : (if heads.isEmpty then []
    else [Node.element next "head" [] "" heads ""]) = head
  generalize hbody : (if (text == "" && others.isEmpty) = true then []
    else [Node.element (next + head.length) "body" [] text others ""]) = body
  have hheadPart : head = [] ∧ heads = [] ∨
      ∃ tag text, head = [.element next tag [] text heads ""] := by
    cases heads with
    | nil => exact .inl ⟨hhead.symm, rfl⟩
    | cons n rest => exact .inr ⟨_, _, hhead.symm⟩
  have hbodyPart : body = [] ∧ others = [] ∨ ∃ tag text,
      body = [.element (next + head.length) tag [] text others ""] := by
    split at hbody
    · next hempty =>
        simp only [Bool.and_eq_true, List.isEmpty_iff] at hempty
        exact .inl ⟨hbody.symm, hempty.2⟩
    · exact .inr ⟨_, _, hbody.symm⟩
  obtain ⟨hle, h⟩ := handedOut_wrap hle h hheadPart
  rw [← List.append_assoc, ← List.append_nil (idsAmong others)] at h
  obtain ⟨hle, h⟩ := handedOut_wrap hle h hbodyPart
  rw [List.append_nil, List.append_assoc, ← idsAmong_append] at h
  exact ⟨hle, h⟩

theorem idsAmong_sublist_of_findTag? {tag : String} {ns : List Node} {n : Node}
    (h : findTag? tag ns = some n) : n.ids.Sublist (idsAmong ns) := by
  induction ns with
  | nil => cases h
  | cons m rest ih =>
      rw [findTag?, List.find?_cons] at h
      rw [idsAmong]
      split at h
      · cases h
        exact List.sublist_append_left _ _
      · exact (ih h).trans (List.sublist_append_right _ _)

theorem handedOut_documentElement? {first next after : Nat} {c : Content}
    {top : Node} (hle : first ≤ next)
    (h : HandedOut first next (idsAmong c.children))
    (hread : documentElement? c next = some (top, after)) :
    first ≤ after ∧ HandedOut first after top.ids := by
  rw [documentElement?] at hread
  split at hread
  · next found hfound =>
      have hfoundIds := h.sublist (idsAmong_sublist_of_findTag? hfound)
      split at hread
      · cases hread
        rw [ids_withTail]
        exact ⟨hle, hfoundIds⟩
      · cases hread
        rw [ids_eq_cons] at hfoundIds
        obtain ⟨hle, hparts⟩ :=
          handedOut_supplyParts (l := [found.id]) ⟨found.text,
            found.children⟩ hle hfoundIds
        rw [ids_withTail]
        exact ⟨hle, hparts.sublist (ids_withContent_sublist _ _ _)⟩
  · split at hread
    · cases hread
    · dsimp only at hread
      split at hread
      · cases hread
        obtain ⟨hle, hparts⟩ := handedOut_supplyParts (l := []) c hle h
        rw [ids]
        exact ⟨Nat.le_succ_of_le hle, hparts.cons hle⟩
      · cases hread
        rw [ids, idsAmong_map_withTail]
        exact ⟨Nat.le_succ_of_le hle, h.cons hle⟩

theorem handedOut_readDocument? {s : String} {next after : Nat} {top : Node}
    (h : readDocument? s next = some (top, after)) :
    next ≤ after ∧ HandedOut next after top.ids := by
  obtain ⟨hle, hcontent⟩ := handedOut_contentOf s next
  exact handedOut_documentElement? hle hcontent h

/-- What is read to be put into an element has new numbers, one for each
node. -/
theorem handedOut_readContent {s : String} {next after : Nat} {c : Content}
    (h : readContent s next = .ok (c, after)) :
    next ≤ after ∧ HandedOut next after (idsAmong c.children) := by
  have hdrop : ∀ c : Content, c.dropBlankText.children = c.children := by
    intro c
    rw [Content.dropBlankText]
    split <;> rfl
  rw [readContent] at h
  split at h
  · split at h
    · cases h
    · next top after' hread =>
        obtain ⟨hle, htop⟩ := handedOut_readDocument? hread
        split at h
        · cases h
        · next body hbody =>
            cases h
            have hbelow : (idsAmong top.children).Sublist top.ids := by
              rw [ids_eq_cons]
              exact List.sublist_cons_self _ _
            have hinside : (idsAmong body.children).Sublist body.ids := by
              rw [ids_eq_cons]
              exact List.sublist_cons_self _ _
            rw [hdrop]
            exact ⟨hle, htop.sublist (hinside.trans
              ((idsAmong_sublist_of_findTag? hbody).trans hbelow))⟩
  · cases h
    rw [hdrop]
    exact handedOut_contentOf s next

end Markup

/-- A document that has been read is well numbered. -/
theorem Document.wellNumbered_of_readDocument? {s : String} {next : Nat}
    {top : Node} (h : Markup.readDocument? s 0 = some (top, next)) :
    (⟨top, [], next⟩ : Document).WellNumbered := by
  obtain ⟨-, hnodup, hbounds⟩ := Markup.handedOut_readDocument? h
  have hids : (⟨top, [], next⟩ : Document).ids = top.ids := by
    rw [Document.ids, Document.trees, idsAmong, idsAmong, List.append_nil]
  exact ⟨hids ▸ hnodup, fun i hi => (hbounds i (hids ▸ hi)).2⟩

end SheetBinding
