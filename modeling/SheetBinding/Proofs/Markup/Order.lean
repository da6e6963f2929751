import Mathlib.Data.List.Lex
import SheetBinding.Proofs.Markup.Places

/-!
# Document order

Where a place stands is told by its path, the child indices that lead to it from
the top. A place comes before everything below it, whose paths go on from its
own, and before everything at and below a later sibling, whose paths have a
greater index where they part from its own. Both say that its path is smaller in
the lexicographic order, so this order is document order, and the places of a
tree are listed in it (`pairwise_before_places`).
-/

namespace SheetBinding

open Node

namespace Place

/-- Whether a place comes before another in document order. -/
def Before (p q : Place) : Prop :=
  p.path < q.path

theorem ne_of_before {p q : Place} (h : p.Before q) : p ≠ q := by
  rintro rfl
  exact List.lt_irrefl p.path h

theorem path_cons (n : Node) (level : Level) (up : List Level) :
    path ⟨n, level :: up⟩ = path ⟨level.parent,
      up⟩ ++ [level.before.length] := by
  rw [path, List.map_cons, List.reverse_cons, path]

/-- The path of a place goes on from that of every place above it. -/
theorem exists_path_of_mem_ancestors {p a : Place} (h : a ∈ p.ancestors) :
    ∃ k way, p.path = a.path ++ k :: way := by
  obtain ⟨n, levels⟩ := p
  induction levels generalizing n with
  | nil => cases h
  | cons level up ih =>
      rw [path_cons]
      rw [ancestors_cons] at h
      rcases List.mem_cons.1 h with rfl | h
      · exact ⟨level.before.length, [], rfl⟩
      · obtain ⟨k, way, hway⟩ := ih level.parent h
        exact ⟨k, way ++ [level.before.length], by rw [hway]; simp⟩

theorem before_of_mem_ancestors {p a : Place} (h : a ∈ p.ancestors) :
    a.Before p := by
  obtain ⟨k, way, hway⟩ := exists_path_of_mem_ancestors h
  have hless : a.path ++ [] < a.path ++ k :: way :=
    List.append_left_lt (List.nil_lt_cons k way)
  rw [List.append_nil] at hless
  rw [Before, hway]
  exact hless

variable {parent : Node} {up : List Level} {before ns : List Node} {p : Place}

/-- At and below a child, its index comes first behind the path of the
parent. -/
theorem exists_path_of_mem_placesUnder {n : Node} {level : Level}
    (h : p ∈ n.placesUnder (level :: up)) :
    ∃ way, p.path = path ⟨level.parent, up⟩ ++ level.before.length :: way := by
  have hhere := path_cons n level up
  rcases eq_or_mem_ancestors h with rfl | habove
  · exact ⟨[], hhere⟩
  · obtain ⟨k, way, hway⟩ := exists_path_of_mem_ancestors habove
    exact ⟨k :: way, by rw [hway, hhere]; simp⟩

/-- At and below siblings, no index is smaller than the number of those already
passed. -/
theorem exists_path_of_mem_placesAmong
    (h : p ∈ placesAmong parent up before ns) :
    ∃ k way, before.length ≤ k ∧ p.path = path ⟨parent, up⟩ ++ k :: way := by
  induction ns generalizing before with
  | nil => cases h
  | cons n rest ih =>
      rw [placesAmong] at h
      rcases List.mem_append.1 h with hn | hrest
      · obtain ⟨way, hway⟩ := exists_path_of_mem_placesUnder hn
        exact ⟨before.length, way, Nat.le_refl _, hway⟩
      · obtain ⟨k, way, hk, hway⟩ := ih hrest
        exact ⟨k, way, Nat.le_of_succ_le hk, hway⟩

/-- Everything at and below a node comes before what is at and below its later
siblings. -/
theorem before_of_mem_placesAmong {n : Node} {rest later : List Node}
    {q : Place} (hp : p ∈ n.placesUnder (⟨parent, before, rest⟩ :: up))
    (hq : q ∈ placesAmong parent up (n :: before) later) : p.Before q := by
  obtain ⟨way, hway⟩ := exists_path_of_mem_placesUnder hp
  obtain ⟨k, way', hk, hway'⟩ := exists_path_of_mem_placesAmong hq
  rw [Before, hway, hway']
  exact List.append_left_lt (List.cons_lt_cons_iff.2 (.inl hk))

mutual

theorem pairwise_before_placesUnder (n : Node) (levels : List Level) :
    (n.placesUnder levels).Pairwise Before := by
  match n with
  | .element i tag as text cs tail =>
      rw [placesUnder]
      refine List.pairwise_cons.2 ⟨fun q hq => ?_,
        pairwise_before_placesAmong _ levels [] cs⟩
      exact before_of_mem_ancestors (mem_ancestors_of_mem_placesAmong hq)
  | .comment i content tail =>
      rw [placesUnder]
      exact List.pairwise_singleton _ _

theorem pairwise_before_placesAmong (parent : Node) (up : List Level)
    (before ns : List Node) :
    (placesAmong parent up before ns).Pairwise Before := by
  match ns with
  | [] =>
      rw [placesAmong]
      exact List.Pairwise.nil
  | n :: rest =>
      rw [placesAmong]
      refine List.pairwise_append.2 ⟨pairwise_before_placesUnder n _,
        pairwise_before_placesAmong parent up (n :: before) rest,
        fun p hp q hq => ?_⟩
      exact before_of_mem_placesAmong hp hq

end

theorem pairwise_before_places (tree : Node) : tree.places.Pairwise Before :=
  pairwise_before_placesUnder tree []

end Place

end SheetBinding
