import SheetBinding.Selector

/-!
# What a selector looks at

Conditions may hold selectors of their own, and these hold conditions again. At
the bottom are the tests, the conditions that look at a place themselves
(`Complex.tests`); all that is above them only puts answers together and moves
about in the tree.

So a selector cannot tell two trees apart that its tests cannot tell apart. That
is said here for a map from the places of one tree to those of another which
keeps to the ways that combinators go (`FollowsWays`). If every test answers
alike at a place and at its image, so does every chain (`Complex.holds_map`).
The map may be the identity: then it is the axis alone that differs between the
two sides.
-/

namespace SheetBinding.Selector

/-- A condition holds no selectors. -/
def Condition.isTest : Condition → Bool
  | .not _ => false
  | .anyOf _ => false
  | .has _ => false
  | _ => true

mutual

/-- The tests in a condition, those at any depth included. -/
def Condition.tests : Condition → List Condition
  | .not chain => chain.tests
  | .anyOf compounds => Compound.allTests compounds
  | .has related => Relative.allTests related
  | c => [c]

/-- The tests in some conditions. -/
def Condition.allTests : List Condition → List Condition
  | [] => []
  | c :: rest => c.tests ++ Condition.allTests rest

/-- The tests in a compound. -/
def Compound.tests : Compound → List Condition
  | .mk _ conditions => Condition.allTests conditions

/-- The tests in some compounds. -/
def Compound.allTests : List Compound → List Condition
  | [] => []
  | c :: rest => c.tests ++ Compound.allTests rest

/-- The tests in a chain. -/
def Complex.tests : Complex → List Condition
  | .single compound => compound.tests
  | .join left _ compound => left.tests ++ compound.tests

/-- The tests in a relative selector. -/
def Relative.tests : Relative → List Condition
  | .mk _ chain => chain.tests

/-- The tests in some relative selectors. -/
def Relative.allTests : List Relative → List Condition
  | [] => []
  | r :: rest => r.tests ++ Relative.allTests rest

end

/-- A map of places that keeps their numbers and names, and to which all ways
lead alike. -/
structure FollowsWays (f : Place → Place) : Prop where
  id : ∀ p, (f p).id = p.id
  tag? : ∀ p, (f p).tag? = p.tag?
  sources : ∀ (c : Combinator) p, c.sources (f p) = (c.sources p).map f
  reachable : ∀ (c : Combinator) p, c.reachable (f p) = (c.reachable p).map f

/-- A condition holds at a place just when it holds at the image of the
place. -/
def Condition.AgreesAlong (f : Place → Place) (axis image : List Place)
    (c : Condition) : Prop :=
  ∀ element p, c.holds image element (f p) = c.holds axis element p

/-- All of some tests answer alike at places and at their images. -/
def AllAgree (f : Place → Place) (axis image : List Place)
    (tests : List Condition) : Prop :=
  ∀ t ∈ tests, t.isTest = true → t.AgreesAlong f axis image

variable {f : Place → Place} {axis image : List Place}

theorem allAgree_append {l k : List Condition} :
    AllAgree f axis image (l ++ k) ↔
      AllAgree f axis image l ∧ AllAgree f axis image k := by
  simp only [AllAgree, List.mem_append, or_imp, forall_and]

theorem FollowsWays.holds_element (hf : FollowsWays f) (test : ElementTest)
    (p : Place) :
    test.holds (f p) = test.holds p := by
  have htag := hf.tag? p
  cases test with
  | any => exact congrArg Option.isSome htag
  | named name => simp only [ElementTest.holds, htag]
  | qualified => rfl

/-- Being related to a place is being related to its image. -/
theorem FollowsWays.any_sources (hf : FollowsWays f) (c : Combinator)
    (p r : Place) :
    ((c.sources (f r)).any fun q => q.id == (f p).id) =
      (c.sources r).any fun q => q.id == p.id := by
  rw [hf.sources, List.any_map, hf.id]
  simp only [Function.comp_def, hf.id]

mutual

theorem Condition.holds_map (hf : FollowsWays f) {c : Condition}
    (h : AllAgree f axis image c.tests) : c.AgreesAlong f axis image := by
  intro element p
  match c with
  | .not chain =>
      rw [Condition.tests] at h
      rw [Condition.holds, Condition.holds,
        Complex.holds_map hf h (fun _ => rfl)]
  | .anyOf compounds =>
      rw [Condition.tests] at h
      rw [Condition.holds, Condition.holds, Compound.anyHolds_map hf h]
  | .has related =>
      rw [Condition.tests] at h
      rw [Condition.holds, Condition.holds, Relative.anyHolds_map hf h]
  | .id _ | .className _ | .attribute _ | .pseudo _ | .nth .. | .containsText
      _ | .language _ =>
      exact h _ List.mem_cons_self rfl element p

theorem Condition.allHold_map (hf : FollowsWays f) {element : ElementTest}
    {cs : List Condition} {p : Place}
    (h : AllAgree f axis image (Condition.allTests cs)) :
    Condition.allHold image element cs (f p) =
      Condition.allHold axis element cs p := by
  match cs with
  | [] => rw [Condition.allHold, Condition.allHold]
  | c :: rest =>
      rw [Condition.allTests, allAgree_append] at h
      rw [Condition.allHold, Condition.allHold, Condition.holds_map hf h.1,
        Condition.allHold_map hf h.2]

theorem Compound.holds_map (hf : FollowsWays f) {c : Compound} {p : Place}
    (h : AllAgree f axis image c.tests) : c.holds image (f p) =
      c.holds axis p := by
  match c with
  | .mk element conditions =>
      rw [Compound.tests] at h
      rw [Compound.holds, Compound.holds, hf.holds_element,
        Condition.allHold_map hf h]

theorem Compound.anyHolds_map (hf : FollowsWays f) {cs : List Compound}
    {p : Place} (h : AllAgree f axis image (Compound.allTests cs)) :
    Compound.anyHolds image cs (f p) = Compound.anyHolds axis cs p := by
  match cs with
  | [] => rw [Compound.anyHolds, Compound.anyHolds]
  | c :: rest =>
      rw [Compound.allTests, allAgree_append] at h
      rw [Compound.anyHolds, Compound.anyHolds, Compound.holds_map hf h.1,
        Compound.anyHolds_map hf h.2]

/-- A chain ends at a place just when it ends at the image of the place, if its
first compound may stand at a place just when it may stand at the image. -/
theorem Complex.holds_map (hf : FollowsWays f) {chain : Complex}
    {start begin : Place → Bool} {p : Place}
    (h : AllAgree f axis image chain.tests)
    (hstart : ∀ q, begin (f q) = start q) :
    chain.holds image begin (f p) = chain.holds axis start p := by
  match chain with
  | .single compound =>
      rw [Complex.tests] at h
      rw [Complex.holds, Complex.holds, hstart, Compound.holds_map hf h]
  | .join left combinator compound =>
      rw [Complex.tests, allAgree_append] at h
      have hleft : ∀ q, left.holds image begin (f q) =
          left.holds axis start q := fun q => Complex.holds_map hf h.1 hstart
      rw [Complex.holds, Complex.holds, Compound.holds_map hf h.2, hf.sources,
        List.any_map]
      simp only [Function.comp_def, hleft]

theorem Relative.holds_map (hf : FollowsWays f) {r : Relative} {p : Place}
    (h : AllAgree f axis image r.tests) : r.holds image (f p) =
      r.holds axis p := by
  match r with
  | .mk combinator chain =>
      rw [Relative.tests] at h
      have hchain : ∀ q, chain.holds image (fun r => (combinator.sources r).any
          (·.id == (f p).id)) (f q) = chain.holds axis
          (fun r => (combinator.sources r).any (·.id == p.id)) q :=
        fun q => Complex.holds_map hf h (hf.any_sources combinator p)
      rw [Relative.holds, Relative.holds, hf.reachable, List.any_map]
      simp only [Function.comp_def, hchain]

theorem Relative.anyHolds_map (hf : FollowsWays f) {rs : List Relative}
    {p : Place} (h : AllAgree f axis image (Relative.allTests rs)) :
    Relative.anyHolds image rs (f p) = Relative.anyHolds axis rs p := by
  match rs with
  | [] => rw [Relative.anyHolds, Relative.anyHolds]
  | r :: rest =>
      rw [Relative.allTests, allAgree_append] at h
      rw [Relative.anyHolds, Relative.anyHolds, Relative.holds_map hf h.1,
        Relative.anyHolds_map hf h.2]

end

end SheetBinding.Selector
