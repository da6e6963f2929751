import Mathlib.Data.Finset.Dedup
import SheetBinding.Settings

/-!
# Settings as a map

Settings are kept as they were written, in order and with their spelling. All
that is asked of them goes through the map from lower-cased names to values,
which is here the list `folded` of which only the members count: a lookup asks
for a member (`get?_eq_some_iff`), and equality of settings, which compares
sizes and looks up one side's names in the other, comes down to the same members
(`sameMap_iff`) because the names are distinct on both sides.

That they are distinct is all that is checked when settings are collected. The
pairs are gone through with the names seen so far, and the first name that has
been seen is the one reported. One step moves a name from the pairs to those
seen (`repeatedAfter_cons_of_not_mem`), so what was seen before the first pair
is left open in the run (`repeatedName?_eq_some_iff`); with nothing seen before,
a name is reported just when the names in front of it all differ and it is one
of them (`ofPairs_eq_error_iff`).
-/

namespace SheetBinding.Settings

open Text

/-! ## Names that are repeated -/

section Repeated

variable {seen : List String} {pairs : List (String × String)}

/-- A name is the first one that has been seen or stands before itself. -/
def RepeatedAfter (seen : List String) (pairs : List (String × String))
    (name : String) : Prop :=
  ∃ before value after, pairs = before ++ (name, value) :: after ∧
    (lowercase name ∈ seen ∨ ∃ pair ∈ before,
      lowercase pair.1 = lowercase name) ∧
    (before.map fun pair => lowercase pair.1).Nodup ∧
      ∀ pair ∈ before, lowercase pair.1 ∉ seen

variable {first : String × String} {name : String}

theorem repeatedAfter_cons_of_mem (h : lowercase first.1 ∈ seen) :
    RepeatedAfter seen (first :: pairs) name ↔ first.1 = name := by
  constructor
  · rintro ⟨_ | ⟨_, before⟩, value, after, heq, -, -, hbefore⟩
    · obtain ⟨rfl, -⟩ := List.cons.inj heq
      rfl
    · obtain ⟨rfl, -⟩ := List.cons.inj heq
      exact absurd h (hbefore _ (List.mem_cons_self ..))
  · rintro rfl
    exact ⟨[], first.2, pairs, rfl, .inl h, List.nodup_nil, by simp⟩

/-- A name that has not been seen goes over to those that have. -/
theorem repeatedAfter_cons_of_not_mem (h : lowercase first.1 ∉ seen) :
    RepeatedAfter seen (first :: pairs) name ↔
      RepeatedAfter (lowercase first.1 :: seen) pairs name := by
  constructor
  · rintro ⟨_ | ⟨_, before⟩, value, after, heq, hname, hnodup, hbefore⟩
    · obtain ⟨rfl, -⟩ := List.cons.inj heq
      rcases hname with hname | ⟨pair, hpair, -⟩
      · exact absurd hname h
      · cases hpair
    · obtain ⟨rfl, rfl⟩ := List.cons.inj heq
      rw [List.map_cons, List.nodup_cons] at hnodup
      refine ⟨before, value, after, rfl, ?_, hnodup.2,
        fun pair hpair hmem => ?_⟩
      · rcases hname with hname | ⟨pair, hpair, he⟩
        · exact .inl (List.mem_cons_of_mem _ hname)
        · rcases List.mem_cons.1 hpair with rfl | hpair
          · exact .inl (he ▸ List.mem_cons_self ..)
          · exact .inr ⟨pair, hpair, he⟩
      · rcases List.mem_cons.1 hmem with he | hmem
        · exact hnodup.1 (List.mem_map.2 ⟨pair, hpair, he⟩)
        · exact hbefore pair (List.mem_cons_of_mem _ hpair) hmem
  · rintro ⟨before, value, after, rfl, hname, hnodup, hbefore⟩
    refine ⟨first :: before, value, after, rfl, ?_, ?_, ?_⟩
    · rcases hname with hname | ⟨pair, hpair, he⟩
      · rcases List.mem_cons.1 hname with he | hname
        · exact .inr ⟨first, List.mem_cons_self .., he.symm⟩
        · exact .inl hname
      · exact .inr ⟨pair, List.mem_cons_of_mem _ hpair, he⟩
    · rw [List.map_cons, List.nodup_cons]
      refine ⟨fun hmem => ?_, hnodup⟩
      obtain ⟨pair, hpair, he⟩ := List.mem_map.1 hmem
      exact hbefore pair hpair (he ▸ List.mem_cons_self ..)
    · exact List.forall_mem_cons.2 ⟨h,
        fun pair hpair hmem => hbefore pair hpair (List.mem_cons_of_mem _ hmem)⟩

theorem repeatedName?_eq_some_iff :
    repeatedName? seen pairs = some name ↔ RepeatedAfter seen pairs name := by
  induction pairs generalizing seen with
  | nil => simp [repeatedName?, RepeatedAfter]
  | cons first rest ih =>
      simp only [repeatedName?, List.contains_eq_mem, decide_eq_true_eq]
      split
      · next hseen => rw [Option.some_inj, repeatedAfter_cons_of_mem hseen]
      · next hseen => rw [ih, repeatedAfter_cons_of_not_mem hseen]

/-- No name is reported where all of them differ. -/
theorem repeatedName?_eq_none
    (h : (pairs.map fun pair => lowercase pair.1).Nodup) :
    repeatedName? [] pairs = none := by
  cases hfound : repeatedName? [] pairs with
  | none => rfl
  | some name =>
      obtain ⟨before, value, after, rfl, hname, -, -⟩ :=
        repeatedName?_eq_some_iff.1 hfound
      rw [List.map_append, List.map_cons, List.nodup_append] at h
      rcases hname with hname | ⟨pair, hpair, he⟩
      · cases hname
      · exact absurd he (h.2.2 _ (List.mem_map_of_mem hpair) _
          (List.mem_cons_self ..))

end Repeated

/-! ## Collecting settings -/

/-- Two of the names are the same in lower case. -/
def HasRepeated (pairs : List (String × String)) : Prop :=
  ∃ (i j : Nat) (a b : String × String), i < j ∧ pairs[i]? = some a ∧
    pairs[j]? = some b ∧ lowercase a.1 = lowercase b.1

/-- A name is the first one to be repeated: it is one of those before it, which
all differ. -/
def FirstRepeated (pairs : List (String × String)) (name : String) : Prop :=
  ∃ before value after, pairs = before ++ (name, value) :: after ∧
    (∃ pair ∈ before, lowercase pair.1 = lowercase name) ∧
    (before.map fun pair => lowercase pair.1).Nodup

section Collecting

variable {pairs : List (String × String)} {s : Settings}

/-- Settings are collected from their own pairs and no others. -/
theorem ofPairs_eq_ok_iff : ofPairs pairs = .ok s ↔ s.pairs = pairs := by
  constructor
  · intro h
    unfold ofPairs at h
    split at h
    · cases h
    · cases h
      rfl
  · rintro rfl
    have hnone : repeatedName? [] s.pairs = none :=
      repeatedName?_eq_none s.unique
    rw [ofPairs]
    split
    · next h => rw [hnone] at h; cases h
    · rfl

theorem ofPairs_eq_error_iff {d : DuplicateSetting} :
    ofPairs pairs = .error d ↔ FirstRepeated pairs d.name := by
  have hrepeated : ofPairs pairs = .error d ↔
      repeatedName? [] pairs = some d.name := by
    rw [ofPairs]
    split
    · next name h =>
        rw [h, Option.some_inj, Except.error.injEq]
        exact ⟨fun he => he ▸ rfl, fun he => he ▸ rfl⟩
    · next h => simp [h]
  rw [hrepeated, repeatedName?_eq_some_iff, RepeatedAfter, FirstRepeated]
  simp

/-- Settings can be collected just when the names differ. -/
theorem exists_ofPairs_eq_ok_iff :
    (∃ s, ofPairs pairs = .ok s) ↔
      (pairs.map fun pair => lowercase pair.1).Nodup := by
  constructor
  · rintro ⟨s, hs⟩
    rw [← ofPairs_eq_ok_iff.1 hs]
    exact s.unique
  · intro h
    exact ⟨⟨pairs, h⟩, ofPairs_eq_ok_iff.2 rfl⟩

theorem exists_ofPairs_eq_error_iff :
    (∃ d, ofPairs pairs = .error d) ↔ HasRepeated pairs := by
  have hfails : (∃ d, ofPairs pairs = .error d) ↔
      ¬ ∃ s, ofPairs pairs = .ok s := by
    cases ofPairs pairs <;> simp
  rw [hfails, exists_ofPairs_eq_ok_iff, List.Nodup, List.pairwise_map]
  constructor
  · intro hrepeated
    by_contra hdiffer
    refine hrepeated (List.pairwise_iff_getElem.2 fun i j hi hj hij he =>
      hdiffer ?_)
    exact ⟨i, j, _, _, hij, List.getElem?_eq_getElem hi,
      List.getElem?_eq_getElem hj, he⟩
  · rintro ⟨i, j, a, b, hij, ha, hb, he⟩ hdiffer
    obtain ⟨hi, rfl⟩ := List.getElem?_eq_some_iff.1 ha
    obtain ⟨hj, rfl⟩ := List.getElem?_eq_some_iff.1 hb
    exact List.pairwise_iff_getElem.1 hdiffer i j hi hj hij he

end Collecting

/-! ## Lookups -/

/-- Names and values with the names in lower case. -/
def folded (pairs : List (String × String)) : List (String × String) :=
  pairs.map fun pair => (lowercase pair.1, pair.2)

/-- The value of a name that is given in lower case. -/
def valueOf (s : Settings) (key : String) : Option String :=
  (folded s.pairs).lookup key

variable {s t : Settings} {name value : String}

theorem nodup_names_folded {pairs : List (String × String)} :
    ((folded pairs).map Prod.fst).Nodup ↔
      (pairs.map fun pair => lowercase pair.1).Nodup := by
  rw [folded, List.map_map]
  rfl

theorem nodup_folded (s : Settings) : (folded s.pairs).Nodup :=
  (nodup_names_folded.2 s.unique).of_map _

theorem exists_pairs_eq {pairs : List (String × String)}
    (h : ((folded pairs).map Prod.fst).Nodup) : ∃ s : Settings,
      s.pairs = pairs :=
  ⟨⟨pairs, nodup_names_folded.1 h⟩, rfl⟩

theorem valueOf_eq_some_iff {key : String} :
    s.valueOf key = some value ↔ (key, value) ∈ folded s.pairs := by
  rw [valueOf, List.lookup_eq_some_iff]
  constructor
  · rintro ⟨front, back, heq, -⟩
    rw [heq]
    exact List.mem_append_right _ (List.mem_cons_self ..)
  · intro hmem
    obtain ⟨front, back, heq⟩ := List.append_of_mem hmem
    have hnodup := nodup_names_folded.2 s.unique
    rw [heq, List.map_append, List.map_cons, List.nodup_append] at hnodup
    refine ⟨front, back, heq, fun entry hentry => ?_⟩
    rw [bne_iff_ne]
    exact (hnodup.2.2 _ (List.mem_map_of_mem hentry) key
      (List.mem_cons_self ..)).symm

theorem get?_eq_lookup (s : Settings) (name : String) :
    s.get? name = (folded s.pairs).lookup (lowercase name) := by
  rw [get?, folded]
  induction s.pairs with
  | nil => rfl
  | cons pair rest ih =>
      rw [List.find?_cons, List.map_cons, List.lookup_cons, ← ih, Bool.beq_comm]
      cases lowercase name == lowercase pair.1 <;> rfl

theorem get?_eq_some_iff :
    s.get? name = some value ↔ (lowercase name, value) ∈ folded s.pairs := by
  rw [get?_eq_lookup]
  exact valueOf_eq_some_iff

theorem get?_congr
    (h : ∀ entry, entry ∈ folded s.pairs ↔ entry ∈ folded t.pairs)
    (name : String) : s.get? name = t.get? name := by
  refine Option.ext fun value => ?_
  rw [get?_eq_some_iff, get?_eq_some_iff]
  exact h _

/-- What is asked about a name is answered with one value, or alike with
none. -/
structure Answers (s : Settings) (name : String) (value? : Option String) :
    Prop where
  has : s.has name = value?.isSome
  getOr : ∀ default, s.getOr name default = value?.or default
  item : s.item name = value?.elim (.error ⟨name⟩) .ok

theorem answers_get? (s : Settings) (name : String) :
    s.Answers name (s.get? name) where
  has := s.has_eq_isSome name
  getOr _ := rfl
  item := by
    rw [item]
    cases s.get? name <;> rfl

/-- A name has the value of the only pair of that name, or no value and no
pair. -/
theorem get?_cases (s : Settings) (name : String) :
    (∃ pair, (∀ other, other ∈ s.pairs ∧ lowercase other.1 = lowercase name ↔
      other = pair) ∧ s.get? name = some pair.2) ∨
    ((∀ pair ∈ s.pairs, lowercase pair.1 ≠ lowercase name) ∧
      s.get? name = none) := by
  cases hget : s.get? name with
  | none =>
      refine .inr ⟨fun pair hpair he => ?_, rfl⟩
      have hsome : s.get? name = some pair.2 :=
        get?_eq_some_iff.2 (List.mem_map.2 ⟨pair, hpair, he ▸ rfl⟩)
      rw [hget] at hsome
      cases hsome
  | some value =>
      obtain ⟨pair, hpair, he⟩ := List.mem_map.1 (get?_eq_some_iff.1 hget)
      obtain ⟨hname, rfl⟩ := Prod.mk.inj he
      refine .inl ⟨pair, fun other => ⟨?_, ?_⟩, rfl⟩
      · rintro ⟨hother, hsame⟩
        exact List.inj_on_of_nodup_map s.unique hother hpair
          (hsame.trans hname.symm)
      · rintro rfl
        exact ⟨hpair, hname⟩

/-! ## Equality -/

theorem sameMap_iff :
    s.sameMap t = true ↔ ∀ entry, entry ∈ folded s.pairs ↔
      entry ∈ folded t.pairs := by
  have hsize : ∀ u : Settings, u.size = (folded u.pairs).length := fun u =>
    (List.length_map _).symm
  have hall : (s.pairs.all fun pair => t.get? pair.1 == some pair.2) = true ↔
      folded s.pairs ⊆ folded t.pairs := by
    rw [List.all_eq_true]
    constructor
    · intro hall entry hentry
      obtain ⟨pair, hpair, rfl⟩ := List.mem_map.1 hentry
      exact get?_eq_some_iff.1 (eq_of_beq (hall pair hpair))
    · intro hsub pair hpair
      rw [beq_iff_eq, get?_eq_some_iff]
      exact hsub (List.mem_map_of_mem hpair)
  rw [sameMap, Bool.and_eq_true, beq_iff_eq, hsize, hsize, hall]
  constructor
  · rintro ⟨hlength, hsub⟩
    have hperm := (s.nodup_folded.subperm hsub).perm_of_length_le hlength.ge
    exact fun entry => hperm.mem_iff
  · intro h
    refine ⟨((List.perm_ext_iff_of_nodup s.nodup_folded t.nodup_folded).2
      h).length_eq, ?_⟩
    exact fun entry => (h entry).1

/-- Settings are equal just when every name in lower case has the same value in
both. -/
theorem sameMap_iff_valueOf :
    s.sameMap t = true ↔ ∀ key, s.valueOf key = t.valueOf key := by
  rw [sameMap_iff]
  constructor
  · intro h key
    refine Option.ext fun value => ?_
    rw [valueOf_eq_some_iff, valueOf_eq_some_iff]
    exact h _
  · rintro h ⟨key, value⟩
    rw [← valueOf_eq_some_iff, ← valueOf_eq_some_iff, h]

theorem equivalence_sameMap :
    Equivalence fun s t : Settings => s.sameMap t = true where
  refl _ := sameMap_iff_valueOf.2 fun _ => rfl
  symm h := sameMap_iff_valueOf.2 fun key => (sameMap_iff_valueOf.1 h key).symm
  trans h h' := sameMap_iff_valueOf.2 fun key =>
    (sameMap_iff_valueOf.1 h key).trans (sameMap_iff_valueOf.1 h' key)

/-- What settings are hashed by. -/
def hashed (s : Settings) : Finset (String × String) :=
  (folded s.pairs).toFinset

theorem hashed_eq_iff : s.hashed = t.hashed ↔ s.sameMap t = true := by
  rw [sameMap_iff, hashed, hashed, Finset.ext_iff]
  simp only [List.mem_toFinset]

/-- Settings are an association of values with lower-cased names. They are
collected from pairs whose names differ, and otherwise the first name that is
repeated is reported as it is spelled; they give back the pairs as they were;
all lookups of a name agree on the one pair of that name or on there being none;
and they are equal, and hash alike, just when they are the same map. -/
theorem association :
    (∀ pairs : List (String × String),
      ((∃ d, ofPairs pairs = .error d) ↔ HasRepeated pairs) ∧
      (∀ d, ofPairs pairs = .error d ↔ FirstRepeated pairs d.name) ∧
      ∀ s, ofPairs pairs = .ok s →
        s.pairs = pairs ∧ s.names = pairs.map Prod.fst ∧ s.size = pairs.length ∧
        ∀ name,
          (∃ pair,
            (∀ other,
              other ∈ pairs ∧ lowercase other.1 = lowercase name ↔
                other = pair) ∧
            s.Answers name (some pair.2)) ∨
          ((∀ pair ∈ pairs, lowercase pair.1 ≠ lowercase name) ∧
            s.Answers name none)) ∧
    (∀ s t : Settings, s.sameMap t = true ↔
      ∀ key, s.valueOf key = t.valueOf key) ∧
    (Equivalence fun s t : Settings => s.sameMap t = true) ∧
    ∀ s t : Settings, s.hashed = t.hashed ↔ s.sameMap t = true := by
  refine ⟨fun pairs => ⟨exists_ofPairs_eq_error_iff, fun d =>
    ofPairs_eq_error_iff, fun s hs => ?_⟩, fun s t => sameMap_iff_valueOf,
    equivalence_sameMap, fun s t => hashed_eq_iff⟩
  obtain rfl := ofPairs_eq_ok_iff.1 hs
  refine ⟨rfl, rfl, rfl, fun name => ?_⟩
  have hanswers := s.answers_get? name
  rcases s.get?_cases name with ⟨pair, honly, hget⟩ | ⟨hnone, hget⟩
  · exact .inl ⟨pair, honly, hget ▸ hanswers⟩
  · exact .inr ⟨hnone, hget ▸ hanswers⟩

/-- Names whose lower case depends on what is around a letter, or is longer. -/
def capitals : List (String × String) :=
  [("\u0130", "dotted"), ("\u039F\u03A3", "sigma")]

/-- The dotted capital has two characters in lower case and the last sigma of a
word a form of its own; the plain small letter is another name. -/
theorem association_capitals :
    ∃ s, ofPairs capitals = .ok s ∧ s.pairs = capitals ∧
      s.Answers "i\u0307" (some "dotted") ∧
      s.Answers "\u03BF\u03C2" (some "sigma") ∧
      s.Answers "i" none := by
  obtain ⟨hnodup, hdotted, hsigma, hplain⟩ : (capitals.map fun pair =>
      lowercase pair.1).Nodup ∧ lowercase "\u0130" = lowercase "i\u0307" ∧
      lowercase "\u039F\u03A3" = lowercase "\u03BF\u03C2" ∧
      lowercase "i" ∉ capitals.map fun pair => lowercase pair.1 := by
    decide +kernel
  obtain ⟨s, hs⟩ := exists_ofPairs_eq_ok_iff.2 hnodup
  obtain ⟨hpairs, -, -, hlookup⟩ := (association.1 capitals).2.2 s hs
  have hset : ∀ pair ∈ capitals, ∀ name, lowercase pair.1 = lowercase name →
      s.Answers name (some pair.2) := by
    intro pair hpair name hname
    rcases hlookup name with ⟨only, honly, hanswers⟩ | ⟨hnone, -⟩
    · rwa [(honly pair).1 ⟨hpair, hname⟩]
    · exact absurd hname (hnone pair hpair)
  refine ⟨s, hs, hpairs, hset _ (List.mem_cons_self ..) _ hdotted,
    hset _ (List.mem_cons_of_mem _ (List.mem_cons_self ..)) _ hsigma, ?_⟩
  rcases hlookup "i" with ⟨pair, honly, -⟩ | ⟨-, hanswers⟩
  · obtain ⟨hpair, hname⟩ := (honly pair).2 rfl
    exact absurd (List.mem_map.2 ⟨pair, hpair, hname⟩) hplain
  · exact hanswers

end SheetBinding.Settings
