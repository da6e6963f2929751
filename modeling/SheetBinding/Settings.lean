import SheetBinding.Text.Display
import SheetBinding.Text.Lowercase

/-!
The settings of a rule: names and values in the order they were written. A name
is looked up without regard to case, no two names differ only in case, and each
keeps the spelling that it was written with.
-/

namespace SheetBinding

/-- Settings, no two of them of one name. -/
structure Settings where
  pairs : List (String × String)
  unique : (pairs.map fun pair => Text.lowercase pair.1).Nodup
  deriving DecidableEq, Repr

/-- A name that was set before. -/
structure DuplicateSetting where
  name : String
  deriving DecidableEq, Repr

/-- The text of the error for a name that was set before. -/
def DuplicateSetting.message (d : DuplicateSetting) : String :=
  "Duplicate setting: " ++ Text.display d.name

/-- A name that was asked for and is not set. -/
structure MissingSetting where
  name : String
  deriving DecidableEq, Repr

/-- What the lookup of a name that is not set reports: the name in lower
case. -/
def Settings.missingName (name : String) : String :=
  Text.display (Text.lowercase name)

/-- The text of the error for a name that is not set. -/
def MissingSetting.message (m : MissingSetting) : String :=
  Settings.missingName m.name

namespace Settings

/-- The first name whose lower-cased form is in `seen` or belongs to a name
before it. -/
def repeatedName? (seen : List String) : List (String × String) → Option String
  | [] => none
  | (name, _) :: rest =>
    if seen.contains (Text.lowercase name) then some name
    else repeatedName? (Text.lowercase name :: seen) rest

/-- Where no name is repeated, all names differ from each other and from those
seen before. -/
theorem nodup_of_repeatedName? {seen : List String}
    {pairs : List (String × String)} (h : repeatedName? seen pairs = none) :
    (pairs.map fun pair => Text.lowercase pair.1).Nodup ∧
      ∀ pair ∈ pairs, Text.lowercase pair.1 ∉ seen := by
  fun_induction repeatedName? seen pairs with
  | case1 => simp
  | case2 => cases h
  | case3 seen name value rest hnot ih =>
    obtain ⟨hrest, hseen⟩ := ih h
    simp only [List.contains_eq_mem, decide_eq_true_eq] at hnot
    refine ⟨?_, ?_⟩
    · simp only [List.map_cons, List.nodup_cons, List.mem_map,
        not_exists, not_and]
      exact ⟨fun pair hpair heq => hseen pair hpair (by simp [heq]), hrest⟩
    · intro pair hpair
      rcases List.mem_cons.1 hpair with rfl | hpair
      · exact hnot
      · exact fun hmem => hseen pair hpair (List.mem_cons_of_mem _ hmem)

/-- No settings. -/
def empty : Settings :=
  ⟨[], List.nodup_nil⟩

instance : Inhabited Settings := ⟨empty⟩

/-- The settings of the given names and values, unless a name is repeated. -/
def ofPairs (pairs : List (String × String)) :
    Except DuplicateSetting Settings :=
  match h : repeatedName? [] pairs with
  | some name => .error ⟨name⟩
  | none => .ok ⟨pairs, (nodup_of_repeatedName? h).1⟩

/-- The value of a name, in whatever case it is written. -/
def get? (s : Settings) (name : String) : Option String :=
  (s.pairs.find? fun pair => Text.lowercase pair.1 ==
    Text.lowercase name).map (·.2)

/-- The value of a name, or `default` where the name is not set. -/
def getOr (s : Settings) (name : String) (default : Option String) :
    Option String :=
  (s.get? name).or default

/-- The value of a name that must be set. -/
def item (s : Settings) (name : String) : Except MissingSetting String :=
  match s.get? name with
  | some value => .ok value
  | none => .error ⟨name⟩

/-- Whether a name is set, in whatever case it is written. -/
def has (s : Settings) (name : String) : Bool :=
  s.pairs.any fun pair => Text.lowercase pair.1 == Text.lowercase name

theorem has_eq_isSome (s : Settings) (name : String) :
    s.has name = (s.get? name).isSome := by
  rw [has, get?, Option.isSome_map, List.isSome_find?]

/-- The names, as they were written. -/
def names (s : Settings) : List String :=
  s.pairs.map (·.1)

/-- How many settings there are. -/
def size (s : Settings) : Nat :=
  s.pairs.length

/-- Whether two settings give every name the same value, whatever their order
and spelling. -/
def sameMap (a b : Settings) : Bool :=
  a.size == b.size && a.pairs.all fun pair => b.get? pair.1 == some pair.2

/-- A setting as it is shown. -/
def displayPair (pair : String × String) : String :=
  "(" ++ Text.display pair.1 ++ ", " ++ Text.display pair.2 ++ ")"

/-- Settings as they are shown. -/
def display (s : Settings) : String :=
  "Settings([" ++ ", ".intercalate (s.pairs.map displayPair) ++ "])"

end Settings

end SheetBinding
