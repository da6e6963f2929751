/-!
Pairing items with elements by position. Pairs end where the elements end, or
where the items end if there is no default; a default stands for every item that
is missing.
-/

namespace SheetBinding

/-- Items paired with elements. -/
def pairUp {α β : Type} (default : Option α) : List α → List β → List (α × β)
  | _, [] => []
  | item :: items, e :: es => (item, e) :: pairUp default items es
  | [], e :: es =>
    match default with
    | none => []
    | some d => (d, e) :: pairUp default [] es

/-- Binds pairs one after the other until one fails: the state that the last one
left, and how many were bound, or why one failed. -/
def bindPairs {σ ε π : Type} (binder : σ → π → σ × Option ε) (count : Nat)
    (s : σ) :
    List π → σ × Except ε Nat
  | [] => (s, .ok count)
  | p :: rest =>
    match binder s p with
    | (s, some e) => (s, .error e)
    | (s, none) => bindPairs binder (count + 1) s rest

/-- Calls a binder for items and elements side by side, and gives the number of
calls. -/
def bindTo {σ ε α β : Type} (binder : σ → α × β → σ × Option ε) (s : σ)
    (items : List α) (elements : List β) (default : Option α) :
    σ × Except ε Nat :=
  bindPairs binder 0 s (pairUp default items elements)

end SheetBinding
