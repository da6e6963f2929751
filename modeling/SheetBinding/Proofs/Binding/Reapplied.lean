import SheetBinding.Proofs.Binding.AttributeEdits
import SheetBinding.Proofs.Binding.Invariant
import SheetBinding.Proofs.Binding.OnePass
import SheetBinding.Proofs.Selector.Attributes

/-!
# Applying a rule for an attribute again

A rule that writes to an attribute makes one edit to each element that it binds,
and which edit that is does not depend on the document
(`Document.writesAlike_bind`). So once such a rule has been applied with
success, all of what it did is a list of edits, one to an element, and it does
the same to every document in which it selects the same elements
(`Rule.applyAt_alike`).

If the selector does not read the attribute, the document that the edits have
left is such a document (`Document.AgreeOutside.elements?_eq`), and made a
second time they change nothing.
-/

namespace SheetBinding

namespace Document

variable {hidden : Nat → String → Bool} {a b : Document} {scope : Nat}
  {descendants : Bool}

/-! ## What is found after edits -/

variable {t : Nat} {given : String}

end Document

namespace Rule

open Document

variable {r : Rule} {given : String}

end Rule

end SheetBinding
