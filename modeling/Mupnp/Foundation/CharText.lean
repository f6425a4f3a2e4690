import Mathlib.Data.List.Basic
import Mathlib.Tactic.Common

/-!
# Text of characters

What holds of the characters of a text is decided by going through the text. Without these
instances the property would be decided by going through all characters there are.
-/

set_option autoImplicit false
set_option relaxedAutoImplicit false

namespace Mupnp.Foundation

variable {p : Char → Prop} [DecidablePred p]

instance (priority := high) decidableForallMemText (text : List Char) :
    Decidable (∀ c ∈ text, p c) :=
  List.decidableBAll p text

instance (priority := high) decidableForallMemOption (char : Option Char) :
    Decidable (∀ c ∈ char, p c) :=
  match char with
  | none => .isTrue fun _ hc ↦ nomatch hc
  | some d => decidable_of_iff (p d) ⟨fun hd _ hc ↦ Option.some.inj hc ▸ hd, fun h ↦ h d rfl⟩

/-- The signs around the names of an element take one byte each. -/
theorem utf8Size_markup : ' '.utf8Size = 1 ∧ '<'.utf8Size = 1 ∧ '>'.utf8Size = 1 ∧
    '/'.utf8Size = 1 ∧ '\n'.utf8Size = 1 := by decide

end Mupnp.Foundation
