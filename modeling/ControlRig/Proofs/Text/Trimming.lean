import ControlRig.Text.Blank
import Mathlib.Data.List.DropRight

/-!
# Trimmed texts

What is cut off from the ends of a text is what passes a test there, so that nothing is left exactly
if everything passes (`Text.dropEndsWhile_eq_nil_iff`). White space is trimmed from names, and
slashes from keys and URLs.
-/

namespace ControlRig.Text

theorem dropEndsWhile_eq_nil_iff {p : Char → Bool} {cs : List Char} :
    dropEndsWhile p cs = [] ↔ ∀ c ∈ cs, p c = true := by
  show (cs.dropWhile p).rdropWhile p = [] ↔ _
  rw [List.rdropWhile_eq_nil_iff, ← List.dropWhile_eq_nil_iff, List.dropWhile_idempotent,
    List.dropWhile_eq_nil_iff]

theorem trim_eq_empty_iff {s : String} : trim s = "" ↔ isAllBlank s = true := by
  rw [isAllBlank, List.all_eq_true, ← dropEndsWhile_eq_nil_iff, trim]
  constructor
  · intro h
    simpa using congrArg String.toList h
  · intro h
    rw [h]

/-- What is left by trimming is blank only if nothing is left. -/
theorem isAllBlank_trim_iff {s : String} : isAllBlank (trim s) = true ↔ trim s = "" := by
  rw [isAllBlank, List.all_eq_true, trim, String.toList_ofList]
  have hends : (dropEndsWhile isBlank s.toList).rdropWhile isBlank =
      dropEndsWhile isBlank s.toList :=
    List.rdropWhile_idempotent _ _
  rw [← List.rdropWhile_eq_nil_iff, hends]
  constructor
  · intro h
    rw [h]
  · intro h
    simpa using congrArg String.toList h

end ControlRig.Text
