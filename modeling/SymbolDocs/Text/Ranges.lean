set_option autoImplicit false

/-!
# Character classes given by ranges

A character class is a list of closed ranges of code points.

## Main definitions

* `Text.CodeRanges` — a list of closed ranges.
* `Text.CodeRanges.has` — membership of a character.
* `Text.CodeRanges.apart` — whether two classes have no code point in common.

## Main results

* `Text.CodeRanges.has_eq_false_of_apart` — a character of one class is none of a class apart.
-/

namespace SymbolDocs

namespace Text

/-- Closed ranges of code points, in increasing order. -/
abbrev CodeRanges := List (Nat × Nat)

/-- Whether a character lies in one of the ranges. -/
def CodeRanges.has (ranges : CodeRanges) (c : Char) : Bool :=
  ranges.any fun range => range.1 ≤ c.toNat && c.toNat ≤ range.2

/-- Whether every range of one class ends before, or begins behind, every range of another. -/
def CodeRanges.apart (ranges others : CodeRanges) : Bool :=
  ranges.all fun range => others.all fun other => range.2 < other.1 || other.2 < range.1

/-- **A character of one class is none of a class apart from it.** -/
theorem CodeRanges.has_eq_false_of_apart {ranges others : CodeRanges}
    (h : ranges.apart others = true) {c : Char} (hc : ranges.has c = true) :
    others.has c = false := by
  obtain ⟨range, hrange, hin⟩ := List.any_eq_true.mp hc
  refine List.any_eq_false.mpr fun other hother hboth => ?_
  have hapart := List.all_eq_true.mp (List.all_eq_true.mp h range hrange) other hother
  simp only [Bool.and_eq_true, Bool.or_eq_true, decide_eq_true_eq] at hin hboth hapart
  omega

end Text

end SymbolDocs
