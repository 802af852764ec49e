/-!
# Character ranges

A class of characters outside ASCII is a list of closed intervals of code points. Membership asks
the intervals in turn.
-/

namespace ContractLens.Text

/-- Whether a code point lies in one of the closed intervals. -/
def inRanges (ranges : List (Nat × Nat)) (code : Nat) : Bool :=
  ranges.any fun (low, high) => low ≤ code && code ≤ high

@[simp] theorem inRanges_nil (code : Nat) : inRanges [] code = false := rfl

end ContractLens.Text
