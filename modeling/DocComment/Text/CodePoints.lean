/-! Classes of characters, given by ranges of code points. -/
namespace DocComment

/-- Whether a character lies in one of several closed ranges. -/
def inRanges (ranges : List (Nat × Nat)) (c : Char) : Bool :=
  ranges.any fun range => range.1 ≤ c.toNat && c.toNat ≤ range.2

end DocComment
