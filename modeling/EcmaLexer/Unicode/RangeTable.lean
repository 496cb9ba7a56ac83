namespace EcmaLexer.Unicode

/-- A set of code points, as inclusive ranges in increasing order. -/
structure RangeTable where
  ranges : Array (Nat × Nat)

namespace RangeTable

/-- Halves the window of `size` ranges from `lo` on until it holds at most the
    range of the code point. `fuel` bounds the number of halvings. -/
def search (table : RangeTable) (codePoint : Nat) : Nat → Nat → Nat → Bool
  | 0, _, _ => false
  | _ + 1, _, 0 => false
  | fuel + 1, lo, size + 1 =>
    let half := (size + 1) / 2
    match table.ranges[lo + half]? with
    | none => false
    | some (first, last) =>
      if codePoint < first then table.search codePoint fuel lo half
      else if last < codePoint then table.search codePoint fuel (lo + half + 1) (size - half)
      else true

/-- Membership, by binary search. A window is halved at every step, so the
    number of ranges is fuel enough. -/
def contains (table : RangeTable) (codePoint : Nat) : Bool :=
  table.search codePoint table.ranges.size 0 table.ranges.size

end RangeTable

end EcmaLexer.Unicode
