namespace EcmaLexer.Unicode

/-- Puts a code point in front of the ranges of code points above it. -/
def addBelow (codePoint : Nat) : List (Nat × Nat) → List (Nat × Nat)
  | [] => [(codePoint, codePoint)]
  | (first, last) :: ranges =>
    if first = codePoint + 1 then (codePoint, last) :: ranges
    else (codePoint, codePoint) :: (first, last) :: ranges

/-- Adds those of `count` code points from `first` on whose characters have a property,
    from the highest down, to the ranges of code points above them. -/
def surveyBelow (holds : Char → Bool) (first : Nat) : Nat → List (Nat × Nat) → List (Nat × Nat)
  | 0, ranges => ranges
  | count + 1, ranges =>
    let codePoint := first + count
    surveyBelow holds first count
      (if codePoint.isValidChar && holds (Char.ofNat codePoint) then addBelow codePoint ranges
        else ranges)

/-- The longest inclusive ranges of code points between two bounds whose characters have
    a property, in increasing order. Surrogates are no characters. -/
def survey (holds : Char → Bool) (first last : Nat) : List (Nat × Nat) :=
  surveyBelow holds first (min last 0x10ffff + 1 - first) []

end EcmaLexer.Unicode
