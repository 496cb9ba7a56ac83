namespace EcmaLexer.Diagnostic

/-- A text with every occurrence of `pattern`, found from left to right, replaced.
    Occurrences do not overlap. The pattern must not be empty. -/
def replaceAll (pattern replacement : List Char) (text : List Char) : List Char :=
  match text with
  | [] => []
  | c :: rest =>
    if pattern.isPrefixOf (c :: rest) then
      replacement ++ replaceAll pattern replacement (rest.drop (pattern.length - 1))
    else c :: replaceAll pattern replacement rest
termination_by text.length
decreasing_by
  · simp only [List.length_drop, List.length_cons]
    omega
  · simp

/-- The place in a template that the argument with this index goes to: the index
    between braces. -/
def placeholder (index : Nat) : List Char := '\x7b' :: (Nat.toDigits 10 index ++ ['\x7d'])

/-- Replaces the placeholders of the arguments one argument after another, the
    first of them with the given index. Text that an argument brings in is seen by
    the arguments after it. -/
def formatFrom (index : Nat) (text : List Char) : List (List Char) → List Char
  | [] => text
  | arg :: args => formatFrom (index + 1) (replaceAll (placeholder index) arg text) args

/-- A template with its placeholders replaced by the arguments. Placeholders
    without an argument stay. -/
def format (template : List Char) (args : List (List Char)) : List Char :=
  formatFrom 0 template args

end EcmaLexer.Diagnostic
