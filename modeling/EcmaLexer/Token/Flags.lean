namespace EcmaLexer

/-- Facts about the most recently scanned token. -/
structure Flags where
  precedingLineBreak : Bool := false
  /-- A name spelled with a unicode escape. -/
  unicodeEscape : Bool := false
  /-- A legacy octal number such as `017`. -/
  octal : Bool := false
  hexSpecifier : Bool := false
  binarySpecifier : Bool := false
  octalSpecifier : Bool := false
  scientific : Bool := false
  containsSeparator : Bool := false
  /-- A tagged template segment whose cooked value was abandoned. -/
  containsInvalidEscape : Bool := false
deriving DecidableEq

namespace Flags

/-- The facts that hold in either of two sets. -/
def union (left right : Flags) : Flags where
  precedingLineBreak := left.precedingLineBreak || right.precedingLineBreak
  unicodeEscape := left.unicodeEscape || right.unicodeEscape
  octal := left.octal || right.octal
  hexSpecifier := left.hexSpecifier || right.hexSpecifier
  binarySpecifier := left.binarySpecifier || right.binarySpecifier
  octalSpecifier := left.octalSpecifier || right.octalSpecifier
  scientific := left.scientific || right.scientific
  containsSeparator := left.containsSeparator || right.containsSeparator
  containsInvalidEscape := left.containsInvalidEscape || right.containsInvalidEscape

/-- The names of the facts that hold, in a fixed order. -/
def names (flags : Flags) : List String :=
  [(flags.precedingLineBreak, "PRECEDING_LINE_BREAK"), (flags.unicodeEscape, "UNICODE_ESCAPE"),
    (flags.octal, "OCTAL"), (flags.hexSpecifier, "HEX_SPECIFIER"),
    (flags.binarySpecifier, "BINARY_SPECIFIER"), (flags.octalSpecifier, "OCTAL_SPECIFIER"),
    (flags.scientific, "SCIENTIFIC"), (flags.containsSeparator, "CONTAINS_SEPARATOR"),
    (flags.containsInvalidEscape, "CONTAINS_INVALID_ESCAPE")].filterMap
    fun (holds, name) => if holds then some name else none

end Flags

end EcmaLexer
