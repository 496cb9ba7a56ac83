namespace EcmaLexer.Text

/-- Positions are stored in 32 bits; a larger offset keeps its low 32 bits. -/
def word32 (offset : Nat) : Nat := offset % 4294967296

theorem word32_of_lt {offset : Nat} (hlt : offset < 4294967296) : word32 offset = offset :=
  Nat.mod_eq_of_lt hlt

/-- A stretch of text, given by its start and its length in bytes. -/
structure Span where
  start : Nat
  length : Nat
deriving DecidableEq

namespace Span

def ofBounds (start stop : Nat) : Span := ⟨start, stop - start⟩

def empty (position : Nat) : Span := ⟨position, 0⟩

/-- The position just past the span. -/
def stop (span : Span) : Nat := span.start + span.length

def isEmpty (span : Span) : Bool := span.length == 0

def contains (span : Span) (position : Nat) : Bool :=
  span.start ≤ position && position < span.stop

/-- The span as `3..7`. -/
def dotted (span : Span) : String := toString span.start ++ ".." ++ toString span.stop

/-- The span as the half-open interval `[3, 7)`. -/
def interval (span : Span) : String :=
  "[" ++ toString span.start ++ ", " ++ toString span.stop ++ ")"

end Span

/-- A stretch of text, given by its first position and the position just past
    it. -/
structure Range where
  first : Nat
  stop : Nat
deriving DecidableEq

namespace Range

/-- The range between two cursor offsets, stored in 32 bits each. -/
def ofOffsets (first stop : Nat) : Range := ⟨word32 first, word32 stop⟩

def length (range : Range) : Nat := range.stop - range.first

def isEmpty (range : Range) : Bool := range.first == range.stop

def toSpan (range : Range) : Span := Span.ofBounds range.first range.stop

/-- The range as `3..7`. -/
def dotted (range : Range) : String := toString range.first ++ ".." ++ toString range.stop

end Range

def Span.toRange (span : Span) : Range := ⟨span.start, span.stop⟩

end EcmaLexer.Text
