import EcmaLexer.Text.LineBreak
import EcmaLexer.Text.Span

namespace EcmaLexer.Text

/-- A line and a byte column on it, both counted from 0. -/
structure Location where
  line : Nat
  column : Nat
deriving DecidableEq

/-- The location as `line:column`, both counted from 1. -/
def Location.display (location : Location) : String :=
  toString (location.line + 1) ++ ":" ++ toString (location.column + 1)

/-- Offsets just past the line terminators of a text that begins at `offset`.
    A carriage return and the line feed after it are one terminator. -/
def terminatorEnds (offset : Nat) : List Char → List Nat
  | [] => []
  | '\r' :: '\n' :: text => (offset + 2) :: terminatorEnds (offset + 2) text
  | c :: text =>
    let next := offset + c.utf8Size
    if isLineTerminator c then next :: terminatorEnds next text else terminatorEnds next text

/-- Where the lines of a text start. The first line starts at 0, so only the
    later starts are kept. -/
structure LineMap where
  laterStarts : List Nat
deriving DecidableEq

namespace LineMap

def ofText (text : List Char) : LineMap := ⟨(terminatorEnds 0 text).map word32⟩

def starts (map : LineMap) : List Nat := 0 :: map.laterStarts

def lineCount (map : LineMap) : Nat := map.starts.length

def lineStart? (map : LineMap) (line : Nat) : Option Nat := map.starts[line]?

/-- The line of a position: the starts increase, so it is the number of later
    lines that start at or before it. A position past the end is on the last
    line. -/
def lineOf (map : LineMap) (position : Nat) : Nat :=
  (map.laterStarts.takeWhile (· ≤ position)).length

def locationOf (map : LineMap) (position : Nat) : Location :=
  let line := map.lineOf position
  ⟨line, position - (map.lineStart? line).getD 0⟩

end LineMap

end EcmaLexer.Text
