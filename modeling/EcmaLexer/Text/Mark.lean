import EcmaLexer.Text.LineMap
import EcmaLexer.Text.Utf8

namespace EcmaLexer.Text

/-- A place in a text: its byte offset, the number of line terminators before
    it and the offset where its line starts. -/
structure Mark where
  offset : Nat
  line : Nat
  lineStart : Nat
deriving DecidableEq

namespace Mark

def origin : Mark := ⟨0, 0, 0⟩

/-- The mark `width` bytes on, on the same line. -/
def advance (mark : Mark) (width : Nat) : Mark := { mark with offset := mark.offset + width }

/-- The mark past a line terminator of `width` bytes, where a new line starts. -/
def breakLine (mark : Mark) (width : Nat) : Mark :=
  ⟨mark.offset + width, mark.line + 1, mark.offset + width⟩

/-- The mark past a text that begins at the mark. A carriage return and the line
    feed after it end one line. -/
def past (mark : Mark) : List Char → Mark
  | [] => mark
  | '\r' :: '\n' :: text => (mark.breakLine 2).past text
  | c :: text =>
    if isLineTerminator c then (mark.breakLine c.utf8Size).past text
    else (mark.advance c.utf8Size).past text

/-- However a text breaks into lines, the offset moves by its length. -/
@[simp] theorem offset_past (mark : Mark) (text : List Char) :
    (mark.past text).offset = mark.offset + utf8Length text := by
  fun_induction past mark text with
  | case1 mark => simp
  | case2 mark text ih =>
    have hwidth : utf8Length ('\r' :: '\n' :: text) = 2 + utf8Length text := by
      have hreturn : '\r'.utf8Size = 1 := rfl
      have hfeed : '\n'.utf8Size = 1 := rfl
      simp only [utf8Length_cons, hreturn, hfeed]
      omega
    rw [ih, hwidth]
    simp only [breakLine]
    omega
  | case3 mark c text _ hbreak ih =>
    rw [ih, utf8Length_cons]
    simp only [breakLine]
    omega
  | case4 mark c text _ hbreak ih =>
    rw [ih, utf8Length_cons]
    simp only [advance]
    omega

/-- The column of a position on the mark's line, 0 for positions before it. -/
def columnOf (mark : Mark) (position : Nat) : Nat := word32 (position - mark.lineStart)

/-- A position on the mark's line. -/
def locate (mark : Mark) (position : Nat) : Location := ⟨mark.line, mark.columnOf position⟩

end Mark

end EcmaLexer.Text
