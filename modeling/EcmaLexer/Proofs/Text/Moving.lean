import EcmaLexer.Proofs.Text.Lines

namespace EcmaLexer.Text

/-- The same column further down. -/
def Location.moved (lines : Nat) (location : Location) : Location :=
  { location with line := location.line + lines }

namespace Mark

/-- The mark in a longer text, in which whole lines come before it. -/
def moved (bytes lines : Nat) (mark : Mark) : Mark :=
  ⟨mark.offset + bytes, mark.line + lines, mark.lineStart + bytes⟩

variable (bytes lines : Nat)

theorem advance_moved (mark : Mark) (width : Nat) :
    (mark.moved bytes lines).advance width = (mark.advance width).moved bytes lines := by
  simp only [advance, moved, Nat.add_right_comm]

theorem breakLine_moved (mark : Mark) (width : Nat) :
    (mark.moved bytes lines).breakLine width = (mark.breakLine width).moved bytes lines := by
  simp only [breakLine, moved, Nat.add_right_comm]

theorem past_moved (mark : Mark) (text : List Char) :
    (mark.moved bytes lines).past text = (mark.past text).moved bytes lines := by
  fun_induction past mark text with
  | case1 mark => rw [past]
  | case2 mark text ih => rw [past, breakLine_moved, ih]
  | case3 mark c text hpair hbreak ih =>
    rw [past.eq_3 _ _ _ hpair, if_pos hbreak, breakLine_moved, ih]
  | case4 mark c text hpair hbreak ih =>
    rw [past.eq_3 _ _ _ hpair, if_neg hbreak, advance_moved, ih]

theorem locate_moved (mark : Mark) (position : Nat) :
    (mark.moved bytes lines).locate (position + bytes) = (mark.locate position).moved lines := by
  simp only [locate, columnOf, moved, Location.moved, Nat.add_sub_add_right]

end Mark

/-- The last line of a text that a line feed ends starts right after it, also where the line feed
    is the second half of a terminator. -/
theorem getLast?_terminatorEnds (offset : Nat) (text : List Char) :
    (terminatorEnds offset (text ++ ['\n'])).getLast? = some (offset + utf8Length text + 1) := by
  by_cases hcut : CleanCut text ['\n']
  · rw [terminatorEnds_append offset hcut, List.getLast?_append]
    rfl
  · obtain ⟨hlast, -⟩ := Classical.not_imp.mp hcut
    obtain ⟨before, rfl⟩ := List.getLast?_eq_some_iff.mp hlast
    have hcut : CleanCut before ['\r', '\n'] := .of_head_ne (by decide)
    rw [List.append_assoc, List.singleton_append, terminatorEnds_append offset hcut,
      List.getLast?_append, utf8Length_append, ← Nat.add_assoc]
    rfl

/-- The number of line terminators of a text and the line feed after it. -/
def linesBefore (text : List Char) : Nat := (terminatorEnds 0 (text ++ ['\n'])).length

/-- A line feed leads to the start of a line. -/
theorem Mark.past_lineFeed (text : List Char) :
    origin.past (text ++ ['\n']) = origin.moved (utf8Length text + 1) (linesBefore text) := by
  apply Mark.ext
  · rw [offset_origin_past, utf8Length_append]
    exact (Nat.zero_add _).symm
  · rw [line_past]
    rfl
  · rw [lineStart_past]
    exact congrArg (Option.getD · 0) (getLast?_terminatorEnds 0 text)

theorem Mark.past_afterLineFeed (before text : List Char) :
    origin.past (before ++ ['\n'] ++ text) =
      (origin.past text).moved (utf8Length before + 1) (linesBefore before) := by
  rw [past_append origin (.of_last_ne (by decide) before text), past_lineFeed, past_moved]

theorem utf8Length_afterLineFeed (before text : List Char) :
    utf8Length (before ++ ['\n'] ++ text) = utf8Length text + (utf8Length before + 1) := by
  rw [utf8Length_append, utf8Length_append, Nat.add_comm]
  rfl

/-- After a line feed a text ends in the same column, as many lines further down as come before. -/
theorem endLocation_afterLineFeed (before text : List Char) :
    endLocation (before ++ ['\n'] ++ text) = (endLocation text).moved (linesBefore before) := by
  rw [endLocation, Mark.past_afterLineFeed, utf8Length_afterLineFeed, Mark.locate_moved,
    endLocation]

end EcmaLexer.Text
