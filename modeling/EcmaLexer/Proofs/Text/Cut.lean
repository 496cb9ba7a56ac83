import EcmaLexer.Text.Mark

namespace EcmaLexer.Text

theorem eq_of_isLineTerminator {c : Char} (hbreak : isLineTerminator c = true) :
    c = '\n' ∨ c = '\r' ∨ c = '\u2028' ∨ c = '\u2029' := by
  simpa [isLineTerminator, isSeparator, or_assoc] using hbreak

/-- A text may be cut here: the left part does not end with a carriage return
    whose line feed begins the right part. -/
def CleanCut (left right : List Char) : Prop := left.getLast? = some '\r' → right.head? ≠ some '\n'

@[simp] theorem CleanCut.nil_left (right : List Char) : CleanCut [] right := by
  intro hlast
  cases hlast

@[simp] theorem CleanCut.nil_right (left : List Char) : CleanCut left [] := by
  intro _ hhead
  cases hhead

theorem CleanCut.of_head_ne {left right : List Char} (hhead : right.head? ≠ some '\n') :
    CleanCut left right := fun _ => hhead

/-- Only a line terminator can be cut in two, so a text without one ends cleanly. -/
theorem CleanCut.of_unbroken {left right : List Char}
    (hunbroken : ∀ c ∈ left, isLineTerminator c = false) : CleanCut left right := by
  intro hlast
  have hmem := List.mem_of_getLast? hlast
  exact absurd (hunbroken '\r' hmem) (by decide)

theorem CleanCut.of_ne {c : Char} (hc : c ≠ '\r') (right : List Char) : CleanCut [c] right :=
  fun hlast => absurd (Option.some.inj hlast) hc

theorem eq_pair_of_not_cleanCut {c : Char} {right : List Char} (hcut : ¬CleanCut [c] right) :
    c = '\r' ∧ ∃ rest, right = '\n' :: rest := by
  simpa [CleanCut, List.head?_eq_some_iff] using hcut

theorem CleanCut.of_cons {c : Char} {left right : List Char} (hcut : CleanCut (c :: left) right) :
    CleanCut left right := by
  intro hlast
  apply hcut
  rw [List.getLast?_cons, hlast]
  rfl

/-- What comes before the last piece does not matter, unless that piece is empty. -/
theorem CleanCut.append_left {first second right : List Char}
    (hempty : second = [] → CleanCut first right) (hcut : CleanCut second right) :
    CleanCut (first ++ second) right := by
  intro hlast
  rw [List.getLast?_append] at hlast
  cases hsecond : second.getLast? with
  | none =>
    have hnil := List.getLast?_eq_none_iff.mp hsecond
    apply hempty hnil
    simpa [hsecond] using hlast
  | some c =>
    apply hcut
    simpa [hsecond] using hlast

theorem CleanCut.concat {c : Char} {right : List Char} (hcut : CleanCut [c] right)
    (left : List Char) : CleanCut (left ++ [c]) right :=
  .append_left (fun hnil => absurd hnil (List.cons_ne_nil c [])) hcut

theorem CleanCut.of_last_ne {c : Char} (hc : c ≠ '\r') (left right : List Char) :
    CleanCut (left ++ [c]) right :=
  (CleanCut.of_ne hc right).concat left

theorem CleanCut.take {left right : List Char} (hcut : CleanCut left right) (width : Nat) :
    CleanCut left (right.take width) := by
  intro hlast hhead
  apply hcut hlast
  cases right with
  | nil => simp at hhead
  | cons c right =>
    cases width with
    | zero => cases hhead
    | succ width => exact hhead

theorem CleanCut.append_take {left right : List Char} {width : Nat} (hcut : CleanCut left right)
    (hinner : CleanCut (right.take width) (right.drop width)) :
    CleanCut (left ++ right.take width) (right.drop width) := by
  refine .append_left (fun hnil => ?_) hinner
  have hsplit := List.take_append_drop width right
  rw [hnil, List.nil_append] at hsplit
  rw [hsplit]
  exact hcut

/-- A character and the text after it have the terminators of both, unless they
    are the two halves of one. -/
theorem terminatorEnds_cons {c : Char} {text : List Char} (offset : Nat)
    (hcut : CleanCut [c] text) :
    terminatorEnds offset (c :: text) =
      if isLineTerminator c then (offset + c.utf8Size) :: terminatorEnds (offset + c.utf8Size) text
      else terminatorEnds (offset + c.utf8Size) text := by
  rw [terminatorEnds.eq_3]
  intro tail hc htext
  subst hc htext
  exact hcut rfl rfl

theorem CleanCut.first_append {c : Char} {text right : List Char}
    (hcut : CleanCut (c :: text) right)
    (hpair : ∀ tail, c = '\r' → text = '\n' :: tail → False) : CleanCut [c] (text ++ right) := by
  intro hreturn hfeed
  cases text with
  | nil => exact hcut hreturn hfeed
  | cons next tail =>
    simp only [List.getLast?_singleton, Option.some.injEq] at hreturn
    simp only [List.cons_append, List.head?_cons, Option.some.injEq] at hfeed
    exact hpair tail hreturn (by rw [hfeed])

theorem CleanCut.of_not_pair {c : Char} {text : List Char}
    (hpair : ∀ tail, c = '\r' → text = '\n' :: tail → False) : CleanCut [c] text := by
  have hcut := CleanCut.first_append (.nil_right (c :: text)) hpair
  rwa [List.append_nil] at hcut

/-- The terminators of two texts are those of the one and those of the other,
    wherever the cut between them is clean. -/
theorem terminatorEnds_append {left right : List Char} (offset : Nat) (hcut : CleanCut left right) :
    terminatorEnds offset (left ++ right) =
      terminatorEnds offset left ++ terminatorEnds (offset + utf8Length left) right := by
  fun_induction terminatorEnds offset left with
  | case1 offset => rfl
  | case2 offset text ih =>
    rw [List.cons_append, List.cons_append, terminatorEnds, ih hcut.of_cons.of_cons]
    have hwidth : utf8Length ('\r' :: '\n' :: text) = 2 + utf8Length text := by
      rw [utf8Length_cons, utf8Length_cons, ← Nat.add_assoc]
      rfl
    rw [hwidth, List.cons_append, Nat.add_assoc]
  | case3 offset c text hpair next hbreak ih =>
    rw [List.cons_append, terminatorEnds_cons offset (hcut.first_append hpair), if_pos hbreak,
      ih hcut.of_cons, utf8Length_cons, Nat.add_assoc, List.cons_append]
  | case4 offset c text hpair next hbreak ih =>
    rw [List.cons_append, terminatorEnds_cons offset (hcut.first_append hpair), if_neg hbreak,
      ih hcut.of_cons, utf8Length_cons, Nat.add_assoc]

namespace Mark

theorem offset_origin_past (text : List Char) :
    (origin.past text).offset = utf8Length text := by
  rw [offset_past]
  exact Nat.zero_add _

/-- A mark passes as many lines as the text has terminators. -/
theorem line_past (mark : Mark) (text : List Char) :
    (mark.past text).line = mark.line + (terminatorEnds mark.offset text).length := by
  fun_induction past mark text with
  | case1 mark => rfl
  | case2 mark text ih =>
    rw [ih, terminatorEnds, List.length_cons]
    simp only [breakLine]
    omega
  | case3 mark c text hpair hbreak ih =>
    rw [ih, terminatorEnds.eq_3 _ _ _ hpair, if_pos hbreak, List.length_cons]
    simp only [breakLine]
    omega
  | case4 mark c text hpair hbreak ih =>
    rw [ih, terminatorEnds.eq_3 _ _ _ hpair, if_neg hbreak]
    rfl

/-- The line of a mark starts where the last terminator it passed ends. -/
theorem lineStart_past (mark : Mark) (text : List Char) :
    (mark.past text).lineStart = (terminatorEnds mark.offset text).getLast?.getD mark.lineStart := by
  fun_induction past mark text with
  | case1 mark => rfl
  | case2 mark text ih =>
    rw [ih, terminatorEnds, List.getLast?_cons]
    rfl
  | case3 mark c text hpair hbreak ih =>
    rw [ih, terminatorEnds.eq_3 _ _ _ hpair, if_pos hbreak, List.getLast?_cons]
    rfl
  | case4 mark c text hpair hbreak ih =>
    rw [ih, terminatorEnds.eq_3 _ _ _ hpair, if_neg hbreak]
    rfl

attribute [ext] Mark

/-- The mark past two texts is reached one text after the other, wherever the cut
    between them is clean. -/
theorem past_append {left right : List Char} (mark : Mark) (hcut : CleanCut left right) :
    mark.past (left ++ right) = (mark.past left).past right := by
  apply Mark.ext
  · rw [offset_past, offset_past, offset_past, utf8Length_append, Nat.add_assoc]
  · rw [line_past, line_past, line_past, offset_past, terminatorEnds_append _ hcut,
      List.length_append, Nat.add_assoc]
  · rw [lineStart_past, lineStart_past, lineStart_past, offset_past, terminatorEnds_append _ hcut,
      List.getLast?_append]
    cases (terminatorEnds (mark.offset + utf8Length left) right).getLast? <;> rfl

end Mark

end EcmaLexer.Text
