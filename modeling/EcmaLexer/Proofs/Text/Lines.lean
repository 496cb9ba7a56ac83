import EcmaLexer.Proofs.Text.Cut

namespace EcmaLexer.Text

/-- Every terminator ends after the text begins, and not after the text ends. -/
theorem mem_terminatorEnds {offset position : Nat} {text : List Char}
    (hmem : position ∈ terminatorEnds offset text) :
    offset < position ∧ position ≤ offset + utf8Length text := by
  fun_induction terminatorEnds offset text with
  | case1 offset => cases hmem
  | case2 offset text ih =>
    have hwidth : utf8Length ('\r' :: '\n' :: text) = 2 + utf8Length text := by
      rw [utf8Length_cons, utf8Length_cons, ← Nat.add_assoc]
      rfl
    rcases List.mem_cons.mp hmem with heq | hlater
    · omega
    · have hbounds := ih hlater
      omega
  | case3 offset c text hpair next hbreak ih =>
    have hpos := c.utf8Size_pos
    rw [utf8Length_cons]
    rcases List.mem_cons.mp hmem with heq | hlater
    · omega
    · have hbounds := ih hlater
      omega
  | case4 offset c text hpair next hbreak ih =>
    have hpos := c.utf8Size_pos
    have hbounds := ih hmem
    rw [utf8Length_cons]
    omega

theorem Mark.lineStart_le_past {mark : Mark} (hstart : mark.lineStart ≤ mark.offset)
    (text : List Char) :
    mark.lineStart ≤ (mark.past text).lineStart := by
  rw [lineStart_past]
  cases hlast : (terminatorEnds mark.offset text).getLast? with
  | none => exact Nat.le_refl _
  | some position =>
    have hbounds := mem_terminatorEnds (List.mem_of_getLast? hlast)
    simp only [Option.getD_some]
    omega

/-- Of the terminators that a mark passes, the last one ends last. -/
theorem terminatorEnds_le_lineStart {mark : Mark} {text : List Char} {position : Nat}
    (hmem : position ∈ terminatorEnds mark.offset text) :
    position ≤ (mark.past text).lineStart := by
  fun_induction Mark.past mark text with
  | case1 mark => cases hmem
  | case2 mark text ih =>
    rw [terminatorEnds] at hmem
    rcases List.mem_cons.mp hmem with heq | hlater
    · have hstart := (mark.breakLine 2).lineStart_le_past (Nat.le_refl _) text
      rw [heq]
      exact hstart
    · exact ih hlater
  | case3 mark c text hpair hbreak ih =>
    rw [terminatorEnds.eq_3 _ _ _ hpair, if_pos hbreak] at hmem
    rcases List.mem_cons.mp hmem with heq | hlater
    · have hstart := (mark.breakLine c.utf8Size).lineStart_le_past (Nat.le_refl _) text
      rw [heq]
      exact hstart
    · exact ih hlater
  | case4 mark c text hpair hbreak ih =>
    rw [terminatorEnds.eq_3 _ _ _ hpair, if_neg hbreak] at hmem
    exact ih hmem

/-- No line starts after the mark that stands on it. -/
theorem Mark.lineStart_le_offset {mark : Mark} (hstart : mark.lineStart ≤ mark.offset)
    (text : List Char) :
    (mark.past text).lineStart ≤ (mark.past text).offset := by
  rw [lineStart_past, offset_past]
  cases hlast : (terminatorEnds mark.offset text).getLast? with
  | none =>
    rw [Option.getD_none]
    omega
  | some position => exact (mem_terminatorEnds (List.mem_of_getLast? hlast)).2

/-- Where no line ends, a mark only moves on. -/
theorem Mark.past_of_unbroken {text : List Char}
    (hunbroken : ∀ c ∈ text, isLineTerminator c = false) (mark : Mark) :
    mark.past text = mark.advance (utf8Length text) := by
  fun_induction Mark.past mark text with
  | case1 mark => rfl
  | case2 mark text ih => exact absurd (hunbroken '\r' List.mem_cons_self) (by decide)
  | case3 mark c text hpair hbreak ih =>
    exact absurd (hunbroken c List.mem_cons_self) (by simp [hbreak])
  | case4 mark c text hpair hbreak ih =>
    rw [ih fun d hmem => hunbroken d (List.mem_cons_of_mem c hmem), utf8Length_cons]
    simp only [advance, Nat.add_assoc]

/-- A place that no line terminator divides from the mark is on the mark's line. -/
theorem Mark.lineStart_past_append_le {mark : Mark} (hstart : mark.lineStart ≤ mark.offset)
    (left : List Char) {right : List Char} (hunbroken : ∀ c ∈ right, isLineTerminator c = false) :
    (mark.past (left ++ right)).lineStart ≤ mark.offset + utf8Length left := by
  have hcut : CleanCut left right := by
    refine .of_head_ne fun hhead => ?_
    exact absurd (hunbroken '\n' (List.mem_of_mem_head? hhead)) (by decide)
  rw [past_append mark hcut, past_of_unbroken hunbroken, ← offset_past]
  exact lineStart_le_offset hstart left

/-- A text shorter than 2^32 bytes has a line map without wrapped positions. -/
theorem LineMap.laterStarts_ofText {text : List Char} (hlength : utf8Length text < 4294967296) :
    (LineMap.ofText text).laterStarts = terminatorEnds 0 text := by
  have hwords : (terminatorEnds 0 text).map word32 = (terminatorEnds 0 text).map id := by
    apply List.map_congr_left
    intro position hmem
    have hbounds := mem_terminatorEnds hmem
    exact word32_of_lt (by omega)
  rw [LineMap.ofText, hwords, List.map_id]

namespace Mark

/-- The mark stands before `unread`: it has passed the text in front of it, and
    does not divide a carriage return from its line feed. -/
def Reaches (source : List Char) (mark : Mark) (unread : List Char) : Prop :=
  ∃ read, source = read ++ unread ∧ CleanCut read unread ∧ mark = origin.past read

theorem origin_reaches (source : List Char) : origin.Reaches source source :=
  ⟨[], rfl, CleanCut.nil_left _, rfl⟩

/-- A mark that goes on to a clean cut stands there as if it had read everything
    before it at once. -/
theorem Reaches.past {source left right : List Char} {mark : Mark}
    (hreaches : mark.Reaches source (left ++ right)) (hcut : CleanCut left right) :
    (mark.past left).Reaches source right := by
  obtain ⟨read, hsource, hread, hmark⟩ := hreaches
  refine ⟨read ++ left, by rw [hsource, List.append_assoc], ?_, ?_⟩
  · apply CleanCut.append_left _ hcut
    intro hnil
    simpa [hnil] using hread
  · rw [hmark]
    cases left with
    | nil => rw [List.append_nil, Mark.past]
    | cons c rest =>
      refine (past_append origin ?_).symm
      exact fun hlast => hread hlast

theorem Reaches.past_take {source unread : List Char} {mark : Mark} {width : Nat}
    (hreaches : mark.Reaches source unread)
    (hcut : CleanCut (unread.take width) (unread.drop width)) :
    (mark.past (unread.take width)).Reaches source (unread.drop width) := by
  refine Reaches.past ?_ hcut
  rw [List.take_append_drop]
  exact hreaches

theorem Reaches.advance {source rest : List Char} {c : Char} {mark : Mark}
    (hreaches : mark.Reaches source (c :: rest))
    (hc : isLineTerminator c = false) : (mark.advance c.utf8Size).Reaches source rest := by
  have hunbroken : ∀ d ∈ [c], isLineTerminator d = false := by simpa using hc
  have hpast : mark.past [c] = mark.advance c.utf8Size := past_of_unbroken hunbroken mark
  rw [← hpast]
  exact Reaches.past hreaches (.of_unbroken hunbroken)

theorem Reaches.lineStart_le {source unread : List Char} {mark : Mark}
    (hreaches : mark.Reaches source unread) :
    mark.lineStart ≤ mark.offset := by
  obtain ⟨read, -, -, rfl⟩ := hreaches
  exact lineStart_le_offset (Nat.le_refl 0) read

theorem Reaches.dropBytes? {source unread : List Char} {mark : Mark}
    (hreaches : mark.Reaches source unread) : Text.dropBytes? mark.offset source = some unread := by
  obtain ⟨read, hsource, -, hmark⟩ := hreaches
  rw [hmark, offset_past, hsource, show origin.offset = 0 from rfl, Nat.zero_add]
  exact dropBytes?_utf8Length_append read unread

/-- A position between the start of a mark's line and the mark is on that line of
    the map, which starts where the mark says. -/
theorem Reaches.line {source unread : List Char} {mark : Mark} {position : Nat}
    (hreaches : mark.Reaches source unread) (hlength : utf8Length source < 4294967296)
    (hstart : mark.lineStart ≤ position) (hstop : position ≤ mark.offset) :
    (LineMap.ofText source).lineOf position = mark.line ∧
      (LineMap.ofText source).lineStart? mark.line = some mark.lineStart := by
  have hstarts := LineMap.laterStarts_ofText hlength
  obtain ⟨read, rfl, hcut, rfl⟩ := hreaches
  rw [terminatorEnds_append 0 hcut] at hstarts
  have hline : (origin.past read).line = (terminatorEnds 0 read).length := by
    rw [line_past]
    exact Nat.zero_add _
  rw [offset_past, show origin.offset = 0 from rfl] at hstop
  constructor
  · have hbefore : ∀ start ∈ terminatorEnds 0 read, decide (start ≤ position) = true := by
      intro start hmem
      have hle : start ≤ (origin.past read).lineStart := terminatorEnds_le_lineStart hmem
      exact decide_eq_true (by omega)
    have hafter : (terminatorEnds (0 + utf8Length read) unread).takeWhile (· ≤ position) = [] := by
      cases hends : terminatorEnds (0 + utf8Length read) unread with
      | nil => rfl
      | cons first rest =>
        have hbounds : 0 + utf8Length read < first :=
          (mem_terminatorEnds (hends ▸ List.mem_cons_self)).1
        exact List.takeWhile_cons_of_neg (by simp; omega)
    rw [LineMap.lineOf, hstarts, List.takeWhile_append_of_pos hbefore, hafter, List.append_nil,
      hline]
  · have hlast : (0 :: terminatorEnds 0 read)[(terminatorEnds 0 read).length]? =
        (0 :: terminatorEnds 0 read).getLast? := by
      rw [List.getLast?_eq_getElem?]
      rfl
    rw [LineMap.lineStart?, LineMap.starts, hstarts, hline, lineStart_past, ← List.cons_append,
      List.getElem?_append_left (by simp), hlast, List.getLast?_cons]
    rfl

/-- A mark locates every position on its line as the map does. -/
theorem Reaches.locate_eq {source unread : List Char} {mark : Mark} {position : Nat}
    (hreaches : mark.Reaches source unread) (hlength : utf8Length source < 4294967296)
    (hstart : mark.lineStart ≤ position) (hstop : position ≤ mark.offset) :
    mark.locate position = (LineMap.ofText source).locationOf position := by
  obtain ⟨hline, hlineStart⟩ := hreaches.line hlength hstart hstop
  have hread : mark.offset ≤ utf8Length source := by
    obtain ⟨read, hsource, -, hmark⟩ := hreaches
    rw [hmark, offset_past, hsource, utf8Length_append, show origin.offset = 0 from rfl]
    omega
  have hcolumn : word32 (position - mark.lineStart) = position - mark.lineStart :=
    word32_of_lt (by omega)
  rw [LineMap.locationOf, hline, hlineStart, locate, columnOf, hcolumn]
  rfl

end Mark

/-- The place just past a text that nothing comes before. -/
def endLocation (text : List Char) : Location := (Mark.origin.past text).locate (utf8Length text)

/-- The map of a text finds the place past any part of it that ends at a clean cut. -/
theorem LineMap.locationOf_utf8Length {read unread : List Char} (hclean : CleanCut read unread)
    (hlength : utf8Length (read ++ unread) < 4294967296) :
    (LineMap.ofText (read ++ unread)).locationOf (word32 (utf8Length read)) = endLocation read := by
  have hreaches : (Mark.origin.past read).Reaches (read ++ unread) unread :=
    ⟨read, rfl, hclean, rfl⟩
  have hoffset := Mark.offset_origin_past read
  have hstart := hreaches.lineStart_le
  have hread : utf8Length read < 4294967296 := by
    rw [utf8Length_append] at hlength
    omega
  rw [hoffset] at hstart
  rw [word32_of_lt hread, endLocation,
    hreaches.locate_eq hlength hstart (Nat.le_of_eq hoffset.symm)]

/-- A mark further on in the same line locates the place as well. -/
theorem Mark.locate_origin_past {read passed : List Char}
    (hunbroken : ∀ c ∈ passed, isLineTerminator c = false) :
    (Mark.origin.past (read ++ passed)).locate (utf8Length read) = endLocation read := by
  have hcut : CleanCut read passed := by
    refine .of_head_ne fun hhead => ?_
    exact absurd (hunbroken '\n' (List.mem_of_mem_head? hhead)) (by decide)
  rw [past_append origin hcut, past_of_unbroken hunbroken]
  rfl

end EcmaLexer.Text
