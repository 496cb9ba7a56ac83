import EcmaLexer.Proofs.Text.Lines

namespace EcmaLexer.Text

/-- The text with every line feed, carriage return or pair of the two spelled as a line
    feed. -/
def normLines : List Char → List Char
  | [] => []
  | '\r' :: '\n' :: rest => '\n' :: normLines rest
  | '\r' :: rest => '\n' :: normLines rest
  | c :: rest => c :: normLines rest

theorem normLines_cons {c : Char} (hc : c ≠ '\r') (rest : List Char) :
    normLines (c :: rest) = c :: normLines rest := by
  rw [normLines.eq_4]
  · exact fun _ hreturn => absurd hreturn hc
  · exact fun hreturn => absurd hreturn hc

theorem normLines_cons_of_cleanCut {c : Char} {rest : List Char} (hcut : CleanCut [c] rest) :
    normLines (c :: rest) = (if c = '\r' then '\n' else c) :: normLines rest := by
  split
  · next hreturn =>
    subst hreturn
    rw [normLines.eq_3]
    rintro tail rfl
    exact hcut rfl rfl
  · next hreturn => exact normLines_cons hreturn rest

theorem normLines_append {left right : List Char} (hcut : CleanCut left right) :
    normLines (left ++ right) = normLines left ++ normLines right := by
  fun_induction normLines left with
  | case1 => rfl
  | case2 rest ih =>
    rw [List.cons_append, List.cons_append, normLines, ih hcut.of_cons.of_cons, List.cons_append]
  | case3 rest hpair ih =>
    rw [List.cons_append, normLines.eq_3, ih hcut.of_cons, List.cons_append]
    intro tail htext
    have hfeed := hcut.first_append (fun tail _ hrest => hpair tail hrest)
    rw [htext] at hfeed
    exact hfeed rfl rfl
  | case4 c rest hpair hreturn ih =>
    rw [List.cons_append, normLines_cons hreturn, ih hcut.of_cons, List.cons_append]

theorem normLines_eq_self {text : List Char} (hreturn : ∀ c ∈ text, c ≠ '\r') :
    normLines text = text := by
  induction text with
  | nil => rfl
  | cons c text ih =>
    rw [normLines_cons (hreturn c List.mem_cons_self),
      ih fun d hmem => hreturn d (List.mem_cons_of_mem c hmem)]

theorem normLines_of_unbroken {text : List Char}
    (hunbroken : ∀ c ∈ text, isLineTerminator c = false) : normLines text = text := by
  apply normLines_eq_self
  rintro c hmem rfl
  exact absurd (hunbroken '\r' hmem) (by decide)

/-- What comes before the first terminator stays as it is. -/
theorem normLines_append_of_unbroken {left : List Char}
    (hunbroken : ∀ c ∈ left, isLineTerminator c = false) (right : List Char) :
    normLines (left ++ right) = left ++ normLines right := by
  rw [normLines_append (.of_unbroken hunbroken), normLines_of_unbroken hunbroken]

theorem return_not_mem_normLines (text : List Char) : '\r' ∉ normLines text := by
  fun_induction normLines text with
  | case1 => exact List.not_mem_nil
  | case2 rest ih => simpa using ih
  | case3 rest hpair ih => simpa using ih
  | case4 c rest hpair hreturn ih =>
    intro hmem
    rcases List.mem_cons.mp hmem with heq | hmem
    · exact hreturn heq.symm
    · exact ih hmem

/-- A normalized text may be cut anywhere. -/
theorem cleanCut_normLines (left right : List Char) : CleanCut (normLines left) right :=
  fun hlast => absurd (List.mem_of_getLast? hlast) (return_not_mem_normLines left)

theorem head?_normLines (text : List Char) :
    (normLines text).head? = text.head?.map fun c => if c = '\r' then '\n' else c := by
  fun_cases normLines text with
  | case1 => rfl
  | case2 rest => rfl
  | case3 rest hpair => rfl
  | case4 c rest hpair hreturn =>
    rw [List.head?_cons, List.head?_cons, Option.map_some, if_neg hreturn]

/-- Only a line feed of the normalized text may come from something else. -/
theorem eq_cons_of_normLines {c : Char} {text rest : List Char} (hc : c ≠ '\n')
    (hnormal : normLines text = c :: rest) : ∃ tail, text = c :: tail := by
  have hhead := head?_normLines text
  rw [hnormal, List.head?_cons, eq_comm, Option.map_eq_some_iff] at hhead
  obtain ⟨d, hd, hsame⟩ := hhead
  split at hsame
  · exact absurd hsame.symm hc
  · rw [hsame] at hd
    exact List.head?_eq_some_iff.mp hd

theorem isEmpty_normLines (text : List Char) : (normLines text).isEmpty = text.isEmpty := by
  fun_cases normLines text <;> rfl

theorem normLines_eq_nil_iff {text : List Char} : normLines text = [] ↔ text = [] := by
  rw [← List.isEmpty_iff, isEmpty_normLines, List.isEmpty_iff]

theorem utf8Length_normLines_le (text : List Char) :
    utf8Length (normLines text) ≤ utf8Length text := by
  have hreturn : '\r'.utf8Size = 1 := rfl
  have hfeed : '\n'.utf8Size = 1 := rfl
  fun_induction normLines text with
  | case1 => exact Nat.le_refl _
  | case2 rest ih =>
    simp only [utf8Length_cons]
    omega
  | case3 rest hpair ih =>
    simp only [utf8Length_cons]
    omega
  | case4 c rest hpair hreturn ih =>
    simp only [utf8Length_cons]
    omega

theorem any_isLineTerminator_normLines (text : List Char) :
    (normLines text).any isLineTerminator = text.any isLineTerminator := by
  fun_induction normLines text with
  | case1 => rfl
  | case2 rest ih => rfl
  | case3 rest hpair ih => rfl
  | case4 c rest hpair hreturn ih => rw [List.any_cons, List.any_cons, ih]

/-- Two marks on the same line and column are again so past a text, however each of the two
    spells its line endings. -/
theorem Mark.past_normLines {mark other : Mark} (hline : mark.line = other.line)
    (hcolumn : mark.offset + other.lineStart = other.offset + mark.lineStart)
    (text : List Char) :
    (mark.past (normLines text)).line = (other.past text).line ∧
      (mark.past (normLines text)).offset + (other.past text).lineStart =
        (other.past text).offset + (mark.past (normLines text)).lineStart := by
  have hfeed (mark : Mark) (rest : List Char) :
      mark.past ('\n' :: rest) = (mark.breakLine 1).past rest := rfl
  fun_induction normLines text generalizing mark other with
  | case1 => exact ⟨hline, hcolumn⟩
  | case2 rest ih =>
    rw [hfeed, Mark.past]
    apply ih
    · exact congrArg (· + 1) hline
    · simp only [breakLine]
      omega
  | case3 rest hpair ih =>
    rw [hfeed, Mark.past.eq_3 _ _ _ fun tail _ hrest => hpair tail hrest]
    apply ih
    · exact congrArg (· + 1) hline
    · simp only [breakLine]
      omega
  | case4 c rest hpair hreturn ih =>
    have hother (text tail : List Char) (hc : c = '\r') : text = '\n' :: tail → False :=
      absurd hc hreturn
    rw [Mark.past.eq_3 _ _ _ (hother _), Mark.past.eq_3 _ _ _ (hother _)]
    split
    · apply ih
      · exact congrArg (· + 1) hline
      · simp only [breakLine]
        omega
    · apply ih
      · exact hline
      · simp only [advance]
        omega

/-- The place past a text does not depend on how its line endings are spelled. -/
theorem endLocation_normLines (text : List Char) :
    endLocation (normLines text) = endLocation text := by
  have horigin : Mark.origin.offset + Mark.origin.lineStart =
      Mark.origin.offset + Mark.origin.lineStart := rfl
  obtain ⟨hline, hcolumn⟩ := Mark.past_normLines rfl horigin text
  rw [Mark.offset_origin_past, Mark.offset_origin_past] at hcolumn
  have hcolumns : utf8Length (normLines text) - (Mark.origin.past (normLines text)).lineStart =
      utf8Length text - (Mark.origin.past text).lineStart := by omega
  simp only [endLocation, Mark.locate, Mark.columnOf, hline, hcolumns]

end EcmaLexer.Text
