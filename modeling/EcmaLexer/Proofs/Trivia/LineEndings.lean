import EcmaLexer.Proofs.Lexeme.LineEndings

namespace EcmaLexer

open Text (CleanCut isLineTerminator normLines normLines_append normLines_cons
  normLines_cons_of_cleanCut)

/-- A text without stops stands at the head of both texts or of none. -/
theorem Text.isPrefixOf_normLines {pattern : List Char} (hpattern : StopFree pattern)
    (text : List Char) : pattern.isPrefixOf (normLines text) = pattern.isPrefixOf text := by
  obtain ⟨line, right, rfl, hline, hright, hnormalized⟩ := exists_line text
  rw [hline, hnormalized.isPrefixOf_append hpattern, hright.isPrefixOf_append hpattern]

theorem Text.takeWhile_normLines (text : List Char) :
    (normLines text).takeWhile (!isLineTerminator ·) = text.takeWhile (!isLineTerminator ·) := by
  fun_induction normLines text with
  | case1 => rfl
  | case2 rest ih => rfl
  | case3 rest hpair ih => rfl
  | case4 c rest hpair hreturn ih => rw [List.takeWhile_cons, List.takeWhile_cons, ih]

namespace Trivia

theorem lineWidth_normLines (text : List Char) : lineWidth (normLines text) = lineWidth text := by
  rw [lineWidth, Text.takeWhile_normLines, lineWidth]

theorem take_lineWidth_unbroken (text : List Char) :
    ∀ c ∈ text.take (lineWidth text), isLineTerminator c = false := by
  rw [lineWidth, Escape.take_length_takeWhile]
  exact (isLine_takeWhile text).unbroken

theorem length_take_lineWidth (text : List Char) :
    (normLines (text.take (lineWidth text))).length = lineWidth text := by
  rw [Text.normLines_of_unbroken (take_lineWidth_unbroken text), lineWidth,
    Escape.take_length_takeWhile]

/-- A comment ends at the same place of both texts. -/
theorem commentWidth?_normLines (text : List Char) :
    commentWidth? (normLines text) =
      (commentWidth? text).map fun width => (normLines (text.take width)).length := by
  fun_induction commentWidth? text with
  | case1 => rfl
  | case2 rest =>
    rw [normLines_cons (by decide), normLines_cons (by decide)]
    rfl
  | case3 c rest hopen ih =>
    by_cases hcut : CleanCut [c] rest
    · have hclosed : ∀ tail, (if c = '\r' then '\n' else c) = '*' →
          normLines rest = '/' :: tail → False := by
        intro tail hstar hslash
        obtain ⟨tail, hrest⟩ := Text.eq_cons_of_normLines (by decide) hslash
        split at hstar
        · cases hstar
        · exact hopen tail hstar hrest
      rw [normLines_cons_of_cleanCut hcut, commentWidth?.eq_3 _ _ hclosed, ih, Option.map_map,
        Option.map_map]
      congr 1
      funext width
      have hcons := normLines_cons_of_cleanCut (hcut.take width)
      simp only [Function.comp_apply, List.take_succ_cons, hcons, List.length_cons]
    · obtain ⟨rfl, tail, rfl⟩ := Text.eq_pair_of_not_cleanCut hcut
      have hfeed : commentWidth? ('\n' :: tail) = (commentWidth? tail).map (· + 1) := rfl
      rw [normLines, ← normLines_cons (by decide), ih, hfeed, Option.map_map, Option.map_map,
        Option.map_map]
      rfl

theorem element?_of_isLineTerminator {c : Char} (hbreak : isLineTerminator c = true)
    (rest : List Char) : element? (c :: rest) = some ⟨1, true⟩ := by
  rcases Text.eq_of_isLineTerminator hbreak with rfl | rfl | rfl | rfl <;> rfl

/-- The same element of the normalized text. -/
def Element.normalized (text : List Char) (element : Element) : Element :=
  { element with width := (normLines (text.take element.width)).length }

theorem element?_normLines (text : List Char) :
    element? (normLines text) = (element? text).map (Element.normalized text) := by
  have hother {c d : Char} {rest : List Char} (hd : d ≠ '\n')
      (hnone : ∀ tail, c = '/' → rest = d :: tail → False) :
      ∀ tail, c = '/' → normLines rest = d :: tail → False := by
    intro tail hc hnormal
    obtain ⟨tail, hrest⟩ := Text.eq_cons_of_normLines hd hnormal
    exact hnone tail hc hrest
  have hreturn {c : Char} (hbreak : ¬isLineTerminator c = true) : c ≠ '\r' := by
    rintro rfl
    exact hbreak rfl
  fun_cases element? text with
  | case1 rest =>
    have hlength : (normLines (('/' :: '/' :: rest).take (2 + lineWidth rest))).length =
        2 + lineWidth rest := by
      rw [Nat.add_comm, List.take_succ_cons, List.take_succ_cons, normLines_cons (by decide),
        normLines_cons (by decide), List.length_cons, List.length_cons, length_take_lineWidth]
    rw [normLines_cons (by decide), normLines_cons (by decide), element?, lineWidth_normLines,
      Option.map_some, Element.normalized, hlength]
  | case2 rest =>
    rw [normLines_cons (by decide), normLines_cons (by decide), element?, commentWidth?_normLines]
    cases hwidth : commentWidth? rest with
    | none => rfl
    | some width =>
      obtain ⟨body, after, rfl, rfl, -⟩ := commentWidth?_eq_some hwidth
      have hcut : CleanCut body ('*' :: '/' :: after) := .of_head_ne nofun
      have hlength : (normLines (('/' :: '*' :: (body ++ '*' :: '/' :: after)).take
          (2 + body.length + 2))).length = 2 + (normLines body).length + 2 := by
        rw [Nat.add_assoc, Nat.add_comm 2, List.take_succ_cons, List.take_succ_cons,
          List.take_length_add_append, normLines_cons (by decide), normLines_cons (by decide),
          normLines_append (hcut.take 2)]
        have hclose : (normLines (('*' :: '/' :: after).take 2)).length = 2 := rfl
        simp only [List.length_cons, List.length_append, hclose]
        omega
      simp only [Option.map_some, Element.normalized, hlength, normLines_append hcut,
        List.take_left, Text.any_isLineTerminator_normLines]
  | case3 c rest hcomment hblock hbreak =>
    have hwidth : (normLines [c]).length = 1 := by
      rw [normLines_cons_of_cleanCut (.nil_right _)]
      rfl
    obtain ⟨d, tail, hnormal, hd⟩ : ∃ d tail, normLines (c :: rest) = d :: tail ∧
        isLineTerminator d = true := by
      rcases Text.eq_of_isLineTerminator hbreak with rfl | rfl | rfl | rfl
      · exact ⟨'\n', _, normLines_cons (by decide) rest, rfl⟩
      · obtain ⟨tail, hnormal⟩ := List.head?_eq_some_iff.mp (Text.head?_normLines ('\r' :: rest))
        exact ⟨'\n', tail, hnormal, rfl⟩
      · exact ⟨'\u2028', _, normLines_cons (by decide) rest, rfl⟩
      · exact ⟨'\u2029', _, normLines_cons (by decide) rest, rfl⟩
    rw [hnormal, element?_of_isLineTerminator hd, Option.map_some, Element.normalized,
      List.take_succ_cons, List.take_zero, hwidth]
  | case4 c rest hcomment hblock hbreak hblank =>
    have hne := hreturn hbreak
    rw [normLines_cons hne,
      element?.eq_3 _ _ (hother (by decide) hcomment) (hother (by decide) hblock), if_neg hbreak,
      if_pos hblank, Option.map_some, Element.normalized, List.take_succ_cons, List.take_zero,
      normLines_cons hne]
    rfl
  | case5 c rest hcomment hblock hbreak hblank =>
    rw [normLines_cons (hreturn hbreak),
      element?.eq_3 _ _ (hother (by decide) hcomment) (hother (by decide) hblock), if_neg hbreak,
      if_neg hblank]
    rfl
  | case6 => rfl

/-- Only a line feed may be left behind by the carriage return before it. -/
theorem element?_cleanCut {text : List Char} {element : Element}
    (helement : element? text = some element) :
    CleanCut (text.take element.width) (text.drop element.width) ∨
      ∃ rest, text = '\r' :: '\n' :: rest := by
  revert helement
  fun_cases element? text with
  | case1 rest =>
    rintro ⟨rfl⟩
    refine .inl (.of_unbroken ?_)
    rw [Nat.add_comm, List.take_succ_cons, List.take_succ_cons]
    intro c hmem
    rcases List.mem_cons.mp hmem with rfl | hmem
    · decide
    rcases List.mem_cons.mp hmem with rfl | hmem
    · decide
    · exact take_lineWidth_unbroken rest c hmem
  | case2 rest =>
    intro helement
    obtain ⟨width, hwidth, rfl⟩ := Option.map_eq_some_iff.mp helement
    obtain ⟨body, after, rfl, rfl, -⟩ := commentWidth?_eq_some hwidth
    have htake : ('/' :: '*' :: (body ++ '*' :: '/' :: after)).take (2 + body.length + 2) =
        ('/' :: '*' :: body ++ ['*']) ++ ['/'] := by
      rw [Nat.add_assoc, Nat.add_comm 2, List.take_succ_cons, List.take_succ_cons,
        List.take_length_add_append]
      simp
    rw [htake]
    exact .inl (.of_last_ne (by decide) _ _)
  | case3 c rest hcomment hblock hbreak =>
    rintro ⟨rfl⟩
    by_cases hcut : CleanCut [c] rest
    · exact .inl hcut
    · obtain ⟨rfl, tail, rfl⟩ := Text.eq_pair_of_not_cleanCut hcut
      exact .inr ⟨tail, rfl⟩
  | case4 c rest hcomment hblock hbreak hblank =>
    rintro ⟨rfl⟩
    refine .inl (.of_ne ?_ rest)
    rintro rfl
    exact hbreak rfl
  | case5 => rintro ⟨⟩
  | case6 => rintro ⟨⟩

/-- The same gap of the normalized text. -/
def Gap.normalized (text : List Char) (gap : Gap) : Gap :=
  { gap with width := (normLines (text.take gap.width)).length }

theorem Gap.normalized_after {text : List Char} {element : Element}
    (hcut : CleanCut (text.take element.width) (text.drop element.width)) (gap : Gap) :
    (gap.after element).normalized text =
      (gap.normalized (text.drop element.width)).after (element.normalized text) := by
  simp only [normalized, after, Element.normalized, List.take_add, normLines_append (hcut.take _),
    List.length_append]

theorem opensComment_normLines (text : List Char) :
    opensComment (normLines text) = opensComment text := by
  rw [opensComment_eq, opensComment_eq, Text.isPrefixOf_normLines (by decide)]

/-- The gap goes on past the whole pair of carriage return and line feed. -/
theorem run_normLines (text : List Char) : run (normLines text) = (run text).normalized text := by
  fun_induction run text with
  | case1 text element helement ih =>
    have hnormal := element?_normLines text
    rw [helement, Option.map_some] at hnormal
    rcases element?_cleanCut helement with hcut | ⟨tail, rfl⟩
    · rw [run_of_element? hnormal, Gap.normalized_after hcut, ← ih, ← (Text.split_normLines hcut).2]
      rfl
    · cases helement
      have hfeed : run (('\r' :: '\n' :: tail).drop 1) = (run tail).after ⟨1, true⟩ :=
        run_of_element? rfl
      rw [hfeed] at ih ⊢
      rw [normLines, ← normLines_cons (by decide)]
      refine ih.trans ?_
      simp only [Gap.normalized, Gap.after, Nat.add_comm 1, List.take_succ_cons, normLines]
      rfl
  | case2 text helement =>
    have hnormal := element?_normLines text
    rw [helement, Option.map_none] at hnormal
    rw [run_of_element?_eq_none hnormal, opensComment_normLines]
    rfl

/-- The gap before a token is the same in both texts. -/
theorem skip_normLines (hashbang : Bool) (text : List Char) :
    skip hashbang (normLines text) = (skip hashbang text).normalized text := by
  have hstarts : "#!".toList.isPrefixOf (normLines text) = "#!".toList.isPrefixOf text :=
    Text.isPrefixOf_normLines (by decide) text
  fun_cases skip hashbang text with
  | case1 hline width =>
    have hcut : CleanCut (text.take width) (text.drop width) :=
      .of_unbroken (take_lineWidth_unbroken text)
    have hwidth : (normLines (text.take width)).length = width := length_take_lineWidth text
    have hdrop := (Text.split_normLines hcut).2
    rw [hwidth] at hdrop
    rw [skip, hstarts, if_pos hline, lineWidth_normLines, Gap.normalized_after hcut,
      Element.normalized, hwidth, ← run_normLines, ← hdrop]
  | case2 hline => rw [skip, hstarts, if_neg hline, run_normLines]

end Trivia

end EcmaLexer
