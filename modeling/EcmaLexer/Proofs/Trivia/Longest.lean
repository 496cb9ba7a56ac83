import EcmaLexer.Proofs.Trivia.Stopping

namespace EcmaLexer.Trivia

open Text (isLineTerminator)

theorem isLineTerminator_of_isBlank {c : Char} (hc : Character.isBlank c = true) :
    isLineTerminator c = false :=
  Text.isLineTerminator_eq_false Character.isBlank hc (by decide)

theorem Gap.after_after (gap : Gap) (first second : Element) :
    (gap.after second).after first =
      gap.after ⟨first.width + second.width, first.breaksLine || second.breaksLine⟩ := by
  simp only [Gap.after, Nat.add_assoc, Bool.or_assoc]

/-- A character that begins no comment is an element if it is a blank or ends a line. -/
theorem element?_cons {c : Char} (hslash : c ≠ '/') (rest : List Char) :
    element? (c :: rest) =
      if isLineTerminator c then some ⟨1, true⟩
      else if Character.isBlank c then some ⟨1, false⟩
      else none :=
  element?.eq_3 c rest (fun _ hc => absurd hc hslash) (fun _ hc => absurd hc hslash)

theorem lineWidth_append {line rest : List Char} (hline : IsLine line rest) :
    lineWidth (line ++ rest) = line.length := by
  have hall : ∀ c ∈ line, (!isLineTerminator c) = true := by
    intro c hmem
    rw [hline.unbroken c hmem]
    rfl
  have hstop : rest.takeWhile (!isLineTerminator ·) = [] := by
    cases rest with
    | nil => rfl
    | cons c rest => exact List.takeWhile_cons_of_neg (by simp [hline.stops c rfl])
  rw [lineWidth, List.takeWhile_append_of_pos hall, hstop, List.append_nil]

/-- A comment ends at the first closing mark, also where the text before the mark ends with an
    asterisk. -/
theorem commentWidth?_append {body : List Char} (hbody : ¬['*', '/'] <:+: body)
    (rest : List Char) : commentWidth? (body ++ '*' :: '/' :: rest) = some body.length := by
  induction body with
  | nil => rfl
  | cons c body ih =>
    rw [List.infix_cons_iff, not_or] at hbody
    have hopen (tail : List Char) (hc : c = '*')
        (htext : body ++ '*' :: '/' :: rest = '/' :: tail) : False := by
      cases body with
      | nil => cases htext
      | cons d body =>
        rw [List.cons_append] at htext
        rw [hc, (List.cons.inj htext).1] at hbody
        exact hbody.1 ⟨body, rfl⟩
    rw [List.cons_append, commentWidth?.eq_3 _ _ hopen, ih hbody.2]
    rfl

theorem commentWidth?_eq_none_iff {text : List Char} :
    commentWidth? text = none ↔ ¬['*', '/'] <:+: text := by
  fun_induction commentWidth? text with
  | case1 => simp
  | case2 rest =>
    refine iff_of_false (fun hnone => by cases hnone) fun hopen => hopen ?_
    exact List.IsPrefix.isInfix ⟨rest, rfl⟩
  | case3 c rest hclosing ih =>
    have hstarts : ¬['*', '/'] <+: c :: rest := by
      rintro ⟨tail, htail⟩
      obtain ⟨rfl, rfl⟩ := List.cons.inj htail
      exact hclosing tail rfl rfl
    rw [Option.map_eq_none_iff, ih, List.infix_cons_iff, or_iff_right hstarts]

theorem element?_blank {c : Char} (hc : Character.isBlank c = true) (rest : List Char) :
    element? (c :: rest) = some ⟨1, false⟩ := by
  have hslash : c ≠ '/' := by
    rintro rfl
    cases hc
  rw [element?_cons hslash, isLineTerminator_of_isBlank hc, hc]
  rfl

theorem element?_terminator {c : Char} (hc : isLineTerminator c = true) (rest : List Char) :
    element? (c :: rest) = some ⟨1, true⟩ := by
  have hslash : c ≠ '/' := by
    rintro rfl
    cases hc
  rw [element?_cons hslash, hc]
  rfl

/-- A piece of text that is an element is passed over, and then what comes after it. -/
theorem run_piece (piece : List Char) {filler rest : List Char}
    (helement : element? (piece ++ (filler ++ rest)) =
      some ⟨piece.length, piece.any isLineTerminator⟩)
    (hrun : run (filler ++ rest) =
      (run rest).after ⟨filler.length, filler.any isLineTerminator⟩) :
    run (piece ++ filler ++ rest) =
      (run rest).after ⟨(piece ++ filler).length, (piece ++ filler).any isLineTerminator⟩ := by
  rw [List.append_assoc, run_of_element? helement, List.drop_left, hrun, Gap.after_after,
    List.length_append, List.any_append]

/-- Filler is passed over to its end, whatever follows it. -/
theorem Filler.run_append {rest filler : List Char} (hfiller : Filler rest filler) :
    run (filler ++ rest) =
      (run rest).after ⟨filler.length, filler.any isLineTerminator⟩ := by
  induction hfiller with
  | nil => simp [Gap.after]
  | @blank c filler hc hfiller ih =>
    refine run_piece [c] ?_ ih
    rw [List.any_cons, isLineTerminator_of_isBlank hc]
    exact element?_blank hc _
  | @terminator c filler hc hfiller ih =>
    refine run_piece [c] ?_ ih
    rw [List.any_cons, hc]
    exact element?_terminator hc _
  | @lineComment line filler hline hfiller ih =>
    refine run_piece ('/' :: '/' :: line) ?_ ih
    have hunbroken : line.any isLineTerminator = false :=
      List.any_eq_false.mpr fun c hmem => by simp [hline.unbroken c hmem]
    rw [List.cons_append, List.cons_append, element?, lineWidth_append hline, List.any_cons,
      List.any_cons, hunbroken, List.length_cons, List.length_cons, Nat.add_comm 2]
    rfl
  | @blockComment body filler hbody hfiller ih =>
    have hpiece := run_piece ('/' :: '*' :: (body ++ ['*', '/'])) ?_ ih
    · simpa using hpiece
    · have hcloser : ['*', '/'].any isLineTerminator = false := by decide
      simp only [List.cons_append, List.append_assoc, List.nil_append, element?,
        commentWidth?_append hbody, Option.map_some, List.take_left, List.length_cons,
        List.length_append, List.any_cons, List.any_append, hcloser, Bool.or_false]
      rw [Nat.add_comm 2, Nat.add_right_comm]
      rfl

/-- Nothing of a text that begins with a number sign is filler. -/
theorem Filler.eq_nil {filler rest tail : List Char} (hfiller : Filler rest filler)
    (htext : filler ++ rest = '#' :: tail) : filler = [] := by
  cases hfiller with
  | nil => rfl
  | blank hc | terminator hc =>
    rw [(List.cons.inj htext).1] at hc
    cases hc
  | lineComment | blockComment => cases htext

/-- What is skipped is the longest text that may stand before a token: what else may stand there,
    as the first part of the same text, is not longer. -/
theorem IsGap.length_le {hashbang : Bool} {gap rest : List Char} (hgap : IsGap hashbang gap rest) :
    gap.length ≤ (skip hashbang (gap ++ rest)).width := by
  rcases hgap with hfiller | ⟨rfl, line, filler, rfl, hline, hfiller⟩
  · unfold skip
    split
    · next hstarts =>
      obtain ⟨tail, htail⟩ := List.isPrefixOf_iff_prefix.mp (Bool.and_eq_true_iff.mp hstarts).2
      rw [hfiller.eq_nil htail.symm]
      exact Nat.zero_le _
    · rw [hfiller.run_append, Gap.after]
      exact Nat.le_add_right _ _
  · have hwhole : IsLine ('#' :: '!' :: line) (filler ++ rest) := by
      refine ⟨?_, hline.stops⟩
      rw [List.forall_mem_cons, List.forall_mem_cons]
      exact ⟨by decide, by decide, hline.unbroken⟩
    have htext : '#' :: '!' :: (line ++ filler) ++ rest =
        ('#' :: '!' :: line) ++ (filler ++ rest) := by
      simp
    have hstarts : "#!".toList.isPrefixOf ('#' :: '!' :: line ++ (filler ++ rest)) = true :=
      List.isPrefixOf_iff_prefix.mpr ⟨_, rfl⟩
    rw [htext, skip, hstarts, Bool.and_self, if_pos rfl]
    simp only [lineWidth_append hwhole, List.drop_left, hfiller.run_append, Gap.after_after]
    rw [Gap.after]
    simp only [List.length_cons, List.length_append]
    omega

/-- Nothing is skipped before a character that begins a token. -/
theorem skip_of_head {c : Char} {rest : List Char} (hslash : c ≠ '/')
    (hbreak : isLineTerminator c = false) (hblank : Character.isBlank c = false)
    (hline : "#!".toList.isPrefixOf (c :: rest) = false) (hashbang : Bool) :
    skip hashbang (c :: rest) = ⟨0, false, false⟩ := by
  refine skip_zero ?_ ?_ hline hashbang
  · exact opensComment.eq_2 _ fun _ heq => hslash (List.cons.inj heq).1
  · rw [element?_cons hslash, hbreak, hblank]
    rfl

/-- A block comment without an end. -/
def Unclosed (text : List Char) : Prop := ∃ body, text = '/' :: '*' :: body ∧ ¬['*', '/'] <:+: body

theorem unclosed_iff {text : List Char} (helement : element? text = none) :
    opensComment text = true ↔ Unclosed text := by
  constructor
  · intro hopens
    rw [opensComment_eq, List.isPrefixOf_iff_prefix] at hopens
    obtain ⟨body, rfl⟩ := hopens
    exact ⟨body, rfl, commentWidth?_eq_none_iff.mp (Option.map_eq_none_iff.mp helement)⟩
  · rintro ⟨body, rfl, -⟩
    rfl

/-- The gap ends at a comment that is never closed exactly if it says so. -/
theorem skip_unclosed_iff (hashbang : Bool) (text : List Char) :
    (skip hashbang text).unclosed = true ↔ Unclosed (text.drop (skip hashbang text).width) := by
  rw [skip_unclosed, unclosed_iff (element?_drop_skip hashbang text)]

end EcmaLexer.Trivia
