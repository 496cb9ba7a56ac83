import EcmaLexer.Proofs.Lexeme.Escape
import EcmaLexer.Proofs.Trivia

namespace EcmaLexer.Trivia

open Text (isLineTerminator)

/-- The rest of a line: no terminator is in it, and if anything follows it, a terminator
    does. -/
structure IsLine (line rest : List Char) : Prop where
  unbroken : ∀ c ∈ line, isLineTerminator c = false
  stops : ∀ c, rest.head? = some c → isLineTerminator c = true

/-- A text of nothing but blanks, line terminators and comments, when `rest` follows it. A
    line comment goes on to the end of its line, and a block comment to the first `*/`
    after its opening. -/
inductive Filler (rest : List Char) : List Char → Prop where
  | nil : Filler rest []
  | blank {c : Char} {filler : List Char} (hc : Character.isBlank c = true)
      (hfiller : Filler rest filler) : Filler rest (c :: filler)
  | terminator {c : Char} {filler : List Char} (hc : isLineTerminator c = true)
      (hfiller : Filler rest filler) : Filler rest (c :: filler)
  | lineComment {line filler : List Char} (hline : IsLine line (filler ++ rest))
      (hfiller : Filler rest filler) : Filler rest ('/' :: '/' :: (line ++ filler))
  | blockComment {body filler : List Char} (hbody : ¬ ['*', '/'] <:+: body)
      (hfiller : Filler rest filler) :
      Filler rest ('/' :: '*' :: (body ++ '*' :: '/' :: filler))

/-- What may stand before a token: filler, which a hashbang line may come before if the
    text begins here and the options say so. -/
def IsGap (hashbang : Bool) (gap rest : List Char) : Prop :=
  Filler rest gap ∨
    hashbang = true ∧ ∃ line filler, gap = '#' :: '!' :: (line ++ filler) ∧
      IsLine line (filler ++ rest) ∧ Filler rest filler

theorem isLine_takeWhile (text : List Char) :
    IsLine (text.takeWhile (!isLineTerminator ·)) (text.dropWhile (!isLineTerminator ·)) where
  unbroken := by
    intro c hmem
    simpa using List.all_eq_true.mp List.all_takeWhile c hmem
  stops := by
    intro c hhead
    cases hdrop : text.dropWhile (!isLineTerminator ·) with
    | nil => simp [hdrop] at hhead
    | cons d rest =>
      have hstop := List.head?_dropWhile_not (fun c => !isLineTerminator c) text
      rw [hhead] at hstop
      simpa using hstop

/-- The width of a comment is that of the text before the first `*/`. -/
theorem commentWidth?_eq_some {text : List Char} {width : Nat}
    (hwidth : commentWidth? text = some width) :
    ∃ body rest, text = body ++ '*' :: '/' :: rest ∧ body.length = width ∧
      ¬ ['*', '/'] <:+: body := by
  fun_induction commentWidth? text generalizing width with
  | case1 => cases hwidth
  | case2 rest =>
    cases hwidth
    exact ⟨[], rest, rfl, rfl, by simp⟩
  | case3 c text hopen ih =>
    obtain ⟨found, hfound, rfl⟩ := Option.map_eq_some_iff.mp hwidth
    obtain ⟨body, rest, htext, hlength, hbody⟩ := ih hfound
    refine ⟨c :: body, rest, by rw [htext, List.cons_append], by rw [← hlength]; rfl, ?_⟩
    rw [List.infix_cons_iff]
    rintro (hstarts | hinfix)
    · obtain ⟨hc, hslash⟩ := List.cons_prefix_cons.mp hstarts
      obtain ⟨tail, rfl⟩ := hslash
      exact hopen (tail ++ '*' :: '/' :: rest) hc.symm htext
    · exact hbody hinfix

/-- A block comment goes on to the end of its closing mark. -/
theorem take_blockComment (body after : List Char) :
    ('/' :: '*' :: (body ++ '*' :: '/' :: after)).take (2 + body.length + 2) =
      '/' :: '*' :: (body ++ ['*', '/']) := by
  rw [Nat.add_assoc, Nat.add_comm 2, List.take_succ_cons, List.take_succ_cons,
    List.take_length_add_append]
  rfl

/-- One blank, terminator or comment before filler makes filler again. -/
theorem Filler.of_element {text filler rest : List Char} {element : Element}
    (helement : element? text = some element) (hdrop : text.drop element.width = filler ++ rest)
    (hfiller : Filler rest filler) : Filler rest (text.take element.width ++ filler) := by
  revert hdrop helement
  fun_cases element? text with
  | case1 text =>
    rintro ⟨rfl⟩ hdrop
    have htake : ('/' :: '/' :: text).take (2 + lineWidth text) =
        '/' :: '/' :: text.takeWhile (!isLineTerminator ·) := by
      rw [Nat.add_comm, List.take_succ_cons, List.take_succ_cons, lineWidth,
        Escape.take_length_takeWhile]
    have hline := isLine_takeWhile text
    rw [Nat.add_comm, List.drop_succ_cons, List.drop_succ_cons, lineWidth,
      Escape.drop_length_takeWhile] at hdrop
    rw [hdrop] at hline
    rw [htake]
    exact .lineComment hline hfiller
  | case2 text =>
    intro helement hdrop
    obtain ⟨width, hwidth, rfl⟩ := Option.map_eq_some_iff.mp helement
    obtain ⟨body, after, rfl, rfl, hbody⟩ := commentWidth?_eq_some hwidth
    rw [take_blockComment]
    simpa using Filler.blockComment hbody hfiller
  | case3 c text hcomment hblock hc =>
    rintro ⟨rfl⟩ hdrop
    exact .terminator hc hfiller
  | case4 c text hcomment hblock hbreak hc =>
    rintro ⟨rfl⟩ hdrop
    exact .blank hc hfiller
  | case5 => rintro ⟨⟩
  | case6 => rintro ⟨⟩

theorem run_filler (text : List Char) :
    Filler (text.drop (run text).width) (text.take (run text).width) := by
  fun_induction run text with
  | case1 text element helement ih =>
    have hsplit := (List.take_append_drop (run (text.drop element.width)).width
      (text.drop element.width)).symm
    have hfiller := Filler.of_element helement hsplit ih
    rw [List.drop_drop, ← List.take_add] at hfiller
    exact hfiller
  | case2 text helement => exact .nil

/-- What is skipped before a token may stand there. -/
theorem skip_isGap (hashbang : Bool) (text : List Char) :
    IsGap hashbang (text.take (skip hashbang text).width)
      (text.drop (skip hashbang text).width) := by
  fun_cases skip hashbang text with
  | case1 hline width =>
    obtain ⟨hhashbang, hstarts⟩ := Bool.and_eq_true_iff.mp hline
    obtain ⟨rest, rfl⟩ := List.isPrefixOf_iff_prefix.mp hstarts
    have hwidth : width = (rest.takeWhile (!isLineTerminator ·)).length + 2 := rfl
    have hline := isLine_takeWhile rest
    have hfiller := run_filler (rest.dropWhile (!isLineTerminator ·))
    have hdrop : ("#!".toList ++ rest).drop width = rest.dropWhile (!isLineTerminator ·) := by
      rw [hwidth, ← Escape.drop_length_takeWhile]
      rfl
    have htake : ("#!".toList ++ rest).take width =
        '#' :: '!' :: rest.takeWhile (!isLineTerminator ·) := by
      have hline := Escape.take_length_takeWhile (!isLineTerminator ·) rest
      rw [hwidth]
      exact congrArg ('#' :: '!' :: ·) hline
    rw [hdrop, Gap.after, List.take_add, ← List.drop_drop, htake, hdrop]
    refine .inr ⟨hhashbang, _, _, rfl, ?_, hfiller⟩
    rw [List.take_append_drop]
    exact hline
  | case2 hline => exact .inl (run_filler text)

theorem any_isLineTerminator_line (text : List Char) :
    (text.takeWhile (!isLineTerminator ·)).any isLineTerminator = false := by
  rw [List.any_eq_false]
  intro c hmem
  simp [(isLine_takeWhile text).unbroken c hmem]

/-- An element ends a line exactly if a line terminator is in it. -/
theorem element?_breaksLine {text : List Char} {element : Element}
    (helement : element? text = some element) :
    element.breaksLine = (text.take element.width).any isLineTerminator := by
  revert helement
  fun_cases element? text with
  | case1 rest =>
    rintro ⟨rfl⟩
    rw [Nat.add_comm, List.take_succ_cons, List.take_succ_cons, lineWidth,
      Escape.take_length_takeWhile, List.any_cons, List.any_cons, any_isLineTerminator_line]
    rfl
  | case2 rest =>
    intro helement
    obtain ⟨width, hwidth, rfl⟩ := Option.map_eq_some_iff.mp helement
    obtain ⟨body, after, rfl, rfl, -⟩ := commentWidth?_eq_some hwidth
    have hcloser : ['*', '/'].any isLineTerminator = false := by decide
    rw [take_blockComment, List.take_left, List.any_cons, List.any_cons, List.any_append, hcloser,
      Bool.or_false]
    rfl
  | case3 c rest hcomment hblock hc =>
    rintro ⟨rfl⟩
    simp [hc]
  | case4 c rest hcomment hblock hc hblank =>
    rintro ⟨rfl⟩
    simp [hc]
  | case5 => rintro ⟨⟩
  | case6 => rintro ⟨⟩

theorem run_breaksLine (text : List Char) :
    (run text).breaksLine = (text.take (run text).width).any isLineTerminator := by
  fun_induction run text with
  | case1 text element helement ih =>
    rw [Gap.after, List.take_add, List.any_append, ← ih, ← element?_breaksLine helement]
  | case2 text helement => rfl

/-- A line ends before a token exactly if a line terminator is in the gap. -/
theorem skip_breaksLine (hashbang : Bool) (text : List Char) :
    (skip hashbang text).breaksLine =
      (text.take (skip hashbang text).width).any isLineTerminator := by
  fun_cases skip hashbang text with
  | case1 hline width =>
    have hfirst : (text.take width).any isLineTerminator = false := by
      have hwidth : width = lineWidth text := rfl
      rw [hwidth, lineWidth, Escape.take_length_takeWhile, any_isLineTerminator_line]
    rw [Gap.after, List.take_add, List.any_append, hfirst, ← run_breaksLine]
  | case2 hline => exact run_breaksLine text

end EcmaLexer.Trivia
