import EcmaLexer.Proofs.Lexeme.Settling
import EcmaLexer.Proofs.Trivia.Filler

namespace EcmaLexer

open Text (Stopped)

theorem Text.isPrefixOf_of_take {pattern text : List Char} {count : Nat}
    (hstarts : pattern.isPrefixOf (text.take count) = true) : pattern.isPrefixOf text = true := by
  rw [List.isPrefixOf_iff_prefix] at hstarts ⊢
  exact hstarts.trans (List.take_prefix count text)

namespace Trivia

/-- No comment begins where a stop comes after the first part of a text. -/
theorem opensComment_of_take {text right : List Char} (hstopped : Stopped right)
    (hopens : opensComment text = false) (count : Nat) :
    opensComment (text.take count ++ right) = false := by
  rw [opensComment_eq] at hopens ⊢
  rw [hstopped.isPrefixOf_append (by decide), Bool.eq_false_iff]
  intro hstarts
  exact Bool.eq_false_iff.mp hopens (Text.isPrefixOf_of_take hstarts)

theorem element?_of_take {text right : List Char} (hstopped : Stopped right)
    (hopens : opensComment text = false) (helement : element? text = none) {count : Nat}
    (hne : text.take count ≠ []) : element? (text.take count ++ right) = none := by
  revert helement
  fun_cases element? text with
  | case1 => rintro ⟨⟩
  | case2 => cases hopens
  | case3 => rintro ⟨⟩
  | case4 => rintro ⟨⟩
  | case5 c rest hcomment hblock hbreak hblank =>
    intro _
    cases count with
    | zero => exact absurd rfl hne
    | succ count =>
      have hnext {d : Char} (hd : Text.StopFree [d])
          (hnone : ∀ tail, c = '/' → rest = d :: tail → False) :
          ∀ tail, c = '/' → rest.take count ++ right = d :: tail → False := by
        intro tail hc htext
        obtain ⟨tail, htake⟩ := hstopped.prefix_left [d] hd htext
        have hhead : (rest.take count).head? = some d := by rw [htake]; rfl
        obtain ⟨tail, hrest⟩ := List.head?_eq_some_iff.mp (Text.head?_of_take hhead)
        exact hnone tail hc hrest
      rw [List.take_succ_cons, List.cons_append,
        element?.eq_3 _ _ (hnext (by decide) hcomment) (hnext (by decide) hblock), if_neg hbreak,
        if_neg hblank]
  | case6 => exact absurd List.take_nil hne

/-- Nothing is skipped where something else than filler comes first. -/
theorem skip_zero {text : List Char} (hopens : opensComment text = false)
    (helement : element? text = none) (hline : "#!".toList.isPrefixOf text = false)
    (hashbang : Bool) : skip hashbang text = ⟨0, false, false⟩ := by
  rw [skip, hline, Bool.and_false, run_of_element?_eq_none helement, hopens]
  rfl

/-- Only the space is skipped before it. -/
theorem skip_space {text : List Char} (hopens : opensComment text = false)
    (helement : element? text = none) (hashbang : Bool) :
    skip hashbang (' ' :: text) = ⟨1, false, false⟩ := by
  have hspace : element? (' ' :: text) = some ⟨1, false⟩ := rfl
  have hline : "#!".toList.isPrefixOf (' ' :: text) = false := rfl
  rw [skip, hline, Bool.and_false, run_of_element? hspace, List.drop_succ_cons, List.drop_zero,
    run_of_element?_eq_none helement, hopens]
  rfl

theorem lineWidth_le (text : List Char) : lineWidth text ≤ text.length :=
  (List.takeWhile_prefix _).length_le

/-- A line does not go on past a line feed. -/
theorem lineWidth_joined (text later : List Char) :
    lineWidth (text ++ '\n' :: later) = lineWidth text := by
  rw [lineWidth, lineWidth, List.takeWhile_append]
  split
  · next hlength => simpa [Text.isLineTerminator] using hlength.symm
  · rfl

theorem commentWidth?_joined {text : List Char} {width : Nat}
    (hwidth : commentWidth? text = some width) (right : List Char) :
    commentWidth? (text ++ right) = some width := by
  fun_induction commentWidth? text generalizing width with
  | case1 => cases hwidth
  | case2 rest => exact hwidth
  | case3 c rest hopen ih =>
    obtain ⟨found, hfound, rfl⟩ := Option.map_eq_some_iff.mp hwidth
    rw [List.cons_append, commentWidth?.eq_3, ih hfound]
    · rfl
    · intro tail hstar hslash
      cases rest with
      | nil => cases hfound
      | cons d rest =>
        cases hslash
        exact hopen rest hstar rfl

theorem element?_width_le {text : List Char} {element : Element}
    (helement : element? text = some element) : element.width ≤ text.length := by
  revert helement
  fun_cases element? text with
  | case1 rest =>
    rintro ⟨rfl⟩
    have hline := lineWidth_le rest
    simp only [List.length_cons]
    omega
  | case2 rest =>
    intro helement
    obtain ⟨width, hwidth, rfl⟩ := Option.map_eq_some_iff.mp helement
    obtain ⟨body, after, rfl, rfl, -⟩ := commentWidth?_eq_some hwidth
    simp only [List.length_cons, List.length_append]
    omega
  | case3 c rest | case4 c rest =>
    rintro ⟨rfl⟩
    exact Nat.succ_le_succ (Nat.zero_le _)
  | case5 => rintro ⟨⟩
  | case6 => rintro ⟨⟩

/-- What is skipped before the end of a text is skipped as well where a line feed comes next. -/
theorem element?_joined {text : List Char} {element : Element}
    (helement : element? text = some element) (later : List Char) :
    element? (text ++ '\n' :: later) = some element := by
  revert helement
  fun_cases element? text with
  | case1 rest =>
    intro helement
    rw [← helement, List.cons_append, List.cons_append, element?, lineWidth_joined]
  | case2 rest =>
    intro helement
    obtain ⟨width, hwidth, rfl⟩ := Option.map_eq_some_iff.mp helement
    have hbody := commentWidth?_joined hwidth ('\n' :: later)
    obtain ⟨body, after, rfl, rfl, -⟩ := commentWidth?_eq_some hwidth
    rw [List.cons_append, List.cons_append, element?, hbody, List.append_assoc, Option.map_some,
      List.take_left, List.take_left]
  | case3 c rest hcomment hblock hbreak =>
    intro helement
    have hslash : c ≠ '/' := by
      rintro rfl
      exact absurd hbreak (by decide)
    rw [List.cons_append, element?.eq_3 _ _ (fun _ hc => absurd hc hslash)
      (fun _ hc => absurd hc hslash), if_pos hbreak, helement]
  | case4 c rest hcomment hblock hbreak hblank =>
    intro helement
    have hslash : c ≠ '/' := by
      rintro rfl
      exact absurd hblank (by decide)
    rw [List.cons_append, element?.eq_3 _ _ (fun _ hc => absurd hc hslash)
      (fun _ hc => absurd hc hslash), if_neg hbreak, if_pos hblank, helement]
  | case5 => rintro ⟨⟩
  | case6 => rintro ⟨⟩

theorem drop_element {text : List Char} {element : Element}
    (helement : element? text = some element) (right : List Char) :
    (text ++ right).drop element.width = text.drop element.width ++ right :=
  List.drop_append_of_le_length (element?_width_le helement)

/-- Where a token comes after the filler, what follows the token does not matter. -/
theorem run_joined {text : List Char} (hne : text.drop (run text).width ≠ [])
    (hopens : opensComment (text.drop (run text).width) = false) (later : List Char) :
    run (text ++ '\n' :: later) = run text := by
  have hstopped : Stopped ('\n' :: later) := .cons (by decide) later
  fun_induction run text with
  | case1 text element helement ih =>
    rw [Gap.after, ← List.drop_drop] at hne hopens
    rw [run_of_element? (element?_joined helement later), drop_element helement, ih hne hopens]
  | case2 text helement =>
    rw [List.drop_zero] at hne hopens
    have hwhole : text.take text.length ≠ [] := by rwa [List.take_length]
    have hclosed := opensComment_of_take hstopped hopens text.length
    have hnone := element?_of_take hstopped hopens helement hwhole
    rw [List.take_length] at hnone hclosed
    rw [run_of_element?_eq_none hnone, hclosed, hopens]

/-- Where nothing comes after the filler, the gap goes on to the next token after the line feed. -/
theorem run_joined_end {text : List Char} (hend : text.drop (run text).width = [])
    (later : List Char) :
    run (text ++ '\n' :: later) = (run later).after ⟨text.length + 1, true⟩ := by
  fun_induction run text with
  | case1 text element helement ih =>
    rw [Gap.after, ← List.drop_drop] at hend
    have hwidth := element?_width_le helement
    rw [run_of_element? (element?_joined helement later), drop_element helement, ih hend]
    simp only [Gap.after, List.length_drop, Gap.mk.injEq, Bool.true_or, Bool.or_true, and_true]
    omega
  | case2 text helement =>
    obtain rfl : text = [] := hend
    rw [List.nil_append, run_of_element? (rfl : element? ('\n' :: later) = some ⟨1, true⟩)]
    rfl

theorem isHashbang_joined (text later : List Char) :
    "#!".toList.isPrefixOf (text ++ '\n' :: later) = "#!".toList.isPrefixOf text :=
  (Stopped.cons (by decide) later).isPrefixOf_append (by decide) text

theorem drop_lineWidth (text right : List Char) :
    (text ++ right).drop (lineWidth text) = text.drop (lineWidth text) ++ right :=
  List.drop_append_of_le_length (lineWidth_le text)

theorem skip_joined {hashbang : Bool} {text : List Char}
    (hne : text.drop (skip hashbang text).width ≠ [])
    (hopens : opensComment (text.drop (skip hashbang text).width) = false) (later : List Char) :
    skip hashbang (text ++ '\n' :: later) = skip hashbang text := by
  revert hne hopens
  fun_cases skip hashbang text with
  | case1 hline width =>
    intro hne hopens
    rw [Gap.after, ← List.drop_drop] at hne hopens
    have hrest : run (text.drop (lineWidth text) ++ '\n' :: later) = run (text.drop width) :=
      run_joined hne hopens later
    rw [skip, isHashbang_joined, if_pos hline]
    simp only [lineWidth_joined, drop_lineWidth, hrest]
    rfl
  | case2 hline =>
    intro hne hopens
    rw [skip, isHashbang_joined, if_neg hline, run_joined hne hopens]

theorem skip_joined_end {hashbang : Bool} {text : List Char}
    (hend : text.drop (skip hashbang text).width = []) (later : List Char) :
    skip hashbang (text ++ '\n' :: later) = (run later).after ⟨text.length + 1, true⟩ := by
  revert hend
  fun_cases skip hashbang text with
  | case1 hline width =>
    intro hend
    rw [Gap.after, ← List.drop_drop] at hend
    have hwidth := lineWidth_le text
    have hrest : run (text.drop (lineWidth text) ++ '\n' :: later) =
        (run later).after ⟨(text.drop (lineWidth text)).length + 1, true⟩ :=
      run_joined_end hend later
    rw [skip, isHashbang_joined, if_pos hline]
    simp only [lineWidth_joined, drop_lineWidth, hrest, Gap.after, List.length_drop,
      Gap.mk.injEq, Bool.true_or, Bool.or_true, and_true]
    omega
  | case2 hline =>
    intro hend
    rw [skip, isHashbang_joined, if_neg hline, run_joined_end hend]

end Trivia

end EcmaLexer
