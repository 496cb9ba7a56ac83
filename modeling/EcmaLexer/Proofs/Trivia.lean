import EcmaLexer.Proofs.Text.Cut
import EcmaLexer.Trivia

namespace EcmaLexer.Trivia

/-- A line feed is always an element, so none comes after the last one. -/
theorem head?_ne_of_element?_eq_none {text : List Char} (helement : element? text = none) :
    text.head? ≠ some '\n' := by
  intro hhead
  obtain ⟨rest, rfl⟩ := List.head?_eq_some_iff.mp hhead
  cases helement

theorem run_of_element? {text : List Char} {element : Element}
    (helement : element? text = some element) :
    run text = (run (text.drop element.width)).after element := by
  rw [run.eq_def]
  split
  · next found hfound =>
    rw [helement] at hfound
    cases hfound
    rfl
  · next hnone =>
    rw [helement] at hnone
    cases hnone

theorem run_of_element?_eq_none {text : List Char} (helement : element? text = none) :
    run text = ⟨0, false, opensComment text⟩ := by
  rw [run.eq_def]
  split
  · next found hfound =>
    rw [helement] at hfound
    cases hfound
  · rfl

theorem opensComment_eq (text : List Char) : opensComment text = ['/', '*'].isPrefixOf text := by
  fun_cases opensComment text with
  | case1 => rfl
  | case2 text hother =>
    symm
    rw [Bool.eq_false_iff]
    intro hstarts
    obtain ⟨rest, hrest⟩ := List.isPrefixOf_iff_prefix.mp hstarts
    exact hother rest hrest.symm

/-- The run goes on for as long as there is an element. -/
theorem element?_drop_run (text : List Char) : element? (text.drop (run text).width) = none := by
  fun_induction run text with
  | case1 text element helement ih =>
    rw [List.drop_drop] at ih
    exact ih
  | case2 text helement => exact helement

theorem element?_drop_skip (hashbang : Bool) (text : List Char) :
    element? (text.drop (skip hashbang text).width) = none := by
  fun_cases skip hashbang text with
  | case1 hline width =>
    have hnone := element?_drop_run (text.drop width)
    rw [List.drop_drop] at hnone
    exact hnone
  | case2 hline => exact element?_drop_run text

/-- The gap before a token ends where a text may be cut. -/
theorem skip_cleanCut (hashbang : Bool) (text : List Char) :
    Text.CleanCut (text.take (skip hashbang text).width) (text.drop (skip hashbang text).width) :=
  .of_head_ne (head?_ne_of_element?_eq_none (element?_drop_skip hashbang text))

/-- The gap goes on to where a block comment begins exactly if it is one that never ends. -/
theorem skip_unclosed (hashbang : Bool) (text : List Char) :
    (skip hashbang text).unclosed = opensComment (text.drop (skip hashbang text).width) := by
  have hrun (text : List Char) :
      (run text).unclosed = opensComment (text.drop (run text).width) := by
    fun_induction run text with
    | case1 text element helement ih =>
      rw [List.drop_drop] at ih
      exact ih
    | case2 text helement => rfl
  fun_cases skip hashbang text with
  | case1 hline width =>
    have hrest := hrun (text.drop width)
    rw [List.drop_drop] at hrest
    exact hrest
  | case2 hline => exact hrun text

end EcmaLexer.Trivia
