import EcmaLexer.Proofs.Lexeme.Inline
import Mathlib.Data.List.Nodup

namespace EcmaLexer.Punctuator

theorem mem_all (punctuator : Punctuator) : punctuator ∈ all := by
  cases punctuator <;> decide

theorem text_inj {punctuator other : Punctuator} (heq : punctuator.text = other.text) :
    punctuator = other := by
  have hnodup : (all.map text).Nodup := by decide +kernel
  exact List.inj_on_of_nodup_map hnodup punctuator.mem_all other.mem_all heq

/-- A punctuator may be taken at the head of a text: it is spelled there, and if it is `?.` then no
    digit comes after it. -/
structure MayStand (punctuator : Punctuator) (text : List Char) : Prop where
  spelled : punctuator.text.toList <+: text
  digit : punctuator = .questionMarkPeriod → (text.drop 2).head?.any Char.isDigit = false

/-- The longest of all punctuators that may be taken at the head of a text. -/
structure IsLongest (punctuator : Punctuator) (text : List Char) : Prop where
  mayStand : punctuator.MayStand text
  longest : ∀ other : Punctuator, other.MayStand text →
    other.text.toList.length ≤ punctuator.text.toList.length

theorem fits_iff {punctuator : Punctuator} {text : List Char} :
    punctuator.fits text = true ↔ punctuator.MayStand text := by
  rw [fits, Bool.and_eq_true, List.isPrefixOf_iff_prefix, Bool.or_eq_true, bne_iff_ne,
    Bool.not_eq_true']
  constructor
  · rintro ⟨hspelled, hdigit⟩
    exact ⟨hspelled, fun hquestion => hdigit.resolve_left (absurd hquestion)⟩
  · intro hstands
    refine ⟨hstands.spelled, ?_⟩
    by_cases hquestion : punctuator = .questionMarkPeriod
    · exact .inr (hstands.digit hquestion)
    · exact .inl hquestion

/-- Two punctuators cannot both be the longest. -/
theorem IsLongest.unique {punctuator other : Punctuator} {text : List Char}
    (hlongest : punctuator.IsLongest text) (hother : other.IsLongest text) :
    punctuator = other := by
  have hlength := Nat.le_antisymm (hother.longest _ hlongest.mayStand)
    (hlongest.longest _ hother.mayStand)
  have hpart := List.prefix_of_prefix_length_le hlongest.mayStand.spelled
    hother.mayStand.spelled (Nat.le_of_eq hlength)
  exact text_inj (String.toList_inj.mp (hpart.eq_of_length hlength))

/-- The first character of a punctuator leads to it: alone, or to one that it extends. -/
theorem exists_first (punctuator : Punctuator) :
    ∃ c rest first, punctuator.text.toList = c :: rest ∧ ofChar? c = some first ∧
      (punctuator = first ∨ punctuator ∈ first.extensions) := by
  have hall : ∀ p ∈ all, ∃ first ∈ p.text.toList.head?.bind ofChar?,
      p = first ∨ p ∈ first.extensions := by
    decide +kernel
  obtain ⟨first, hfirst, hextends⟩ := hall punctuator punctuator.mem_all
  obtain ⟨c, hhead, hchar⟩ := Option.bind_eq_some_iff.mp hfirst
  obtain ⟨rest, htext⟩ := List.head?_eq_some_iff.mp hhead
  exact ⟨c, rest, first, htext, hchar, hextends⟩

/-- The longer ones are tried first. -/
theorem extensions_sorted (first : Punctuator) :
    first.extensions.Pairwise fun longer shorter =>
      shorter.text.toList.length ≤ longer.text.toList.length := by
  cases first <;> decide

theorem mayStand_of_ofChar? {c : Char} {first : Punctuator} (hchar : ofChar? c = some first)
    (rest : List Char) : first.MayStand (c :: rest) := by
  have htext := text_of_ofChar? hchar
  refine ⟨?_, fun hquestion => ?_⟩
  · rw [htext]
    exact List.prefix_append [c] rest
  · rw [hquestion] at htext
    cases htext

/-- Of the punctuators that extend the first one, the one that is found is not shorter than any
    other that may be taken. -/
theorem length_le_of_find? {first found other : Punctuator} {text : List Char}
    (hfound : first.extensions.find? (·.fits text) = some found)
    (hmem : other ∈ first.extensions) (hother : other.MayStand text) :
    other.text.toList.length ≤ found.text.toList.length := by
  obtain ⟨-, earlier, later, hsplit, hearlier⟩ := List.find?_eq_some_iff_append.mp hfound
  have hsorted := first.extensions_sorted
  rw [hsplit] at hmem hsorted
  rcases List.mem_append.mp hmem with hmem | hmem
  · have hrefused := hearlier other hmem
    rw [fits_iff.mpr hother] at hrefused
    cases hrefused
  · rcases List.mem_cons.mp hmem with rfl | hmem
    · exact Nat.le_refl _
    · exact (List.pairwise_cons.mp (List.pairwise_append.mp hsorted).2.1).1 other hmem

/-- What is read of the punctuators that begin with a character is the longest of all. -/
theorem longest_isLongest {c : Char} {first : Punctuator} (hchar : ofChar? c = some first)
    (rest : List Char) : (first.longest (c :: rest)).IsLongest (c :: rest) := by
  have hfirst := mayStand_of_ofChar? hchar rest
  have hlength : first.text.toList.length = 1 := by rw [text_of_ofChar? hchar, List.length_singleton]
  have hother {other : Punctuator} (hother : other.MayStand (c :: rest)) :
      other = first ∨ other ∈ first.extensions := by
    obtain ⟨d, tail, begun, htext, hbegun, hextends⟩ := other.exists_first
    have hspelled := hother.spelled
    rw [htext] at hspelled
    rw [(List.cons_prefix_cons.mp hspelled).1, hchar] at hbegun
    cases hbegun
    exact hextends
  unfold longest
  cases hfound : first.extensions.find? (·.fits (c :: rest)) with
  | none =>
    refine ⟨hfirst, fun other hstands => ?_⟩
    rcases hother hstands with rfl | hmem
    · exact Nat.le_refl _
    · exact absurd (fits_iff.mpr hstands) (List.find?_eq_none.mp hfound other hmem)
  | some found =>
    have hfits := List.find?_some hfound
    refine ⟨fits_iff.mp hfits, fun other hstands => ?_⟩
    rcases hother hstands with rfl | hmem
    · obtain ⟨d, tail, -, htext, -⟩ := found.exists_first
      rw [hlength, Option.getD_some, htext]
      exact Nat.succ_le_succ (Nat.zero_le _)
    · exact length_le_of_find? hfound hmem hstands

end EcmaLexer.Punctuator
