import EcmaLexer.Proofs.Escape.StringEscape
import EcmaLexer.Proofs.Lexeme.Fits

namespace EcmaLexer.StringLiteral

open Escape (Malformed StringEscape)

/-- One element of a string literal before `rest`, and its value: a character that stands for
    itself, or a backslash with an escape or a line terminator after it. -/
inductive Element (strict : Bool) (quote : Char) : List Char → List Char → List Char → Prop where
  | ordinary {c : Char} (rest : List Char) (hquote : c ≠ quote)
      (hc : c ≠ '\\' ∧ c ≠ '\n' ∧ c ≠ '\r') : Element strict quote [c] rest [c]
  | escape {spelling rest value : List Char}
      (hescape : StringEscape strict spelling rest value) :
      Element strict quote ('\\' :: spelling) rest value

/-- A sequence of elements before `rest`, and their values one after the other. -/
inductive Elements (strict : Bool) (quote : Char) (rest : List Char) :
    List Char → List Char → Prop where
  | nil : Elements strict quote rest [] []
  | cons {spelling more value later : List Char}
      (hfirst : Element strict quote spelling (more ++ rest) value)
      (hmore : Elements strict quote rest more later) :
      Elements strict quote rest (spelling ++ more) (value ++ later)

/-- What is wrong with a string literal that goes on so, and how many characters come before the
    place where that is found. -/
inductive Problem (strict : Bool) : List Char → Fault → Nat → Prop where
  | ended : Problem strict [] .unterminatedStringLiteral 0
  | brokenOff : Problem strict ['\\'] .unterminatedStringLiteral 1
  | lineEnd {c : Char} (rest : List Char) (hc : c = '\n' ∨ c = '\r') :
      Problem strict (c :: rest) .unterminatedStringLiteral 0
  | malformed {rest : List Char} {fault : EscapeFault} (hmalformed : Malformed strict rest fault) :
      Problem strict ('\\' :: rest) (.invalidEscapeSequence fault) 0

/-- The characters that a string literal may begin with. -/
def IsQuote (quote : Char) : Prop := quote = '"' ∨ quote = '\x27'

theorem IsQuote.ne {quote : Char} (hquote : IsQuote quote) :
    '\\' ≠ quote ∧ '\n' ≠ quote ∧ '\r' ≠ quote := by
  rcases hquote with rfl | rfl <;> decide

variable {strict : Bool} {quote : Char}

theorem body_quote (rest : List Char) :
    body strict quote (quote :: rest) = .accept .stringLiteral 1 := by
  rw [body.eq_def]
  exact if_pos rfl

theorem body_ordinary {c : Char} (hquote : c ≠ quote) (hbackslash : c ≠ '\\')
    (rest : List Char) :
    body strict quote (c :: rest) =
      if c = '\n' ∨ c = '\r' then .reject .unterminatedStringLiteral 0 0
      else (body strict quote rest).after 1 [c] {} := by
  rw [body.eq_def]
  simp only [if_neg hquote, if_neg hbackslash, Bool.or_eq_true, decide_eq_true_eq]

theorem Element.read (hquote : IsQuote quote) {spelling rest value : List Char}
    (helement : Element strict quote spelling rest value) :
    body strict quote (spelling ++ rest) =
      (body strict quote rest).after spelling.length value {} := by
  cases helement with
  | @ordinary c rest hother hc =>
    obtain ⟨hescape, hfeed, hreturn⟩ := hc
    rw [List.singleton_append, body_ordinary hother hescape, if_neg (not_or.mpr ⟨hfeed, hreturn⟩)]
    rfl
  | @escape spelling rest value hescape =>
    obtain ⟨first, tail, rfl, hread⟩ := hescape.read
    rw [List.cons_append, List.cons_append, body.eq_3, if_neg hquote.ne.1, if_pos rfl]
    simp only [hread]
    rw [← List.cons_append, List.drop_left, Nat.add_comm]
    rfl

theorem Elements.read (hquote : IsQuote quote) {inner rest value : List Char}
    (helements : Elements strict quote rest inner value) :
    body strict quote (inner ++ rest) =
      (body strict quote rest).after inner.length value {} := by
  induction helements with
  | nil => exact (Lexeme.after_zero _).symm
  | @cons spelling more value later hfirst hmore ih =>
    rw [List.append_assoc, hfirst.read hquote, ih, Lexeme.after_append, List.length_append]
    rfl

theorem Problem.read (hquote : IsQuote quote) {text : List Char} {fault : Fault} {before : Nat}
    (hproblem : Problem strict text fault before) :
    ∃ width, body strict quote text = .reject fault width before := by
  obtain ⟨hbackslash, hfeed, hreturn⟩ := hquote.ne
  cases hproblem with
  | ended => exact ⟨0, body.eq_1 _ _⟩
  | brokenOff =>
    refine ⟨1, ?_⟩
    rw [body.eq_2, if_neg hbackslash, if_pos rfl]
  | @lineEnd c rest hc =>
    refine ⟨0, ?_⟩
    rcases hc with rfl | rfl
    · rw [body_ordinary hfeed (by decide), if_pos (.inl rfl)]
    · rw [body_ordinary hreturn (by decide), if_pos (.inr rfl)]
  | @malformed rest fault hmalformed =>
    cases rest with
    | nil => cases hmalformed
    | cons first tail =>
      obtain ⟨width, hread⟩ := hmalformed.read
      refine ⟨1 + width, ?_⟩
      rw [body.eq_3, if_neg hbackslash, if_pos rfl]
      simp only [hread]

/-- Elements are read up to a quote, or up to a problem. -/
theorem exists_elements (strict : Bool) (quote : Char) (text : List Char) :
    ∃ inner rest value, inner ++ rest = text ∧ Elements strict quote rest inner value ∧
      (rest.head? = some quote ∨ ∃ fault before, Problem strict rest fault before) := by
  induction hlength : text.length using Nat.strongRecOn generalizing text with
  | ind length ih =>
    subst hlength
    have hstep {spelling rest value : List Char} (hne : spelling ≠ [])
        (helement : Element strict quote spelling rest value) (htext : spelling ++ rest = text) :
        ∃ inner rest value, inner ++ rest = text ∧ Elements strict quote rest inner value ∧
          (rest.head? = some quote ∨ ∃ fault before, Problem strict rest fault before) := by
      have hshort : rest.length < text.length := by
        have hpos := List.length_pos_iff.mpr hne
        rw [← htext, List.length_append]
        omega
      obtain ⟨inner, after, later, rfl, helements, hstop⟩ := ih _ hshort rest rfl
      exact ⟨spelling ++ inner, after, value ++ later, by rw [← htext, List.append_assoc],
        .cons helement helements, hstop⟩
    have hproblem {fault : Fault} {before : Nat} (hproblem : Problem strict text fault before) :
        ∃ inner rest value, inner ++ rest = text ∧ Elements strict quote rest inner value ∧
          (rest.head? = some quote ∨ ∃ fault before, Problem strict rest fault before) :=
      ⟨[], text, [], rfl, .nil, .inr ⟨fault, before, hproblem⟩⟩
    cases text with
    | nil => exact hproblem .ended
    | cons c tail =>
      by_cases hquote : c = quote
      · exact ⟨[], c :: tail, [], rfl, .nil, .inl (congrArg some hquote)⟩
      by_cases hbackslash : c = '\\'
      · subst hbackslash
        cases tail with
        | nil => exact hproblem .brokenOff
        | cons first tail =>
          rcases Escape.stringEscape_or_malformed strict first tail with
            ⟨spelling, rest, value, hsplit, hescape⟩ | ⟨fault, hmalformed⟩
          · exact hstep (List.cons_ne_nil _ _) (.escape hescape) (congrArg ('\\' :: ·) hsplit)
          · exact hproblem (.malformed hmalformed)
      · by_cases hbreak : c = '\n' ∨ c = '\r'
        · exact hproblem (.lineEnd tail hbreak)
        · exact hstep (List.cons_ne_nil _ _)
            (.ordinary tail hquote ⟨hbackslash, not_or.mp hbreak⟩) rfl

end EcmaLexer.StringLiteral
