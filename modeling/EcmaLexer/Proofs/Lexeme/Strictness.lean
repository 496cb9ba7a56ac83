import EcmaLexer.Lexeme.Read
import EcmaLexer.Proofs.Template.Cooking

namespace EcmaLexer

/-- The escapes that strict mode refuses in a string literal. -/
def EscapeFault.isStrict : EscapeFault → Bool
  | strictOctal | eightOrNine _ => true
  | _ => false

/-- The faults that strict mode can add to a text. -/
def Fault.isStrict : Fault → Bool
  | legacyOctalLiteral => true
  | invalidEscapeSequence escape => escape.isStrict
  | _ => false

theorem Fault.eq_of_isStrict {fault : Fault} (hstrict : fault.isStrict = true) :
    fault = .legacyOctalLiteral ∨ fault = .invalidEscapeSequence .strictOctal ∨
      ∃ digit, fault = .invalidEscapeSequence (.eightOrNine digit) := by
  unfold isStrict at hstrict
  split at hstrict
  · exact .inl rfl
  · unfold EscapeFault.isStrict at hstrict
    split at hstrict
    · exact .inr (.inl rfl)
    · exact .inr (.inr ⟨_, rfl⟩)
    · cases hstrict
  · cases hstrict

namespace Escape

theorem read_digit {first : Char} (hfirst : first.isDigit = true) (site : Site) (strict : Bool)
    (rest : List Char) : read site strict first rest = digit site strict first rest := by
  have hletter : letter? first = none := by
    unfold letter?
    split <;> first | rfl | cases hfirst
  have hbreak : Text.isLineTerminator first = false :=
    Text.isLineTerminator_eq_false Char.isDigit hfirst (by decide)
  have hreturn : first ≠ '\r' := by
    rintro rfl
    cases hfirst
  have hx : first ≠ 'x' := by
    rintro rfl
    cases hfirst
  have hu : first ≠ 'u' := by
    rintro rfl
    cases hfirst
  simp [read, hletter, hbreak, hreturn, hx, hu, hfirst]

/-- An escape of a string literal is the same in strict mode, or refused there. -/
theorem read_strict (first : Char) (rest : List Char) :
    read .stringLiteral true first rest = read .stringLiteral false first rest ∨
      ∃ fault, (read .stringLiteral true first rest).result = .error fault ∧
        fault.isStrict = true := by
  by_cases hfirst : first.isDigit
  · rw [read_digit hfirst, read_digit hfirst]
    fun_cases digit .stringLiteral true first rest with
    | case1 hzero => exact .inl (by rw [digit, if_pos hzero])
    | case2 hzero hoctal hsite => cases hsite
    | case3 hzero hoctal hsite hstrict => exact .inr ⟨_, rfl, rfl⟩
    | case4 hzero hoctal hsite hstrict => exact absurd rfl hstrict
    | case5 hzero hoctal hrefused => exact .inr ⟨_, rfl, rfl⟩
    | case6 hzero hoctal hrefused => exact absurd rfl hrefused
  · simp [read, hfirst]

end Escape

/-- A reading in strict mode beside that of the same text in sloppy mode: they are the same,
    or the first ends in a fault that strict mode adds. -/
def Lexeme.Stricter (strict sloppy : Lexeme) : Prop :=
  strict = sloppy ∨
    ∃ misread, strict.result = .error misread ∧ misread.fault.isStrict = true

theorem Lexeme.Stricter.after {strict sloppy : Lexeme} (hstricter : Stricter strict sloppy)
    (width : Nat) (value : List Char) (flags : Flags) :
    Stricter (strict.after width value flags) (sloppy.after width value flags) := by
  rcases hstricter with rfl | ⟨misread, hresult, hfault⟩
  · exact .inl rfl
  · refine .inr ⟨⟨misread.fault, width + misread.before⟩, ?_, hfault⟩
    simp only [Lexeme.after, hresult]

open Lexeme (Stricter)

/-- The first escape that strict mode refuses ends a string literal there. -/
theorem StringLiteral.body_strict (quote : Char) (text : List Char) :
    Stricter (body true quote text) (body false quote text) := by
  fun_induction body true quote text with
  | case1 =>
    rw [body.eq_def]
    exact .inl rfl
  | case2 rest =>
    rw [body.eq_def]
    simp only [if_true]
    exact .inl rfl
  | case3 hc =>
    rw [body.eq_def]
    simp only [hc, if_false, if_true]
    exact .inl rfl
  | case4 first tail escape value hresult hc ih =>
    rcases Escape.read_strict first tail with hsame | ⟨fault, hrefused, -⟩
    · rw [body.eq_def false]
      simp only [hc, if_false, if_true, ← hsame]
      rw [hresult]
      exact ih.after _ value {}
    · cases hresult.symm.trans hrefused
  | case5 first tail escape fault hresult hc =>
    rcases Escape.read_strict first tail with hsame | ⟨other, hrefused, hfault⟩
    · rw [body.eq_def false]
      simp only [hc, if_false, if_true, ← hsame]
      rw [hresult]
      exact .inl rfl
    · cases hresult.symm.trans hrefused
      exact .inr ⟨_, rfl, hfault⟩
  | case6 c rest hc hbackslash hbreak =>
    rw [body.eq_def]
    simp only [hc, hbackslash, hbreak, if_false, if_true]
    exact .inl rfl
  | case7 c rest hc hbackslash hbreak ih =>
    rw [body.eq_def false]
    simp only [hc, hbackslash, hbreak, if_false]
    exact ih.after 1 [c] {}

namespace Number

/-- Strict mode has no numbers of several digits that begin with zero. -/
theorem legacy_strict (text : List Char) : Stricter (legacy true text) (legacy false text) :=
  .inr ⟨_, rfl, rfl⟩

theorem leadingZero_strict (text : List Char) :
    Stricter (leadingZero true text) (leadingZero false text) := by
  unfold leadingZero
  split
  case h_5 => exact legacy_strict text
  all_goals exact .inl rfl

theorem shape_strict (text : List Char) : Stricter (shape true text) (shape false text) := by
  unfold shape
  split
  · exact leadingZero_strict _
  · exact .inl rfl
  · exact .inl rfl

theorem read_strict (text : List Char) : Stricter (read true text) (read false text) := by
  unfold read
  rcases shape_strict text with hsame | ⟨misread, hresult, hfault⟩
  · rw [hsame]
    exact .inl rfl
  · simp only [hresult]
    exact .inr ⟨misread, rfl, hfault⟩

end Number

/-- Whatever a text begins with, strict mode reads the same there or refuses it. -/
theorem Lexeme.read_strict (tagged : Bool) (c : Char) (rest : List Char) :
    Stricter (read ⟨true, tagged⟩ c rest) (read ⟨false, tagged⟩ c rest) := by
  unfold read
  split
  · exact (StringLiteral.body_strict c rest).after 1 [] {}
  · rw [Template.read, Template.read, Template.segment_strict]
    exact .inl rfl
  · exact Number.read_strict _
  · exact Number.read_strict _
  · exact .inl rfl
  · exact .inl rfl
  · exact .inl rfl
  · split
    · exact Number.read_strict _
    · exact .inl rfl
  all_goals exact .inl rfl

end EcmaLexer
