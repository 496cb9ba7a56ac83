import EcmaLexer.Proofs.Lexeme.Strictness
import EcmaLexer.Proofs.Stream.Tiling

namespace EcmaLexer

/-- The items of a text in strict mode beside those in sloppy mode: the same, or cut short
    after some tokens by a fault that strict mode adds. -/
inductive Stream.Stricter : List (Item × Text.Location) → List (Item × Text.Location) → Prop where
  | same (items : List (Item × Text.Location)) : Stricter items items
  | refused {error : ScanError} (hfault : error.fault.isStrict = true) (location : Text.Location)
      (items : List (Item × Text.Location)) : Stricter [(.error error, location)] items
  | token {strict sloppy : List (Item × Text.Location)} (scanned : ScannedToken)
      (location : Text.Location) (hrest : Stricter strict sloppy) :
      Stricter ((.ok scanned, location) :: strict) ((.ok scanned, location) :: sloppy)

/-- Nothing else than a refusal comes of strict mode: its items are those of sloppy mode, or some
    tokens of them and then one of the faults that only strict mode has. -/
def Stream.OnlyRefuses (strict sloppy : List (Item × Text.Location)) : Prop :=
  strict = sloppy ∨ ∃ tokens error location,
    strict = tokens ++ [(.error error, location)] ∧ tokens <+: sloppy ∧
    (∀ item ∈ tokens, item.1.isOk = true) ∧
    (error.fault = .legacyOctalLiteral ∨ error.fault = .invalidEscapeSequence .strictOctal ∨
      ∃ digit, error.fault = .invalidEscapeSequence (.eightOrNine digit))

theorem Stream.Stricter.onlyRefuses {strict sloppy : List (Item × Text.Location)}
    (hstricter : Stricter strict sloppy) : OnlyRefuses strict sloppy := by
  induction hstricter with
  | same items => exact .inl rfl
  | @refused error hfault location items =>
    exact .inr ⟨[], error, location, rfl, List.nil_prefix,
      fun item hmem => absurd hmem List.not_mem_nil, Fault.eq_of_isStrict hfault⟩
  | token scanned location hrest ih =>
    rcases ih with rfl | ⟨tokens, error, last, rfl, hprefix, hok, hfault⟩
    · exact .inl rfl
    · refine .inr ⟨(.ok scanned, location) :: tokens, error, last, rfl,
        List.cons_prefix_cons.mpr ⟨rfl, hprefix⟩, fun item hmem => ?_, hfault⟩
      rcases List.mem_cons.mp hmem with rfl | hmem
      · rfl
      · exact hok item hmem

namespace Pushdown.Control

/-- The same control over a text that is read in strict mode, or is not. -/
def inMode (control : Control) (strict : Bool) : Control :=
  { control with options := { control.options with strict := strict } }

theorem ahead_inMode (control : Control) (strict : Bool) (read unread : List Char) :
    (control.inMode strict).ahead read unread = control.ahead read unread := rfl

theorem follow_inMode (control : Control) (strict : Bool) (text : List Char) (token : Token) :
    (control.inMode strict).follow text token = (control.follow text token).inMode strict := rfl

/-- What is read at the head of a text is the same in strict mode, or refused there. -/
theorem lexeme_strict (control : Control) (text : List Char) :
    ((control.inMode true).lexeme text).Stricter ((control.inMode false).lexeme text) := by
  fun_cases lexeme (control.inMode true) text with
  | case1 => exact .inl rfl
  | case2 c rest hopens =>
    rw [lexeme_of_opensComment (control.inMode false) hopens]
    exact .inl rfl
  | case3 c rest hopens segment hresumed =>
    have hsloppy : (control.inMode false).resumed? (c :: rest) = some segment := hresumed
    rw [lexeme, if_neg hopens, hsloppy, Template.segment_strict]
    simp only
    rw [Template.segment_strict (segment.context.union (control.inMode false).options.context)]
    exact .inl rfl
  | case4 c rest hopens hresumed =>
    have hsloppy : (control.inMode false).resumed? (c :: rest) = none := hresumed
    rw [lexeme, if_neg hopens, hsloppy]
    exact Lexeme.read_strict _ c rest

/-- Both modes are in step up to the fault that strict mode adds. -/
theorem lex_strict (requests : Nat) (control : Control) (read unread : List Char) :
    Stream.Stricter
      (((control.inMode true).lex requests read unread).steps.map Step.output)
      (((control.inMode false).lex requests read unread).steps.map Step.output) := by
  induction requests generalizing control read unread with
  | zero => exact .same _
  | succ requests ih =>
    rw [lex, lex, ahead_inMode, ahead_inMode]
    by_cases hend : control.ahead read unread = []
    · rw [if_pos hend, if_pos hend]
      exact .same _
    rw [if_neg hend, if_neg hend]
    rcases control.lexeme_strict (control.ahead read unread) with
      hsame | ⟨misread, hresult, hfault⟩
    · have hreading : (control.inMode true).reading read unread =
          (control.inMode false).reading read unread := hsame
      have hpassed : (control.inMode true).passed read unread =
          (control.inMode false).passed read unread := by
        rw [passed, passed, hreading]
        rfl
      have hrest : (control.inMode true).rest read unread =
          (control.inMode false).rest read unread := by
        rw [rest, rest, hreading]
        rfl
      rw [hreading, hpassed, hrest]
      cases hresult : ((control.inMode false).reading read unread).result with
      | error misread =>
        have hstep : (control.inMode true).faultStep read unread misread =
            (control.inMode false).faultStep read unread misread := by
          rw [faultStep, faultStep, hreading, hpassed]
          rfl
        simp only [hstep]
        exact .same _
      | ok token =>
        have hstep : (control.inMode true).tokenStep read unread token =
            (control.inMode false).tokenStep read unread token := by
          rw [tokenStep, tokenStep, hreading, hpassed]
          rfl
        simp only [hstep, follow_inMode]
        exact .token _ _ (ih _ _ _)
    · have hreading : ((control.inMode true).reading read unread).result = .error misread := hresult
      rw [hreading]
      exact .refused hfault _ _

end Pushdown.Control

/-- Strict mode only refuses, over any text and with or without a hashbang. So a text without a
    fault in strict mode gives the same items in sloppy mode. -/
theorem Stream.runAll_strict (source : List Char) (skipHashbang : Bool) :
    (runAll (.ofSource source ⟨true, skipHashbang⟩)).ended = true ∧
    (runAll (.ofSource source ⟨false, skipHashbang⟩)).ended = true ∧
    OnlyRefuses (runAll (.ofSource source ⟨true, skipHashbang⟩)).items
      (runAll (.ofSource source ⟨false, skipHashbang⟩)).items ∧
    ((∀ item ∈ (runAll (.ofSource source ⟨true, skipHashbang⟩)).items, item.1.isOk = true) →
      (runAll (.ofSource source ⟨false, skipHashbang⟩)).items =
        (runAll (.ofSource source ⟨true, skipHashbang⟩)).items) := by
  obtain ⟨hstrict, hstrictEnded, hstrictEnds⟩ :=
    runAll_eq_lex source ⟨true, skipHashbang⟩ (Nat.le_refl _)
  obtain ⟨hsloppy, hsloppyEnded, hsloppyEnds⟩ :=
    runAll_eq_lex source ⟨false, skipHashbang⟩ (Nat.le_refl _)
  have hrefuses : OnlyRefuses (runAll (.ofSource source ⟨true, skipHashbang⟩)).items
      (runAll (.ofSource source ⟨false, skipHashbang⟩)).items := by
    rw [hstrict, hsloppy]
    exact (Pushdown.Control.lex_strict _ ⟨⟨false, skipHashbang⟩, [], none, 0⟩ [] source).onlyRefuses
  refine ⟨hstrictEnded.trans hstrictEnds, hsloppyEnded.trans hsloppyEnds, hrefuses, fun hok => ?_⟩
  rcases hrefuses with hsame | ⟨tokens, error, location, hitems, -⟩
  · exact hsame.symm
  · have hlast := hok (.error error, location) (by rw [hitems]; simp)
    cases hlast

/-- An octal escape that a tag lets pass, a zero in a string and one before a point: none of them
    is refused in strict mode. -/
theorem Stream.runAll_strict_template :
    (∀ item ∈ (runAll (.ofSource "t\x60\\1$\x7b'\\0'\x7d\x600.7".toList ⟨true, true⟩)).items,
        item.1.isOk = true) ∧
      (runAll (.ofSource "t\x60\\1$\x7b'\\0'\x7d\x600.7".toList ⟨false, true⟩)).items =
        (runAll (.ofSource "t\x60\\1$\x7b'\\0'\x7d\x600.7".toList ⟨true, true⟩)).items := by
  have hok : ∀ item ∈
      (runAll (.ofSource "t\x60\\1$\x7b'\\0'\x7d\x600.7".toList ⟨true, true⟩)).items,
      item.1.isOk = true := by decide +kernel
  exact ⟨hok, (Stream.runAll_strict _ true).2.2.2 hok⟩

end EcmaLexer
