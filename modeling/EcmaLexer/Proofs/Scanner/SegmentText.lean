import EcmaLexer.Proofs.Scanner.SegmentScan

namespace EcmaLexer.Scanner

open Template

/-- A segment ends exactly where the naive search finds a delimiter, whatever its
    escapes are: a scan that succeeds stops there, a tagged one always succeeds when
    there is a delimiter, and without one the scan fails at the end of the source, or
    at a malformed escape of a template that is not tagged. -/
theorem segment_ends_at_delimiter (entry : SegmentEntry) (scanner : Scanner) (context : Context)
    (start : Nat) (text : List Char) (hopens : entry.Opens scanner start text) :
    (∀ token after, entry.scan scanner context = (.ok token, after) →
      ∃ stop, stop = start + Text.utf8Length (walk text).1 ∧ (walk text).2 = some token ∧
        after.state.rawStart = start ∧ after.state.rawStop = stop ∧ after.raw? = some (walk text).1 ∧
        (token = .templateTail ∧ after.offset = stop + 1 ∨ token = .templateCont ∧ after.offset = stop + 2)) ∧
    (context.tagged = true → ∀ token, (walk text).2 = some token →
      (entry.scan scanner context).1 = .ok token) ∧
    ((walk text).2 = none → ∃ error, (entry.scan scanner context).1 = .error error ∧
      (error.fault = .unexpectedEndOfInput ∧ error.position = scanner.sourceLength ∨
        context.tagged = false ∧ ∃ fault, error.fault = .invalidEscapeSequence fault)) := by
  have hscan := hopens.segmentScan context
  generalize entry.scan scanner context = outcome at hscan
  cases hscan with
  | closed token after hstop hrawStart hrawStop hoffset hraw hcooked hdiagnostics =>
    refine ⟨?_, ?_, ?_⟩
    · rintro _ _ ⟨⟩
      refine ⟨_, rfl, hstop, hrawStart, hrawStop, hraw, ?_⟩
      obtain ⟨rfl | rfl, -⟩ := walk_delimiter hstop
      · exact .inl ⟨rfl, hoffset⟩
      · exact .inr ⟨rfl, hoffset⟩
    · intro _ other hother
      rw [hstop] at hother
      cases hother
      rfl
    · intro hnone
      rw [hstop] at hnone
      cases hnone
  | ended location after hstop hcook =>
    refine ⟨by simp, ?_, ?_⟩
    · intro _ token htoken
      rw [hstop] at htoken
      cases htoken
    · exact fun _ => ⟨_, rfl, .inl ⟨rfl, rfl⟩⟩
  | refused fault position location after htagged hcook =>
    refine ⟨by simp, ?_, ?_⟩
    · intro hother
      rw [htagged] at hother
      cases hother
    · exact fun _ => ⟨_, rfl, .inr ⟨htagged, fault, rfl⟩⟩

/-- A tagged template with a malformed escape and an escaped backtick: the segment
    goes on to the backtick that is not escaped. -/
theorem segment_ends_at_delimiter_malformed :
    SegmentEntry.opening.Opens
        (.ofSource ['\x60', '\\', 'x', 'g', '\\', '\x60', '\x60', 'a'] {}) 1
        ['\\', 'x', 'g', '\\', '\x60', '\x60', 'a'] ∧
      (SegmentEntry.opening.scan
        (.ofSource ['\x60', '\\', 'x', 'g', '\\', '\x60', '\x60', 'a'] {}) { tagged := true }).1 =
        .ok .templateTail :=
  ⟨⟨rfl, rfl⟩, (segment_ends_at_delimiter .opening _ _ 1 _ ⟨rfl, rfl⟩).2.1 rfl _ rfl⟩

theorem commit_options (scanner : Scanner) (options : Options) (tokenStart : Nat) (mark : Text.Mark)
    (breaksLine : Bool) (text : List Char) (lexeme : Lexeme) :
    commit { scanner with options := options } tokenStart mark breaksLine text lexeme =
      ((commit scanner tokenStart mark breaksLine text lexeme).1,
        { (commit scanner tokenStart mark breaksLine text lexeme).2 with options := options }) := by
  cases hresult : lexeme.result with
  | ok token => rw [commit_ok hresult, commit_ok hresult]
  | error misread =>
    rw [commit_error hresult, commit_error hresult]
    rfl

/-- Strict mode, asked for or set by the options, does not change the scan of a
    segment. -/
theorem SegmentEntry.Opens.scan_strict {entry : SegmentEntry} {scanner : Scanner} {start : Nat}
    {text : List Char} (hopens : entry.Opens scanner start text) (context : Context)
    (mode strict : Bool) :
    entry.scan { scanner with options := { scanner.options with strict := mode } }
        { context with strict := strict } =
      ((entry.scan scanner context).1,
        { (entry.scan scanner context).2 with options := { scanner.options with strict := mode } }) := by
  have hother : entry.Opens { scanner with options := { scanner.options with strict := mode } } start text := by
    cases entry <;> exact hopens
  by_cases hend : entry = .resumed ∧ text = []
  · obtain ⟨rfl, rfl⟩ := hend
    rw [hopens.scan_eq_report, hother.scan_eq_report]
    rfl
  · have hread := fun hentry htext => hend ⟨hentry, htext⟩
    rw [hopens.scan_eq_commit hread, hother.scan_eq_commit hread, commit_options, segment_strict,
      segment_strict (scanner.contextFor context)]
    simp only [contextFor_tagged]
    cases entry <;> rfl

end EcmaLexer.Scanner
