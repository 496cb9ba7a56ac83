import EcmaLexer.Proofs.Lexeme.Faults
import EcmaLexer.Proofs.Scanner.Cursor
import EcmaLexer.Proofs.Trivia.Longest
import EcmaLexer.Proofs.Trivia.Slicing

namespace EcmaLexer

open Text (CleanCut isLineTerminator utf8Length)

/-- The longest gap at the head of a text, which `rest` follows. It ends no line terminator
    halfway. -/
structure Trivia.LongestGap (hashbang : Bool) (text gap rest : List Char) : Prop where
  split : gap ++ rest = text
  isGap : IsGap hashbang gap rest
  clean : CleanCut gap rest
  longest : ∀ other after, other ++ after = text → IsGap hashbang other after →
    other.length ≤ gap.length

theorem Trivia.skip_longest (hashbang : Bool) (text : List Char) :
    LongestGap hashbang text (text.take (skip hashbang text).width)
      (text.drop (skip hashbang text).width) where
  split := List.take_append_drop _ text
  isGap := skip_isGap hashbang text
  clean := skip_cleanCut hashbang text
  longest := by
    rintro other after rfl hgap
    have hlength := hgap.length_le
    have hother : other.length ≤ (other ++ after).length := by simp
    rw [List.length_take]
    omega

namespace Scanner

/-- Whether a hashbang may stand where the scanner does. -/
def hashbangAhead (scanner : Scanner) : Bool :=
  scanner.options.skipHashbang && scanner.offset == 0

theorem offset_past_unread {scanner : Scanner} (hne : scanner.unread ≠ []) :
    (scanner.state.mark.past scanner.unread).offset = scanner.sourceLength := by
  obtain ⟨before, hsource, hbefore⟩ := source_eq_append_unread hne
  rw [Text.Mark.offset_past, sourceLength, hsource, Text.utf8Length_append, hbefore]
  rfl

/-- Whatever is read, the token begins where it was said to and the facts about the gap before it
    are kept; a fault is one that was read. -/
theorem commit_spec (scanner : Scanner) (tokenStart : Nat) (start : Text.Mark) (breaksLine : Bool)
    (text : List Char) (lexeme : Lexeme) :
    (commit scanner tokenStart start breaksLine text lexeme).2.state.tokenStart = tokenStart ∧
      (commit scanner tokenStart start breaksLine text lexeme).2.state.flags.precedingLineBreak =
        breaksLine ∧
      ∀ error, (commit scanner tokenStart start breaksLine text lexeme).1 = .error error →
        ∃ misread, lexeme.result = .error misread ∧ misread.fault = error.fault := by
  cases hresult : lexeme.result with
  | ok token =>
    rw [commit_ok hresult]
    refine ⟨rfl, rfl, fun error herror => ?_⟩
    cases herror
  | error misread =>
    rw [commit_error hresult]
    refine ⟨rfl, rfl, fun error herror => ⟨misread, rfl, ?_⟩⟩
    cases herror
    rfl

/-- Where no comment is left open, a token is read after the gap, or the end of the text is found
    there. -/
theorem scan_closed {scanner : Scanner} (hclosed : scanner.gapAhead.unclosed = false)
    (context : Context) :
    ∃ text lexeme, lexeme.OwnFault ∧
      scanner.scan context = commit scanner scanner.tokenMark.offset scanner.tokenMark
        scanner.gapAhead.breaksLine text lexeme := by
  cases hdrop : scanner.unread.drop scanner.gapAhead.width with
  | nil => exact ⟨_, _, .accept _ _, scan_nil hclosed hdrop context⟩
  | cons c rest => exact ⟨_, _, Lexeme.read_ownFault _ c rest, scan_cons hclosed hdrop context⟩

/-- A comment without an end is found at the end of the source. -/
theorem scan_unclosed_fst {scanner : Scanner} (hunclosed : scanner.gapAhead.unclosed = true)
    (context : Context) :
    ∃ location, (scanner.scan context).1 =
      .error ⟨.unterminatedComment, scanner.sourceLength, location⟩ := by
  have hne : scanner.unread ≠ [] := by
    intro hnil
    rw [gapAhead, Trivia.skip_unclosed, hnil, List.drop_nil] at hunclosed
    cases hunclosed
  rw [scan_unclosed hunclosed, offset_past_unread hne]
  exact ⟨_, rfl⟩

/-- Only a gap that leaves a comment open makes a scan fail for a comment. -/
theorem unclosed_of_scan {scanner : Scanner} {context : Context} {error : ScanError}
    (hscan : (scanner.scan context).1 = .error error)
    (hfault : error.fault = .unterminatedComment) :
    scanner.gapAhead.unclosed = true := by
  cases hclosed : scanner.gapAhead.unclosed with
  | true => rfl
  | false =>
    obtain ⟨text, lexeme, hown, hcommit⟩ := scan_closed hclosed context
    rw [hcommit] at hscan
    obtain ⟨-, -, herror⟩ := commit_spec scanner scanner.tokenMark.offset scanner.tokenMark
      scanner.gapAhead.breaksLine text lexeme
    obtain ⟨misread, hresult, hsame⟩ := herror error hscan
    exact absurd (hsame.trans hfault) (hown misread hresult)

/-- The token begins right after the gap, and so does a malformed one. -/
theorem scan_closed_spec {scanner : Scanner} (hclosed : scanner.gapAhead.unclosed = false)
    (context : Context) :
    (scanner.scan context).2.state.tokenStart = scanner.tokenMark.offset ∧
      (scanner.scan context).2.state.flags.precedingLineBreak = scanner.gapAhead.breaksLine := by
  obtain ⟨text, lexeme, -, hcommit⟩ := scan_closed hclosed context
  obtain ⟨hstart, hbreaks, -⟩ := commit_spec scanner scanner.tokenMark.offset scanner.tokenMark
    scanner.gapAhead.breaksLine text lexeme
  rw [hcommit]
  exact ⟨hstart, hbreaks⟩

theorem closed_of_scan_ok {scanner after : Scanner} {context : Context} {token : Token}
    (hscan : scanner.scan context = (.ok token, after)) : scanner.gapAhead.unclosed = false := by
  cases hclosed : scanner.gapAhead.unclosed with
  | true =>
    rw [scan_unclosed hclosed] at hscan
    cases hscan
  | false => rfl

/-- A scan skips the longest sequence of blanks, line terminators and comments where it begins. It
    fails at the end of the source, for a comment without an end, exactly if such a comment comes
    next. Otherwise the token begins right after the gap, and if it can be read it is marked to come
    after a line break exactly if the gap has a line terminator in it. To search the bytes of the
    source for the ends of comments comes to the same. -/
theorem scan_skips_longest_gap (scanner : Scanner) (context : Context) :
    ∃ gap rest, Trivia.LongestGap scanner.hashbangAhead scanner.unread gap rest ∧
      ((∃ location, (scanner.scan context).1 =
          .error ⟨.unterminatedComment, scanner.sourceLength, location⟩) ↔
        Trivia.Unclosed rest) ∧
      (∀ error, (scanner.scan context).1 = .error error → error.fault = .unterminatedComment →
        Trivia.Unclosed rest) ∧
      (¬Trivia.Unclosed rest →
        (scanner.scan context).2.state.tokenStart = scanner.offset + utf8Length gap) ∧
      (∀ token after, scanner.scan context = (.ok token, after) →
        (after.state.flags.precedingLineBreak = true ↔ ∃ c ∈ gap, isLineTerminator c = true)) ∧
      ∃ skipped, Trivia.skip? scanner.hashbangAhead scanner.source scanner.state.mark =
          some skipped ∧
        (skipped.unclosed = true ↔ Trivia.Unclosed rest) ∧
        (skipped.unclosed = false → skipped.mark = scanner.state.mark.past gap) ∧
        skipped.breaksLine = gap.any isLineTerminator := by
  have hunclosed : scanner.gapAhead.unclosed = true ↔
      Trivia.Unclosed (scanner.unread.drop scanner.gapAhead.width) :=
    Trivia.skip_unclosed_iff scanner.hashbangAhead scanner.unread
  have hbreaks : scanner.gapAhead.breaksLine =
      (scanner.unread.take scanner.gapAhead.width).any isLineTerminator :=
    Trivia.skip_breaksLine scanner.hashbangAhead scanner.unread
  have honly (error : ScanError) (herror : (scanner.scan context).1 = .error error)
      (hfault : error.fault = .unterminatedComment) :
      Trivia.Unclosed (scanner.unread.drop scanner.gapAhead.width) :=
    hunclosed.mp (unclosed_of_scan herror hfault)
  have hlongest : Trivia.LongestGap scanner.hashbangAhead scanner.unread
      (scanner.unread.take scanner.gapAhead.width) (scanner.unread.drop scanner.gapAhead.width) :=
    Trivia.skip_longest scanner.hashbangAhead scanner.unread
  refine ⟨_, _, hlongest, ⟨?_, ?_⟩, honly, ?_, ?_,
    scanner.gapAhead.skippedFrom scanner.state.mark scanner.unread false,
    Trivia.skip?_eq _ _ _, hunclosed, ?_, hbreaks⟩
  · rintro ⟨location, herror⟩
    exact honly _ herror rfl
  · intro hopen
    exact scan_unclosed_fst (hunclosed.mpr hopen) context
  · intro hclosed
    rw [← hunclosed, Bool.not_eq_true] at hclosed
    exact (scan_closed_spec hclosed context).1.trans scanner.tokenMark_offset
  · intro token after hscan
    obtain ⟨-, hflag⟩ := scan_closed_spec (closed_of_scan_ok hscan) context
    rw [hscan] at hflag
    rw [hflag, hbreaks, List.any_eq_true]
  · intro hclosed
    have hgap : scanner.gapAhead.unclosed = false := hclosed
    rw [Trivia.Gap.skippedFrom, hgap]
    rfl

end Scanner

end EcmaLexer
