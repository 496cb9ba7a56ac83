import EcmaLexer.Proofs.Text.Bytes
import EcmaLexer.Scanner.Scan

namespace EcmaLexer.Scanner

/-- Where there is something to read, it is the rest of the source. -/
theorem source_eq_append_textFrom {scanner : Scanner} {offset : Nat}
    (hne : scanner.textFrom offset ≠ []) :
    ∃ before, scanner.source = before ++ scanner.textFrom offset ∧
      Text.utf8Length before = offset := by
  unfold textFrom at *
  cases hdrop : Text.dropBytes? offset scanner.source with
  | none => simp [hdrop] at hne
  | some rest =>
    rw [Option.getD_some]
    exact Text.dropBytes?_eq_some hdrop

theorem source_eq_append_unread {scanner : Scanner} (hne : scanner.unread ≠ []) :
    ∃ before, scanner.source = before ++ scanner.unread ∧
      Text.utf8Length before = scanner.offset :=
  source_eq_append_textFrom hne

theorem textFrom_utf8Length {scanner : Scanner} {before text : List Char}
    (hsource : scanner.source = before ++ text) :
    scanner.textFrom (Text.utf8Length before) = text := by
  rw [textFrom, hsource, Text.dropBytes?_utf8Length_append, Option.getD_some]

/-- The blanks and comments before the next token. -/
def gapAhead (scanner : Scanner) : Trivia.Gap :=
  Trivia.skip (scanner.options.skipHashbang && scanner.offset == 0) scanner.unread

/-- The mark of the next token. -/
def tokenMark (scanner : Scanner) : Text.Mark :=
  scanner.state.mark.past (scanner.unread.take scanner.gapAhead.width)

theorem tokenMark_offset (scanner : Scanner) :
    scanner.tokenMark.offset = scanner.offset + Text.utf8Length (scanner.unread.take scanner.gapAhead.width) :=
  Text.Mark.offset_past _ _

theorem scan_cons {scanner : Scanner} (hclosed : scanner.gapAhead.unclosed = false) {c : Char}
    {rest : List Char}
    (hdrop : scanner.unread.drop scanner.gapAhead.width = c :: rest) (context : Context) :
    scanner.scan context =
      commit scanner scanner.tokenMark.offset scanner.tokenMark scanner.gapAhead.breaksLine (c :: rest)
        (Lexeme.read (scanner.contextFor context) c rest) := by
  unfold scan
  simp only [← gapAhead.eq_1, hclosed, ← tokenMark.eq_1, hdrop]
  rfl

theorem scan_nil {scanner : Scanner} (hclosed : scanner.gapAhead.unclosed = false)
    (hdrop : scanner.unread.drop scanner.gapAhead.width = []) (context : Context) :
    scanner.scan context =
      commit scanner scanner.tokenMark.offset scanner.tokenMark scanner.gapAhead.breaksLine []
        (Lexeme.accept .endOfSource 0) := by
  unfold scan
  simp only [← gapAhead.eq_1, hclosed, ← tokenMark.eq_1, hdrop]
  rfl

/-- A comment that never ends takes up the rest of the text. -/
theorem scan_unclosed {scanner : Scanner} (hunclosed : scanner.gapAhead.unclosed = true)
    (context : Context) :
    scanner.scan context =
      report
        { scanner with
          state :=
            { scanner.state with
              mark := scanner.state.mark.past scanner.unread
              value := some []
              flags := { precedingLineBreak := scanner.gapAhead.breaksLine } } }
        .unterminatedComment (scanner.state.mark.past scanner.unread).offset := by
  unfold scan
  simp only [← gapAhead.eq_1, hunclosed]
  rfl

/-- The scan of a token that nothing comes before: it is read where the cursor stands. -/
theorem scan_here {scanner : Scanner} {c : Char} {rest : List Char}
    (hgap : scanner.gapAhead = ⟨0, false, false⟩) (hunread : scanner.unread = c :: rest)
    (context : Context) :
    scanner.scan context = commit scanner scanner.offset scanner.state.mark false scanner.unread
      (Lexeme.read (scanner.contextFor context) c rest) := by
  have hmark : scanner.tokenMark = scanner.state.mark := by
    rw [tokenMark, hgap, List.take_zero]
    rfl
  have hclosed : scanner.gapAhead.unclosed = false := by rw [hgap]
  have hdrop : scanner.unread.drop scanner.gapAhead.width = c :: rest := by
    rw [hgap, List.drop_zero, hunread]
  rw [scan_cons hclosed hdrop, hmark, hgap, hunread]
  rfl

theorem commit_ok {lexeme : Lexeme} {token : Token} (hresult : lexeme.result = .ok token)
    (scanner : Scanner)
    (tokenStart : Nat) (start : Text.Mark) (breaksLine : Bool) (text : List Char) :
    commit scanner tokenStart start breaksLine text lexeme =
      (.ok token,
        { scanner with
          state :=
            { mark := start.past (text.take lexeme.width)
              tokenStart := tokenStart
              value := lexeme.value
              rawStart := tokenStart + token.openerLength
              rawStop := (start.past (text.take lexeme.width)).offset - token.closerLength
              token := token
              flags := { lexeme.flags with precedingLineBreak := breaksLine } } }) := by
  simp [commit, hresult]

theorem commit_error {lexeme : Lexeme} {misread : Misread}
    (hresult : lexeme.result = .error misread)
    (scanner : Scanner) (tokenStart : Nat) (start : Text.Mark) (breaksLine : Bool)
    (text : List Char) :
    commit scanner tokenStart start breaksLine text lexeme =
      report
        { scanner with
          state :=
            { scanner.state with
              mark := start.past (text.take lexeme.width)
              tokenStart := tokenStart
              value := lexeme.value
              flags := { lexeme.flags with precedingLineBreak := breaksLine } } }
        misread.fault (start.offset + Text.utf8Length (text.take misread.before)) := by
  simp [commit, hresult]

theorem isOk_commit (scanner : Scanner) (tokenStart : Nat) (start : Text.Mark) (breaksLine : Bool)
    (text : List Char) (lexeme : Lexeme) :
    (commit scanner tokenStart start breaksLine text lexeme).1.isOk = lexeme.result.isOk := by
  cases hresult : lexeme.result with
  | ok token =>
    rw [commit_ok hresult]
    rfl
  | error misread =>
    rw [commit_error hresult]
    rfl

/-- The raw text of a token without delimiters is all that was read, and the cursor stands
    right after it. -/
theorem commit_bare {scanner : Scanner} {text rest : List Char} {lexeme : Lexeme} {token : Token}
    (hunread : text ++ rest = scanner.unread) (hne : scanner.unread ≠ [])
    (hresult : lexeme.result = .ok token) (hwidth : lexeme.width = text.length)
    (hdelimiters : token.openerLength = 0 ∧ token.closerLength = 0) :
    ∃ after, commit scanner scanner.offset scanner.state.mark false scanner.unread lexeme =
        (.ok token, after) ∧
      after.state.token = token ∧ after.raw? = some text ∧ after.state.value = lexeme.value ∧
      after.state.flags = { lexeme.flags with precedingLineBreak := false } ∧
      after.unread = rest := by
  obtain ⟨before, hsource, hbefore⟩ := source_eq_append_unread hne
  have hstop : (scanner.state.mark.past (scanner.unread.take lexeme.width)).offset =
      Text.utf8Length before + Text.utf8Length text := by
    rw [Text.Mark.offset_past, hwidth, ← hunread, List.take_left, hbefore]
    rfl
  rw [← hunread, ← List.append_assoc] at hsource
  have hrest : scanner.textFrom
      (scanner.state.mark.past (scanner.unread.take lexeme.width)).offset = rest := by
    rw [hstop, ← Text.utf8Length_append]
    exact textFrom_utf8Length hsource
  refine ⟨_, commit_ok hresult _ _ _ _ _, rfl, ?_, rfl, rfl, hrest⟩
  simp only [raw?, hstop, hdelimiters, Nat.add_zero, Nat.sub_zero, hsource, ← hbefore]
  exact Text.slice?_append before text rest

/-- A token that was read is the scanner's current one. -/
theorem commit_token {scanner after : Scanner} {tokenStart : Nat} {start : Text.Mark}
    {breaksLine : Bool} {text : List Char} {lexeme : Lexeme} {token : Token}
    (hcommit : commit scanner tokenStart start breaksLine text lexeme = (.ok token, after)) :
    lexeme.result = .ok token ∧ after.state.token = token := by
  cases hresult : lexeme.result with
  | error misread =>
    rw [commit_error hresult] at hcommit
    cases hcommit
  | ok found =>
    rw [commit_ok hresult] at hcommit
    cases hcommit
    exact ⟨rfl, rfl⟩

theorem scan_token {scanner after : Scanner} {context : Context} {token : Token}
    (hscan : scanner.scan context = (.ok token, after)) : after.state.token = token := by
  cases hunclosed : scanner.gapAhead.unclosed with
  | true =>
    rw [scan_unclosed hunclosed] at hscan
    cases hscan
  | false =>
    cases hdrop : scanner.unread.drop scanner.gapAhead.width with
    | nil =>
      rw [scan_nil hunclosed hdrop] at hscan
      exact (commit_token hscan).2
    | cons c rest =>
      rw [scan_cons hunclosed hdrop] at hscan
      exact (commit_token hscan).2

end EcmaLexer.Scanner
