import EcmaLexer.Proofs.Lexeme.Fits
import EcmaLexer.Proofs.Scanner.Segment
import EcmaLexer.Proofs.Text.Lines

namespace EcmaLexer

open Text (CleanCut Mark utf8Length)

/-- The opening delimiter of a token, which only templates have. -/
def Template.opener (delimiter : Char) (token : Token) : List Char :=
  if token.isTemplate then [delimiter] else []

@[simp] theorem Template.length_opener (delimiter : Char) (token : Token) :
    (opener delimiter token).length = token.openerLength := by
  unfold opener Token.openerLength
  cases token.isTemplate <;> rfl

theorem Template.utf8Length_opener {delimiter : Char} (hsize : delimiter.utf8Size = 1)
    (token : Token) : utf8Length (opener delimiter token) = token.openerLength := by
  unfold opener Token.openerLength
  cases token.isTemplate with
  | false => rfl
  | true => simp [hsize]

/-- A token that a reading gives stands between its delimiters, which templates have. -/
def Lexeme.Delimited (delimiter : Char) (text : List Char) (lexeme : Lexeme) : Prop :=
  ∀ token, lexeme.result = .ok token → ∃ raw,
    text.take lexeme.width = Template.opener delimiter token ++ raw ++ Template.closer token

/-- The part of a token's text that is left without its delimiters. -/
def Token.rawOf (token : Token) (piece : List Char) : List Char :=
  (piece.drop token.openerLength).take (piece.length - token.openerLength - token.closerLength)

theorem Token.rawOf_delimited (token : Token) (delimiter : Char) (raw : List Char) :
    token.rawOf (Template.opener delimiter token ++ raw ++ Template.closer token) = raw := by
  have hlength : (Template.opener delimiter token ++ raw ++ Template.closer token).length -
      token.openerLength - token.closerLength = raw.length := by
    simp only [List.length_append, Template.length_closer, Template.length_opener]
    omega
  rw [rawOf, hlength, ← Template.length_opener delimiter, List.append_assoc, List.drop_left,
    List.take_left]

/-- The token that a reading at the head of a text gives, when the text comes after `read`. -/
def Lexeme.scanned (lexeme : Lexeme) (read text : List Char) (token : Token) (breaksLine : Bool) :
    ScannedToken where
  token := token
  range := .ofOffsets (utf8Length read) (utf8Length (read ++ text.take lexeme.width))
  value := lexeme.value
  raw := token.rawOf (text.take lexeme.width)
  flags := { lexeme.flags with precedingLineBreak := breaksLine }

/-- The error that a reading at the head of a text gives, when the text comes after `read`. -/
def Lexeme.scanError (lexeme : Lexeme) (read text : List Char) (misread : Misread) : ScanError where
  fault := misread.fault
  position := utf8Length (read ++ text.take misread.before)
  location := (Mark.origin.past (read ++ text.take lexeme.width)).locate
    (utf8Length (read ++ text.take misread.before))

namespace Scanner

/-- The scanner stands between two parts of its source. -/
structure StandsAt (scanner : Scanner) (read unread : List Char) : Prop where
  source : scanner.source = read ++ unread
  clean : CleanCut read unread
  mark : scanner.state.mark = Mark.origin.past read

namespace StandsAt

variable {scanner : Scanner} {read unread : List Char}

theorem offset_eq (hstands : scanner.StandsAt read unread) : scanner.offset = utf8Length read := by
  rw [offset, hstands.mark, Mark.offset_origin_past]

theorem unread_eq (hstands : scanner.StandsAt read unread) : scanner.unread = unread := by
  rw [Scanner.unread, hstands.offset_eq]
  exact textFrom_utf8Length hstands.source

theorem location_eq (hstands : scanner.StandsAt read unread) :
    scanner.location = Text.endLocation read := by
  rw [location, hstands.offset_eq, hstands.mark]
  rfl

/-- A first line may be a hashbang only where nothing was read yet. -/
theorem gapAhead_eq (hstands : scanner.StandsAt read unread) :
    scanner.gapAhead = Trivia.skip (scanner.options.skipHashbang && read.isEmpty) unread := by
  have hstart : (scanner.offset == 0) = read.isEmpty := by
    rw [hstands.offset_eq]
    cases read with
    | nil => rfl
    | cons c read =>
      have hpos := c.utf8Size_pos
      simp [Nat.ne_of_gt hpos]
  rw [gapAhead, hstands.unread_eq, hstart]

/-- A comment that never ends is found at the end of the source. -/
theorem scan_unclosed_at (hstands : scanner.StandsAt read unread)
    (hunclosed : scanner.gapAhead.unclosed = true) (context : Context) :
    ∃ after, scanner.scan context =
        (.error ⟨.unterminatedComment, utf8Length (read ++ unread),
          Text.endLocation (read ++ unread)⟩, after) ∧
      after.StandsAt (read ++ unread) [] := by
  have hmark : scanner.state.mark.past scanner.unread = Mark.origin.past (read ++ unread) := by
    rw [hstands.mark, hstands.unread_eq, Mark.past_append _ hstands.clean]
  rw [scan_unclosed hunclosed, hmark, Mark.offset_origin_past]
  refine ⟨_, rfl, ?_, .nil_right _, rfl⟩
  rw [List.append_nil]
  exact hstands.source


/-- A segment is read from the brace on that the scanner has just passed. -/
theorem resumeTemplate_eq_commit (hstands : scanner.StandsAt (read ++ ['\x7d']) rest)
    (hrest : rest ≠ []) (context : Context) :
    scanner.resumeTemplate context =
      commit scanner (utf8Length read) (Mark.origin.past read) false ('\x7d' :: rest)
        ((Template.segment (scanner.contextFor context) rest).after 1 [] {}) := by
  have hopens : SegmentEntry.resumed.Opens scanner scanner.offset rest := by
    refine ⟨rfl, read, ?_, ?_⟩
    · rw [hstands.source, List.append_assoc, List.singleton_append]
    · rw [hstands.offset_eq, Text.utf8Length_append]
      rfl
  have hscan := hopens.scan_eq_commit (fun _ => hrest) context
  have hmark : scanner.state.mark = (Mark.origin.past read).advance 1 := by
    rw [hstands.mark, Mark.past_append _ (.of_head_ne (by decide))]
    rfl
  have hstart : scanner.offset - 1 = utf8Length read := by
    rw [hstands.offset_eq, Text.utf8Length_append]
    rfl
  rw [SegmentEntry.scan, SegmentEntry.mark, hmark, hstart] at hscan
  rw [hscan, commit_delimiter rfl rfl]
  rfl

theorem resumeTemplate_end (hstands : scanner.StandsAt (read ++ ['\x7d']) [])
    (context : Context) :
    scanner.resumeTemplate context = report scanner .unexpectedEndOfInput scanner.offset := by
  have hend : scanner.atEnd = true := by
    rw [atEnd, sourceLength, hstands.source, hstands.offset_eq, List.append_nil]
    exact decide_eq_true (Nat.le_refl _)
  rw [resumeTemplate, hend]
  rfl

end StandsAt

/-- A token that fits into the text after `read` is taken over. -/
theorem commit_token_at {scanner : Scanner} {read text : List Char}
    (hsource : scanner.source = read ++ text) (hclean : CleanCut read text) {lexeme : Lexeme}
    (hfits : lexeme.Fits text) {delimiter : Char} (hsize : delimiter.utf8Size = 1)
    (hdelimited : lexeme.Delimited delimiter text) {token : Token}
    (hresult : lexeme.result = .ok token) (breaksLine : Bool) :
    ∃ after, commit scanner (utf8Length read) (Mark.origin.past read) breaksLine text lexeme =
        (.ok token, after) ∧
      after.StandsAt (read ++ text.take lexeme.width) (text.drop lexeme.width) ∧
      after.options = scanner.options ∧
      after.current = lexeme.scanned read text token breaksLine := by
  obtain ⟨raw, hraw⟩ := hdelimited token hresult
  have hmark : (Mark.origin.past read).past (text.take lexeme.width) =
      Mark.origin.past (read ++ text.take lexeme.width) :=
    (Mark.past_append _ (hclean.take lexeme.width)).symm
  have hopener := Template.utf8Length_opener hsize token
  have hstart : utf8Length read + token.openerLength =
      utf8Length (read ++ Template.opener delimiter token) := by
    rw [Text.utf8Length_append, hopener]
  have hstop : utf8Length (read ++ text.take lexeme.width) - token.closerLength =
      utf8Length (read ++ Template.opener delimiter token) + utf8Length raw := by
    rw [hraw, ← Template.utf8Length_closer token]
    simp only [Text.utf8Length_append]
    omega
  have hparts : scanner.source = read ++ Template.opener delimiter token ++ raw ++
      (Template.closer token ++ text.drop lexeme.width) := by
    calc scanner.source = read ++ (text.take lexeme.width ++ text.drop lexeme.width) := by
          rw [List.take_append_drop, hsource]
      _ = _ := by
          rw [hraw]
          simp only [List.append_assoc]
  rw [commit_ok hresult]
  refine ⟨_, rfl, ⟨?_, hclean.append_take hfits.clean, hmark⟩, rfl, ?_⟩
  · rw [hsource, List.append_assoc, List.take_append_drop]
  · simp only [current, raw?, offset, hmark, Mark.offset_origin_past, hstart, hstop, Lexeme.scanned]
    rw [hparts, Text.slice?_append, hraw, Token.rawOf_delimited]
    rfl

/-- A fault in the text after `read` is reported on the line where the reading stops. -/
theorem commit_fault_at {scanner : Scanner} {read text : List Char}
    (hsource : scanner.source = read ++ text) (hclean : CleanCut read text) {lexeme : Lexeme}
    (hfits : lexeme.Fits text) {misread : Misread} (hresult : lexeme.result = .error misread)
    (breaksLine : Bool) :
    ∃ after, commit scanner (utf8Length read) (Mark.origin.past read) breaksLine text lexeme =
        (.error (lexeme.scanError read text misread), after) ∧
      after.StandsAt (read ++ text.take lexeme.width) (text.drop lexeme.width) := by
  have hmark : (Mark.origin.past read).past (text.take lexeme.width) =
      Mark.origin.past (read ++ text.take lexeme.width) :=
    (Mark.past_append _ (hclean.take lexeme.width)).symm
  have hposition : (Mark.origin.past read).offset + utf8Length (text.take misread.before) =
      utf8Length (read ++ text.take misread.before) := by
    rw [Mark.offset_origin_past, Text.utf8Length_append]
  rw [commit_error hresult, hmark, hposition]
  refine ⟨_, rfl, ?_, hclean.append_take hfits.clean, rfl⟩
  rw [List.append_assoc, List.take_append_drop]
  exact hsource

end Scanner

end EcmaLexer
