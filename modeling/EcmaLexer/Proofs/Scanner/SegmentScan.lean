import EcmaLexer.Proofs.Scanner.Segment

namespace EcmaLexer.Scanner

open Template

@[simp] theorem contextFor_tagged (scanner : Scanner) (context : Context) :
    (scanner.contextFor context).tagged = context.tagged := by
  simp [contextFor, Context.union, Options.context]

/-- What the scanner keeps of a segment that reaches its delimiter. -/
theorem commit_closed {scanner : Scanner} {before text : List Char} {mark : Text.Mark}
    {lexeme : Lexeme} {token : Token} (hsource : scanner.source = before ++ text)
    (hmark : mark.offset = Text.utf8Length before)
    (hpositive : 0 < mark.offset) (hcloses : Closes text lexeme)
    (hstop : (walk text).2 = some token) (breaksLine : Bool) :
    ∃ after, commit scanner (mark.offset - 1) mark breaksLine text lexeme = (.ok token, after) ∧
      after.state.rawStart = mark.offset ∧
        after.state.rawStop = mark.offset + Text.utf8Length (walk text).1 ∧
      after.offset = mark.offset + Text.utf8Length (walk text).1 + token.closerLength ∧
      after.raw? = some (walk text).1 ∧ after.state.value = lexeme.value ∧
      after.state.flags = { lexeme.flags with precedingLineBreak := breaksLine } ∧
      after.diagnostics = scanner.diagnostics := by
  unfold Closes at hcloses
  rw [hstop] at hcloses
  obtain ⟨hresult, hwidth⟩ := hcloses
  have hoffset : (mark.past (text.take lexeme.width)).offset =
      mark.offset + Text.utf8Length (walk text).1 + token.closerLength := by
    rw [Text.Mark.offset_past, hwidth, take_delimiter hstop, Text.utf8Length_append,
      utf8Length_closer, Nat.add_assoc]
  obtain ⟨htoken, rest, htext⟩ := walk_delimiter hstop
  have hopener : mark.offset - 1 + token.openerLength = mark.offset := by
    rcases htoken with rfl | rfl <;> exact Nat.sub_add_cancel hpositive
  have hslice : Text.slice? scanner.source mark.offset (mark.offset + Text.utf8Length (walk text).1) =
      some (walk text).1 := by
    generalize (walk text).1 = passed at *
    rw [hsource, htext, hmark, ← List.append_assoc]
    exact Text.slice?_append before passed _
  refine ⟨_, commit_ok hresult scanner _ mark breaksLine text, hopener, ?_, hoffset, ?_, rfl, rfl, rfl⟩
  · simp only [hoffset, Nat.add_sub_cancel]
  · simp only [raw?, hopener, hoffset, Nat.add_sub_cancel, hslice]

/-- The cooked value that a scanned segment has: the one of its raw text, or none
    when the template is tagged and an escape of the raw text malformed. -/
def Cooked (context : Context) (start : Nat) (raw : List Char) (state : State) : Prop :=
  match cook start raw with
  | .ok value => state.value = some value ∧ state.flags.containsInvalidEscape = false
  | .error _ => context.tagged = true ∧ state.value = none ∧ state.flags.containsInvalidEscape = true

/-- How the scan of a segment that begins at byte `start` can end: at a delimiter,
    at the end of the text, or, if the template is not tagged, at the first
    malformed escape. -/
inductive SegmentScan (scanner : Scanner) (context : Context) (start : Nat) (text : List Char) :
    Except ScanError Token × Scanner → Prop where
  | closed (token : Token) (after : Scanner) (hstop : (walk text).2 = some token)
      (hrawStart : after.state.rawStart = start)
      (hrawStop : after.state.rawStop = start + Text.utf8Length (walk text).1)
      (hoffset : after.offset = start + Text.utf8Length (walk text).1 + token.closerLength)
      (hraw : after.raw? = some (walk text).1) (hcooked : Cooked context start (walk text).1 after.state)
      (hdiagnostics : after.diagnostics = scanner.diagnostics) :
      SegmentScan scanner context start text (.ok token, after)
  | ended (location : Text.Location) (after : Scanner) (hstop : (walk text).2 = none)
      (hcook : context.tagged = true ∨ ∃ value, cook start (walk text).1 = .ok value) :
      SegmentScan scanner context start text
        (.error ⟨.unexpectedEndOfInput, scanner.sourceLength, location⟩, after)
  | refused (fault : EscapeFault) (position : Nat) (location : Text.Location) (after : Scanner)
      (htagged : context.tagged = false) (hcook : cook start (walk text).1 = .error (position, fault)) :
      SegmentScan scanner context start text (.error ⟨.invalidEscapeSequence fault, position, location⟩, after)

theorem SegmentEntry.Opens.start_pos {entry : SegmentEntry} {scanner : Scanner} {start : Nat}
    {text : List Char} (hopens : entry.Opens scanner start text) : 0 < start := by
  cases entry with
  | opening =>
    obtain ⟨-, rfl⟩ := hopens
    exact Nat.succ_pos _
  | reached =>
    obtain ⟨-, -, rfl⟩ := hopens
    exact Nat.succ_pos _
  | resumed =>
    obtain ⟨rfl, before, -, hoffset⟩ := hopens
    omega

/-- A lexeme that goes on to the delimiter, with the cooked value of its raw text. -/
theorem commit_closes {scanner : Scanner} {context : Context} {before text : List Char}
    {mark : Text.Mark} {lexeme : Lexeme} (hsource : scanner.source = before ++ text)
    (hmark : mark.offset = Text.utf8Length before)
    (hpositive : 0 < mark.offset) (hcloses : Closes text lexeme) (breaksLine : Bool)
    (hcooked : ∀ state : State, state.value = lexeme.value →
      state.flags = { lexeme.flags with precedingLineBreak := breaksLine } →
      Cooked context mark.offset (walk text).1 state)
    (hcook : context.tagged = true ∨ ∃ value, cook mark.offset (walk text).1 = .ok value) :
    SegmentScan scanner context mark.offset text
      (commit scanner (mark.offset - 1) mark breaksLine text lexeme) := by
  cases hstop : (walk text).2 with
  | some token =>
    obtain ⟨after, hcommit, hrawStart, hrawStop, hoffset, hraw, hvalue, hflags, hdiagnostics⟩ :=
      commit_closed hsource hmark hpositive hcloses hstop breaksLine
    rw [hcommit]
    exact .closed token after hstop hrawStart hrawStop hoffset hraw (hcooked _ hvalue hflags) hdiagnostics
  | none =>
    unfold Closes at hcloses
    rw [hstop] at hcloses
    have hend : mark.offset + Text.utf8Length (text.take text.length) = scanner.sourceLength := by
      rw [List.take_length, sourceLength, hsource, Text.utf8Length_append, hmark]
    rw [commit_error hcloses.1, hend]
    exact .ended _ _ hstop hcook

/-- However a segment is asked for, its scan ends in one of these ways. -/
theorem SegmentEntry.Opens.segmentScan {entry : SegmentEntry} {scanner : Scanner} {start : Nat}
    {text : List Char} (hopens : entry.Opens scanner start text) (context : Context) :
    SegmentScan scanner context start text (entry.scan scanner context) := by
  by_cases hend : entry = .resumed ∧ text = []
  · obtain ⟨rfl, rfl⟩ := hend
    rw [hopens.scan_eq_report]
    exact .ended _ _ rfl (.inr ⟨[], by rw [walk, cook]⟩)
  · rw [hopens.scan_eq_commit (fun hentry htext => hend ⟨hentry, htext⟩)]
    obtain ⟨before, hsource, hlength⟩ := hopens.source
    have hpositive := hopens.start_pos
    obtain rfl := hopens.mark_offset
    have houtcome := segment_outcome (scanner.contextFor context) (entry.mark scanner).offset text
    generalize entry.mark scanner = mark at *
    generalize Template.segment (scanner.contextFor context) text = lexeme at *
    generalize hcook : cook mark.offset (walk text).1 = cooked at houtcome
    cases houtcome with
    | cooked value hcloses hvalue hflags =>
      apply commit_closes hsource hlength.symm hpositive hcloses _ _ (.inr ⟨value, hcook⟩)
      intro state hstateValue hstateFlags
      simp [Cooked, hcook, hstateValue, hvalue, hstateFlags, hflags]
    | abandoned position fault htagged hcloses hvalue hflags =>
      rw [contextFor_tagged] at htagged
      apply commit_closes hsource hlength.symm hpositive hcloses _ _ (.inl htagged)
      intro state hstateValue hstateFlags
      simp [Cooked, hcook, htagged, hstateValue, hvalue, hstateFlags, hflags]
    | refused fault prior body rest htagged htext hwidth hunbroken hresult =>
      rw [contextFor_tagged] at htagged
      have hbefore : text.take prior.length = prior := by
        rw [htext, List.append_assoc, List.take_left]
      rw [commit_error hresult, hbefore]
      exact .refused fault _ _ _ htagged hcook

end EcmaLexer.Scanner
