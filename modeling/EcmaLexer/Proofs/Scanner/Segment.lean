import EcmaLexer.Proofs.Scanner.Cursor
import EcmaLexer.Proofs.Template.Cooking

namespace EcmaLexer.Scanner

open Template (walk cook Closes Outcome)

/-- The ways to ask for a template segment: at its backtick, for the next token
    when that is a template, or after the brace that closes a substitution. -/
inductive SegmentEntry where
  | opening
  | reached
  | resumed
deriving DecidableEq

namespace SegmentEntry

def scan (entry : SegmentEntry) (scanner : Scanner) (context : Context) :
    Except ScanError Token × Scanner :=
  match entry with
  | opening => scanner.scanTemplate context
  | reached => scanner.scan context
  | resumed => scanner.resumeTemplate context

/-- The scanner stands before a segment, whose text begins at byte `start`, just
    past the opening delimiter, and goes on to the end of the source. -/
def Opens (entry : SegmentEntry) (scanner : Scanner) (start : Nat) (text : List Char) : Prop :=
  match entry with
  | opening => scanner.unread = '\x60' :: text ∧ start = scanner.offset + 1
  | reached =>
    scanner.gapAhead.unclosed = false ∧ scanner.unread.drop scanner.gapAhead.width = '\x60' :: text ∧
      start = scanner.tokenMark.offset + 1
  | resumed =>
    start = scanner.offset ∧
      ∃ before, scanner.source = before ++ '\x7d' :: text ∧
        scanner.offset = Text.utf8Length before + 1

/-- Where the text of the segment begins. -/
def mark (entry : SegmentEntry) (scanner : Scanner) : Text.Mark :=
  match entry with
  | opening => scanner.state.mark.advance 1
  | reached => scanner.tokenMark.advance 1
  | resumed => scanner.state.mark

/-- Whether a line ends before the segment; only the next token looks back. -/
def breaksLine (entry : SegmentEntry) (scanner : Scanner) : Bool :=
  match entry with
  | reached => scanner.gapAhead.breaksLine
  | _ => false

theorem Opens.mark_offset {entry : SegmentEntry} {scanner : Scanner} {start : Nat}
    {text : List Char}
    (hopens : entry.Opens scanner start text) : (entry.mark scanner).offset = start := by
  cases entry with
  | opening => exact hopens.2.symm
  | reached => exact hopens.2.2.symm
  | resumed => exact hopens.1.symm

end SegmentEntry

/-- The text of a segment is the source from `start` on. -/
theorem SegmentEntry.Opens.source {entry : SegmentEntry} {scanner : Scanner} {start : Nat}
    {text : List Char} (hopens : entry.Opens scanner start text) :
    ∃ before, scanner.source = before ++ text ∧ Text.utf8Length before = start := by
  cases entry with
  | opening =>
    obtain ⟨hunread, rfl⟩ := hopens
    obtain ⟨before, hsource, hlength⟩ := source_eq_append_unread (by simp [hunread] : scanner.unread ≠ [])
    refine ⟨before ++ ['\x60'], by simp [hsource, hunread], ?_⟩
    rw [Text.utf8Length_append, hlength]
    rfl
  | reached =>
    obtain ⟨-, hdrop, rfl⟩ := hopens
    have hne : scanner.unread ≠ [] := by
      intro hnil
      simp [hnil] at hdrop
    obtain ⟨before, hsource, hlength⟩ := source_eq_append_unread hne
    refine ⟨before ++ scanner.unread.take scanner.gapAhead.width ++ ['\x60'], ?_, ?_⟩
    · rw [List.append_assoc, List.singleton_append, ← hdrop, List.append_assoc,
        List.take_append_drop, hsource]
    · rw [Text.utf8Length_append, Text.utf8Length_append, hlength, tokenMark_offset]
      rfl
  | resumed =>
    obtain ⟨rfl, before, hsource, hlength⟩ := hopens
    refine ⟨before ++ ['\x7d'], by simp [hsource], ?_⟩
    rw [Text.utf8Length_append, hlength]
    rfl

/-- A lexeme that begins with a delimiter of one byte is taken over like the segment
    after it. -/
theorem commit_delimiter {delimiter : Char} (hsize : delimiter.utf8Size = 1)
    (hbreak : Text.isLineTerminator delimiter = false) (scanner : Scanner) (tokenStart : Nat)
    (mark : Text.Mark) (breaksLine : Bool) (text : List Char) (lexeme : Lexeme) :
    commit scanner tokenStart mark breaksLine (delimiter :: text) (lexeme.after 1 [] {}) =
      commit scanner tokenStart (mark.advance 1) breaksLine text lexeme := by
  have hmark (width : Nat) : mark.past ((delimiter :: text).take (1 + width)) =
      (mark.advance 1).past (text.take width) := by
    have hpair (tail : List Char) (hreturn : delimiter = '\r') : text.take width = '\n' :: tail →
        False := by
      rw [hreturn] at hbreak
      cases hbreak
    rw [Nat.add_comm, List.take_succ_cons, Text.Mark.past.eq_3 _ _ _ hpair, if_neg (by simp [hbreak]),
      hsize]
  have hposition (before : Nat) :
      mark.offset + Text.utf8Length ((delimiter :: text).take (1 + before)) =
        (mark.advance 1).offset + Text.utf8Length (text.take before) := by
    rw [Nat.add_comm 1, List.take_succ_cons, Text.utf8Length_cons, hsize, ← Nat.add_assoc]
    rfl
  unfold commit Lexeme.after
  cases hresult : lexeme.result with
  | ok token => simp [hmark, Flags.union]
  | error misread => simp [hmark, hposition, Flags.union]

/-- A lexeme that begins with a backtick is taken over like the segment after the
    backtick. -/
theorem commit_backtick (scanner : Scanner) (tokenStart : Nat) (mark : Text.Mark)
    (breaksLine : Bool) (text : List Char) (lexeme : Lexeme) :
    commit scanner tokenStart mark breaksLine ('\x60' :: text) (lexeme.after 1 [] {}) =
      commit scanner tokenStart (mark.advance 1) breaksLine text lexeme :=
  commit_delimiter rfl rfl scanner tokenStart mark breaksLine text lexeme

/-- Where no text is left after a brace, nothing is read. -/
theorem SegmentEntry.Opens.scan_eq_report {scanner : Scanner} {start : Nat}
    (hopens : SegmentEntry.resumed.Opens scanner start []) (context : Context) :
    SegmentEntry.resumed.scan scanner context =
      report scanner .unexpectedEndOfInput scanner.sourceLength := by
  obtain ⟨before, hsource, hlength⟩ := hopens.source
  obtain ⟨rfl, -⟩ := hopens
  have hend : scanner.sourceLength = scanner.offset := by
    rw [sourceLength, hsource, List.append_nil, hlength]
  simp [scan, resumeTemplate, atEnd, hend]

/-- Otherwise, however a segment is asked for, what is read is taken over from the
    text after its opening delimiter. -/
theorem SegmentEntry.Opens.scan_eq_commit {entry : SegmentEntry} {scanner : Scanner} {start : Nat}
    {text : List Char} (hopens : entry.Opens scanner start text)
    (htext : entry = .resumed → text ≠ []) (context : Context) :
    entry.scan scanner context =
      commit scanner (start - 1) (entry.mark scanner) (entry.breaksLine scanner) text
        (Template.segment (scanner.contextFor context) text) := by
  obtain ⟨before, hsource, hlength⟩ := hopens.source
  cases entry with
  | opening =>
    obtain ⟨hunread, rfl⟩ := hopens
    have htext : scanner.textFrom (scanner.state.mark.advance 1).offset = text := by
      rw [show (scanner.state.mark.advance 1).offset = Text.utf8Length before from hlength.symm]
      exact textFrom_utf8Length hsource
    rw [scan, scanTemplate, htext, Nat.add_sub_cancel]
    rfl
  | reached =>
    obtain ⟨hclosed, hdrop, rfl⟩ := hopens
    have hread : Lexeme.read (scanner.contextFor context) '\x60' text =
        (Template.segment (scanner.contextFor context) text).after 1 [] {} := rfl
    rw [scan, scan_cons hclosed hdrop, hread, commit_backtick, Nat.add_sub_cancel]
    rfl
  | resumed =>
    obtain ⟨rfl, brace, hbrace, hoffset⟩ := hopens
    have hunread : scanner.unread = text := by
      rw [unread, ← hlength]
      exact textFrom_utf8Length hsource
    have hend : scanner.sourceLength = scanner.offset + Text.utf8Length text := by
      rw [sourceLength, hsource, Text.utf8Length_append, hlength]
    cases text with
    | nil => exact absurd rfl (htext rfl)
    | cons c text =>
      have hpos := c.utf8Size_pos
      have hunended : (scanner.atEnd || scanner.offset == 0) = false := by
        simp [atEnd, hend, hoffset]
        omega
      simp [scan, resumeTemplate, hunended, hunread, mark, breaksLine]

end EcmaLexer.Scanner
