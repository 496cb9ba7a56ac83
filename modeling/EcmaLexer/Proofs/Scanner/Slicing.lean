import EcmaLexer.Proofs.Lexeme.Slicing
import EcmaLexer.Proofs.Scanner.Accounting
import EcmaLexer.Proofs.Scanner.Soundness
import EcmaLexer.Proofs.Trivia.Slicing

namespace EcmaLexer.Scanner

open Text (Mark dropBytes? ahead stepBack?)

/-- Reads the next token with every slice of the source checked. -/
def scan? (scanner : Scanner) (context : Context) : Option (Except ScanError Token × Scanner) := do
  let hashbang := scanner.options.skipHashbang && scanner.offset == 0
  let gap ← Trivia.skip? hashbang scanner.source scanner.state.mark
  if gap.unclosed then
    let state : State :=
      { scanner.state with
        mark := gap.mark
        value := some []
        flags := { precedingLineBreak := gap.breaksLine } }
    some (report { scanner with state := state } .unterminatedComment gap.mark.offset)
  else
    let text := scanner.textFrom gap.mark.offset
    let lexeme ←
      match text with
      | [] => some (Lexeme.accept .endOfSource 0)
      | c :: rest => Lexeme.read? (scanner.contextFor context) scanner.source gap.mark c rest
    some (commit scanner gap.mark.offset gap.mark gap.breaksLine text lexeme)

/-- Reads a segment after its opening delimiter with every slice of the source checked. -/
def takeSegment? (scanner : Scanner) (tokenStart : Nat) (start : Mark) (context : Context) :
    Option (Except ScanError Token × Scanner) := do
  let text := scanner.textFrom start.offset
  let lexeme ← Template.segment? (scanner.contextFor context) scanner.source start text
  some (commit scanner tokenStart start false text lexeme)

def scanTemplate? (scanner : Scanner) (context : Context) :
    Option (Except ScanError Token × Scanner) :=
  takeSegment? scanner scanner.offset (scanner.state.mark.advance 1) context

/-- Steps back to the brace that closed a substitution, and reads the segment after it. -/
def resumeTemplate? (scanner : Scanner) (context : Context) :
    Option (Except ScanError Token × Scanner) :=
  if scanner.atEnd || scanner.offset == 0 then
    some (report scanner .unexpectedEndOfInput scanner.offset)
  else do
    let brace ← stepBack? scanner.offset
    takeSegment? scanner brace { scanner.state.mark with offset := brace + 1 } context

/-- Where the gap ends, the text goes on that comes after it. -/
theorem textFrom_tokenMark (scanner : Scanner) :
    scanner.textFrom scanner.tokenMark.offset = scanner.unread.drop scanner.gapAhead.width := by
  cases hunread : scanner.unread with
  | nil =>
    have hmark : scanner.tokenMark = scanner.state.mark := by
      rw [tokenMark, hunread, List.take_nil]
      rfl
    rw [hmark, List.drop_nil]
    exact hunread
  | cons c rest =>
    have hdrop : dropBytes? scanner.offset scanner.source = some scanner.unread :=
      Text.dropBytes?_of_ahead rfl (by rw [hunread]; exact List.cons_ne_nil c rest)
    rw [← List.take_append_drop scanner.gapAhead.width scanner.unread] at hdrop
    rw [tokenMark_offset, ← hunread]
    exact Text.ahead_of_dropBytes? (Text.dropBytes?_add hdrop)

theorem scan?_eq (scanner : Scanner) (context : Context) :
    scanner.scan? context = some (scanner.scan context) := by
  have hskip : Trivia.skip? (scanner.options.skipHashbang && scanner.offset == 0) scanner.source
      scanner.state.mark =
        some (scanner.gapAhead.skippedFrom scanner.state.mark scanner.unread false) :=
    Trivia.skip?_eq _ _ _
  unfold scan?
  simp only [hskip, Option.bind_eq_bind, Option.bind_some]
  cases hunclosed : scanner.gapAhead.unclosed with
  | true =>
    have hgap : scanner.gapAhead.skippedFrom scanner.state.mark scanner.unread false =
        ⟨scanner.state.mark.past scanner.unread, scanner.gapAhead.breaksLine, true⟩ := by
      simp only [Trivia.Gap.skippedFrom, hunclosed, if_true, Bool.false_or]
    rw [hgap, scan_unclosed hunclosed, if_pos rfl]
  | false =>
    have hgap : scanner.gapAhead.skippedFrom scanner.state.mark scanner.unread false =
        ⟨scanner.tokenMark, scanner.gapAhead.breaksLine, false⟩ := by
      simp only [Trivia.Gap.skippedFrom, hunclosed, Bool.false_or]
      rfl
    rw [hgap, if_neg Bool.false_ne_true]
    simp only [textFrom_tokenMark]
    cases hdrop : scanner.unread.drop scanner.gapAhead.width with
    | nil => rw [scan_nil hunclosed hdrop]
    | cons c rest =>
      have hahead : ahead scanner.source scanner.tokenMark.offset = c :: rest :=
        (textFrom_tokenMark scanner).trans hdrop
      have hnext := Text.dropBytes?_of_ahead hahead (List.cons_ne_nil c rest)
      simp only [scan_cons hunclosed hdrop, Lexeme.read?_eq hnext, Option.bind_some]

theorem takeSegment?_eq (scanner : Scanner) (tokenStart : Nat) (start : Mark) (context : Context) :
    takeSegment? scanner tokenStart start context =
      some (commit scanner tokenStart start false (scanner.textFrom start.offset)
        (Template.segment (scanner.contextFor context) (scanner.textFrom start.offset))) := by
  have hsegment : Template.segment? (scanner.contextFor context) scanner.source start
      (scanner.textFrom start.offset) =
        some (Template.segment (scanner.contextFor context) (scanner.textFrom start.offset)) := by
    cases htext : scanner.textFrom start.offset with
    | nil => rw [Template.segment?, Template.segment]
    | cons c rest =>
      exact Template.segment?_eq _ (Text.dropBytes?_of_ahead htext (List.cons_ne_nil c rest))
  simp only [takeSegment?, hsegment, Option.bind_eq_bind, Option.bind_some]

theorem scanTemplate?_eq (scanner : Scanner) (context : Context) :
    scanner.scanTemplate? context = some (scanner.scanTemplate context) :=
  takeSegment?_eq scanner _ _ context

theorem resumeTemplate?_eq (scanner : Scanner) (context : Context) :
    scanner.resumeTemplate? context = some (scanner.resumeTemplate context) := by
  unfold resumeTemplate? resumeTemplate
  split
  · rfl
  · next hbegun =>
    have hpos : 0 < scanner.offset := by
      refine Nat.pos_of_ne_zero fun hzero => hbegun ?_
      rw [hzero, Bool.or_eq_true_iff]
      exact .inr rfl
    have hstart : { scanner.state.mark with offset := scanner.offset - 1 + 1 } =
        scanner.state.mark := by
      rw [Nat.sub_add_cancel hpos]
      rfl
    rw [Text.stepBack?_eq hpos, Option.bind_eq_bind, Option.bind_some, hstart]
    exact takeSegment?_eq scanner _ _ context

/-- A request for a token with every slice of the source checked. -/
def SegmentEntry.scan? (entry : SegmentEntry) (scanner : Scanner) (context : Context) :
    Option (Except ScanError Token × Scanner) :=
  match entry with
  | opening => scanner.scanTemplate? context
  | reached => scanner.scan? context
  | resumed => scanner.resumeTemplate? context

theorem SegmentEntry.scan?_eq (entry : SegmentEntry) (scanner : Scanner) (context : Context) :
    entry.scan? scanner context = some (entry.scan scanner context) := by
  cases entry with
  | opening => exact scanTemplate?_eq scanner context
  | reached => exact Scanner.scan?_eq scanner context
  | resumed => exact resumeTemplate?_eq scanner context

theorem scan_readable {scanner : Scanner} (hreadable : scanner.state.Readable scanner.source)
    (context : Context) : (scanner.scan context).2.state.Readable scanner.source := by
  cases hunclosed : scanner.gapAhead.unclosed with
  | true =>
    rw [scan_unclosed hunclosed]
    refine ⟨?_, hreadable.rawStart, hreadable.rawStop, hreadable.rawStart_le⟩
    have hend := isBoundary_utf8Length scanner.source
    rwa [← past_unread hreadable] at hend
  | false =>
    obtain ⟨-, start, text, lexeme, htakeover, hscan⟩ := scan_takeover hreadable hunclosed context
    rw [hscan]
    exact commit_readable htakeover hreadable _

theorem resumeTemplate_readable {scanner : Scanner}
    (hreadable : scanner.state.Readable scanner.source) (context : Context) :
    (scanner.resumeTemplate context).2.state.Readable scanner.source := by
  fun_cases resumeTemplate scanner context with
  | case1 hend =>
    exact ⟨hreadable.cursor, hreadable.rawStart, hreadable.rawStop, hreadable.rawStart_le⟩
  | case2 hbegun =>
    exact commit_readable (resumeTemplate_takeover hreadable hbegun _) hreadable false

/-- A request for a token keeps the raw text readable, unless it is for a template where no
    character of one byte stands. -/
theorem Command.request_readable {source : List Char} {session : Session}
    (hkeeps : session.Keeps source (State.Readable source)) {command : Command}
    (hscan : command.isScan = true)
    (hnarrow : ∀ context, command = .scanTemplate context →
      opensNarrow session.scanner.unread = true) :
    (command.run session).2.Keeps source (State.Readable source) := by
  obtain ⟨rfl, hstate, hslots⟩ := hkeeps
  cases command with
  | scan context =>
    rw [Command.run]
    exact ⟨(scan_accounts session.scanner context).sameSource, scan_readable hstate context, hslots⟩
  | scanTemplate context =>
    rw [Command.run]
    exact ⟨(scanTemplate_accounts session.scanner context).sameSource,
      commit_readable (scanTemplate_takeover hstate (hnarrow context rfl) _) hstate false, hslots⟩
  | resumeTemplate context =>
    rw [Command.run]
    exact ⟨(resumeTemplate_accounts session.scanner context).sameSource,
      resumeTemplate_readable hstate context, hslots⟩
  | _ => cases hscan

/-- No slice of the source ever fails and no offset ever falls below zero, on any scanner, be its
    cursor past the end or inside of a character: the scanner with all of them checked is the
    scanner. Only the raw text can be out of reach, and only after a template was asked for where
    no character of one byte stands. -/
theorem slices_stay_in_range :
    (∀ (entry : SegmentEntry) (scanner : Scanner) (context : Context),
      entry.scan? scanner context = some (entry.scan scanner context)) ∧
    ∀ (source : List Char) (options : Options) (commands : List Command) (command : Command)
      (before : Session),
      Performed commands (.ofScanner (.ofSource source options)) command before →
      (command.run before).2.scanner.raw? = none →
      ∃ context earlier,
        Performed commands (.ofScanner (.ofSource source options)) (.scanTemplate context) earlier ∧
          opensNarrow earlier.scanner.unread = false := by
  refine ⟨SegmentEntry.scan?_eq, fun source options commands command before hperformed hraw => ?_⟩
  by_contra hmisused
  have hstart : (Session.ofScanner (.ofSource source options)).Keeps source
      (State.Readable source) :=
    ⟨rfl, (State.initial_sound source).readable, fun _ hmem => absurd hmem List.not_mem_nil⟩
  have hrequests : KeptByRequests source (State.Readable source) commands
      (.ofScanner (.ofSource source options)) := by
    intro request inside hinside hscan hkeeps
    refine Command.request_readable hkeeps hscan fun context hrequest => ?_
    subst hrequest
    by_contra hwide
    exact hmisused ⟨context, inside, hinside, Bool.eq_false_iff.mpr hwide⟩
  have hbefore := hperformed.keeps (fun _ hstate => hstate) hstart hrequests
  have hafter := Command.run_keeps (fun _ hstate => hstate) command before hbefore
    (hrequests.command hperformed)
  have hsome := hafter.raw? fun _ hstate => hstate
  rw [hraw] at hsome
  cases hsome

/-- A template is asked for in front of a character of two bytes, and then the next token from
    inside of it. -/
theorem slices_stay_in_range_misused :
    let session := Session.ofScanner (.ofSource "\u00e9".toList {})
    let before := ((Command.scanTemplate {}).run session).2
    SegmentEntry.reached.scan? before.scanner {} = some (before.scanner.scan {}) ∧
      Performed [.scanTemplate {}, .scan {}] session (.scan {}) before ∧
      ((Command.scan {}).run before).2.scanner.raw? = none ∧
      ∃ context earlier,
        Performed [.scanTemplate {}, .scan {}] session (.scanTemplate context) earlier ∧
          opensNarrow earlier.scanner.unread = false := by
  intro session before
  have hperformed : Performed [.scanTemplate {}, .scan {}] session (.scan {}) before :=
    .later (.first _ _ _)
  have hraw : ((Command.scan {}).run before).2.scanner.raw? = none := by
    simp only [before, session, Command.run, Session.act]
    decide +kernel
  exact ⟨slices_stay_in_range.1 .reached before.scanner {}, hperformed, hraw,
    slices_stay_in_range.2 _ _ _ _ _ hperformed hraw⟩

end EcmaLexer.Scanner
