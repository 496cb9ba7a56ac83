import EcmaLexer.CommandLine
import EcmaLexer.Proofs.Scanner.Accounting
import EcmaLexer.Proofs.Stream.Step

namespace EcmaLexer

open Text (utf8Length)

namespace Stream

theorem resume_accounts (stream : Stream) (context : Context) :
    stream.scanner.Accounts
      ((stream.resume context).1, (stream.resume context).2.scanner) := by
  have haccounts := stream.scanner.resumeTemplate_accounts context
  fun_cases resume stream context with
  | case1 scanner hresume => rwa [hresume] at haccounts
  | case2 result scanner hresume hcont => rwa [hresume] at haccounts

/-- Following a token reads nothing, unless a brace closes a substitution: then the rest of the
    template is asked for. -/
theorem track_accounts (stream : Stream) {scanner : Scanner} {token : Token}
    (haccounts : scanner.Accounts (.ok token, stream.scanner)) (context : Context) :
    scanner.Accounts
      ((stream.track context token).1, (stream.track context token).2.scanner) := by
  fun_cases track stream context token with
  | case2 templateContext templates htemplates =>
    exact haccounts.trans (resume_accounts { stream with templates := templates } templateContext)
  | _ => exact haccounts

/-- To read the next token, whether it takes one request or two, is accounted for like a single
    request. -/
theorem advance_accounts (stream : Stream) :
    stream.scanner.Accounts (stream.advance.1, stream.advance.2.scanner) := by
  have hscan := stream.scanner.scan_accounts stream.context
  rw [advance]
  rcases hresult : stream.scanner.scan stream.context with ⟨result, scanner⟩
  rw [hresult] at hscan
  cases result with
  | error error => exact hscan
  | ok token =>
    have htrack := track_accounts { stream with scanner := scanner } hscan stream.context
    simp only
    rcases htracked : track { stream with scanner := scanner } stream.context token with
      ⟨followed, after⟩
    rw [htracked] at htrack
    cases followed with
    | error error => exact htrack
    | ok token => exact htrack

/-- What a request for an item leaves in the log: nothing, unless the item is a fault, which also
    ends the stream. -/
inductive Yields (stream : Stream) : Option Item × Stream → Prop where
  | nothing {after : Stream} (hlog : after.scanner.diagnostics = stream.scanner.diagnostics) :
      Yields stream (none, after)
  | token {scanned : ScannedToken} {after : Stream}
      (hsource : after.scanner.source = stream.scanner.source)
      (hlog : after.scanner.diagnostics = stream.scanner.diagnostics) :
      Yields stream (some (.ok scanned), after)
  | fault {error : ScanError} {entry : Diagnostic} {after : Stream}
      (hfinished : after.finished = true)
      (hentry : error.RecordedAs stream.scanner.source entry)
      (hlog : after.scanner.diagnostics = stream.scanner.diagnostics ++ [entry]) :
      Yields stream (some (.error error), after)

theorem next_yields (stream : Stream) : stream.Yields stream.next := by
  have haccounts := stream.advance_accounts
  fun_cases next stream with
  | case1 hfinished => exact .nothing rfl
  | case2 hgoing after hadvance =>
    rw [hadvance] at haccounts
    exact .nothing (haccounts.granted _ rfl).2
  | case3 hgoing token after hend hadvance =>
    rw [hadvance] at haccounts
    exact .token haccounts.sameSource (haccounts.granted _ rfl).2
  | case4 hgoing error after hadvance =>
    rw [hadvance] at haccounts
    obtain ⟨-, -, entry, hentry, hlog⟩ := haccounts.refused _ rfl
    exact .fault rfl hentry hlog

theorem next_of_finished {stream : Stream} (hfinished : stream.finished = true) :
    stream.next = (none, stream) := by
  rw [next, if_pos hfinished]

theorem run_of_finished {stream : Stream} (hfinished : stream.finished = true) (requests : Nat) :
    (stream.run requests).items = [] ∧ (stream.run requests).stream = stream := by
  cases requests with
  | zero => exact ⟨rfl, rfl⟩
  | succ requests =>
    rw [run, next_of_finished hfinished]
    exact ⟨rfl, rfl⟩

/-- How a run is accounted for: it has no fault and leaves the log as it was, or one fault, which is
    its last item and the only one recorded, and then it is over. -/
inductive Accounted (stream : Stream) (run : Run) : Prop where
  | clean (hitems : ∀ item ∈ run.items, item.1.isOk = true)
      (hlog : run.stream.scanner.diagnostics = stream.scanner.diagnostics)
  | faulty {tokens : List (Item × Text.Location)} {error : ScanError} {location : Text.Location}
      {entry : Diagnostic} (hitems : run.items = tokens ++ [(.error error, location)])
      (htokens : ∀ item ∈ tokens, item.1.isOk = true)
      (hentry : error.RecordedAs stream.scanner.source entry)
      (hlog : run.stream.scanner.diagnostics = stream.scanner.diagnostics ++ [entry])
      (hfinished : run.stream.finished = true)

/-- The request that comes before a run of which the accounts are known. -/
theorem Accounted.after_token {stream after : Stream} {run : Run} {scanned : ScannedToken}
    (haccounted : after.Accounted run) (hsource : after.scanner.source = stream.scanner.source)
    (hlog : after.scanner.diagnostics = stream.scanner.diagnostics) (location : Text.Location) :
    stream.Accounted { run with items := (.ok scanned, location) :: run.items } := by
  have hcons {items : List (Item × Text.Location)} (hitems : ∀ item ∈ items, item.1.isOk = true) :
      ∀ item ∈ ((.ok scanned, location) : Item × Text.Location) :: items, item.1.isOk = true := by
    intro item hmem
    rcases List.mem_cons.mp hmem with rfl | hmem
    · rfl
    · exact hitems item hmem
  cases haccounted with
  | clean hitems hsame => exact .clean (hcons hitems) (hsame.trans hlog)
  | @faulty tokens error last entry hitems htokens hentry hadded hfinished =>
    have hall : (.ok scanned, location) :: run.items =
        ((.ok scanned, location) :: tokens) ++ [(.error error, last)] := by
      rw [hitems, List.cons_append]
    rw [hsource] at hentry
    rw [hlog] at hadded
    exact .faulty hall (hcons htokens) hentry hadded hfinished

theorem run_accounted (requests : Nat) (stream : Stream) :
    stream.Accounted (stream.run requests) := by
  induction requests generalizing stream with
  | zero => exact .clean (fun _ hmem => absurd hmem List.not_mem_nil) rfl
  | succ requests ih =>
    have hyields := stream.next_yields
    rw [run]
    rcases hnext : stream.next with ⟨item, after⟩
    rw [hnext] at hyields
    cases hyields with
    | nothing hlog => exact .clean (fun _ hmem => absurd hmem List.not_mem_nil) hlog
    | token hsource hlog => exact (ih after).after_token hsource hlog _
    | fault hfinished hentry hlog =>
      obtain ⟨hnil, hstream⟩ := run_of_finished hfinished requests
      simp only [hnil, hstream]
      exact .faulty rfl (fun _ hmem => absurd hmem List.not_mem_nil) hentry hlog hfinished

end Stream

namespace Pushdown.Control

/-- A fault is found in the text. -/
theorem faultStep_position_le {control : Control} {read unread : List Char} {misread : Misread}
    {error : ScanError} (hitem : (control.faultStep read unread misread).item = .error error) :
    error.position ≤ utf8Length (read ++ unread) := by
  cases hitem
  have hposition : utf8Length ((control.ahead read unread).take misread.before) ≤
      utf8Length (control.ahead read unread) := by
    rw [← List.take_append_drop misread.before (control.ahead read unread), Text.utf8Length_append,
      List.take_append_drop]
    exact Nat.le_add_right _ _
  rw [← control.before_append_ahead read unread, Text.utf8Length_append]
  simp only [Lexeme.scanError, Text.utf8Length_append]
  exact Nat.add_le_add_left hposition _

theorem lex_position_le {requests : Nat} {control : Control} {read unread : List Char} {step : Step}
    (hmem : step ∈ (control.lex requests read unread).steps) {error : ScanError}
    (hitem : step.item = .error error) : error.position ≤ utf8Length (read ++ unread) := by
  fun_induction lex requests control read unread with
  | case1 | case2 => exact absurd hmem List.not_mem_nil
  | case3 requests control read unread hne misread hresult =>
    rw [List.mem_singleton.mp hmem] at hitem
    exact faultStep_position_le hitem
  | case4 requests control read unread hne token hresult ih =>
    rcases List.mem_cons.mp hmem with rfl | hmem
    · cases hitem
    · have hle := ih hmem
      rwa [passed_append_rest] at hle

end Pushdown.Control

namespace Stream

theorem run_position_le {source : List Char} {options : Options} {requests : Nat}
    {error : ScanError} {location : Text.Location}
    (hmem : (.error error, location) ∈ (run requests (.ofSource source options)).items) :
    error.position ≤ utf8Length source := by
  obtain ⟨hitems, -⟩ := run_eq_lex source options requests
  rw [hitems] at hmem
  obtain ⟨step, hstep, houtput⟩ := List.mem_map.mp hmem
  exact Pushdown.Control.lex_position_le hstep (congrArg Prod.fst houtput)

end Stream

/-- No message of the catalog has the code 0. -/
theorem Fault.message_code_pos (fault : Fault) : 0 < fault.message.code := by
  fun_cases Fault.message fault <;> decide

/-- The report on a fault is the headline of the one diagnostic that was recorded for it. -/
theorem CommandLine.dump_report {settings : Settings} {source : List Char}
    {output report help : String} (hdump : dump settings source = .faulty output report help) :
    ∃ (error : ScanError) (entry : Diagnostic), error.RecordedAs source entry ∧
      (Stream.runAll (.ofSource source settings.options)).stream.scanner.diagnostics = [entry] ∧
      report = entry.headline ∧ 0 < entry.code ∧ help = error.display := by
  have haccounted : (Stream.ofSource source settings.options).Accounted
      (Stream.runAll (.ofSource source settings.options)) := Stream.run_accounted _ _
  simp only [dump] at hdump
  cases haccounted with
  | clean hitems hlog =>
    split at hdump
    · next error location hlast =>
      cases hitems _ (List.mem_of_getLast? hlast)
    · cases hdump
  | @faulty tokens error location entry hitems htokens hentry hlog hfinished =>
    have hlast : (Stream.runAll (.ofSource source settings.options)).items.getLast? =
        some (.error error, location) := by
      rw [hitems, List.getLast?_append]
      rfl
    have hrecorded :
        (Stream.runAll (.ofSource source settings.options)).stream.scanner.diagnostics = [entry] :=
      hlog
    simp only [hlast, hrecorded] at hdump
    cases hdump
    obtain ⟨length, hlength, rfl⟩ := hentry
    exact ⟨error, _, ⟨length, hlength, rfl⟩, hrecorded, rfl, error.fault.message_code_pos, rfl⟩

open Scanner (SegmentEntry requestAll faultsOf)

/-- Over a text shorter than 2^32 bytes every fault is recorded once, where it is found, and nothing
    else is recorded.

    First for any requests to a scanner, whatever its state is: the position of a fault is cut to
    32 bits only if the cursor has got that far, which is past the end of the text. Then for any
    number of requests to a stream, of which a fault is the last that gives an item. Then for the
    program, whose report is never the one without a diagnostic. -/
theorem every_fault_recorded_once (source : List Char) (hlength : utf8Length source < 4294967296) :
    (∀ scanner : Scanner, scanner.source = source →
      (∀ (entry : SegmentEntry) (context : Context),
        scanner.Accounts (entry.scan scanner context) ∧
        ∀ error after, entry.scan scanner context = (.error error, after) →
          Text.word32 error.position ≠ error.position →
          4294967296 ≤ after.offset ∧ utf8Length source < after.offset) ∧
      ∀ requests, ∃ entries,
        List.Forall₂ (ScanError.RecordedAs source) (faultsOf (requestAll requests scanner).1)
          entries ∧
        (requestAll requests scanner).2.diagnostics = scanner.diagnostics ++ entries) ∧
    (∀ options requests,
      let run := Stream.run requests (.ofSource source options)
      ((∀ item ∈ run.items, item.1.isOk = true) ∧ run.stream.scanner.diagnostics = []) ∨
      ∃ (tokens : List (Stream.Item × Text.Location)) (error : ScanError) (location : Text.Location)
        (entry : Diagnostic), run.items = tokens ++ [(.error error, location)] ∧
        (∀ item ∈ tokens, item.1.isOk = true) ∧
        error.RecordedAs source entry ∧ entry.span.start = error.position ∧
        run.stream.scanner.diagnostics = [entry] ∧ run.stream.next = (none, run.stream)) ∧
    (∀ settings output report help,
      CommandLine.dump settings source = .faulty output report help →
      ∃ (error : ScanError) (entry : Diagnostic), error.RecordedAs source entry ∧
        (Stream.runAll (.ofSource source settings.options)).stream.scanner.diagnostics = [entry] ∧
        report = entry.headline ∧ 0 < entry.code ∧ help = error.display) := by
  refine ⟨fun scanner hsource => ⟨fun entry context => ?_, fun requests => ?_⟩,
    fun options requests => ?_, fun settings output report help => CommandLine.dump_report⟩
  · have haccounts := entry.scan_accounts scanner context
    refine ⟨haccounts, fun error after hscan hcut => ?_⟩
    rw [hscan] at haccounts
    obtain ⟨-, hposition, -⟩ := haccounts.refused error rfl
    have hfar : 4294967296 ≤ error.position := by
      refine Nat.le_of_not_lt fun hlt => ?_
      exact hcut (Text.word32_of_lt hlt)
    have hcursor := Nat.le_trans hfar hposition
    exact ⟨hcursor, Nat.lt_of_lt_of_le hlength hcursor⟩
  · obtain ⟨-, entries, hentries, hlog⟩ := Scanner.requestAll_accounts requests scanner
    rw [hsource] at hentries
    exact ⟨entries, hentries, hlog⟩
  · intro run
    cases Stream.run_accounted requests (.ofSource source options) with
    | clean hitems hlog => exact .inl ⟨hitems, hlog⟩
    | @faulty tokens error location entry hitems htokens hentry hlog hfinished =>
      have hmem : (.error error, location) ∈ run.items := by
        rw [hitems]
        exact List.mem_append_right _ List.mem_cons_self
      have hstart : entry.span.start = error.position := by
        obtain ⟨length, -, rfl⟩ := hentry
        exact Text.word32_of_lt (Nat.lt_of_le_of_lt (Stream.run_position_le hmem) hlength)
      exact .inr ⟨tokens, error, location, entry, hitems, htokens, hentry, hstart, hlog,
        Stream.next_of_finished hfinished⟩

/-- A tag lets a malformed escape pass; then a segment is resumed at the end of the text and a
    template asked for past it. -/
theorem every_fault_recorded_once_malformed :
    utf8Length "\x60\\u\x60".toList < 4294967296 ∧
      ∃ first second entries,
        faultsOf (requestAll [(.opening, { tagged := true }), (.resumed, {}), (.opening, {})]
          (.ofSource "\x60\\u\x60".toList {})).1 = [first, second] ∧
        List.Forall₂ (ScanError.RecordedAs "\x60\\u\x60".toList) [first, second] entries ∧
        (requestAll [(.opening, { tagged := true }), (.resumed, {}), (.opening, {})]
          (.ofSource "\x60\\u\x60".toList {})).2.diagnostics = entries := by
  have hlength : utf8Length "\x60\\u\x60".toList < 4294967296 := by decide
  have hfaults :
      faultsOf (requestAll [(.opening, { tagged := true }), (.resumed, {}), (.opening, {})]
        (.ofSource "\x60\\u\x60".toList {})).1 =
      [⟨.unexpectedEndOfInput, 4, ⟨0, 4⟩⟩, ⟨.unexpectedEndOfInput, 5, ⟨0, 5⟩⟩] := by decide +kernel
  obtain ⟨hscanner, -⟩ := every_fault_recorded_once "\x60\\u\x60".toList hlength
  obtain ⟨entries, hentries, hlog⟩ := (hscanner (.ofSource "\x60\\u\x60".toList {}) rfl).2
    [(.opening, { tagged := true }), (.resumed, {}), (.opening, {})]
  rw [hfaults] at hentries
  exact ⟨hlength, _, _, entries, hfaults, hentries, hlog⟩

end EcmaLexer
