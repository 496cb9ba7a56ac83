import Mathlib.Data.List.Forall2
import EcmaLexer.Proofs.Lexeme.Fits
import EcmaLexer.Proofs.Scanner.Segment

namespace EcmaLexer

open Text (utf8Length)

/-- The number of bytes of the character that begins at a position of a text, and 0 if none
    begins there. -/
inductive Text.CharLength (text : List Char) (position : Nat) : Nat → Prop where
  | begins {before rest : List Char} {c : Char} (htext : text = before ++ c :: rest)
      (hbefore : utf8Length before = position) : CharLength text position c.utf8Size
  | none (hnone : ∀ before c rest, text = before ++ c :: rest → utf8Length before ≠ position) :
      CharLength text position 0

theorem Text.utf8Length_take_le (text : List Char) {count more : Nat} (hle : count ≤ more) :
    utf8Length (text.take count) ≤ utf8Length (text.take more) := by
  obtain ⟨rest, rfl⟩ := Nat.exists_eq_add_of_le hle
  rw [List.take_add, utf8Length_append]
  exact Nat.le_add_right _ _

/-- The one diagnostic that stands for a fault: it has the message of the fault and covers
    the character at the fault's position. -/
def ScanError.RecordedAs (source : List Char) (error : ScanError) (entry : Diagnostic) : Prop :=
  ∃ length, Text.CharLength source error.position length ∧
    entry = error.fault.diagnostic ⟨Text.word32 error.position, length⟩

theorem Template.segment_before_le {context : Context} {text : List Char} (misread : Misread)
    (hresult : (segment context text).result = .error misread) :
    misread.before ≤ (segment context text).width :=
  ((segment_fits context text).fault misread hresult).1

/-- Whatever a text begins with, a fault is found within what is consumed. -/
theorem Lexeme.read_before_le {context : Context} {c : Char} {rest : List Char} {misread : Misread}
    (hresult : (Lexeme.read context c rest).result = .error misread) :
    misread.before ≤ (Lexeme.read context c rest).width := by
  by_cases hbacktick : c = '\x60'
  · subst hbacktick
    have hfits : (Lexeme.read context '\x60' rest).Fits ('\x60' :: rest) :=
      (Template.segment_fits context rest).after_cons (by decide) [] {}
    exact (hfits.fault misread hresult).1
  · exact ((Lexeme.read_fits hbacktick context rest).1.fault misread hresult).1

namespace Scanner

theorem charLengthAt_eq (scanner : Scanner) (position : Nat) :
    Text.CharLength scanner.source position (scanner.charLengthAt position) := by
  cases htext : scanner.textFrom position with
  | nil =>
    rw [charLengthAt, htext]
    refine .none fun before c rest hsource hbefore => ?_
    subst hbefore
    rw [textFrom_utf8Length hsource] at htext
    cases htext
  | cons c rest =>
    have hne : scanner.textFrom position ≠ [] := by simp [htext]
    obtain ⟨before, hsource, hbefore⟩ := source_eq_append_textFrom hne
    rw [charLengthAt, htext]
    rw [htext] at hsource
    exact .begins hsource hbefore

/-- How a request for a token is accounted for. One that gives a token adds nothing to the log;
    one that gives a fault adds the diagnostic of that fault and nothing else. -/
structure Accounts (scanner : Scanner) (outcome : Except ScanError Token × Scanner) : Prop where
  sameSource : outcome.2.source = scanner.source
  sameOptions : outcome.2.options = scanner.options
  granted : ∀ token, outcome.1 = .ok token →
    outcome.2.state.token = token ∧ outcome.2.diagnostics = scanner.diagnostics
  refused : ∀ error, outcome.1 = .error error →
    outcome.2.state.token = .error ∧ error.position ≤ outcome.2.offset ∧
      ∃ entry, error.RecordedAs scanner.source entry ∧
        outcome.2.diagnostics = scanner.diagnostics ++ [entry]

/-- A request after one that gave a token is accounted for as if it were the first. -/
theorem Accounts.trans {scanner middle : Scanner} {token : Token}
    {outcome : Except ScanError Token × Scanner} (hfirst : scanner.Accounts (.ok token, middle))
    (hsecond : middle.Accounts outcome) : scanner.Accounts outcome := by
  have hsource : middle.source = scanner.source := hfirst.sameSource
  have hlog : middle.diagnostics = scanner.diagnostics := (hfirst.granted token rfl).2
  refine ⟨hsecond.sameSource.trans hsource, hsecond.sameOptions.trans hfirst.sameOptions, ?_, ?_⟩
  · rw [← hlog]
    exact hsecond.granted
  · rw [← hlog, ← hsource]
    exact hsecond.refused

/-- A fault is recorded once, in whatever state it was found. -/
theorem report_accounts (scanner : Scanner) (state : State) (fault : Fault) {position : Nat}
    (hposition : position ≤ state.mark.offset) :
    scanner.Accounts (report { scanner with state := state } fault position) where
  sameSource := rfl
  sameOptions := rfl
  granted := nofun
  refused := by
    rintro error ⟨⟩
    exact ⟨rfl, hposition, _,
      ⟨_, charLengthAt_eq { scanner with state := state } position, rfl⟩, rfl⟩

theorem commit_accounts {lexeme : Lexeme}
    (hbefore : ∀ misread, lexeme.result = .error misread → misread.before ≤ lexeme.width)
    (scanner : Scanner) (tokenStart : Nat) (start : Text.Mark) (breaksLine : Bool)
    (text : List Char) :
    scanner.Accounts (commit scanner tokenStart start breaksLine text lexeme) := by
  cases hresult : lexeme.result with
  | ok token =>
    rw [commit_ok hresult]
    refine ⟨rfl, rfl, ?_, nofun⟩
    rintro _ ⟨⟩
    exact ⟨rfl, rfl⟩
  | error misread =>
    rw [commit_error hresult]
    apply report_accounts
    rw [Text.Mark.offset_past]
    exact Nat.add_le_add_left (Text.utf8Length_take_le text (hbefore misread hresult)) _

theorem scan_accounts (scanner : Scanner) (context : Context) :
    scanner.Accounts (scanner.scan context) := by
  cases hunclosed : scanner.gapAhead.unclosed with
  | true =>
    rw [scan_unclosed hunclosed]
    exact report_accounts scanner _ _ (Nat.le_refl _)
  | false =>
    cases hdrop : scanner.unread.drop scanner.gapAhead.width with
    | nil =>
      rw [scan_nil hunclosed hdrop]
      exact commit_accounts (by rintro _ ⟨⟩) scanner _ _ _ _
    | cons c rest =>
      rw [scan_cons hunclosed hdrop]
      exact commit_accounts (fun _ => Lexeme.read_before_le) scanner _ _ _ _

/-- A malformed escape that a tag lets pass is no fault, and a template asked for where none
    begins is accounted for like any other. -/
theorem scanTemplate_accounts (scanner : Scanner) (context : Context) :
    scanner.Accounts (scanner.scanTemplate context) :=
  commit_accounts Template.segment_before_le scanner _ _ _ _

theorem resumeTemplate_accounts (scanner : Scanner) (context : Context) :
    scanner.Accounts (scanner.resumeTemplate context) := by
  fun_cases resumeTemplate scanner context with
  | case1 hend => exact report_accounts scanner scanner.state _ (Nat.le_refl _)
  | case2 hend => exact commit_accounts Template.segment_before_le scanner _ _ _ _

/-- Every request for a token is accounted for, on every scanner: nothing is assumed about the
    place of its cursor or about the faults before. -/
theorem SegmentEntry.scan_accounts (entry : SegmentEntry) (scanner : Scanner) (context : Context) :
    scanner.Accounts (entry.scan scanner context) := by
  cases entry with
  | opening => exact scanTemplate_accounts scanner context
  | reached => exact Scanner.scan_accounts scanner context
  | resumed => exact resumeTemplate_accounts scanner context

/-- Asks for tokens one after another. A fault does not end the list. -/
def requestAll : List (SegmentEntry × Context) → Scanner →
    List (Except ScanError Token) × Scanner
  | [], scanner => ([], scanner)
  | (entry, context) :: requests, scanner =>
    let (result, scanner) := entry.scan scanner context
    let (results, scanner) := requestAll requests scanner
    (result :: results, scanner)

/-- The faults among the results of requests. -/
def faultsOf : List (Except ScanError Token) → List ScanError
  | [] => []
  | .ok _ :: results => faultsOf results
  | .error error :: results => error :: faultsOf results

/-- What a number of requests adds to the log is one diagnostic for each fault, in the order of
    the faults. -/
theorem requestAll_accounts (requests : List (SegmentEntry × Context)) (scanner : Scanner) :
    (requestAll requests scanner).2.source = scanner.source ∧
      ∃ entries,
        List.Forall₂ (ScanError.RecordedAs scanner.source)
          (faultsOf (requestAll requests scanner).1) entries ∧
        (requestAll requests scanner).2.diagnostics = scanner.diagnostics ++ entries := by
  induction requests generalizing scanner with
  | nil => exact ⟨rfl, [], .nil, (List.append_nil _).symm⟩
  | cons request requests ih =>
    obtain ⟨entry, context⟩ := request
    have haccounts := entry.scan_accounts scanner context
    rw [requestAll]
    rcases hscan : entry.scan scanner context with ⟨result, after⟩
    rw [hscan] at haccounts
    have hsource : after.source = scanner.source := haccounts.sameSource
    obtain ⟨hlast, entries, hentries, hlog⟩ := ih after
    rw [hsource] at hlast hentries
    cases result with
    | ok token =>
      obtain ⟨-, hsame⟩ := haccounts.granted token rfl
      exact ⟨hlast, entries, hentries, by rw [hlog, hsame]⟩
    | error error =>
      obtain ⟨-, -, recorded, hrecorded, hadded⟩ := haccounts.refused error rfl
      refine ⟨hlast, recorded :: entries, .cons hrecorded hentries, ?_⟩
      rw [hlog, hadded, List.append_assoc, List.singleton_append]

end Scanner

end EcmaLexer
