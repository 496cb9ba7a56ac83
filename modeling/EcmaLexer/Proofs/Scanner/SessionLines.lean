import EcmaLexer.Proofs.Scanner.Tracking
import EcmaLexer.Scanner.Session

namespace EcmaLexer.Scanner

open Text (LineMap utf8Length)

mutual

/-- The template segment of a command is asked for where one begins: the cursor is on
    a backtick. A segment may be resumed anywhere. -/
def Command.WellTimed : Command → Session → Prop
  | .scanTemplate _, session => session.scanner.unread.head? = some '\x60'
  | .lookAhead commands, session => AllWellTimed commands session
  | .tryScan commands _, session => AllWellTimed commands session
  | _, _ => True

def AllWellTimed : List Command → Session → Prop
  | [], _ => True
  | command :: commands, session =>
    command.WellTimed session ∧ AllWellTimed commands (command.run session).2

end

/-- The cursor of a snapshot is on the line that the line map of the source gives. -/
structure OnLine (source : List Char) (snapshot : Snapshot) : Prop where
  line : snapshot.location.line = (LineMap.ofText source).lineOf snapshot.stop
  lineStart : (LineMap.ofText source).lineStart? snapshot.location.line = some snapshot.lineStart
  location : snapshot.location = (LineMap.ofText source).locationOf snapshot.stop

mutual

/-- The answer of a command, with every fault in it located as the line map does. -/
inductive Answered (source : List Char) : Command → Answer → Prop where
  | scan {context : Context} {result : Except ScanError Token}
      (hlocated : Located source result) : Answered source (.scan context) (.scanned result)
  | scanTemplate {context : Context} {result : Except ScanError Token}
      (hlocated : Located source result) : Answered source (.scanTemplate context) (.scanned result)
  | resumeTemplate {context : Context} {result : Except ScanError Token}
      (hlocated : Located source result) : Answered source (.resumeTemplate context) (.scanned result)
  | save (slot : Nat) : Answered source .save (.saved slot)
  | restore (slot : Nat) : Answered source (.restore slot) .restored
  | lookAhead {commands : List Command} {reports : List Report}
      (hreports : AllReported source commands reports) :
      Answered source (.lookAhead commands) (.lookedAhead reports)
  | tryScan {commands : List Command} {reports : List Report} {keep kept : Bool}
      (hreports : AllReported source commands reports) :
      Answered source (.tryScan commands keep) (.tried kept reports)
  | current (token : ScannedToken) : Answered source .current (.current token)
  | diagnostics (log : Diagnostic.Log) : Answered source .diagnostics (.diagnostics log)

/-- Every command has its answer, and the scanner is on the right line after it. -/
inductive AllReported (source : List Char) : List Command → List Report → Prop where
  | nil : AllReported source [] []
  | cons {command : Command} {commands : List Command} {answer : Answer} {snapshot : Snapshot}
      {reports : List Report} (hanswer : Answered source command answer)
      (hsnapshot : OnLine source snapshot) (hreports : AllReported source commands reports) :
      AllReported source (command :: commands) (.done answer snapshot :: reports)

end

/-- A session on a source, with every state in it one that scanning can leave. -/
structure Session.Follows (source : List Char) (session : Session) : Prop where
  sameSource : session.scanner.source = source
  state : session.scanner.state.Follows source
  slots : ∀ state ∈ session.slots, state.Follows source

/-- Where the state of a scanner is one that scanning can leave, there is a snapshot,
    and it is on the right line. -/
theorem snapshot?_onLine {source : List Char} (hlength : utf8Length source < 4294967296)
    {scanner : Scanner} (hsource : scanner.source = source) (hfollows : scanner.state.Follows source) :
    ∃ snapshot, scanner.snapshot? = some snapshot ∧ OnLine source snapshot := by
  subst hsource
  obtain ⟨raw, hraw⟩ := Option.isSome_iff_exists.mp hfollows.raw
  have hreaches := hfollows.unread
  obtain ⟨hline, hlineStart⟩ := hreaches.line hlength hreaches.lineStart_le (Nat.le_refl _)
  have hlocation := hreaches.locate_eq hlength hreaches.lineStart_le (Nat.le_refl _)
  refine ⟨_, congrArg (Option.map _) hraw, ?_⟩
  exact ⟨hline.symm, hlineStart, hlocation⟩

/-- An action on the scanner of a session keeps to what the action on the scanner does. -/
theorem Session.Follows.act {source : List Char} {session : Session}
    (hfollows : session.Follows source) (action : Scanner → Except ScanError Token × Scanner)
    (htracks : Tracks source (action session.scanner)) :
    Located source (session.act action).1 ∧ (session.act action).2.Follows source :=
  ⟨htracks.located, htracks.sameSource, htracks.follows, hfollows.slots⟩

mutual

theorem Command.run_follows {source : List Char} (hlength : utf8Length source < 4294967296) :
    ∀ (command : Command) (session : Session), session.Follows source → command.WellTimed session →
      Answered source command (command.run session).1 ∧ (command.run session).2.Follows source
  | .scan context, session, hfollows, _ => by
    have htracks := scan_tracks hlength hfollows.sameSource hfollows.state context
    obtain ⟨hlocated, hafter⟩ := hfollows.act (·.scan context) htracks
    rw [Command.run]
    exact ⟨.scan hlocated, hafter⟩
  | .scanTemplate context, session, hfollows, htimed => by
    rw [Command.WellTimed] at htimed
    have htracks := scanTemplate_tracks hlength hfollows.sameSource hfollows.state htimed context
    obtain ⟨hlocated, hafter⟩ := hfollows.act (·.scanTemplate context) htracks
    rw [Command.run]
    exact ⟨.scanTemplate hlocated, hafter⟩
  | .resumeTemplate context, session, hfollows, _ => by
    have htracks := resumeTemplate_tracks hlength hfollows.sameSource hfollows.state context
    obtain ⟨hlocated, hafter⟩ := hfollows.act (·.resumeTemplate context) htracks
    rw [Command.run]
    exact ⟨.resumeTemplate hlocated, hafter⟩
  | .save, session, hfollows, _ => by
    rw [Command.run]
    refine ⟨.save _, hfollows.sameSource, hfollows.state, fun state hmem => ?_⟩
    rcases List.mem_append.mp hmem with hmem | hmem
    · exact hfollows.slots state hmem
    · rw [List.mem_singleton.mp hmem]
      exact hfollows.state
  | .restore slot, session, hfollows, _ => by
    rw [Command.run]
    refine ⟨.restore slot, hfollows.sameSource, ?_, hfollows.slots⟩
    cases hslot : session.slots[slot]? with
    | none => exact hfollows.state
    | some state => exact hfollows.slots state (List.mem_of_getElem? hslot)
  | .lookAhead commands, session, hfollows, htimed => by
    rw [Command.WellTimed] at htimed
    obtain ⟨hreports, hahead⟩ := runAll_follows hlength commands session hfollows htimed
    rw [Command.run]
    exact ⟨.lookAhead hreports, hahead.sameSource, hfollows.state, hahead.slots⟩
  | .tryScan commands keep, session, hfollows, htimed => by
    rw [Command.WellTimed] at htimed
    obtain ⟨hreports, hahead⟩ := runAll_follows hlength commands session hfollows htimed
    rw [Command.run]
    cases keep with
    | true => exact ⟨.tryScan hreports, hahead⟩
    | false => exact ⟨.tryScan hreports, hahead.sameSource, hfollows.state, hahead.slots⟩
  | .current, session, hfollows, _ => by
    rw [Command.run]
    exact ⟨.current _, hfollows⟩
  | .diagnostics, session, hfollows, _ => by
    rw [Command.run]
    exact ⟨.diagnostics _, hfollows⟩

theorem runAll_follows {source : List Char} (hlength : utf8Length source < 4294967296) :
    ∀ (commands : List Command) (session : Session),
      session.Follows source → AllWellTimed commands session →
      AllReported source commands (runAll commands session).1 ∧
        (runAll commands session).2.Follows source
  | [], session, hfollows, _ => by
    rw [runAll]
    exact ⟨.nil, hfollows⟩
  | command :: commands, session, hfollows, htimed => by
    rw [AllWellTimed] at htimed
    obtain ⟨hanswer, hafter⟩ := Command.run_follows hlength command session hfollows htimed.1
    obtain ⟨hreports, hend⟩ := runAll_follows hlength commands _ hafter htimed.2
    obtain ⟨snapshot, hsnapshot, honLine⟩ := snapshot?_onLine hlength hafter.sameSource hafter.state
    rw [runAll]
    simp only [hsnapshot]
    exact ⟨.cons hanswer honLine hreports, hend⟩

end

end EcmaLexer.Scanner
