import EcmaLexer.Scanner.Scan

namespace EcmaLexer.Scanner

/-- What can be asked of a scanner, step by step. -/
inductive Command where
  | scan (context : Context)
  | scanTemplate (context : Context)
  | resumeTemplate (context : Context)
  | save
  | restore (slot : Nat)
  | lookAhead (commands : List Command)
  | tryScan (commands : List Command) (keep : Bool)
  | current
  | diagnostics

mutual

/-- What a command answers. -/
inductive Answer where
  | scanned (result : Except ScanError Token)
  | saved (slot : Nat)
  | restored
  | lookedAhead (reports : List Report)
  | tried (kept : Bool) (reports : List Report)
  | current (token : ScannedToken)
  | diagnostics (log : Diagnostic.Log)

/-- The answer of a command with what the scanner looks like after it, unless its raw
    text cannot be read. -/
inductive Report where
  | done (answer : Answer) (snapshot : Snapshot)
  | unreadable

end

/-- A scanner with the states saved so far. -/
structure Session where
  scanner : Scanner
  slots : List State

namespace Session

def ofScanner (scanner : Scanner) : Session := ⟨scanner, []⟩

/-- A session after an action on its scanner. -/
def act {α : Type} (session : Session) (action : Scanner → α × Scanner) : α × Session :=
  let (result, scanner) := action session.scanner
  (result, { session with scanner := scanner })

end Session

mutual

/-- Carries out one command. States saved during a look-ahead stay saved. -/
def Command.run : Command → Session → Answer × Session
  | .scan context, session =>
    let (result, session) := session.act (·.scan context)
    (.scanned result, session)
  | .scanTemplate context, session =>
    let (result, session) := session.act (·.scanTemplate context)
    (.scanned result, session)
  | .resumeTemplate context, session =>
    let (result, session) := session.act (·.resumeTemplate context)
    (.scanned result, session)
  | .save, session =>
    (.saved session.slots.length,
      { session with slots := session.slots ++ [session.scanner.state] })
  | .restore slot, session =>
    let state := session.slots[slot]?.getD session.scanner.state
    (.restored, { session with scanner := { session.scanner with state := state } })
  | .lookAhead commands, session =>
    let ((reports, slots), scanner) := session.scanner.lookAhead fun scanner =>
      let (reports, ahead) := runAll commands { session with scanner := scanner }
      ((reports, ahead.slots), ahead.scanner)
    (.lookedAhead reports, ⟨scanner, slots⟩)
  | .tryScan commands keep, session =>
    let (reports, ahead) := runAll commands session
    let (kept, scanner) := session.scanner.tryScan fun _ =>
      (if keep then some () else none, ahead.scanner)
    (.tried kept.isSome reports, ⟨scanner, ahead.slots⟩)
  | .current, session => (.current session.scanner.current, session)
  | .diagnostics, session => (.diagnostics session.scanner.diagnostics, session)

/-- Carries out commands one after another. A fault does not end the list; a raw text
    that cannot be read does. -/
def runAll : List Command → Session → List Report × Session
  | [], session => ([], session)
  | command :: commands, session =>
    let (answer, session) := command.run session
    match session.scanner.snapshot? with
    | none => ([.unreadable], session)
    | some snapshot =>
      let (reports, session) := runAll commands session
      (.done answer snapshot :: reports, session)

end

end EcmaLexer.Scanner
