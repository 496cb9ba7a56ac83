import EcmaLexer.Proofs.Scanner.Accounting
import EcmaLexer.Scanner.Session

namespace EcmaLexer.Scanner

/-- What can be done with a scanner: any operations, one after another, each chosen by the answers
    of those before it, with look-ahead and trial nested to any depth. A state that is restored may
    come from anywhere. To save a state is to look at it and hand it on. -/
inductive Callback : {α : Type} → (Scanner → α × Scanner) → Prop where
  | look {α : Type} (answer : Scanner → α) : Callback fun scanner => (answer scanner, scanner)
  | request (entry : SegmentEntry) (context : Context) :
      Callback fun scanner => entry.scan scanner context
  | restore (state : State) : Callback fun scanner => ((), { scanner with state := state })
  | lookAhead {α : Type} {action : Scanner → α × Scanner} (haction : Callback action) :
      Callback fun scanner => scanner.lookAhead action
  | tryScan {α : Type} {action : Scanner → Option α × Scanner} (haction : Callback action) :
      Callback fun scanner => scanner.tryScan action
  | andThen {α β : Type} {action : Scanner → α × Scanner} {next : α → Scanner → β × Scanner}
      (haction : Callback action) (hnext : ∀ answer, Callback (next answer)) :
      Callback fun scanner => next (action scanner).1 (action scanner).2

/-- Nothing is dropped from the log and nothing in it is changed, only its end may be new. -/
structure Extends (scanner after : Scanner) : Prop where
  sameSource : after.source = scanner.source
  sameOptions : after.options = scanner.options
  log : scanner.diagnostics <+: after.diagnostics

namespace Extends

variable {scanner middle after : Scanner}

theorem refl (scanner : Scanner) : scanner.Extends scanner := ⟨rfl, rfl, List.prefix_rfl⟩

theorem trans (hfirst : scanner.Extends middle) (hsecond : middle.Extends after) :
    scanner.Extends after where
  sameSource := hsecond.sameSource.trans hfirst.sameSource
  sameOptions := hsecond.sameOptions.trans hfirst.sameOptions
  log := hfirst.log.trans hsecond.log

/-- Where the log only grew, the number of diagnostics there were gives back the log there was. -/
theorem rewindTo_eq (hextends : scanner.Extends after) : after.rewindTo scanner = scanner := by
  have hlog : after.diagnostics.truncate scanner.diagnostics.length = scanner.diagnostics :=
    (List.prefix_iff_eq_take.mp hextends.log).symm
  rw [rewindTo, hlog, hextends.sameSource, hextends.sameOptions]

theorem lookAhead_eq {α : Type} {action : Scanner → α × Scanner}
    (hextends : scanner.Extends (action scanner).2) :
    scanner.lookAhead action = ((action scanner).1, scanner) := by
  simp only [lookAhead, hextends.rewindTo_eq]

theorem tryScan_of_none {α : Type} {action : Scanner → Option α × Scanner}
    (hextends : scanner.Extends after) (hnone : action scanner = (none, after)) :
    scanner.tryScan action = (none, scanner) := by
  simp only [tryScan, hnone, hextends.rewindTo_eq]

end Extends

theorem tryScan_of_some {α : Type} {scanner after : Scanner}
    {action : Scanner → Option α × Scanner} {result : α}
    (hsome : action scanner = (some result, after)) :
    scanner.tryScan action = (some result, after) := by
  simp only [tryScan, hsome]

theorem Accounts.after_extends {scanner : Scanner} {outcome : Except ScanError Token × Scanner}
    (haccounts : scanner.Accounts outcome) : scanner.Extends outcome.2 := by
  refine ⟨haccounts.sameSource, haccounts.sameOptions, ?_⟩
  cases hresult : outcome.1 with
  | ok token =>
    have hlog := (haccounts.granted token hresult).2
    exact hlog ▸ List.prefix_rfl
  | error error =>
    obtain ⟨-, -, entry, -, hlog⟩ := haccounts.refused error hresult
    rw [hlog]
    exact List.prefix_append _ _

/-- Whatever is done, the log of a scanner only grows. That holds inside of what is rewound later
    too, so the length of the log is enough to rewind it. -/
theorem Callback.after_extends {α : Type} {action : Scanner → α × Scanner}
    (haction : Callback action) (scanner : Scanner) : scanner.Extends (action scanner).2 := by
  induction haction generalizing scanner with
  | look answer => exact .refl scanner
  | request entry context => exact (entry.scan_accounts scanner context).after_extends
  | restore state => exact ⟨rfl, rfl, List.prefix_rfl⟩
  | lookAhead haction ih =>
    simp only [(ih scanner).lookAhead_eq]
    exact .refl scanner
  | @tryScan α action haction ih =>
    have hextends := ih scanner
    rcases hresult : action scanner with ⟨_ | result, after⟩
    · rw [hresult] at hextends
      simp only [hextends.tryScan_of_none hresult]
      exact .refl scanner
    · rw [hresult] at hextends
      simp only [tryScan_of_some hresult]
      exact hextends
  | andThen haction hnext ih ihnext => exact (ih scanner).trans (ihnext _ _)

mutual

/-- A command of a session is done with the operations of the scanner; the saved states are
    handed on beside it. -/
theorem Command.callback : ∀ (command : Command) (slots : List State),
    Callback fun scanner =>
      (((command.run ⟨scanner, slots⟩).1, (command.run ⟨scanner, slots⟩).2.slots),
        (command.run ⟨scanner, slots⟩).2.scanner)
  | .scan context, slots => by
    simp only [Command.run, Session.act]
    exact .andThen (.request .reached context)
      fun result => .look fun _ => (Answer.scanned result, slots)
  | .scanTemplate context, slots => by
    simp only [Command.run, Session.act]
    exact .andThen (.request .opening context)
      fun result => .look fun _ => (Answer.scanned result, slots)
  | .resumeTemplate context, slots => by
    simp only [Command.run, Session.act]
    exact .andThen (.request .resumed context)
      fun result => .look fun _ => (Answer.scanned result, slots)
  | .save, slots => by
    simp only [Command.run]
    exact .look fun scanner => (Answer.saved slots.length, slots ++ [scanner.state])
  | .restore slot, slots => by
    simp only [Command.run]
    exact .andThen (.look fun scanner => slots[slot]?.getD scanner.state) fun state =>
      .andThen (.restore state) fun _ => .look fun _ => (Answer.restored, slots)
  | .lookAhead commands, slots => by
    simp only [Command.run]
    exact .andThen (.lookAhead (runAll_callback commands slots)) fun answer =>
      .look fun _ => (Answer.lookedAhead answer.1, answer.2)
  | .tryScan commands true, slots => by
    simp only [Command.run, Scanner.tryScan]
    exact .andThen (runAll_callback commands slots) fun answer =>
      .look fun _ => (Answer.tried true answer.1, answer.2)
  | .tryScan commands false, slots => by
    -- What was reported is handed on, as a look-ahead does it.
    simp only [Command.run, Scanner.tryScan]
    exact .andThen (.lookAhead (runAll_callback commands slots)) fun answer =>
      .look fun _ => (Answer.tried false answer.1, answer.2)
  | .current, slots => by
    simp only [Command.run]
    exact .look fun scanner => (Answer.current scanner.current, slots)
  | .diagnostics, slots => by
    simp only [Command.run]
    exact .look fun scanner => (Answer.diagnostics scanner.diagnostics, slots)

theorem runAll_callback : ∀ (commands : List Command) (slots : List State),
    Callback fun scanner =>
      (((runAll commands ⟨scanner, slots⟩).1, (runAll commands ⟨scanner, slots⟩).2.slots),
        (runAll commands ⟨scanner, slots⟩).2.scanner)
  | [], slots => by
    simp only [runAll]
    exact .look fun _ => (([] : List Report), slots)
  | command :: commands, slots => by
    have hrest (answer : Answer × List State) (snapshot? : Option Snapshot) :
        Callback fun scanner =>
          let outcome : List Report × Session :=
            match snapshot? with
            | none => ([.unreadable], ⟨scanner, answer.2⟩)
            | some snapshot =>
              (.done answer.1 snapshot :: (runAll commands ⟨scanner, answer.2⟩).1,
                (runAll commands ⟨scanner, answer.2⟩).2)
          ((outcome.1, outcome.2.slots), outcome.2.scanner) := by
      cases snapshot? with
      | none => exact .look fun _ => ([Report.unreadable], answer.2)
      | some snapshot =>
        exact .andThen (runAll_callback commands answer.2) fun rest =>
          .look fun _ => (Report.done answer.1 snapshot :: rest.1, rest.2)
    simp only [runAll]
    exact .andThen (command.callback slots) fun answer => .andThen (.look snapshot?) (hrest answer)

end

/-- Rewinding is exact, on every scanner and for whatever is done meanwhile: all of the state and of
    the log is as it was after a look-ahead and after a trial that gives nothing, and as the trial
    left it if it gives something. So nothing later can tell that there was a look-ahead. The
    commands of a session are rewound in the same way. -/
theorem rewinding_restores_scanner {α β : Type} {action : Scanner → α × Scanner}
    (haction : Callback action) {trial : Scanner → Option β × Scanner} (htrial : Callback trial)
    (scanner : Scanner) :
    scanner.lookAhead action = ((action scanner).1, scanner) ∧
    (∀ after, trial scanner = (none, after) → scanner.tryScan trial = (none, scanner)) ∧
    (∀ result after, trial scanner = (some result, after) →
      scanner.tryScan trial = (some result, after)) ∧
    (∀ (γ : Type) (later : Scanner → γ × Scanner),
      later (scanner.lookAhead action).2 = later scanner) ∧
    ∀ (commands : List Command) (slots : List State),
      ((Command.lookAhead commands).run ⟨scanner, slots⟩).2.scanner = scanner ∧
      ((Command.tryScan commands false).run ⟨scanner, slots⟩).2.scanner = scanner ∧
      ((Command.tryScan commands true).run ⟨scanner, slots⟩).2.scanner =
        (runAll commands ⟨scanner, slots⟩).2.scanner := by
  have hahead := (haction.after_extends scanner).lookAhead_eq
  refine ⟨hahead, fun after hnone => ?_, fun result after => tryScan_of_some, fun γ later => ?_,
    fun commands slots => ?_⟩
  · have hextends := htrial.after_extends scanner
    rw [hnone] at hextends
    exact hextends.tryScan_of_none hnone
  · rw [hahead]
  · have hextends := (runAll_callback commands slots).after_extends scanner
    refine ⟨?_, ?_, ?_⟩
    · rw [Command.run]
      exact hextends.rewindTo_eq
    · rw [Command.run]
      exact hextends.rewindTo_eq
    · rw [Command.run]
      rfl

/-- After a token and a fault, a template is asked for where none begins and a state from before it
    restored inside of a trial; both are rewound, and the older fault stays. -/
theorem rewinding_restores_scanner_nested :
    let scanner := (((ofSource "a '".toList {}).scan {}).2.scan {}).2
    let commands : List Command :=
      [.save, .scanTemplate {},
        .tryScan [.restore 0, .scanTemplate {}, .lookAhead [.scan {}]] true, .restore 0]
    let action := fun scanner =>
      (((runAll commands ⟨scanner, []⟩).1, (runAll commands ⟨scanner, []⟩).2.slots),
        (runAll commands ⟨scanner, []⟩).2.scanner)
    let trial := fun scanner : Scanner =>
      ((SegmentEntry.opening.scan scanner {}).1.toOption, (SegmentEntry.opening.scan scanner {}).2)
    Callback action ∧ Callback trial ∧
      scanner.diagnostics.length = 1 ∧ (action scanner).2.diagnostics.length = 3 ∧
      (scanner.lookAhead action).2 = scanner ∧ scanner.tryScan trial = (none, scanner) := by
  intro scanner commands action trial
  have haction : Callback action := runAll_callback commands []
  have htrial : Callback trial :=
    .andThen (.request .opening {}) fun result => .look fun _ => result.toOption
  obtain ⟨hahead, hnone, -⟩ := rewinding_restores_scanner haction htrial scanner
  have hlog : (action scanner).2.diagnostics.length = 3 := by
    simp only [action, commands, scanner, runAll, Command.run, Session.act, lookAhead,
      Scanner.tryScan]
    decide +kernel
  refine ⟨haction, htrial, by decide +kernel, hlog, by rw [hahead], ?_⟩
  exact hnone (trial scanner).2 (Prod.ext (by decide +kernel) rfl)

end EcmaLexer.Scanner
