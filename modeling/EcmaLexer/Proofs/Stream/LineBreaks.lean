import EcmaLexer.Proofs.Stream.Step
import EcmaLexer.Proofs.Trivia.Filler

namespace EcmaLexer

open Text (isLineTerminator slice? utf8Length)

namespace Pushdown

/-- Unless a run has ended, the machine stands somewhere in the text that it began with. -/
theorem StandsAt.run_standsAt {machine : Pushdown} {control : Control} {read unread : List Char}
    (hstands : machine.StandsAt control read unread) (requests : Nat) :
    (run requests machine).machine.finished = true ∨
      ∃ reached passed rest, (run requests machine).machine.StandsAt reached passed rest ∧
        passed ++ rest = read ++ unread := by
  induction requests generalizing machine control read unread with
  | zero => exact .inr ⟨control, read, unread, hstands, rfl⟩
  | succ requests ih =>
    by_cases hend : control.ahead read unread = []
    · obtain ⟨after, hnext, hfinished, -⟩ := hstands.next_end hend
      rw [run, hnext]
      exact .inl hfinished
    cases hresult : (control.reading read unread).result with
    | error misread =>
      obtain ⟨after, hnext, hfinished⟩ := hstands.next_fault hresult
      obtain ⟨-, hmachine, -⟩ := run_finished hfinished requests
      rw [run, hnext]
      exact .inl ((congrArg finished hmachine).trans hfinished)
    | ok token =>
      obtain ⟨after, hnext, hafter⟩ := hstands.next_token hend hresult
      rw [run, hnext, ← control.passed_append_rest]
      exact ih hafter

namespace Control

/-- A segment is gone on with exactly where a template token begins with a closing brace. -/
theorem resumed?_isSome_iff {control : Control} {text : List Char} {token : Token}
    (hresult : (control.lexeme text).result = .ok token) :
    (control.resumed? text).isSome = true ↔
      token.isTemplate = true ∧ text.head? = some '\x7d' := by
  revert hresult
  fun_cases lexeme control text with
  | case1 =>
    rintro ⟨⟩
    simp [resumed?, Token.isTemplate]
  | case2 => rintro ⟨⟩
  | case3 c rest hopens segment hresumed =>
    intro hresult
    obtain ⟨tail, -, htext, -⟩ := eq_brace_of_resumed? hresumed
    cases htext
    simp [hresumed, Template.segment_isTemplate (Lexeme.result_of_after_ok hresult)]
  | case4 c rest hopens hresumed =>
    intro hresult
    rw [hresumed]
    refine ⟨by rintro ⟨⟩, ?_⟩
    rintro ⟨htemplate, hhead⟩
    obtain rfl : c = '\x7d' := Option.some.inj hhead
    cases hresult
    cases htemplate

/-- A token is marked exactly if a line ends in the gap before it, unless a segment is gone on
    with there. -/
theorem breaksLine_iff (control : Control) {read unread : List Char} {token : Token}
    (hresult : (control.reading read unread).result = .ok token) :
    control.breaksLine read unread = true ↔
      (unread.take (control.gap read unread).width).any isLineTerminator = true ∧
        ¬(token.isTemplate = true ∧ (control.ahead read unread).head? = some '\x7d') := by
  have hgap := Trivia.skip_breaksLine (control.options.skipHashbang && read.isEmpty) unread
  rw [← resumed?_isSome_iff hresult, breaksLine, gap, hgap, Bool.and_eq_true,
    Option.isNone_iff_eq_none, ← Option.not_isSome_iff_eq_none]
  rfl

end Control

end Pushdown

/-- The mark that a line ends before a token says the truth about every token that the stream gives,
    unless the token is a template segment that a closing brace begins: there a line may end before
    the brace, and the mark is never set. So the mark is wrong exactly for such a segment with a
    line terminator in the gap before it. The gap goes from where the cursor was to where the token
    starts, which its range tells in 32 bits and its raw text exactly. -/
theorem Stream.next_precedingLineBreak (source : List Char) (options : Options) (requests : Nat)
    {scanned : ScannedToken} {after : Stream}
    (hnext : (run requests (.ofSource source options)).stream.next = (some (.ok scanned), after)) :
    ∃ read gap text rest, source = read ++ gap ++ text ++ rest ∧
      (run requests (.ofSource source options)).stream.scanner.offset = utf8Length read ∧
      scanned.range = .ofOffsets (utf8Length (read ++ gap)) (utf8Length (read ++ gap ++ text)) ∧
      scanned.raw = scanned.token.rawOf text ∧
      after.scanner.offset = utf8Length (read ++ gap ++ text) ∧
      (scanned.flags.precedingLineBreak = true ↔ gap.any isLineTerminator = true ∧
        ¬(scanned.token.isTemplate = true ∧ text.head? = some '\x7d')) := by
  have hstream : (run requests (.ofSource source options)).stream =
      (Pushdown.run requests (.ofSource source options)).machine.toStream :=
    congrArg Run.stream (Pushdown.toStream_run requests (.ofSource source options))
  rw [hstream] at hnext ⊢
  generalize hmachine : (Pushdown.run requests (.ofSource source options)).machine = machine
    at hnext ⊢
  have hreached := (Pushdown.ofSource_standsAt source options).run_standsAt requests
  rw [hmachine] at hreached
  rw [Pushdown.toStream_next] at hnext
  rcases hreached with hfinished | ⟨control, read, unread, hstands, hsource⟩
  · rw [Pushdown.next, hfinished] at hnext
    cases hnext
  by_cases hend : control.ahead read unread = []
  · obtain ⟨reached, hnone, -⟩ := hstands.next_end hend
    rw [hnone] at hnext
    cases hnext
  cases hresult : (control.reading read unread).result with
  | error misread =>
    obtain ⟨reached, hfault, -⟩ := hstands.next_fault hresult
    rw [hfault] at hnext
    cases hnext
  | ok token =>
    obtain ⟨reached, htoken, hreached⟩ := hstands.next_token hend hresult
    rw [htoken] at hnext
    cases hnext
    have hwidth : 0 < (control.reading read unread).width :=
      (Pushdown.Control.lexeme_token hend hresult).2
    have hhead : (control.ahead read unread).head? =
        ((control.ahead read unread).take (control.reading read unread).width).head? := by
      rw [List.head?_take, if_neg (Nat.ne_of_gt hwidth)]
    have hmark := control.breaksLine_iff hresult
    rw [hhead] at hmark
    refine ⟨read, unread.take (control.gap read unread).width,
      (control.ahead read unread).take (control.reading read unread).width,
      control.rest read unread, ?_, hstands.scanner.offset_eq, rfl, rfl,
      hreached.scanner.offset_eq, hmark⟩
    exact hsource.symm.trans (control.passed_append_rest read unread).symm

/-- A line feed in the substitution before its closing brace is marked at a name there, and not
    at the brace. -/
theorem Stream.next_precedingLineBreak_name :
    ∃ scanned after,
      (run 1 (.ofSource "\x60$\x7b\na\n\x7d\x60".toList {})).stream.next =
        (some (.ok scanned), after) ∧
      scanned.token = .identifier ∧ scanned.flags.precedingLineBreak = true ∧
      ∃ read gap text rest, "\x60$\x7b\na\n\x7d\x60".toList = read ++ gap ++ text ++ rest ∧
        scanned.range = .ofOffsets (utf8Length (read ++ gap)) (utf8Length (read ++ gap ++ text)) ∧
        gap.any isLineTerminator = true := by
  have hname : (run 1 (.ofSource "\x60$\x7b\na\n\x7d\x60".toList {})).stream.next.1.bind
      Except.toOption =
        some ⟨.identifier, ⟨4, 5⟩, some ['a'], ['a'], { precedingLineBreak := true }⟩ := by
    decide +kernel
  rcases hnext : (run 1 (.ofSource "\x60$\x7b\na\n\x7d\x60".toList {})).stream.next with
    ⟨_ | _ | scanned, after⟩
  all_goals
    rw [hnext] at hname
    cases hname
  obtain ⟨read, gap, text, rest, hsource, -, hrange, -, -, hmark⟩ :=
    Stream.next_precedingLineBreak _ {} 1 hnext
  exact ⟨_, _, rfl, rfl, rfl, read, gap, text, rest, hsource, hrange, (hmark.mp rfl).1⟩

/-- The segment after the substitution is not marked, though a line feed stands between it and the
    token before. -/
theorem Stream.precedingLineBreak_lost_at_brace :
    ∃ head resumed, (runAll (.ofSource "\x60$\x7b\n\x7d\x60".toList {})).items.filterMap
        (·.1.toOption) = [head, resumed] ∧
      slice? "\x60$\x7b\n\x7d\x60".toList head.range.stop resumed.range.first = some ['\n'] ∧
      resumed.flags.precedingLineBreak = false := by
  refine ⟨⟨.templateCont, ⟨0, 3⟩, some [], [], {}⟩, ⟨.templateTail, ⟨4, 6⟩, some [], [], {}⟩,
    ?_, ?_, ?_⟩
  all_goals decide +kernel

end EcmaLexer
