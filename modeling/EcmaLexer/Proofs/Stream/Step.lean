import EcmaLexer.Proofs.Stream.Brackets
import EcmaLexer.Proofs.Stream.Control

namespace EcmaLexer

open Text (Mark utf8Length)

namespace Pushdown

/-- The machine goes on from between two parts of its source. -/
structure StandsAt (machine : Pushdown) (control : Control) (read unread : List Char) : Prop where
  scanner : machine.scanner.StandsAt read unread
  control : machine.control = control
  going : machine.finished = false

theorem ofSource_standsAt (source : List Char) (options : Options) :
    (ofSource source options).StandsAt ⟨options, [], none, 0⟩ [] source :=
  ⟨⟨rfl, .nil_left _, rfl⟩, rfl, rfl⟩

theorem next_of_advance {machine reached : Pushdown} {token : Token} {segment : Option Segment}
    (hgoing : machine.finished = false) (hend : token ≠ .endOfSource)
    (hadvance : machine.advance = ⟨.ok token, segment, reached⟩) :
    machine.next =
      (some ⟨.ok reached.scanner.current, reached.scanner.location, segment⟩,
        { reached with yielded := reached.yielded + 1 }) := by
  simp only [next, hgoing, hadvance]
  cases token with
  | endOfSource => exact absurd rfl hend
  | _ => rfl

theorem next_of_fault {machine reached : Pushdown} {error : ScanError} {segment : Option Segment}
    (hgoing : machine.finished = false)
    (hadvance : machine.advance = ⟨.error error, segment, reached⟩) :
    machine.next =
      (some ⟨.error error, reached.scanner.location, segment⟩,
        { reached with finished := true, yielded := reached.yielded + 1 }) := by
  simp [next, hgoing, hadvance]

/-- What a token does to the stack where no segment is gone on with. -/
theorem follow_unresumed {machine : Pushdown} {text : List Char}
    (hresumed : machine.control.resumed? text = none) {token : Token}
    (hbrace : token = .punctuator .rightBrace → text.head? = some '\x7d') :
    machine.follow machine.context token =
      ⟨.ok token, machine.control.segment? text token,
        { machine with frames := machine.control.framesAfter text token }⟩ := by
  have hclosed : machine.control.framesAfter text (.punctuator .rightBrace) = machine.frames.tail :=
    rfl
  fun_cases follow machine machine.context token with
  | case1 => rfl
  | case2 segment frames hframes =>
    obtain ⟨rest, rfl⟩ := List.head?_eq_some_iff.mp (hbrace rfl)
    simp [Control.resumed?, control, hframes] at hresumed
  | case3 frames hframes =>
    rw [hclosed, hframes]
    rfl
  | case4 hframes =>
    rw [hclosed, hframes, List.tail_nil, ← hframes]
    rfl
  | case5 =>
    simp only [Control.segment?, Control.framesAfter, hresumed]
    rfl
  | case6 =>
    simp only [Control.segment?, Control.framesAfter, hresumed]
    rfl
  | case7 hcont htail hleft hright =>
    have htemplate : token.isTemplate = false := by
      cases token <;> first | rfl | contradiction
    have hframes : machine.control.framesAfter text token = machine.frames := by
      unfold Control.framesAfter
      split <;> first | rfl | contradiction
    rw [Control.segment?, htemplate, hframes]
    rfl

namespace StandsAt

variable {machine : Pushdown} {control : Control} {read unread : List Char}

theorem gapAhead_eq (hstands : machine.StandsAt control read unread) :
    machine.scanner.gapAhead = control.gap read unread := by
  rw [hstands.scanner.gapAhead_eq, ← hstands.control]
  rfl

theorem drop_gapAhead (hstands : machine.StandsAt control read unread) :
    machine.scanner.unread.drop machine.scanner.gapAhead.width = control.ahead read unread := by
  rw [hstands.gapAhead_eq, hstands.scanner.unread_eq]
  rfl

theorem tokenMark_eq (hstands : machine.StandsAt control read unread) :
    machine.scanner.tokenMark = Mark.origin.past (control.before read unread) := by
  rw [Scanner.tokenMark, hstands.gapAhead_eq, hstands.scanner.unread_eq, hstands.scanner.mark,
    ← Mark.past_append _ (hstands.scanner.clean.take _)]
  rfl

theorem unclosed_eq (hstands : machine.StandsAt control read unread) :
    machine.scanner.gapAhead.unclosed = Trivia.opensComment (control.ahead read unread) := by
  rw [hstands.gapAhead_eq]
  exact Trivia.skip_unclosed _ _

theorem source_eq (hstands : machine.StandsAt control read unread) :
    machine.scanner.source = control.before read unread ++ control.ahead read unread := by
  rw [Control.before_append_ahead]
  exact hstands.scanner.source

/-- Where no block comment is left open, the next token is read right after the gap. -/
theorem scan_eq_commit (hstands : machine.StandsAt control read unread) {c : Char}
    {rest : List Char} (htext : control.ahead read unread = c :: rest)
    (hopens : Trivia.opensComment (c :: rest) = false) :
    machine.scanner.scan machine.context =
      Scanner.commit machine.scanner (utf8Length (control.before read unread))
        (Mark.origin.past (control.before read unread)) (control.gap read unread).breaksLine
        (c :: rest) (Lexeme.read (control.context.union control.options.context) c rest) := by
  have hunclosed := hstands.unclosed_eq
  rw [htext, hopens] at hunclosed
  rw [Scanner.scan_cons hunclosed (hstands.drop_gapAhead.trans htext), hstands.tokenMark_eq,
    Mark.offset_origin_past, hstands.gapAhead_eq, ← hstands.control]
  rfl

/-- Nothing is given where only a gap is left, and what was open stays open. -/
theorem next_end (hstands : machine.StandsAt control read unread)
    (hend : control.ahead read unread = []) :
    ∃ after, machine.next = (none, after) ∧ after.finished = true ∧
      after.frames = control.frames := by
  have hunclosed := hstands.unclosed_eq
  rw [hend] at hunclosed
  have hscan := Scanner.scan_nil hunclosed (hstands.drop_gapAhead.trans hend) machine.context
  have hframes : machine.frames = control.frames := congrArg Control.frames hstands.control
  rw [next, hstands.going, advance, hscan, Scanner.commit_ok rfl]
  exact ⟨_, rfl, rfl, hframes⟩

/-- The brace that closes a substitution is read on the way to the rest of the template. -/
theorem scan_brace (hstands : machine.StandsAt control read unread) {rest : List Char}
    (htext : control.ahead read unread = '\x7d' :: rest) :
    ∃ brace, machine.scanner.scan machine.context = (.ok (.punctuator .rightBrace), brace) ∧
      brace.StandsAt (control.before read unread ++ ['\x7d']) rest ∧
      brace.options = machine.scanner.options := by
  have hread : Lexeme.read (control.context.union control.options.context) '\x7d' rest =
      .accept (.punctuator .rightBrace) 1 := by
    have hlongest : Punctuator.longest .rightBrace ('\x7d' :: rest) = .rightBrace := rfl
    calc Lexeme.read (control.context.union control.options.context) '\x7d' rest
        = Lexeme.ofPunctuator .rightBrace ('\x7d' :: rest) := rfl
      _ = .accept (.punctuator .rightBrace) 1 := by
        rw [Lexeme.ofPunctuator, hlongest]
        rfl
  have hsource := hstands.source_eq
  have hclean := control.cleanCut_before hstands.scanner.clean
  rw [htext] at hsource hclean
  have hfits : (Lexeme.accept (.punctuator .rightBrace) 1).Fits ('\x7d' :: rest) :=
    .of_inline (.accept (by simp) (by simp; decide) rfl)
  have hdelimited : (Lexeme.accept (.punctuator .rightBrace) 1).Delimited '\x60'
      ('\x7d' :: rest) := by
    intro token hresult
    cases hresult
    exact ⟨['\x7d'], rfl⟩
  obtain ⟨brace, hcommit, hbrace, hoptions, -⟩ := Scanner.commit_token_at hsource hclean hfits
    rfl hdelimited rfl (control.gap read unread).breaksLine
  refine ⟨brace, ?_, hbrace, hoptions⟩
  rw [hstands.scan_eq_commit htext rfl, hread]
  exact hcommit

/-- Outside of a template, a token is taken over as it is read. -/
theorem advance_unresumed (hstands : machine.StandsAt control read unread) {c : Char}
    {rest : List Char} (htext : control.ahead read unread = c :: rest)
    (hopens : Trivia.opensComment (c :: rest) = false)
    (hresumed : control.resumed? (c :: rest) = none) {token : Token} {scanner : Scanner}
    (hcommit : Scanner.commit machine.scanner (utf8Length (control.before read unread))
        (Mark.origin.past (control.before read unread)) (control.gap read unread).breaksLine
        (c :: rest) (Lexeme.read (control.context.union control.options.context) c rest) =
      (.ok token, scanner))
    (hoptions : scanner.options = machine.scanner.options) :
    machine.advance = ⟨.ok token, control.segment? (c :: rest) token,
      { machine with
        scanner := scanner
        frames := control.framesAfter (c :: rest) token
        previous := some token }⟩ := by
  have hcontrol : { machine with scanner := scanner }.control = control := by
    rw [← hstands.control, Pushdown.control, hoptions]
    rfl
  have hbrace (hclosing : token = .punctuator .rightBrace) :
      (c :: rest).head? = some '\x7d' := by
    obtain ⟨hresult, -⟩ := Scanner.commit_token hcommit
    rw [hclosing] at hresult
    rw [List.head?_cons, Control.eq_brace_of_read hresult]
  rw [← hcontrol] at hresumed
  have hfollow := follow_unresumed hresumed hbrace
  rw [hcontrol] at hfollow
  have hcontext : machine.context = { machine with scanner := scanner }.context := rfl
  rw [advance, hstands.scan_eq_commit htext hopens, hcommit, hcontext]
  simp only [hfollow]

/-- The brace that closes a substitution and the rest of the template become one token. -/
theorem advance_resumed (hstands : machine.StandsAt control read unread) {rest : List Char}
    (htext : control.ahead read unread = '\x7d' :: rest) {segment : Segment}
    (hresumed : control.resumed? ('\x7d' :: rest) = some segment) :
    ∃ (brace : Scanner) (frames : List Frame),
      brace.StandsAt (control.before read unread ++ ['\x7d']) rest ∧
      brace.options = machine.scanner.options ∧
      machine.advance =
        match brace.resumeTemplate segment.context with
        | (.ok token, scanner) =>
          ⟨.ok token, control.segment? ('\x7d' :: rest) token,
            { machine with
              scanner := scanner
              frames := control.framesAfter ('\x7d' :: rest) token
              previous := some token }⟩
        | (.error error, scanner) =>
          ⟨.error error, some segment, { machine with scanner := scanner, frames := frames }⟩ := by
  obtain ⟨-, frames, -, hframes⟩ := Control.eq_brace_of_resumed? hresumed
  have htop : machine.frames = .template segment :: frames := by
    rw [← hframes, ← hstands.control]
    rfl
  obtain ⟨brace, hscan, hbrace, hoptions⟩ := hstands.scan_brace htext
  refine ⟨brace, frames, hbrace, hoptions, ?_⟩
  rw [advance, hscan]
  simp only [follow, htop, resume]
  rcases hresume : brace.resumeTemplate segment.context with ⟨result, scanner⟩
  cases result with
  | error error => rfl
  | ok token =>
    obtain ⟨htemplate, -⟩ := Scanner.resumeTemplate_token hresume
    cases token <;> cases htemplate
    all_goals
      simp only [Control.segment?, Token.isTemplate, Control.framesAfter, hresumed, hframes]
      rfl

/-- The token that is read right after the gap, and where the machine stands past it. -/
theorem advance_token (hstands : machine.StandsAt control read unread) {text : List Char}
    (htext : control.ahead read unread = text) (hne : text ≠ []) {lexeme : Lexeme}
    (hlexeme : control.lexeme text = lexeme) {token : Token} (hresult : lexeme.result = .ok token) :
    ∃ scanner, machine.advance = ⟨.ok token, control.segment? text token,
        { machine with
          scanner := scanner
          frames := control.framesAfter text token
          previous := some token }⟩ ∧
      scanner.StandsAt (control.before read unread ++ text.take lexeme.width)
        (text.drop lexeme.width) ∧
      scanner.options = machine.scanner.options ∧
      scanner.current =
        lexeme.scanned (control.before read unread) text token
          (control.breaksLine read unread) := by
  have hsource := hstands.source_eq
  have hclean := control.cleanCut_before hstands.scanner.clean
  have hfits := control.lexeme_fits text
  have hdelimited := control.lexeme_delimited text
  have hsize := control.delimiter_size text
  have hbreaks : control.breaksLine read unread =
      ((control.gap read unread).breaksLine && (control.resumed? text).isNone) := by
    rw [← htext]
    rfl
  rw [htext] at hsource hclean
  rw [hlexeme] at hfits hdelimited
  revert hlexeme
  fun_cases Control.lexeme control text with
  | case1 => exact absurd rfl hne
  | case2 c rest hopens =>
    rintro rfl
    cases hresult
  | case3 c rest hopens segment hresumed =>
    rintro rfl
    obtain ⟨tail, -, hcons, -⟩ := Control.eq_brace_of_resumed? hresumed
    cases hcons
    rw [hresumed, Option.isNone_some, Bool.and_false] at hbreaks
    obtain ⟨brace, frames, hbrace, hoptions, hadvance⟩ := hstands.advance_resumed htext hresumed
    have hrest : rest ≠ [] := by
      rintro rfl
      have hsegment := Lexeme.result_of_after_ok hresult
      rw [Template.segment] at hsegment
      cases hsegment
    have hsource : brace.source = control.before read unread ++ '\x7d' :: rest := by
      rw [hbrace.source, List.append_assoc, List.singleton_append]
    have hcontext : brace.contextFor segment.context =
        segment.context.union control.options.context := by
      rw [Scanner.contextFor, hoptions, ← hstands.control]
      rfl
    have hresume := hbrace.resumeTemplate_eq_commit hrest segment.context
    rw [hcontext] at hresume
    obtain ⟨scanner, hcommit, hat, hsame, hcurrent⟩ := Scanner.commit_token_at hsource hclean
      hfits hsize hdelimited hresult (control.breaksLine read unread)
    rw [hbreaks] at hcommit
    rw [hresume, hcommit] at hadvance
    exact ⟨scanner, hadvance, hat, hsame.trans hoptions, hcurrent⟩
  | case4 c rest hopens hresumed =>
    rintro rfl
    rw [hresumed, Option.isNone_none, Bool.and_true] at hbreaks
    obtain ⟨scanner, hcommit, hat, hoptions, hcurrent⟩ := Scanner.commit_token_at hsource hclean
      hfits hsize hdelimited hresult (control.breaksLine read unread)
    refine ⟨scanner, ?_, hat, hoptions, hcurrent⟩
    rw [hbreaks] at hcommit
    exact hstands.advance_unresumed htext (by simpa using hopens) hresumed hcommit hoptions

/-- A fault that is found right after the gap, and where the scanner stands after it. -/
theorem advance_fault (hstands : machine.StandsAt control read unread) {text : List Char}
    (htext : control.ahead read unread = text) {lexeme : Lexeme}
    (hlexeme : control.lexeme text = lexeme) {misread : Misread}
    (hresult : lexeme.result = .error misread) :
    ∃ reached, machine.advance =
        ⟨.error (lexeme.scanError (control.before read unread) text misread), control.resumed? text,
          reached⟩ ∧
      reached.scanner.StandsAt (control.before read unread ++ text.take lexeme.width)
        (text.drop lexeme.width) := by
  have hsource := hstands.source_eq
  have hclean := control.cleanCut_before hstands.scanner.clean
  have hfits := control.lexeme_fits text
  rw [htext] at hsource hclean
  rw [hlexeme] at hfits
  revert hlexeme
  fun_cases Control.lexeme control text with
  | case1 =>
    rintro rfl
    cases hresult
  | case2 c rest hopens =>
    rintro rfl
    cases hresult
    have hunclosed := hstands.unclosed_eq
    rw [htext, hopens] at hunclosed
    obtain ⟨scanner, hscan, hat⟩ := hstands.scanner.scan_unclosed_at hunclosed machine.context
    have htake : (c :: rest).take (rest.length + 1) = c :: rest :=
      List.take_of_length_le (Nat.le_refl _)
    have hdrop : (c :: rest).drop (rest.length + 1) = [] := List.drop_length
    have hwhole : control.before read unread ++ (c :: rest) = read ++ unread := by
      rw [← htext, Control.before_append_ahead]
    have hresumed : control.resumed? (c :: rest) = none := by
      cases hresumed : control.resumed? (c :: rest) with
      | none => rfl
      | some segment =>
        obtain ⟨tail, -, hcons, -⟩ := Control.eq_brace_of_resumed? hresumed
        cases hcons
        cases hopens
    refine ⟨{ machine with scanner := scanner }, ?_, ?_⟩
    · simp only [Lexeme.scanError, Lexeme.reject, htake, hwhole, hresumed]
      rw [advance, hscan]
      rfl
    · simp only [Lexeme.reject, htake, hdrop, hwhole]
      exact hat
  | case3 c rest hopens segment hresumed =>
    rintro rfl
    obtain ⟨tail, -, hcons, -⟩ := Control.eq_brace_of_resumed? hresumed
    cases hcons
    obtain ⟨brace, frames, hbrace, hoptions, hadvance⟩ := hstands.advance_resumed htext hresumed
    rw [hresumed]
    cases rest with
    | nil =>
      have hresume := hbrace.resumeTemplate_end segment.context
      rw [hresume, Scanner.report, hbrace.offset_eq, hbrace.mark] at hadvance
      have hsegment : Template.segment (segment.context.union control.options.context) [] =
          .reject .unexpectedEndOfInput 0 0 := by rw [Template.segment]
      rw [hsegment] at hresult ⊢
      cases hresult
      exact ⟨_, hadvance, hbrace.source, hbrace.clean, hbrace.mark⟩
    | cons first tail =>
      have hsource : brace.source = control.before read unread ++ '\x7d' :: first :: tail := by
        rw [hbrace.source, List.append_assoc, List.singleton_append]
      have hcontext : brace.contextFor segment.context =
          segment.context.union control.options.context := by
        rw [Scanner.contextFor, hoptions, ← hstands.control]
        rfl
      have hresume := hbrace.resumeTemplate_eq_commit (List.cons_ne_nil first tail) segment.context
      rw [hcontext] at hresume
      obtain ⟨scanner, hcommit, hat⟩ :=
        Scanner.commit_fault_at hsource hclean hfits hresult false
      rw [hresume, hcommit] at hadvance
      exact ⟨_, hadvance, hat⟩
  | case4 c rest hopens hresumed =>
    rintro rfl
    obtain ⟨scanner, hcommit, hat⟩ := Scanner.commit_fault_at hsource hclean hfits hresult
      (control.gap read unread).breaksLine
    refine ⟨{ machine with scanner := scanner }, ?_, hat⟩
    rw [advance, hstands.scan_eq_commit htext (by simpa using hopens), hcommit, hresumed]

/-- The next item is the token that is read right after the gap. -/
theorem next_token (hstands : machine.StandsAt control read unread)
    (hne : control.ahead read unread ≠ []) {token : Token}
    (hresult : (control.reading read unread).result = .ok token) :
    ∃ after, machine.next = (some (control.tokenStep read unread token), after) ∧
      after.StandsAt (control.follow (control.ahead read unread) token)
        (control.passed read unread) (control.rest read unread) := by
  obtain ⟨scanner, hadvance, hat, hoptions, hcurrent⟩ := hstands.advance_token rfl hne rfl hresult
  obtain ⟨hend, -⟩ := Control.lexeme_token hne hresult
  have hnext := next_of_advance hstands.going hend hadvance
  simp only [hcurrent, hat.location_eq] at hnext
  refine ⟨_, hnext, hat, ?_, hstands.going⟩
  rw [Pushdown.control, hoptions, Control.follow, ← hstands.control]
  rfl

/-- A fault that is found right after the gap is the next item and the last one. -/
theorem next_fault (hstands : machine.StandsAt control read unread) {misread : Misread}
    (hresult : (control.reading read unread).result = .error misread) :
    ∃ after, machine.next = (some (control.faultStep read unread misread), after) ∧
      after.finished = true := by
  obtain ⟨reached, hadvance, hat⟩ := hstands.advance_fault rfl rfl hresult
  have hnext := next_of_fault hstands.going hadvance
  rw [hat.location_eq] at hnext
  exact ⟨_, hnext, rfl⟩

end StandsAt

/-- The steps of a number of requests, and whether one of them gave none. -/
structure Lexed where
  steps : List Step
  ended : Bool

def Lexed.after (step : Step) (lexed : Lexed) : Lexed := { lexed with steps := step :: lexed.steps }

namespace Control

/-- A run of the machine as a function of the text alone: of what was read, which only says
    where everything is, and of what was not. -/
def lex : Nat → Control → List Char → List Char → Lexed
  | 0, _, _, _ => ⟨[], false⟩
  | requests + 1, control, read, unread =>
    if control.ahead read unread = [] then ⟨[], true⟩
    else
      match (control.reading read unread).result with
      | .error misread => ⟨[control.faultStep read unread misread], requests != 0⟩
      | .ok token =>
        (lex requests (control.follow (control.ahead read unread) token)
          (control.passed read unread) (control.rest read unread)).after
          (control.tokenStep read unread token)

end Control

/-- The scanner and the stack together do just what the text says. -/
theorem StandsAt.run_eq_lex {machine : Pushdown} {control : Control} {read unread : List Char}
    (hstands : machine.StandsAt control read unread) (requests : Nat) :
    (run requests machine).steps = (control.lex requests read unread).steps ∧
      (run requests machine).ended = (control.lex requests read unread).ended := by
  fun_induction Control.lex requests control read unread generalizing machine with
  | case1 control read unread => exact ⟨rfl, rfl⟩
  | case2 requests control read unread hend =>
    obtain ⟨after, hnext, -⟩ := hstands.next_end hend
    rw [run, hnext]
    exact ⟨rfl, rfl⟩
  | case3 requests control read unread hne misread hresult =>
    obtain ⟨after, hnext, hfinished⟩ := hstands.next_fault hresult
    obtain ⟨hsteps, -, hended⟩ := run_finished hfinished requests
    rw [run, hnext]
    simp [Trace.after, hsteps, hended]
  | case4 requests control read unread hne token hresult ih =>
    obtain ⟨after, hnext, hafter⟩ := hstands.next_token hne hresult
    obtain ⟨hsteps, hended⟩ := ih hafter
    rw [run, hnext]
    simp [Trace.after, Lexed.after, hsteps, hended]

/-- The items of a whole text are read off it. -/
theorem run_ofSource_eq_lex (source : List Char) (options : Options) (requests : Nat) :
    (run requests (ofSource source options)).steps =
        (Control.lex requests ⟨options, [], none, 0⟩ [] source).steps ∧
      (run requests (ofSource source options)).ended =
        (Control.lex requests ⟨options, [], none, 0⟩ [] source).ended :=
  (ofSource_standsAt source options).run_eq_lex requests

end Pushdown

/-- A run of the stream gives what is read off the text. -/
theorem Stream.run_eq_lex (source : List Char) (options : Options) (requests : Nat) :
    let lexed := Pushdown.Control.lex requests ⟨options, [], none, 0⟩ [] source
    (Stream.run requests (.ofSource source options)).items =
        lexed.steps.map Pushdown.Step.output ∧
      (Stream.run requests (.ofSource source options)).ended = lexed.ended := by
  obtain ⟨hsteps, hended⟩ := Pushdown.run_ofSource_eq_lex source options requests
  have hrun := Pushdown.toStream_run requests (.ofSource source options)
  rw [hsteps, hended] at hrun
  rw [show Stream.ofSource source options = (Pushdown.ofSource source options).toStream from rfl,
    hrun]
  exact ⟨rfl, rfl⟩

end EcmaLexer
