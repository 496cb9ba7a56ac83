import EcmaLexer.Proofs.Lexeme.Plain
import EcmaLexer.Proofs.Scanner.Standing
import EcmaLexer.Proofs.Stream.Pushdown
import EcmaLexer.Proofs.Trivia

namespace EcmaLexer.Pushdown

open Text (CleanCut)

/-- All that decides, beside the text itself, what is read next. -/
structure Control where
  options : Options
  frames : List Frame
  previous : Option Token
  yielded : Nat

def control (machine : Pushdown) : Control where
  options := machine.scanner.options
  frames := machine.frames
  previous := machine.previous
  yielded := machine.yielded

namespace Control

/-- The context of the next token, the options apart. -/
def context (control : Control) : Context :=
  { tagged := control.previous.any Token.endsExpression }

/-- The segment whose substitution a brace at the head of the text closes. -/
def resumed? (control : Control) (text : List Char) : Option Segment :=
  match text, control.frames with
  | '\x7d' :: _, .template segment :: _ => some segment
  | _, _ => none

/-- What is read at the head of a text that no gap comes before. -/
def lexeme (control : Control) (text : List Char) : Lexeme :=
  match text with
  | [] => .accept .endOfSource 0
  | c :: rest =>
    if Trivia.opensComment (c :: rest) then
      .reject .unterminatedComment (rest.length + 1) (rest.length + 1)
    else
      match control.resumed? (c :: rest) with
      | some segment =>
        (Template.segment (segment.context.union control.options.context) rest).after 1 [] {}
      | none => Lexeme.read (control.context.union control.options.context) c rest

/-- The segment that a token at the head of the text belongs to. -/
def segment? (control : Control) (text : List Char) (token : Token) : Option Segment :=
  if token.isTemplate then
    some ((control.resumed? text).getD ⟨control.yielded, control.context⟩)
  else none

/-- The open brackets after a token at the head of the text. -/
def framesAfter (control : Control) (text : List Char) : Token → List Frame
  | .punctuator .leftBrace => .brace :: control.frames
  | .punctuator .rightBrace => control.frames.tail
  | .templateCont =>
    if (control.resumed? text).isSome then control.frames
    else .template ⟨control.yielded, control.context⟩ :: control.frames
  | .templateTail =>
    if (control.resumed? text).isSome then control.frames.tail else control.frames
  | _ => control.frames

def follow (control : Control) (text : List Char) (token : Token) : Control where
  options := control.options
  frames := control.framesAfter text token
  previous := some token
  yielded := control.yielded + 1

/-- The opening delimiter of a template at the head of the text. -/
def delimiter (control : Control) (text : List Char) : Char :=
  if (control.resumed? text).isSome then '\x7d' else '\x60'

theorem delimiter_size (control : Control) (text : List Char) :
    (control.delimiter text).utf8Size = 1 := by
  unfold delimiter
  split <;> rfl

theorem eq_brace_of_resumed? {control : Control} {text : List Char} {segment : Segment}
    (hresumed : control.resumed? text = some segment) :
    ∃ rest frames, text = '\x7d' :: rest ∧ control.frames = .template segment :: frames := by
  unfold resumed? at hresumed
  split at hresumed
  · next rest segment frames hframes =>
    cases hresumed
    exact ⟨rest, frames, rfl, hframes⟩
  · cases hresumed

theorem lexeme_of_opensComment (control : Control) {text : List Char}
    (hopens : Trivia.opensComment text = true) :
    control.lexeme text = .reject .unterminatedComment text.length text.length := by
  cases text with
  | nil => cases hopens
  | cons c rest => rw [lexeme, if_pos hopens, List.length_cons]

/-- Only the first character of the text decides. -/
theorem resumed?_congr (control : Control) {text other : List Char}
    (hhead : text.head? = some '\x7d' ↔ other.head? = some '\x7d') :
    control.resumed? text = control.resumed? other := by
  have hnone {text : List Char} (hhead : text.head? ≠ some '\x7d') :
      control.resumed? text = none := by
    cases hresumed : control.resumed? text with
    | none => rfl
    | some segment =>
      obtain ⟨rest, -, rfl, -⟩ := eq_brace_of_resumed? hresumed
      exact absurd rfl hhead
  by_cases hbrace : text.head? = some '\x7d'
  · obtain ⟨rest, rfl⟩ := List.head?_eq_some_iff.mp hbrace
    obtain ⟨tail, rfl⟩ := List.head?_eq_some_iff.mp (hhead.mp hbrace)
    rcases control with ⟨_, _ | ⟨_ | _, _⟩, _, _⟩ <;> rfl
  · rw [hnone hbrace, hnone fun hother => hbrace (hhead.mpr hother)]

theorem follow_congr {control : Control} {text other : List Char}
    (hresumed : control.resumed? text = control.resumed? other) (token : Token) :
    control.follow text token = control.follow other token := by
  unfold follow framesAfter
  rw [hresumed]

/-- Whatever is read at the head of a text fits into it. -/
theorem lexeme_fits (control : Control) (text : List Char) :
    (control.lexeme text).Fits text := by
  fun_cases lexeme control text with
  | case1 => exact .of_inline (.accept_zero [] rfl)
  | case2 c rest hopens =>
    refine ⟨Nat.le_refl _, ?_, nofun, fun misread hresult => ?_⟩
    · simp [Lexeme.reject]
    · cases hresult
      simp [Lexeme.reject]
  | case3 c rest hopens segment hresumed =>
    obtain ⟨tail, frames, htext, -⟩ := eq_brace_of_resumed? hresumed
    cases htext
    exact (Template.segment_fits _ rest).after_cons (by decide) [] {}
  | case4 c rest hopens hresumed =>
    by_cases hbacktick : c = '\x60'
    · rw [hbacktick]
      exact (Template.segment_fits _ rest).after_cons (by decide) [] {}
    · exact (Lexeme.read_fits hbacktick _ rest).1

/-- A segment after its opening delimiter. -/
theorem delimited_segment (context : Context) (delimiter : Char) (rest : List Char) :
    ((Template.segment context rest).after 1 [] {}).Delimited delimiter (delimiter :: rest) := by
  intro token hresult
  have hsegment := Lexeme.result_of_after_ok hresult
  obtain ⟨raw, hraw⟩ := (Template.segment_fits context rest).closed token hsegment
  refine ⟨raw, ?_⟩
  rw [Template.opener, if_pos (Template.segment_isTemplate hsegment), Lexeme.after, Nat.add_comm,
    List.take_succ_cons, ← hraw]
  rfl

theorem lexeme_delimited (control : Control) (text : List Char) :
    (control.lexeme text).Delimited (control.delimiter text) text := by
  fun_cases lexeme control text with
  | case1 =>
    intro token hresult
    cases hresult
    exact ⟨[], rfl⟩
  | case2 c rest hopens => rintro _ ⟨⟩
  | case3 c rest hopens segment hresumed =>
    obtain ⟨tail, frames, htext, -⟩ := eq_brace_of_resumed? hresumed
    cases htext
    rw [delimiter, hresumed]
    exact delimited_segment _ _ rest
  | case4 c rest hopens hresumed =>
    rw [delimiter, hresumed]
    by_cases hbacktick : c = '\x60'
    · rw [hbacktick]
      exact delimited_segment _ _ rest
    · obtain ⟨hfits, htemplate⟩ :=
        Lexeme.read_fits hbacktick (control.context.union control.options.context) rest
      intro token hresult
      obtain ⟨raw, hraw⟩ := hfits.closed token hresult
      refine ⟨raw, ?_⟩
      rw [Template.opener, htemplate token hresult, ← hraw]
      rfl

/-- A token takes up text, and is not the end of the source. -/
theorem lexeme_token {control : Control} {text : List Char} {token : Token} (hne : text ≠ [])
    (hresult : (control.lexeme text).result = .ok token) :
    token ≠ .endOfSource ∧ 0 < (control.lexeme text).width := by
  have htemplate {token : Token} (htemplate : token.isTemplate = true) : token ≠ .endOfSource := by
    rintro rfl
    cases htemplate
  revert hresult
  fun_cases lexeme control text with
  | case1 => exact absurd rfl hne
  | case2 c rest hopens => rintro ⟨⟩
  | case3 c rest hopens segment hresumed =>
    intro hresult
    exact ⟨htemplate (Template.segment_isTemplate (Lexeme.result_of_after_ok hresult)),
      Nat.lt_add_right _ Nat.one_pos⟩
  | case4 c rest hopens hresumed =>
    intro hresult
    refine ⟨?_, Lexeme.read_width_pos hresult⟩
    by_cases hbacktick : c = '\x60'
    · rw [hbacktick] at hresult
      have hsegment : ((Template.segment (control.context.union control.options.context) rest).after
          1 [] {}).result = .ok token := hresult
      exact htemplate (Template.segment_isTemplate (Lexeme.result_of_after_ok hsegment))
    · rcases Lexeme.read_plain hbacktick _ rest with hplain | ⟨first, -, hread⟩
      · have hword := hplain.token token hresult
        rintro rfl
        cases hword
      · rw [hread] at hresult
        cases hresult
        rintro ⟨⟩

/-- A closing brace is only read where the text begins with one. -/
theorem eq_brace_of_read {context : Context} {c : Char} {rest : List Char}
    (hresult : (Lexeme.read context c rest).result = .ok (.punctuator .rightBrace)) :
    c = '\x7d' := by
  by_cases hbacktick : c = '\x60'
  · rw [hbacktick] at hresult
    have hsegment : ((Template.segment context rest).after 1 [] {}).result =
        .ok (.punctuator .rightBrace) := hresult
    cases Template.segment_isTemplate (Lexeme.result_of_after_ok hsegment)
  · rcases Lexeme.read_plain hbacktick context rest with hplain | ⟨first, hfirst, hread⟩
    · cases hplain.token _ hresult
    · rw [hread] at hresult
      have hlongest : first.longest (c :: rest) = .rightBrace := by
        simpa [Lexeme.ofPunctuator, Lexeme.accept] using hresult
      have hstarts := Punctuator.longest_prefix hfirst rest
      rw [hlongest] at hstarts
      exact (List.cons_prefix_cons.mp hstarts).1.symm

/-- The gap before the next token. -/
def gap (control : Control) (read unread : List Char) : Trivia.Gap :=
  Trivia.skip (control.options.skipHashbang && read.isEmpty) unread

/-- Whether a line ends before the next token. The rest of a template does not look back. -/
def breaksLine (control : Control) (read unread : List Char) : Bool :=
  (control.gap read unread).breaksLine &&
    (control.resumed? (unread.drop (control.gap read unread).width)).isNone

/-- What comes before the next token. -/
def before (control : Control) (read unread : List Char) : List Char :=
  read ++ unread.take (control.gap read unread).width

/-- The text from the next token on. -/
def ahead (control : Control) (read unread : List Char) : List Char :=
  unread.drop (control.gap read unread).width

theorem before_append_ahead (control : Control) (read unread : List Char) :
    control.before read unread ++ control.ahead read unread = read ++ unread := by
  rw [before, ahead, List.append_assoc, List.take_append_drop]

theorem cleanCut_before {read unread : List Char} (hclean : CleanCut read unread)
    (control : Control) :
    CleanCut (control.before read unread) (control.ahead read unread) :=
  hclean.append_take (Trivia.skip_cleanCut _ unread)

/-- Neither a blank nor a line terminator nor a closed comment is left after the gap. -/
theorem element?_ahead (control : Control) (read unread : List Char) :
    Trivia.element? (control.ahead read unread) = none :=
  Trivia.element?_drop_skip _ unread

/-- What is read after the gap. -/
def reading (control : Control) (read unread : List Char) : Lexeme :=
  control.lexeme (control.ahead read unread)

/-- Everything up to where that reading stops. -/
def passed (control : Control) (read unread : List Char) : List Char :=
  control.before read unread ++
    (control.ahead read unread).take (control.reading read unread).width

/-- Everything from there on. -/
def rest (control : Control) (read unread : List Char) : List Char :=
  (control.ahead read unread).drop (control.reading read unread).width

theorem passed_append_rest (control : Control) (read unread : List Char) :
    control.passed read unread ++ control.rest read unread = read ++ unread := by
  rw [passed, rest, List.append_assoc, List.take_append_drop, before_append_ahead]

theorem cleanCut_passed {read unread : List Char} (hclean : CleanCut read unread)
    (control : Control) :
    CleanCut (control.passed read unread) (control.rest read unread) :=
  (control.cleanCut_before hclean).append_take (control.lexeme_fits _).clean

/-- The step that a token is given by. -/
def tokenStep (control : Control) (read unread : List Char) (token : Token) : Step where
  item := .ok ((control.reading read unread).scanned (control.before read unread)
    (control.ahead read unread) token (control.breaksLine read unread))
  location := Text.endLocation (control.passed read unread)
  segment := control.segment? (control.ahead read unread) token

/-- The step that a fault is given by. -/
def faultStep (control : Control) (read unread : List Char) (misread : Misread) : Step where
  item := .error ((control.reading read unread).scanError (control.before read unread)
    (control.ahead read unread) misread)
  location := Text.endLocation (control.passed read unread)
  segment := control.resumed? (control.ahead read unread)

end Control

end EcmaLexer.Pushdown
