import EcmaLexer.Proofs.Stream.Tiling
import EcmaLexer.Proofs.Text.Moving

namespace EcmaLexer

open Text (utf8Length word32_of_lt)

namespace Frame

/-- Open brackets beside others: the same from the innermost on, and only braces around them. -/
inductive Within : List Frame → List Frame → Prop where
  | braces (depth : Nat) : Within [] (List.replicate depth .brace)
  | brace {frames outer : List Frame} (hwithin : Within frames outer) :
      Within (.brace :: frames) (.brace :: outer)
  | template {frames outer : List Frame} {segment other : Segment}
      (hcontext : other.context = segment.context) (hwithin : Within frames outer) :
      Within (.template segment :: frames) (.template other :: outer)

/-- Also a closing brace that closes nothing leaves only braces around. -/
theorem Within.tail {frames outer : List Frame} (hwithin : Within frames outer) :
    Within frames.tail outer.tail := by
  cases hwithin with
  | braces depth =>
    rw [List.tail_replicate]
    exact .braces (depth - 1)
  | brace hwithin => exact hwithin
  | template hcontext hwithin => exact hwithin

/-- Without an open substitution there are only braces. -/
theorem eq_replicate_of_substitutions {frames : List Frame} (hclosed : substitutions frames = []) :
    frames = List.replicate (braces frames) .brace := by
  induction frames with
  | nil => rfl
  | cons frame frames ih =>
    cases frame with
    | brace => exact congrArg (Frame.brace :: ·) (ih hclosed)
    | template segment => cases hclosed

end Frame

/-- Only templates depend on whether a tag comes before them. -/
theorem Lexeme.read_untagged {context other : Context} (hstrict : context.strict = other.strict)
    {c : Char} (hbacktick : c ≠ '\x60') (rest : List Char) :
    read context c rest = read other c rest := by
  unfold read
  rw [hstrict]
  split
  case h_2 hclass => exact absurd (eq_backtick_of_class hclass) hbacktick
  all_goals rfl

namespace Pushdown.Control

/-- A control that has read another text before: of that text only braces are still open, and
    its last token matters to a template at most. -/
structure Carries (control joined : Control) (text : List Char) : Prop where
  options : joined.options = control.options
  frames : Frame.Within control.frames joined.frames
  context : text.head? = some '\x60' → joined.context = control.context

/-- A template that is not gone on with begins with a backtick. -/
theorem head?_of_template {control : Control} {text : List Char} {token : Token}
    (hresult : (control.lexeme text).result = .ok token) (htemplate : token.isTemplate = true)
    (hnone : ¬(control.resumed? text).isSome = true) : text.head? = some '\x60' := by
  revert hresult
  fun_cases lexeme control text with
  | case1 =>
    rintro ⟨⟩
    cases htemplate
  | case2 => rintro ⟨⟩
  | case3 c rest hopens segment hresumed => exact absurd (by rw [hresumed]; rfl) hnone
  | case4 c rest hopens hresumed =>
    intro hresult
    rw [List.head?_cons, Option.some.injEq]
    refine Decidable.byContradiction fun hbacktick => ?_
    have hplain := (Lexeme.read_fits hbacktick _ rest).2 token hresult
    cases htemplate.symm.trans hplain

namespace Carries

variable {control joined : Control} {text : List Char}

theorem resumed? (hcarries : control.Carries joined text) :
    (joined.resumed? text).map Segment.context = (control.resumed? text).map Segment.context := by
  by_cases hbrace : text.head? = some '\x7d'
  · obtain ⟨rest, rfl⟩ := List.head?_eq_some_iff.mp hbrace
    have hframes := hcarries.frames
    rcases control with ⟨_, frames, _, _⟩
    rcases joined with ⟨_, outer, _, _⟩
    cases hframes with
    | braces depth => cases depth <;> rfl
    | brace hwithin => rfl
    | template hcontext hwithin => exact congrArg some hcontext
  · have hother : text.head? = some '\x7d' ↔ ([] : List Char).head? = some '\x7d' := by
      simp [hbrace]
    rw [control.resumed?_congr hother, joined.resumed?_congr hother]
    rfl

theorem isSome_resumed? (hcarries : control.Carries joined text) :
    (joined.resumed? text).isSome = (control.resumed? text).isSome := by
  have hsame := congrArg Option.isSome hcarries.resumed?
  rwa [Option.isSome_map, Option.isSome_map] at hsame

/-- The text before does not matter to what is read. -/
theorem lexeme (hcarries : control.Carries joined text) :
    joined.lexeme text = control.lexeme text := by
  have hresumed := hcarries.resumed?
  fun_cases Control.lexeme control text with
  | case1 => rfl
  | case2 c rest hopens => exact lexeme_of_opensComment joined hopens
  | case3 c rest hopens segment hsegment =>
    rw [hsegment] at hresumed
    obtain ⟨other, hother, hcontext⟩ := Option.map_eq_some_iff.mp hresumed
    rw [Control.lexeme, if_neg hopens, hother, hcarries.options, ← hcontext]
  | case4 c rest hopens hnone =>
    rw [hnone] at hresumed
    rw [Control.lexeme, if_neg hopens, Option.map_eq_none_iff.mp hresumed, hcarries.options]
    by_cases hbacktick : c = '\x60'
    · rw [hcarries.context (congrArg some hbacktick)]
    · exact Lexeme.read_untagged (by rfl) hbacktick rest

/-- Nor does it after a token. -/
theorem follow (hcarries : control.Carries joined text) {token : Token}
    (hresult : (control.lexeme text).result = .ok token) (other : List Char) :
    (control.follow text token).Carries (joined.follow text token) other := by
  refine ⟨hcarries.options, ?_, fun _ => rfl⟩
  have hresumed := hcarries.isSome_resumed?
  simp only [Control.follow]
  unfold framesAfter
  split
  case h_1 => exact .brace hcarries.frames
  case h_2 => exact hcarries.frames.tail
  case h_3 =>
    rw [hresumed]
    split
    · exact hcarries.frames
    · next hnone =>
      exact .template (hcarries.context (head?_of_template hresult rfl hnone)) hcarries.frames
  case h_4 =>
    rw [hresumed]
    split
    · exact hcarries.frames.tail
    · exact hcarries.frames
  case h_5 => exact hcarries.frames

end Carries

end Pushdown.Control

/-- The token further on in a longer text. -/
def ScannedToken.moved (bytes : Nat) (scanned : ScannedToken) : ScannedToken :=
  { scanned with range := ⟨scanned.range.first + bytes, scanned.range.stop + bytes⟩ }

/-- The error further on and further down in a longer text. -/
def ScanError.moved (bytes lines : Nat) (error : ScanError) : ScanError :=
  { error with position := error.position + bytes, location := error.location.moved lines }

namespace Stream

/-- The item further on and further down in a longer text. -/
def moved (bytes lines : Nat) : Item × Text.Location → Item × Text.Location
  | (.ok scanned, location) => (.ok (scanned.moved bytes), location.moved lines)
  | (.error error, location) => (.error (error.moved bytes lines), location.moved lines)

/-- The items with another mark at the first one, if that is a token, for whether a line ends
    before it. -/
def marked (breaksLine : Bool) : List (Item × Text.Location) → List (Item × Text.Location)
  | (.ok scanned, location) :: items =>
    (.ok { scanned with flags := { scanned.flags with precedingLineBreak := breaksLine } },
      location) :: items
  | items => items

end Stream

namespace Lexeme

theorem scanned_moved {lexeme : Lexeme} {front read text : List Char}
    (hlength : utf8Length (read ++ text.take lexeme.width) + (utf8Length front + 1) < 4294967296)
    (token : Token) (breaksLine : Bool) :
    lexeme.scanned (front ++ ['\n'] ++ read) text token breaksLine =
      (lexeme.scanned read text token breaksLine).moved (utf8Length front + 1) := by
  have hle : utf8Length read ≤ utf8Length (read ++ text.take lexeme.width) := by
    rw [Text.utf8Length_append]
    exact Nat.le_add_right _ _
  simp only [scanned, ScannedToken.moved, Text.Range.ofOffsets,
    List.append_assoc (front ++ ['\n']), Text.utf8Length_afterLineFeed]
  rw [word32_of_lt (by omega), word32_of_lt (by omega), word32_of_lt (by omega),
    word32_of_lt (by omega)]

theorem scanError_moved (lexeme : Lexeme) (front read text : List Char) (misread : Misread) :
    lexeme.scanError (front ++ ['\n'] ++ read) text misread =
      (lexeme.scanError read text misread).moved (utf8Length front + 1)
        (Text.linesBefore front) := by
  simp only [scanError, ScanError.moved, List.append_assoc (front ++ ['\n']),
    Text.Mark.past_afterLineFeed, Text.utf8Length_afterLineFeed, Text.Mark.locate_moved]

end Lexeme

namespace Pushdown.Control

/-- The same is ahead of two controls, the second of which has read another text and a line feed
    before. -/
structure Beside (front : List Char) (control : Control) (read unread : List Char)
    (joined : Control) (more rest : List Char) : Prop where
  ahead : joined.ahead more rest = control.ahead read unread
  before : joined.before more rest = front ++ ['\n'] ++ control.before read unread
  carries : control.Carries joined (control.ahead read unread)

namespace Beside

variable {front read unread more rest : List Char} {control joined : Control}

theorem reading (hbeside : Beside front control read unread joined more rest) :
    joined.reading more rest = control.reading read unread := by
  rw [Control.reading, hbeside.ahead, hbeside.carries.lexeme]
  rfl

theorem passed (hbeside : Beside front control read unread joined more rest) :
    joined.passed more rest = front ++ ['\n'] ++ control.passed read unread := by
  rw [Control.passed, hbeside.before, hbeside.ahead, hbeside.reading, List.append_assoc]
  rfl

theorem rest_eq (hbeside : Beside front control read unread joined more rest) :
    joined.rest more rest = control.rest read unread := by
  rw [Control.rest, hbeside.ahead, hbeside.reading]
  rfl

theorem faultStep (hbeside : Beside front control read unread joined more rest)
    (misread : Misread) :
    (joined.faultStep more rest misread).output =
      Stream.moved (utf8Length front + 1) (Text.linesBefore front)
        (control.faultStep read unread misread).output := by
  simp only [Step.output, Control.faultStep, hbeside.reading, hbeside.before, hbeside.ahead,
    hbeside.passed, Lexeme.scanError_moved, Text.endLocation_afterLineFeed]
  rfl

theorem tokenStep (hbeside : Beside front control read unread joined more rest)
    (hlength : utf8Length (read ++ unread) + (utf8Length front + 1) < 4294967296)
    (token : Token) (items : List (Stream.Item × Text.Location)) :
    (joined.tokenStep more rest token).output :: items =
      Stream.marked (joined.breaksLine more rest)
        (Stream.moved (utf8Length front + 1) (Text.linesBefore front)
          (control.tokenStep read unread token).output :: items) := by
  have hpassed : utf8Length (control.passed read unread) + (utf8Length front + 1) <
      4294967296 := by
    rw [← control.passed_append_rest, Text.utf8Length_append] at hlength
    omega
  simp only [Step.output, Control.tokenStep, hbeside.reading, hbeside.before, hbeside.ahead,
    hbeside.passed, Lexeme.scanned_moved hpassed, Text.endLocation_afterLineFeed]
  rfl

/-- Past the start of its text a control does not ask how much was read. -/
theorem of_isEmpty (hread : read.isEmpty = false)
    (hcarries : ∀ text, control.Carries joined text) (front unread : List Char) :
    Beside front control read unread joined (front ++ ['\n'] ++ read) unread ∧
      joined.breaksLine (front ++ ['\n'] ++ read) unread = control.breaksLine read unread := by
  have hmore : (front ++ ['\n'] ++ read).isEmpty = false := by simp
  have hgap : joined.gap (front ++ ['\n'] ++ read) unread = control.gap read unread := by
    rw [gap, gap, hmore, hread, (hcarries unread).options]
  refine ⟨⟨?_, ?_, hcarries _⟩, ?_⟩
  · rw [Control.ahead, hgap]
    rfl
  · rw [Control.before, hgap, List.append_assoc]
    rfl
  · have hresumed := (hcarries (unread.drop (control.gap read unread).width)).isSome_resumed?
    rw [breaksLine, breaksLine, hgap, ← Option.not_isSome, ← Option.not_isSome, hresumed]

end Beside

/-- The mark of the first token says what it says. -/
theorem marked_lex (requests : Nat) (control : Control) (read unread : List Char)
    (bytes lines : Nat) :
    let items := (control.lex requests read unread).steps.map Step.output
    Stream.marked (control.breaksLine read unread) (items.map (Stream.moved bytes lines)) =
      items.map (Stream.moved bytes lines) := by
  fun_cases lex requests control read unread with
  | case1 => rfl
  | case2 => rfl
  | case3 => rfl
  | case4 => rfl

/-- After another text and a line feed everything is read alike, further on and further down. -/
theorem lex_moved {requests : Nat} {control joined : Control}
    {front read unread more rest : List Char}
    (hbeside : Beside front control read unread joined more rest)
    (hlength : utf8Length (read ++ unread) + (utf8Length front + 1) < 4294967296) :
    (joined.lex requests more rest).ended = (control.lex requests read unread).ended ∧
      (joined.lex requests more rest).steps.map Step.output =
        Stream.marked (joined.breaksLine more rest)
          (((control.lex requests read unread).steps.map Step.output).map
            (Stream.moved (utf8Length front + 1) (Text.linesBefore front))) := by
  fun_induction lex requests control read unread generalizing joined more rest with
  | case1 => exact ⟨rfl, rfl⟩
  | case2 requests control read unread hend =>
    rw [lex, if_pos (hbeside.ahead.trans hend)]
    exact ⟨rfl, rfl⟩
  | case3 requests control read unread hne misread hresult =>
    rw [lex, if_neg (by rwa [hbeside.ahead]), hbeside.reading, hresult]
    exact ⟨rfl, congrArg ([·]) (hbeside.faultStep misread)⟩
  | case4 requests control read unread hne token hresult ih =>
    have hlater := hlength
    rw [← control.passed_append_rest] at hlater
    obtain ⟨hnext, hmark⟩ := Beside.of_isEmpty (isEmpty_passed hne hresult)
      (hbeside.carries.follow hresult) front (control.rest read unread)
    obtain ⟨hended, hsteps⟩ := ih hnext hlater
    rw [hmark, marked_lex] at hsteps
    rw [lex, if_neg (by rwa [hbeside.ahead]), hbeside.reading, hresult]
    simp only [hbeside.ahead, hbeside.passed, hbeside.rest_eq, Lexed.after, List.map_cons]
    refine ⟨hended, ?_⟩
    rw [hsteps]
    exact hbeside.tokenStep hlength token _

end Pushdown.Control

end EcmaLexer
