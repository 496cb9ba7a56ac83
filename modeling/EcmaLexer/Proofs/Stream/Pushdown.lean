import EcmaLexer.Stream

namespace EcmaLexer

/-- A segment of a template literal: the number of the item that is the head of its
    literal, and the context the segment was read in. -/
structure Segment where
  head : Nat
  context : Context
deriving DecidableEq

/-- An open bracket: a brace, or the substitution after a template segment. -/
inductive Frame where
  | brace
  | template (segment : Segment)
deriving DecidableEq

namespace Frame

/-- How many of the frames are braces. -/
def braces : List Frame → Nat
  | [] => 0
  | brace :: frames => braces frames + 1
  | template _ :: frames => braces frames

/-- For every open substitution, how many braces are open around it and the context
    of its template. -/
def substitutions : List Frame → List (Nat × Context)
  | [] => []
  | brace :: frames => substitutions frames
  | template segment :: frames => (braces frames, segment.context) :: substitutions frames

/-- The braces around a substitution are still open. -/
theorem le_braces {frames : List Frame} {depth : Nat} {context : Context}
    (hmem : (depth, context) ∈ substitutions frames) : depth ≤ braces frames := by
  induction frames with
  | nil => simp [substitutions] at hmem
  | cons frame frames ih =>
    cases frame with
    | brace =>
      have hle := ih hmem
      rw [braces]
      omega
    | template segment =>
      rw [substitutions, List.mem_cons] at hmem
      rcases hmem with heq | hmem
      · have hdepth := (Prod.mk.inj heq).1
        rw [braces]
        omega
      · exact ih hmem

end Frame

/-- The token stream with an explicit stack: every open brace and every open
    substitution is a frame, innermost first. It numbers its items. -/
structure Pushdown where
  scanner : Scanner
  frames : List Frame
  previous : Option Token
  finished : Bool
  yielded : Nat

namespace Pushdown

/-- What the machine gives for one request: an item, the place of the cursor after it
    and, if a segment of a template was asked for or read, which one. -/
structure Step where
  item : Stream.Item
  location : Text.Location
  segment : Option Segment

def Step.output (step : Step) : Stream.Item × Text.Location := (step.item, step.location)

/-- The token of a step that did not fail. -/
def Step.token? (step : Step) : Option Token := step.item.toOption.map ScannedToken.token

/-- A token or a fault, the template segment it belongs to, and the machine after it. -/
structure Move where
  result : Except ScanError Token
  segment : Option Segment
  machine : Pushdown

def ofSource (source : List Char) (options : Options) : Pushdown where
  scanner := .ofSource source options
  frames := []
  previous := none
  finished := false
  yielded := 0

/-- The context of the next token: tagged if the token before it ends an expression. -/
def context (machine : Pushdown) : Context :=
  { tagged := machine.previous.any Token.endsExpression }

/-- The brace that closes a substitution pops its frame and goes on with the template,
    in the context of its head. The frame comes back if the segment ends in another
    substitution. -/
def resume (machine : Pushdown) (segment : Segment) (frames : List Frame) : Move :=
  match machine.scanner.resumeTemplate segment.context with
  | (.ok .templateCont, scanner) =>
    ⟨.ok .templateCont, some segment,
      { machine with scanner := scanner, frames := .template segment :: frames }⟩
  | (result, scanner) => ⟨result, some segment, { machine with scanner := scanner, frames := frames }⟩

/-- What a token that was just read does to the stack. -/
def follow (machine : Pushdown) (context : Context) : Token → Move
  | .punctuator .leftBrace =>
    ⟨.ok (.punctuator .leftBrace), none, { machine with frames := .brace :: machine.frames }⟩
  | .punctuator .rightBrace =>
    match machine.frames with
    | .template segment :: frames => machine.resume segment frames
    | .brace :: frames => ⟨.ok (.punctuator .rightBrace), none, { machine with frames := frames }⟩
    | [] => ⟨.ok (.punctuator .rightBrace), none, machine⟩
  | .templateCont =>
    ⟨.ok .templateCont, some ⟨machine.yielded, context⟩,
      { machine with frames := .template ⟨machine.yielded, context⟩ :: machine.frames }⟩
  | .templateTail => ⟨.ok .templateTail, some ⟨machine.yielded, context⟩, machine⟩
  | token => ⟨.ok token, none, machine⟩

/-- Reads a token, follows it and keeps it for the context of the next one. -/
def advance (machine : Pushdown) : Move :=
  match machine.scanner.scan machine.context with
  | (.error error, scanner) => ⟨.error error, none, { machine with scanner := scanner }⟩
  | (.ok token, scanner) =>
    match follow { machine with scanner := scanner } machine.context token with
    | ⟨.error error, segment, machine⟩ => ⟨.error error, segment, machine⟩
    | ⟨.ok token, segment, machine⟩ => ⟨.ok token, segment, { machine with previous := some token }⟩

/-- The next step. The end of the text and the first fault end the run. -/
def next (machine : Pushdown) : Option Step × Pushdown :=
  if machine.finished then (none, machine)
  else
    match machine.advance with
    | ⟨.ok .endOfSource, _, machine⟩ => (none, { machine with finished := true })
    | ⟨.ok _, segment, machine⟩ =>
      (some ⟨.ok machine.scanner.current, machine.scanner.location, segment⟩,
        { machine with yielded := machine.yielded + 1 })
    | ⟨.error error, segment, machine⟩ =>
      (some ⟨.error error, machine.scanner.location, segment⟩,
        { machine with finished := true, yielded := machine.yielded + 1 })

/-- The steps of a number of requests, whether one of them gave none, and the machine
    after them. -/
structure Trace where
  steps : List Step
  ended : Bool
  machine : Pushdown

def Trace.after (step : Step) (trace : Trace) : Trace :=
  { trace with steps := step :: trace.steps }

def run : Nat → Pushdown → Trace
  | 0, machine => ⟨[], false, machine⟩
  | requests + 1, machine =>
    match machine.next with
    | (none, machine) => ⟨[], true, machine⟩
    | (some step, machine) => (run requests machine).after step

/-- The stream that keeps of the stack only the number of braces and, for every open
    substitution, the number of braces around it. -/
def toStream (machine : Pushdown) : Stream where
  scanner := machine.scanner
  templates := Frame.substitutions machine.frames
  braceDepth := Frame.braces machine.frames
  previous := machine.previous
  finished := machine.finished

theorem toStream_resume (machine : Pushdown) (segment : Segment) (frames : List Frame) :
    Stream.resume { machine with frames := frames }.toStream segment.context =
      ((machine.resume segment frames).result, (machine.resume segment frames).machine.toStream) := by
  unfold resume Stream.resume toStream
  generalize machine.scanner.resumeTemplate segment.context = resumed
  obtain ⟨result, scanner⟩ := resumed
  cases result with
  | error error => rfl
  | ok token => cases token <;> rfl

theorem toStream_follow (machine : Pushdown) (context : Context) (token : Token) :
    Stream.track machine.toStream context token =
      ((machine.follow context token).result, (machine.follow context token).machine.toStream) := by
  obtain ⟨scanner, frames, previous, finished, yielded⟩ := machine
  fun_cases follow _ context token with
  | case1 => rfl
  | case2 segment frames hframes =>
    cases hframes
    exact (if_pos rfl).trans (toStream_resume ⟨scanner, _, previous, finished, yielded⟩ segment frames)
  | case3 frames hframes =>
    cases hframes
    simp only [Stream.track, toStream]
    split
    case h_1 depth templateContext templates htemplates =>
      -- A substitution that is open inside the innermost brace would be the top frame.
      have hmem : (depth, templateContext) ∈ Frame.substitutions frames := by
        rw [← Frame.substitutions, htemplates]
        exact List.mem_cons_self
      have hle := Frame.le_braces hmem
      have hne : depth ≠ Frame.braces frames + 1 := by omega
      exact if_neg hne
    case h_2 htemplates => rfl
  | case4 hframes =>
    cases hframes
    rfl
  | case5 => rfl
  | case6 => rfl
  | case7 hleft hright hcont =>
    unfold Stream.track
    split
    case h_1 => contradiction
    case h_2 => contradiction
    case h_3 => contradiction
    case h_4 => rfl

theorem toStream_advance (machine : Pushdown) :
    machine.toStream.advance = (machine.advance.result, machine.advance.machine.toStream) := by
  have hcontext : machine.toStream.context = machine.context := rfl
  have hscanner : machine.toStream.scanner = machine.scanner := rfl
  simp only [advance, Stream.advance, hcontext, hscanner]
  generalize machine.scanner.scan machine.context = scanned
  obtain ⟨result, scanner⟩ := scanned
  cases result with
  | error error => rfl
  | ok token =>
    have hfollow := toStream_follow { machine with scanner := scanner } machine.context token
    simp only [toStream] at hfollow ⊢
    rw [hfollow]
    generalize follow { machine with scanner := scanner } machine.context token = move
    obtain ⟨result, segment, after⟩ := move
    cases result with
    | error error => rfl
    | ok token => rfl

/-- One request to the stream is one request to the machine. -/
theorem toStream_next (machine : Pushdown) :
    machine.toStream.next = (machine.next.1.map Step.item, machine.next.2.toStream) := by
  have hfinished : machine.toStream.finished = machine.finished := rfl
  unfold next Stream.next
  rw [toStream_advance, hfinished]
  cases machine.finished with
  | true => rfl
  | false =>
    generalize machine.advance = move
    obtain ⟨result, segment, after⟩ := move
    cases result with
    | error error => rfl
    | ok token => cases token <;> rfl

end Pushdown

end EcmaLexer
