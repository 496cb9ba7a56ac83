import EcmaLexer.Proofs.Scanner.Segment
import EcmaLexer.Proofs.Stream.Pushdown

namespace EcmaLexer

theorem Scanner.resumeTemplate_token {scanner after : Scanner} {context : Context} {token : Token}
    (hresume : scanner.resumeTemplate context = (.ok token, after)) :
    token.isTemplate = true ∧ after.state.token = token := by
  unfold resumeTemplate at hresume
  split at hresume
  · cases hresume
  · obtain ⟨hresult, htoken⟩ := commit_token hresume
    exact ⟨Template.segment_isTemplate hresult, htoken⟩

namespace Pushdown

/-- What reading one token does in a context: it keeps the count of items; every
    segment it leaves open, or is itself, was open before or begins with it; and
    exactly the template tokens belong to a segment. -/
structure Moves (machine : Pushdown) (context : Context) (move : Move) : Prop where
  yielded : move.machine.yielded = machine.yielded
  frames : ∀ segment, .template segment ∈ move.machine.frames →
    .template segment ∈ machine.frames ∨ move.segment = some segment
  segment : ∀ segment, move.segment = some segment →
    .template segment ∈ machine.frames ∨ segment = ⟨machine.yielded, context⟩
  token : ∀ token, move.result = .ok token →
    move.machine.scanner.state.token = token ∧ move.segment.isSome = token.isTemplate

theorem resume_moves {machine : Pushdown} {segment : Segment} {frames : List Frame}
    (hframes : machine.frames = .template segment :: frames) (context : Context) :
    Moves machine context (machine.resume segment frames) := by
  have hopen : .template segment ∈ machine.frames := by
    rw [hframes]
    exact List.mem_cons_self
  have hsub (other : Segment) (hmem : .template other ∈ frames) :
      .template other ∈ machine.frames := by
    rw [hframes]
    exact List.mem_cons_of_mem _ hmem
  fun_cases resume machine segment frames with
  | case1 scanner hresume =>
    obtain ⟨-, htoken⟩ := Scanner.resumeTemplate_token hresume
    refine ⟨rfl, fun other hmem => .inl ?_, fun other hsegment => .inl ?_, fun token hresult => ?_⟩
    · rcases List.mem_cons.mp hmem with heq | hmem
      · cases heq
        exact hopen
      · exact hsub other hmem
    · cases hsegment
      exact hopen
    · cases hresult
      exact ⟨htoken, rfl⟩
  | case2 result scanner hcont hresume =>
    refine ⟨rfl, fun other hmem => .inl (hsub other hmem), fun other hsegment => .inl ?_,
      fun token hresult => ?_⟩
    · cases hsegment
      exact hopen
    · cases hresult
      obtain ⟨htemplate, htoken⟩ := Scanner.resumeTemplate_token hresume
      exact ⟨htoken, htemplate.symm⟩

/-- A token outside of templates, after which no more substitutions are open. -/
theorem Moves.plain {machine : Pushdown} {token : Token} {frames : List Frame}
    (htoken : machine.scanner.state.token = token) (htemplate : token.isTemplate = false)
    (hframes : ∀ segment, .template segment ∈ frames → .template segment ∈ machine.frames)
    (context : Context) :
    Moves machine context ⟨.ok token, none, { machine with frames := frames }⟩ := by
  refine ⟨rfl, fun segment hmem => .inl (hframes segment hmem), fun segment hsegment => ?_,
    fun other hresult => ?_⟩
  · cases hsegment
  · cases hresult
    exact ⟨htoken, htemplate.symm⟩

/-- The head of a template, which is the only one that may open a substitution. -/
theorem Moves.head {machine : Pushdown} {token : Token} {frames : List Frame} {context : Context}
    (htoken : machine.scanner.state.token = token) (htemplate : token.isTemplate = true)
    (hframes : ∀ segment, .template segment ∈ frames →
      segment = ⟨machine.yielded, context⟩ ∨ .template segment ∈ machine.frames) :
    Moves machine context
      ⟨.ok token, some ⟨machine.yielded, context⟩, { machine with frames := frames }⟩ := by
  refine ⟨rfl, fun segment hmem => ?_, fun segment hsegment => .inr ?_, fun other hresult => ?_⟩
  · rcases hframes segment hmem with rfl | hmem
    · exact .inr rfl
    · exact .inl hmem
  · cases hsegment
    rfl
  · cases hresult
    exact ⟨htoken, htemplate.symm⟩

theorem follow_moves {machine : Pushdown} {token : Token}
    (htoken : machine.scanner.state.token = token)
    (context : Context) : Moves machine context (machine.follow context token) := by
  fun_cases follow machine context token with
  | case1 =>
    refine .plain htoken rfl (fun segment hmem => ?_) context
    rcases List.mem_cons.mp hmem with heq | hmem
    · cases heq
    · exact hmem
  | case2 segment frames hframes => exact resume_moves hframes context
  | case3 frames hframes =>
    refine .plain htoken rfl (fun segment hmem => ?_) context
    rw [hframes]
    exact List.mem_cons_of_mem _ hmem
  | case4 hframes => exact .plain htoken rfl (fun segment hmem => hmem) context
  | case5 =>
    refine .head htoken rfl fun segment hmem => ?_
    rcases List.mem_cons.mp hmem with heq | hmem
    · cases heq
      exact .inl rfl
    · exact .inr hmem
  | case6 => exact .head htoken rfl fun segment hmem => .inr hmem
  | case7 hcont htail _ _ =>
    have htemplate : token.isTemplate = false := by
      cases token <;> first | rfl | contradiction
    exact .plain htoken htemplate (fun segment hmem => hmem) context

theorem advance_moves (machine : Pushdown) :
    Moves machine machine.context machine.advance ∧
      ∀ token, machine.advance.result = .ok token →
        machine.advance.machine.previous = some token := by
  fun_cases advance machine with
  | case1 error scanner hscan =>
    refine ⟨⟨rfl, fun segment hmem => .inl hmem, fun segment hsegment => ?_, fun token hresult => ?_⟩,
      fun token hresult => ?_⟩
    · cases hsegment
    · cases hresult
    · cases hresult
  | case2 token scanner hscan error segment after hfollow =>
    have htoken : { machine with scanner := scanner }.scanner.state.token = token :=
      Scanner.scan_token hscan
    have hmoves := follow_moves htoken machine.context
    rw [hfollow] at hmoves
    refine ⟨⟨hmoves.yielded, hmoves.frames, hmoves.segment, hmoves.token⟩, fun token hresult => ?_⟩
    cases hresult
  | case3 token scanner hscan read segment after hfollow =>
    have htoken : { machine with scanner := scanner }.scanner.state.token = token :=
      Scanner.scan_token hscan
    have hmoves := follow_moves htoken machine.context
    rw [hfollow] at hmoves
    refine ⟨⟨hmoves.yielded, hmoves.frames, hmoves.segment, hmoves.token⟩, fun token hresult => ?_⟩
    cases hresult
    rfl

/-- What one request for an item does. -/
structure Steps (machine : Pushdown) (step : Step) (after : Pushdown) : Prop where
  yielded : after.yielded = machine.yielded + 1
  location : step.location = after.scanner.location
  frames : ∀ segment, .template segment ∈ after.frames →
    .template segment ∈ machine.frames ∨ step.segment = some segment
  segment : ∀ segment, step.segment = some segment →
    .template segment ∈ machine.frames ∨ segment = ⟨machine.yielded, machine.context⟩
  token : ∀ scanned, step.item = .ok scanned →
    after.previous = some scanned.token ∧ step.segment.isSome = scanned.token.isTemplate
  fault : ∀ error, step.item = .error error → after.finished = true

theorem next_steps {machine after : Pushdown} {step : Step}
    (hnext : machine.next = (some step, after)) :
    Steps machine step after := by
  obtain ⟨hmoves, hprevious⟩ := advance_moves machine
  revert hnext
  fun_cases next machine with
  | case1 hfinished => nofun
  | case2 hfinished segment reached hadvance => nofun
  | case3 hfinished token segment reached hend hadvance =>
    intro hnext
    cases hnext
    rw [hadvance] at hmoves hprevious
    obtain ⟨htoken, hsome⟩ := hmoves.token token rfl
    refine ⟨congrArg (· + 1) hmoves.yielded, rfl, hmoves.frames, hmoves.segment,
      fun scanned hitem => ?_, fun error hitem => ?_⟩
    · cases hitem
      rw [hprevious token rfl, hsome, Scanner.current, htoken]
      exact ⟨rfl, rfl⟩
    · cases hitem
  | case4 hfinished error segment reached hadvance =>
    intro hnext
    cases hnext
    rw [hadvance] at hmoves
    refine ⟨congrArg (· + 1) hmoves.yielded, rfl, hmoves.frames, hmoves.segment,
      fun scanned hitem => ?_, fun _ _ => rfl⟩
    cases hitem

/-- A run of the stream gives the items of the run of the machine and leaves the
    stream of the machine it ends in. -/
theorem toStream_run (requests : Nat) (machine : Pushdown) :
    Stream.run requests machine.toStream =
      ⟨(run requests machine).steps.map Step.output, (run requests machine).ended,
        (run requests machine).machine.toStream⟩ := by
  induction requests generalizing machine with
  | zero => rfl
  | succ requests ih =>
    rw [Stream.run, run, toStream_next]
    rcases hnext : machine.next with ⟨given, after⟩
    cases given with
    | none => rfl
    | some step =>
      have hlocation := (next_steps hnext).location
      simp only [Option.map_some, Trace.after, List.map_cons, Step.output, hlocation, ih]
      rfl

theorem run_finished {machine : Pushdown} (hfinished : machine.finished = true) (requests : Nat) :
    (run requests machine).steps = [] ∧ (run requests machine).machine = machine ∧
      (run requests machine).ended = (requests != 0) := by
  cases requests with
  | zero => exact ⟨rfl, rfl, rfl⟩
  | succ requests => simp [run, next, hfinished]

/-- A fault is the last thing a run gives. -/
theorem run_fault {requests index : Nat} {machine : Pushdown} {step : Step} {error : ScanError}
    (hstep : (run requests machine).steps[index]? = some step) (hitem : step.item = .error error) :
    index + 1 = (run requests machine).steps.length ∧
      (run requests machine).machine.finished = true := by
  fun_induction run requests machine generalizing index with
  | case1 machine => cases hstep
  | case2 requests machine after hnext => cases hstep
  | case3 requests machine first after hnext ih =>
    cases index with
    | zero =>
      cases hstep
      have hfinished := (next_steps hnext).fault error hitem
      obtain ⟨hnil, hmachine, -⟩ := run_finished hfinished requests
      simp only [Trace.after, hnil, hmachine]
      exact ⟨rfl, hfinished⟩
    | succ index =>
      obtain ⟨hlength, hfinished⟩ := ih hstep
      exact ⟨congrArg (· + 1) hlength, hfinished⟩

/-- Every step of a run is a step of some machine. -/
theorem run_step {requests index : Nat} {machine : Pushdown} {step : Step}
    (hstep : (run requests machine).steps[index]? = some step) :
    ∃ before after, Steps before step after := by
  fun_induction run requests machine generalizing index with
  | case1 machine => cases hstep
  | case2 requests machine after hnext => cases hstep
  | case3 requests machine first after hnext ih =>
    cases index with
    | zero =>
      cases hstep
      exact ⟨machine, after, next_steps hnext⟩
    | succ index => exact ih hstep

/-- The token before the one with the given number, when `first` comes before all. -/
def tokenBefore (first : Option Token) (steps : List Step) : Nat → Option Token
  | 0 => first
  | number + 1 => steps[number]?.bind Step.token?

/-- The segment begins with the step of the given number, in a context that only the
    token before it decides. -/
def BeginsAt (first : Option Token) (steps : List Step) (number : Nat) (segment : Segment) : Prop :=
  (∃ head, steps[number]? = some head ∧ head.segment = some segment) ∧
    segment.context = { tagged := (tokenBefore first steps number).any Token.endsExpression }

theorem Steps.beginsAt_succ {machine after : Pushdown} {step : Step}
    (hsteps : Steps machine step after) {requests number : Nat} {segment : Segment}
    (hbegins : BeginsAt after.previous (run requests after).steps number segment) :
    BeginsAt machine.previous (step :: (run requests after).steps) (number + 1) segment := by
  obtain ⟨⟨head, hhead, hsegment⟩, hcontext⟩ := hbegins
  refine ⟨⟨head, hhead, hsegment⟩, ?_⟩
  cases number with
  | succ number => exact hcontext
  | zero =>
    have htoken : step.token? = after.previous := by
      unfold Step.token?
      cases hitem : step.item with
      | ok scanned => rw [(hsteps.token scanned hitem).1, Except.toOption, Option.map_some]
      | error error =>
        obtain ⟨hnil, -⟩ := run_finished (hsteps.fault error hitem) requests
        rw [hnil] at hhead
        cases hhead
    rw [hcontext, tokenBefore, tokenBefore, ← htoken]
    rfl

/-- The segment was open before the steps, or begins with one of them up to the given
    number. -/
def OpenOrBegins (machine : Pushdown) (steps : List Step) (index : Nat) (segment : Segment) : Prop :=
  .template segment ∈ machine.frames ∨
    ∃ number, number ≤ index ∧ segment.head = machine.yielded + number ∧
      BeginsAt machine.previous steps number segment

theorem Steps.openOrBegins {machine after : Pushdown} {step : Step} {segment : Segment}
    (hsteps : Steps machine step after) (hbelongs : step.segment = some segment) (rest : List Step)
    (index : Nat) : OpenOrBegins machine (step :: rest) index segment := by
  rcases hsteps.segment segment hbelongs with hopen | rfl
  · exact .inl hopen
  · exact .inr ⟨0, Nat.zero_le _, rfl, ⟨step, rfl, hbelongs⟩, rfl⟩

/-- Every segment of a run belongs to a template whose substitution was open before
    the run, or to one that begins in the run, and then has the context of its head. -/
theorem run_segment {requests index : Nat} {machine : Pushdown} {step : Step} {segment : Segment}
    (hstep : (run requests machine).steps[index]? = some step)
    (hsegment : step.segment = some segment) :
    OpenOrBegins machine (run requests machine).steps index segment := by
  fun_induction run requests machine generalizing index with
  | case1 machine => cases hstep
  | case2 requests machine after hnext => cases hstep
  | case3 requests machine first after hnext ih =>
    have hsteps := next_steps hnext
    cases index with
    | zero =>
      cases hstep
      exact hsteps.openOrBegins hsegment _ 0
    | succ index =>
      rcases ih hstep with hopen | ⟨number, hle, hhead, hbegins⟩
      · rcases hsteps.frames segment hopen with hopen | hbelongs
        · exact .inl hopen
        · exact hsteps.openOrBegins hbelongs _ (index + 1)
      · have hnumber : segment.head = machine.yielded + (number + 1) := by
          rw [hhead, hsteps.yielded]
          omega
        exact .inr ⟨number + 1, Nat.succ_le_succ hle, hnumber, hsteps.beginsAt_succ hbegins⟩

end Pushdown

/-- The counter and the list of counters that the stream keeps stand for a stack of
    open braces and substitutions. Every run of the stream, over any text, is the
    run of the machine that has the stack. So the depth is the number of open braces
    and not below that of the innermost substitution, a fault comes last, and every
    template token belongs to a segment that is read in the context of the head of
    its literal, which is tagged exactly if the token before the head ends an
    expression. -/
theorem Stream.run_eq_pushdown_run (source : List Char) (options : Options) (requests : Nat) :
    let given := Stream.run requests (.ofSource source options)
    let trace := Pushdown.run requests (.ofSource source options)
    given.items = trace.steps.map Pushdown.Step.output ∧
    given.ended = trace.ended ∧
    given.stream = trace.machine.toStream ∧
    given.stream.braceDepth = Frame.braces trace.machine.frames ∧
    (∀ entry ∈ given.stream.templates.head?, entry.1 ≤ given.stream.braceDepth) ∧
    (∀ index error location, given.items[index]? = some (.error error, location) →
      index + 1 = given.items.length ∧ given.stream.finished = true) ∧
    (∀ (index : Nat) (step : Pushdown.Step) (scanned : ScannedToken),
      trace.steps[index]? = some step → step.item = .ok scanned →
        step.segment.isSome = scanned.token.isTemplate) ∧
    (∀ (index : Nat) (step : Pushdown.Step) (segment : Segment),
      trace.steps[index]? = some step → step.segment = some segment →
        segment.head ≤ index ∧ Pushdown.BeginsAt none trace.steps segment.head segment) := by
  intro given trace
  have hrun : given = ⟨trace.steps.map Pushdown.Step.output, trace.ended, trace.machine.toStream⟩ :=
    Pushdown.toStream_run requests (.ofSource source options)
  rw [hrun]
  refine ⟨rfl, rfl, rfl, rfl, ?_, ?_, ?_, ?_⟩
  · intro entry hentry
    exact Frame.le_braces (List.mem_of_mem_head? hentry)
  · intro index error location hitem
    rw [List.getElem?_map, Option.map_eq_some_iff] at hitem
    obtain ⟨step, hstep, houtput⟩ := hitem
    obtain ⟨hlast, hfinished⟩ := Pushdown.run_fault hstep (congrArg Prod.fst houtput)
    exact ⟨hlast.trans (List.length_map _).symm, hfinished⟩
  · intro index step scanned hstep hitem
    obtain ⟨before, after, hsteps⟩ := Pushdown.run_step hstep
    exact (hsteps.token scanned hitem).2
  · intro index step segment hstep hsegment
    rcases Pushdown.run_segment hstep hsegment with hopen | ⟨number, hle, hhead, hbegins⟩
    · cases hopen
    · have hnumber : segment.head = number := hhead.trans (Nat.zero_add number)
      rw [hnumber]
      exact ⟨hle, hbegins⟩

end EcmaLexer
