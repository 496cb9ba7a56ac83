import EcmaLexer.Proofs.Stream.Step
import EcmaLexer.Proofs.Trivia.Filler

namespace EcmaLexer

open Text (dropBytes? slice? utf8Length)

theorem Template.closer_eq_nil {token : Token} (htemplate : token.isTemplate = false) :
    closer token = [] := by
  cases token <;> first | rfl | cases htemplate

namespace Pushdown

/-- Where the token of a step ends. -/
def Step.stop? (step : Step) : Option Nat := step.item.toOption.map (·.range.stop)

/-- Where the token before the one with the given number ends, or `first` before all of
    them. -/
def stopBefore (first : Nat) (steps : List Step) : Nat → Nat
  | 0 => first
  | number + 1 => (steps[number]?.bind Step.stop?).getD 0

/-- What one token and the gap before it take up of the source, from where the token
    before it ends. All bounds are between characters. A token without delimiters is its raw
    text; a template segment has the delimiters of its kind around it, where the head of a
    literal is the segment that bears its own number. -/
structure Tile (source : List Char) (hashbang : Bool) (start number : Nat) (step : Step)
    (scanned : ScannedToken) : Prop where
  start_le : start ≤ scanned.range.first
  first_lt : scanned.range.first < scanned.range.stop
  stop_le : scanned.range.stop ≤ utf8Length source
  gap : ∃ gap rest, slice? source start scanned.range.first = some gap ∧
    dropBytes? scanned.range.first source = some rest ∧ Trivia.IsGap hashbang gap rest
  text : ∃ text, slice? source scanned.range.first scanned.range.stop = some text ∧
    (scanned.token.isTemplate = false → text = scanned.raw) ∧
    ∀ segment, step.segment = some segment →
      text = (if segment.head = number then '\x60' else '\x7d') ::
        (scanned.raw ++ Template.closer scanned.token)
  segment : step.segment.isSome = scanned.token.isTemplate

/-- A tile by the texts it consists of. -/
theorem Tile.of_split {hashbang : Bool} {number : Nat} {step : Step} {scanned : ScannedToken}
    {read gap text rest : List Char}
    (hrange : scanned.range = ⟨utf8Length (read ++ gap), utf8Length (read ++ gap ++ text)⟩)
    (hne : text ≠ []) (hgap : Trivia.IsGap hashbang gap (text ++ rest))
    (hplain : scanned.token.isTemplate = false → text = scanned.raw)
    (htemplate : ∀ segment, step.segment = some segment →
      text = (if segment.head = number then '\x60' else '\x7d') ::
        (scanned.raw ++ Template.closer scanned.token))
    (hsegment : step.segment.isSome = scanned.token.isTemplate) :
    Tile (read ++ gap ++ text ++ rest) hashbang (utf8Length read) number step scanned := by
  have hpos := Text.utf8Length_pos hne
  refine ⟨?_, ?_, ?_, ⟨gap, text ++ rest, ?_, ?_, hgap⟩, ⟨text, ?_, hplain, htemplate⟩, hsegment⟩
  · rw [hrange, Text.utf8Length_append]
    exact Nat.le_add_right _ _
  · rw [hrange, Text.utf8Length_append _ text]
    exact Nat.lt_add_of_pos_right hpos
  · rw [hrange, Text.utf8Length_append _ rest]
    exact Nat.le_add_right _ _
  · rw [hrange, List.append_assoc _ text, Text.utf8Length_append, Text.slice?_append]
  · rw [hrange, List.append_assoc _ text, Text.dropBytes?_utf8Length_append]
  · rw [hrange, Text.utf8Length_append _ text, Text.slice?_append]

/-- Every open substitution belongs to a literal whose head was given before. -/
def Control.HeadsGiven (control : Control) : Prop :=
  ∀ segment, .template segment ∈ control.frames → segment.head < control.yielded

namespace Control

theorem HeadsGiven.follow {control : Control} (hheads : control.HeadsGiven) (text : List Char)
    (token : Token) : (control.follow text token).HeadsGiven := by
  intro segment hmem
  have hopen (hmem : .template segment ∈ control.frames) : segment.head < control.yielded + 1 :=
    Nat.lt_succ_of_lt (hheads segment hmem)
  revert hmem
  simp only [Control.follow]
  fun_cases framesAfter control text token with
  | case1 =>
    intro hmem
    rcases List.mem_cons.mp hmem with heq | hmem
    · cases heq
    · exact hopen hmem
  | case2 | case5 => exact fun hmem => hopen (List.mem_of_mem_tail hmem)
  | case3 | case6 | case7 => exact hopen
  | case4 =>
    intro hmem
    rcases List.mem_cons.mp hmem with heq | hmem
    · cases heq
      exact Nat.lt_succ_self _
    · exact hopen hmem

/-- A resumed segment is not the head of its literal. -/
theorem HeadsGiven.delimiter_eq {control : Control} (hheads : control.HeadsGiven)
    {text : List Char} {token : Token} {segment : Segment}
    (hsegment : control.segment? text token = some segment) :
    token.isTemplate = true ∧
      control.delimiter text = if segment.head = control.yielded then '\x60' else '\x7d' := by
  unfold segment? at hsegment
  split at hsegment
  · next htemplate =>
    refine ⟨htemplate, ?_⟩
    cases hsegment
    cases hresumed : control.resumed? text with
    | none => simp [delimiter, hresumed]
    | some segment =>
      obtain ⟨rest, frames, -, hframes⟩ := eq_brace_of_resumed? hresumed
      have hlt : segment.head < control.yielded :=
        hheads segment (by rw [hframes]; exact List.mem_cons_self)
      simp [delimiter, hresumed, Nat.ne_of_lt hlt]
  · cases hsegment

variable {control : Control} {read unread : List Char}

theorem tokenStep_stop? (hlength : utf8Length (read ++ unread) < 4294967296) (token : Token) :
    (control.tokenStep read unread token).stop? =
      some (utf8Length (control.passed read unread)) := by
  have hpassed : utf8Length (control.passed read unread) ≤ utf8Length (read ++ unread) := by
    rw [← passed_append_rest, Text.utf8Length_append]
    exact Nat.le_add_right _ _
  exact congrArg some (Text.word32_of_lt (Nat.lt_of_le_of_lt hpassed hlength))

theorem take_ahead_ne_nil (hne : control.ahead read unread ≠ []) {token : Token}
    (hresult : (control.reading read unread).result = .ok token) :
    (control.ahead read unread).take (control.reading read unread).width ≠ [] := by
  obtain ⟨-, hwidth⟩ := lexeme_token hne hresult
  exact fun hnil => (List.take_eq_nil_iff.mp hnil).elim (Nat.ne_of_gt hwidth) hne

/-- A token takes the reading on. -/
theorem read_lt_passed (hne : control.ahead read unread ≠ []) {token : Token}
    (hresult : (control.reading read unread).result = .ok token) :
    utf8Length read < utf8Length (control.passed read unread) := by
  have hpos := Text.utf8Length_pos (take_ahead_ne_nil hne hresult)
  rw [passed, before, Text.utf8Length_append, Text.utf8Length_append]
  omega

theorem isEmpty_passed (hne : control.ahead read unread ≠ []) {token : Token}
    (hresult : (control.reading read unread).result = .ok token) :
    (control.passed read unread).isEmpty = false := by
  have hlt := read_lt_passed hne hresult
  rw [List.isEmpty_eq_false_iff]
  intro hnil
  rw [hnil] at hlt
  cases hlt

/-- The token that is read right after the gap is a tile. -/
theorem tile (hheads : control.HeadsGiven) (hlength : utf8Length (read ++ unread) < 4294967296)
    (hne : control.ahead read unread ≠ []) {token : Token}
    (hresult : (control.reading read unread).result = .ok token) :
    ∃ scanned, (control.tokenStep read unread token).item = .ok scanned ∧
      Tile (read ++ unread) (control.options.skipHashbang && read.isEmpty) (utf8Length read)
        control.yielded (control.tokenStep read unread token) scanned := by
  have hsource := control.before_append_ahead read unread
  have hwhole := control.passed_append_rest read unread
  have hbefore : utf8Length (control.before read unread) ≤ utf8Length (read ++ unread) := by
    rw [← hsource, Text.utf8Length_append]
    exact Nat.le_add_right _ _
  have hpassed : utf8Length (control.passed read unread) ≤ utf8Length (read ++ unread) := by
    rw [← hwhole, Text.utf8Length_append]
    exact Nat.le_add_right _ _
  have hrange : Text.Range.ofOffsets (utf8Length (control.before read unread))
      (utf8Length (control.passed read unread)) =
        ⟨utf8Length (control.before read unread), utf8Length (control.passed read unread)⟩ := by
    rw [Text.Range.ofOffsets, Text.word32_of_lt (by omega), Text.word32_of_lt (by omega)]
  obtain ⟨raw, hraw⟩ := control.lexeme_delimited (control.ahead read unread) token hresult
  have hgap := Trivia.skip_isGap (control.options.skipHashbang && read.isEmpty) unread
  rw [← List.take_append_drop (control.reading read unread).width (unread.drop _)] at hgap
  have hrawOf : token.rawOf ((control.ahead read unread).take (control.reading read unread).width) =
      raw := by
    rw [reading, hraw, Token.rawOf_delimited]
  refine ⟨_, rfl, ?_⟩
  rw [← hwhole, passed, before]
  refine Tile.of_split hrange (take_ahead_ne_nil hne hresult) hgap (fun hplain => ?_)
    (fun segment hsegment => ?_) ?_
  · simp only [Lexeme.scanned] at hplain ⊢
    rw [hrawOf, reading, hraw, Template.opener, hplain, Template.closer_eq_nil hplain]
    simp
  · obtain ⟨htemplate, hdelimiter⟩ := hheads.delimiter_eq hsegment
    simp only [Lexeme.scanned]
    rw [hrawOf, reading, hraw, Template.opener, if_pos htemplate, hdelimiter]
    simp
  · simp only [tokenStep, Lexeme.scanned, segment?]
    cases token.isTemplate <;> rfl

theorem stopBefore_succ {step : Step} {stop : Nat} (hstop : step.stop? = some stop) (first : Nat)
    (steps : List Step) (number : Nat) :
    stopBefore first (step :: steps) (number + 1) = stopBefore stop steps number := by
  cases number with
  | zero => simp [stopBefore, hstop]
  | succ number => rfl

/-- Every token of a run is a tile. -/
theorem lex_tile (hheads : control.HeadsGiven)
    (hlength : utf8Length (read ++ unread) < 4294967296) {requests index : Nat} {step : Step}
    {scanned : ScannedToken} (hstep : (control.lex requests read unread).steps[index]? = some step)
    (hitem : step.item = .ok scanned) :
    Tile (read ++ unread) (control.options.skipHashbang && read.isEmpty && index == 0)
      (stopBefore (utf8Length read) (control.lex requests read unread).steps index)
      (control.yielded + index) step scanned := by
  fun_induction lex requests control read unread generalizing index with
  | case1 control read unread => cases hstep
  | case2 requests control read unread hend => cases hstep
  | case3 requests control read unread hne misread hresult =>
    cases index with
    | zero =>
      cases hstep
      cases hitem
    | succ index => cases hstep
  | case4 requests control read unread hne token hresult ih =>
    obtain ⟨first, hfirst, htile⟩ := tile hheads hlength hne hresult
    cases index with
    | zero =>
      cases hstep
      cases hfirst.symm.trans hitem
      rw [beq_self_eq_true, Bool.and_true]
      exact htile
    | succ index =>
      have hlater := ih (hheads.follow _ token) (by rwa [passed_append_rest]) hstep
      have hnumber : (control.follow (control.ahead read unread) token).yielded + index =
          control.yielded + (index + 1) := by
        simp only [Control.follow]
        omega
      have hhashbang (skips : Bool) :
          (skips && (control.passed read unread).isEmpty && index == 0) =
            (skips && read.isEmpty && index + 1 == 0) := by
        simp [isEmpty_passed hne hresult]
      rw [passed_append_rest, hnumber, hhashbang, 
        ← stopBefore_succ (tokenStep_stop? hlength token)] at hlater
      exact hlater

/-- Where nothing more is given and there was no fault, only a gap is left. -/
theorem lex_end {requests : Nat} (hended : (control.lex requests read unread).ended = true)
    (hlength : utf8Length (read ++ unread) < 4294967296)
    (hok : ∀ step ∈ (control.lex requests read unread).steps, step.stop?.isSome = true) :
    ∃ tail, dropBytes? (stopBefore (utf8Length read) (control.lex requests read unread).steps
        (control.lex requests read unread).steps.length) (read ++ unread) = some tail ∧
      Trivia.IsGap (control.options.skipHashbang && read.isEmpty &&
        (control.lex requests read unread).steps.isEmpty) tail [] := by
  fun_induction lex requests control read unread with
  | case1 control read unread => cases hended
  | case2 requests control read unread hend =>
    refine ⟨unread, Text.dropBytes?_utf8Length_append read unread, ?_⟩
    have hgap := Trivia.skip_isGap (control.options.skipHashbang && read.isEmpty) unread
    have hdrop : unread.drop (control.gap read unread).width = [] := hend
    have htake : unread.take (control.gap read unread).width = unread :=
      List.take_of_length_le (List.drop_eq_nil_iff.mp hdrop)
    rw [← gap, htake, hdrop] at hgap
    rw [List.isEmpty_nil, Bool.and_true]
    exact hgap
  | case3 requests control read unread hne misread hresult =>
    cases hok _ List.mem_cons_self
  | case4 requests control read unread hne token hresult ih =>
    obtain ⟨tail, hdrop, hgap⟩ := ih hended (by rwa [passed_append_rest])
      fun step hmem => hok step (List.mem_cons_of_mem _ hmem)
    rw [passed_append_rest, ← stopBefore_succ (tokenStep_stop? hlength token)] at hdrop
    rw [isEmpty_passed hne hresult, Bool.and_false, Bool.false_and] at hgap
    refine ⟨tail, hdrop, ?_⟩
    rw [Lexed.after, List.isEmpty_cons, Bool.and_false]
    exact hgap

/-- Every token takes up a byte at least, so there are not more tokens than bytes, and the
    run comes to its end. -/
theorem lex_count (requests : Nat) (control : Control) (read unread : List Char) :
    ((control.lex requests read unread).steps.filterMap (·.item.toOption)).length ≤
        utf8Length unread ∧
      (utf8Length unread + 2 ≤ requests → (control.lex requests read unread).ended = true) := by
  fun_induction lex requests control read unread with
  | case1 control read unread =>
    refine ⟨Nat.zero_le _, fun hmany => ?_⟩
    omega
  | case2 requests control read unread hend => exact ⟨Nat.zero_le _, fun _ => rfl⟩
  | case3 requests control read unread hne misread hresult =>
    refine ⟨Nat.zero_le _, fun hmany => ?_⟩
    rw [bne_iff_ne]
    omega
  | case4 requests control read unread hne token hresult ih =>
    obtain ⟨hcount, hended⟩ := ih
    have hrest : utf8Length (control.rest read unread) < utf8Length unread := by
      have hlt := read_lt_passed hne hresult
      have hwhole := congrArg utf8Length (control.passed_append_rest read unread)
      rw [Text.utf8Length_append, Text.utf8Length_append] at hwhole
      omega
    refine ⟨Nat.lt_of_le_of_lt hcount hrest, fun hmany => hended (by omega)⟩

/-- Nothing is given to a request after the one that gave nothing. -/
theorem lex_of_ended {requests more : Nat}
    (hended : (control.lex requests read unread).ended = true) (hmore : requests ≤ more) :
    control.lex more read unread = control.lex requests read unread := by
  fun_induction lex requests control read unread generalizing more with
  | case1 control read unread => cases hended
  | case2 requests control read unread hend =>
    obtain ⟨more, rfl⟩ := Nat.exists_eq_add_of_lt hmore
    rw [lex, if_pos hend]
  | case3 requests control read unread hne misread hresult =>
    obtain ⟨more, rfl⟩ := Nat.exists_eq_add_of_lt hmore
    have hgoing : (requests != 0) = true := hended
    have hlater : (requests + more != 0) = true := by
      rw [bne_iff_ne] at hgoing ⊢
      omega
    rw [lex, if_neg hne, hresult, hgoing, ← hlater]
  | case4 requests control read unread hne token hresult ih =>
    obtain ⟨more, rfl⟩ := Nat.exists_eq_add_of_lt hmore
    have hrest := ih hended (Nat.le_add_right requests more)
    rw [lex, if_neg hne, hresult]
    exact congrArg (Lexed.after (control.tokenStep read unread token)) hrest

end Control

end Pushdown

/-- Enough requests give the whole stream. -/
theorem Stream.runAll_eq_lex (source : List Char) (options : Options) {requests : Nat}
    (hrequests : utf8Length source + 2 ≤ requests) :
    let lexed := Pushdown.Control.lex requests ⟨options, [], none, 0⟩ [] source
    (runAll (.ofSource source options)).items = lexed.steps.map Pushdown.Step.output ∧
      (runAll (.ofSource source options)).ended = lexed.ended ∧ lexed.ended = true := by
  have hended := (Pushdown.Control.lex_count (utf8Length source + 2) ⟨options, [], none, 0⟩ []
    source).2 (Nat.le_refl _)
  obtain ⟨hitems, hsame⟩ := Stream.run_eq_lex source options (utf8Length source + 2)
  rw [Pushdown.Control.lex_of_ended hended hrequests]
  exact ⟨hitems, hsame, hended⟩

/-- The tokens of any run divide the source without loss or overlap: every token comes
    after the one before it with nothing but filler between them, and its raw text is what
    stands between its delimiters. If the run ends without a fault, only filler comes after
    the last token. There are not more tokens than bytes, so the run ends. -/
theorem Stream.run_tiles_source (source : List Char) (options : Options)
    (hlength : utf8Length source < 4294967296) (requests : Nat) :
    let given := Stream.run requests (.ofSource source options)
    let trace := Pushdown.run requests (.ofSource source options)
    given.items = trace.steps.map Pushdown.Step.output ∧
    given.ended = trace.ended ∧
    (∀ (index : Nat) (step : Pushdown.Step) (scanned : ScannedToken),
      trace.steps[index]? = some step → step.item = .ok scanned →
        Pushdown.Tile source (options.skipHashbang && index == 0)
          (Pushdown.stopBefore 0 trace.steps index) index step scanned) ∧
    (given.ended = true → (∀ item ∈ given.items, item.1.isOk = true) →
      ∃ tail, dropBytes? (Pushdown.stopBefore 0 trace.steps trace.steps.length) source = some tail ∧
        Trivia.IsGap (options.skipHashbang && trace.steps.isEmpty) tail []) ∧
    (given.items.filterMap (·.1.toOption)).length ≤ utf8Length source ∧
    (utf8Length source + 2 ≤ requests → given.ended = true) := by
  intro given trace
  have hrun : given = ⟨trace.steps.map Pushdown.Step.output, trace.ended, trace.machine.toStream⟩ :=
    Pushdown.toStream_run requests (.ofSource source options)
  obtain ⟨hsteps, hended⟩ := Pushdown.run_ofSource_eq_lex source options requests
  have hheads : (Pushdown.Control.mk options [] none 0).HeadsGiven := nofun
  have hshort : utf8Length ([] ++ source) < 4294967296 := hlength
  obtain ⟨hcount, hends⟩ :=
    Pushdown.Control.lex_count requests ⟨options, [], none, 0⟩ [] source
  rw [hrun]
  refine ⟨rfl, rfl, ?_, ?_, ?_, ?_⟩
  · intro index step scanned hstep hitem
    have htile := Pushdown.Control.lex_tile hheads hshort (hsteps ▸ hstep) hitem
    rw [← hsteps, List.isEmpty_nil, Bool.and_true, Nat.zero_add] at htile
    exact htile
  · intro hend hok
    have hall : ∀ step ∈ (Pushdown.Control.lex requests ⟨options, [], none, 0⟩ [] source).steps,
        step.stop?.isSome = true := by
      intro step hmem
      rw [← hsteps] at hmem
      have hitem := hok step.output (List.mem_map_of_mem hmem)
      cases hstep : step.item with
      | ok scanned => simp [Pushdown.Step.stop?, hstep, Except.toOption]
      | error error => simp [Pushdown.Step.output, hstep, Except.isOk, Except.toBool] at hitem
    obtain ⟨tail, hdrop, hgap⟩ := Pushdown.Control.lex_end (hended ▸ hend) hshort hall
    rw [← hsteps] at hdrop hgap
    rw [List.isEmpty_nil, Bool.and_true] at hgap
    exact ⟨tail, hdrop, hgap⟩
  · rw [List.filterMap_map]
    rw [← hsteps] at hcount
    exact hcount
  · intro hmany
    exact hended.trans (hends hmany)

/-- A hashbang line, a template whose substitution holds a name, and a comment after it. -/
theorem Stream.run_tiles_source_template :
    utf8Length "#!\n\x60a$\x7b b\x7d\x60 // c".toList < 4294967296 ∧
      (Stream.run 20 (.ofSource "#!\n\x60a$\x7b b\x7d\x60 // c".toList {})).ended = true ∧
      ((Stream.run 20 (.ofSource "#!\n\x60a$\x7b b\x7d\x60 // c".toList {})).items.filterMap
        (·.1.toOption)).length ≤ utf8Length "#!\n\x60a$\x7b b\x7d\x60 // c".toList := by
  have hlength : utf8Length "#!\n\x60a$\x7b b\x7d\x60 // c".toList < 4294967296 := by decide
  obtain ⟨-, -, -, -, hcount, hended⟩ := Stream.run_tiles_source _ {} hlength 20
  exact ⟨hlength, hended (by decide), hcount⟩

end EcmaLexer
