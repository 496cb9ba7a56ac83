import EcmaLexer.Proofs.Stream.Relocation
import EcmaLexer.Proofs.Stream.Respacing

namespace EcmaLexer

open Text (Stopped utf8Length)

namespace Pushdown.Control

variable {control : Control}

/-- What is read before the end of a text is read as well where a stop comes next. -/
theorem lexeme_joined {text right : List Char} {token : Token} (hne : text ≠ [])
    (hresult : (control.lexeme text).result = .ok token) (hstopped : Stopped right) :
    control.lexeme (text ++ right) = control.lexeme text := by
  have hopens := Trivia.opensComment_of_take hstopped (opensComment_of_lexeme hresult) text.length
  rw [List.take_length] at hopens
  revert hresult
  fun_cases lexeme control text with
  | case1 => exact absurd rfl hne
  | case2 => rintro ⟨⟩
  | case3 c rest _ segment hresumed =>
    intro hresult
    have hagain : control.resumed? (c :: (rest ++ right)) = some segment := by
      rw [← hresumed]
      exact control.resumed?_congr Iff.rfl
    have hsame := Template.segment_settled (Lexeme.result_of_after_ok hresult)
    have hsegment : Template.segment (segment.context.union control.options.context)
        (rest ++ right) =
          Template.segment (segment.context.union control.options.context) rest := by
      have hwhole := hsame (rest.drop (Template.segment
        (segment.context.union control.options.context) rest).width ++ right)
      rwa [← List.append_assoc, List.take_append_drop] at hwhole
    rw [List.cons_append] at hopens
    rw [List.cons_append, lexeme, hopens, hagain]
    simp only [hsegment]
    rfl
  | case4 c rest _ hresumed =>
    intro hresult
    have hnone : control.resumed? (c :: (rest ++ right)) = none := by
      rw [← hresumed]
      exact control.resumed?_congr Iff.rfl
    rw [List.cons_append] at hopens
    rw [List.cons_append, lexeme, hopens, hnone]
    exact Lexeme.read_joined hresult hstopped

theorem take_lexeme_joined (control : Control) (text right : List Char) :
    (text ++ right).take (control.lexeme text).width = text.take (control.lexeme text).width :=
  List.take_append_of_le_length (control.lexeme_fits text).width_le

theorem gap_width_le {read unread : List Char} (hne : control.ahead read unread ≠ []) :
    (control.gap read unread).width ≤ unread.length :=
  Nat.le_of_not_le fun hle => hne (List.drop_eq_nil_of_le hle)

section Joined

variable {read unread : List Char} (hne : control.ahead read unread ≠ []) {token : Token}
  (hresult : (control.reading read unread).result = .ok token) (later : List Char)
include hne hresult

theorem gap_joined : control.gap read (unread ++ '\n' :: later) = control.gap read unread :=
  Trivia.skip_joined hne (opensComment_of_lexeme hresult) later

theorem ahead_joined : control.ahead read (unread ++ '\n' :: later) =
    control.ahead read unread ++ '\n' :: later := by
  rw [ahead, gap_joined hne hresult]
  exact List.drop_append_of_le_length (gap_width_le hne)

theorem before_joined : control.before read (unread ++ '\n' :: later) =
    control.before read unread := by
  rw [before, gap_joined hne hresult, List.take_append_of_le_length (gap_width_le hne)]
  rfl

theorem reading_joined : control.reading read (unread ++ '\n' :: later) =
    control.reading read unread := by
  rw [reading, ahead_joined hne hresult]
  exact lexeme_joined hne hresult (.cons (by decide) later)

theorem passed_joined : control.passed read (unread ++ '\n' :: later) =
    control.passed read unread := by
  rw [passed, before_joined hne hresult, ahead_joined hne hresult, reading_joined hne hresult,
    reading, take_lexeme_joined]
  rfl

theorem rest_joined : control.rest read (unread ++ '\n' :: later) =
    control.rest read unread ++ '\n' :: later := by
  rw [rest, ahead_joined hne hresult, reading_joined hne hresult]
  exact List.drop_append_of_le_length (control.lexeme_fits (control.ahead read unread)).width_le

theorem resumed?_joined : control.resumed? (control.ahead read (unread ++ '\n' :: later)) =
    control.resumed? (control.ahead read unread) := by
  rw [ahead_joined hne hresult]
  apply control.resumed?_congr
  rw [List.head?_append_of_ne_nil _ hne]

theorem tokenStep_joined : control.tokenStep read (unread ++ '\n' :: later) token =
    control.tokenStep read unread token := by
  have hresumed := resumed?_joined hne hresult later
  have hbreaks : control.breaksLine read (unread ++ '\n' :: later) =
      control.breaksLine read unread := by
    rw [ahead] at hresumed
    rw [breaksLine, hresumed, gap_joined hne hresult]
    rfl
  rw [tokenStep, segment?, hresumed, hbreaks, passed_joined hne hresult,
    before_joined hne hresult, reading_joined hne hresult, ahead_joined hne hresult,
    Lexeme.scanned, reading, take_lexeme_joined]
  rfl

end Joined

/-- Tokens that are read one after another until the rest of the text is reached. -/
inductive Leads (last : Control) (passed rest : List Char) :
    Control → List Char → List Char → List Step → Prop where
  | done : Leads last passed rest last passed rest []
  | token {control : Control} {read unread : List Char} {token : Token} {steps : List Step}
      (hne : control.ahead read unread ≠ [])
      (hresult : (control.reading read unread).result = .ok token)
      (hlater : Leads last passed rest (control.follow (control.ahead read unread) token)
        (control.passed read unread) (control.rest read unread) steps) :
      Leads last passed rest control read unread (control.tokenStep read unread token :: steps)

namespace Leads

variable {last : Control} {passed rest read unread : List Char} {steps : List Step}

/-- A run goes on from where the tokens lead to. -/
theorem lex (hleads : Leads last passed rest control read unread steps) (more : Nat) :
    control.lex (more + steps.length) read unread =
      ⟨steps ++ (last.lex more passed rest).steps, (last.lex more passed rest).ended⟩ := by
  induction hleads with
  | done => rfl
  | token hne hresult hlater ih =>
    rw [List.length_cons, ← Nat.add_assoc, Control.lex, if_neg hne, hresult]
    simp only [ih]
    rfl

/-- Where a run without faults ends, nothing but filler is left. -/
theorem of_ended {requests : Nat} (hended : (control.lex requests read unread).ended = true)
    (hok : ∀ step ∈ (control.lex requests read unread).steps, step.item.isOk = true) :
    ∃ last passed rest more,
      Leads last passed rest control read unread (control.lex requests read unread).steps ∧
      last.ahead passed rest = [] ∧
      requests = more + 1 + (control.lex requests read unread).steps.length := by
  fun_induction Control.lex requests control read unread with
  | case1 => cases hended
  | case2 requests control read unread hend =>
    exact ⟨control, read, unread, requests, .done, hend, rfl⟩
  | case3 requests control read unread hne misread hresult =>
    cases hok _ List.mem_cons_self
  | case4 requests control read unread hne token hresult ih =>
    obtain ⟨last, passed, rest, more, hleads, hend, hrequests⟩ :=
      ih hended fun step hmem => hok step (List.mem_cons_of_mem _ hmem)
    exact ⟨last, passed, rest, more, .token hne hresult hleads, hend, congrArg (· + 1) hrequests⟩

theorem append_eq (hleads : Leads last passed rest control read unread steps) :
    passed ++ rest = read ++ unread := by
  induction hleads with
  | done => rfl
  | token hne hresult hlater ih => rw [ih, passed_append_rest]

theorem options_eq (hleads : Leads last passed rest control read unread steps) :
    last.options = control.options := by
  induction hleads with
  | done => rfl
  | token hne hresult hlater ih => exact ih

/-- What comes after a line feed does not matter to the tokens before it. -/
theorem joined (hleads : Leads last passed rest control read unread steps) (later : List Char) :
    Leads last passed (rest ++ '\n' :: later) control read (unread ++ '\n' :: later) steps := by
  induction hleads with
  | done => exact .done
  | @token control read unread token steps hne hresult hlater ih =>
    have hahead : control.ahead read (unread ++ '\n' :: later) ≠ [] := by
      rw [ahead_joined hne hresult]
      exact List.append_ne_nil_of_left_ne_nil hne _
    have hreading : (control.reading read (unread ++ '\n' :: later)).result = .ok token := by
      rw [reading_joined hne hresult, hresult]
    rw [← tokenStep_joined hne hresult later]
    apply Leads.token hahead hreading
    rw [follow_congr (resumed?_joined hne hresult later), passed_joined hne hresult,
      rest_joined hne hresult]
    exact ih

/-- Where the tokens lead to the end of the text, what is open then stays open. -/
theorem frames_run (hleads : Leads last passed rest control read unread steps)
    (hend : last.ahead passed rest = []) {machine : Pushdown}
    (hstands : machine.StandsAt control read unread) (more : Nat) :
    (run (more + 1 + steps.length) machine).machine.frames = last.frames := by
  induction hleads generalizing machine with
  | done =>
    obtain ⟨after, hnext, -, hframes⟩ := hstands.next_end hend
    rw [List.length_nil, Nat.add_zero, run, hnext]
    exact hframes
  | token hne hresult hlater ih =>
    obtain ⟨after, hnext, hafter⟩ := hstands.next_token hne hresult
    rw [List.length_cons, ← Nat.add_assoc, run, hnext]
    exact ih hafter

end Leads

theorem gap_of_not_hashbang (control : Control) (read : List Char) {text : List Char}
    (hhashbang : ¬"#!".toList <+: text) : control.gap read text = Trivia.run text := by
  rw [gap, Trivia.skip, if_neg]
  rw [Bool.and_eq_true, List.isPrefixOf_iff_prefix]
  exact fun hline => hhashbang hline.2

/-- Where a text ends, the next one is ahead as if nothing came before it, but that a line
    ends. -/
theorem beside_of_end {fresh last : Control} {passed rest second : List Char}
    (hfresh : fresh.frames = []) (hend : last.ahead passed rest = [])
    (hhashbang : ¬"#!".toList <+: second)
    (hcarries : fresh.Carries last (fresh.ahead [] second)) :
    Beside (passed ++ rest) fresh [] second last passed (rest ++ '\n' :: second) ∧
      last.breaksLine passed (rest ++ '\n' :: second) = true := by
  have hgap : last.gap passed (rest ++ '\n' :: second) =
      (Trivia.run second).after ⟨rest.length + 1, true⟩ := Trivia.skip_joined_end hend second
  have hrun := fresh.gap_of_not_hashbang [] hhashbang
  have hahead : last.ahead passed (rest ++ '\n' :: second) = fresh.ahead [] second := by
    rw [ahead, hgap, ahead, hrun, Trivia.Gap.after, Nat.add_assoc, List.drop_length_add_append,
      Nat.add_comm, List.drop_succ_cons]
  have hnone : (last.resumed? (last.ahead passed (rest ++ '\n' :: second))).isSome = false := by
    rw [hahead, hcarries.isSome_resumed?]
    unfold resumed?
    rw [hfresh]
    split <;> first | rfl | contradiction
  refine ⟨⟨hahead, ?_, hcarries⟩, ?_⟩
  · rw [before, hgap, before, hrun, Trivia.Gap.after, Nat.add_assoc, List.take_length_add_append,
      Nat.add_comm, List.take_succ_cons]
    simp
  · rw [ahead, hgap] at hnone
    rw [breaksLine, hgap, ← Option.not_isSome, hnone]
    rfl

/-- A template is ahead only where a backtick comes after filler. -/
theorem head?_ahead_ne (control : Control) (read : List Char) {text : List Char}
    (hhashbang : ¬"#!".toList <+: text)
    (hbacktick : ∀ filler rest, text = filler ++ '\x60' :: rest →
      ¬Trivia.Filler ('\x60' :: rest) filler) :
    (control.ahead read text).head? ≠ some '\x60' := by
  intro hhead
  obtain ⟨rest, hrest⟩ := List.head?_eq_some_iff.mp hhead
  have hfiller := Trivia.run_filler text
  rw [ahead, control.gap_of_not_hashbang read hhashbang] at hrest
  rw [hrest] at hfiller
  refine hbacktick _ rest ?_ hfiller
  rw [← hrest, List.take_append_drop]

end Pushdown.Control

/-- The tokens of a whole text without faults lead to its end, and the substitutions that are open
    there are those that the stream has open. -/
theorem Stream.runAll_leads {source : List Char} {options : Options}
    (hok : ∀ item ∈ (runAll (.ofSource source options)).items, item.1.isOk = true) :
    ∃ last passed rest steps,
      Pushdown.Control.Leads last passed rest ⟨options, [], none, 0⟩ [] source steps ∧
      last.ahead passed rest = [] ∧
      (runAll (.ofSource source options)).items = steps.map Pushdown.Step.output ∧
      (runAll (.ofSource source options)).stream.templates = Frame.substitutions last.frames := by
  obtain ⟨hitems, -, hended⟩ := runAll_eq_lex source options (Nat.le_refl _)
  obtain ⟨last, passed, rest, more, hleads, hend, hrequests⟩ :=
    Pushdown.Control.Leads.of_ended hended fun step hmem =>
      hok step.output (by rw [hitems]; exact List.mem_map_of_mem hmem)
  refine ⟨last, passed, rest, _, hleads, hend, hitems, ?_⟩
  have hframes := hleads.frames_run hend (Pushdown.ofSource_standsAt source options) more
  rw [← hrequests] at hframes
  rw [← hframes]
  exact congrArg (·.stream.templates) (Pushdown.toStream_run _ (.ofSource source options))

/-- A line feed keeps two texts apart. If the first ends without a fault and without an open
    substitution, the items of both, joined by a line feed, are the items of the first and then
    those of the second, as many bytes further on and lines further down as come before them.
    Only the first token of the second text has a line end before it now. Braces that either text
    leaves open, or closes without having opened them, do not matter. A hashbang line would be
    skipped only at the start of a text, and a template would look for its tag in the first. -/
theorem Stream.runAll_joined (first second : List Char) (options : Options)
    (hlength : utf8Length first + utf8Length second < 4294967295)
    (hok : ∀ item ∈ (runAll (.ofSource first options)).items, item.1.isOk = true)
    (hclosed : (runAll (.ofSource first options)).stream.templates = [])
    (hhashbang : ¬"#!".toList <+: second)
    (hbacktick : ∀ filler rest, second = filler ++ '\x60' :: rest →
      ¬Trivia.Filler ('\x60' :: rest) filler) :
    let joined := runAll (.ofSource (first ++ '\n' :: second) options)
    joined.ended = true ∧
      joined.items = (runAll (.ofSource first options)).items ++
        marked true ((runAll (.ofSource second options)).items.map
          (moved (utf8Length first + 1) (Text.linesBefore first))) := by
  intro joined
  obtain ⟨last, passed, rest, steps, hleads, hend, hfirst, htemplates⟩ := runAll_leads hok
  have hframes := Frame.eq_replicate_of_substitutions (htemplates.symm.trans hclosed)
  have hcarries : Pushdown.Control.Carries ⟨options, [], none, 0⟩ last
      (Pushdown.Control.ahead ⟨options, [], none, 0⟩ [] second) := by
    refine ⟨hleads.options_eq, ?_, fun hhead => ?_⟩
    · rw [hframes]
      exact .braces _
    · exact absurd hhead (Pushdown.Control.head?_ahead_ne _ [] hhashbang hbacktick)
  obtain ⟨hbeside, hbreaks⟩ := Pushdown.Control.beside_of_end rfl hend hhashbang hcarries
  have hwhole : passed ++ rest = first := hleads.append_eq
  rw [hwhole] at hbeside
  have hshort : utf8Length ([] ++ second) + (utf8Length first + 1) < 4294967296 := by
    rw [List.nil_append]
    omega
  have hmany : utf8Length second + 2 ≤ utf8Length (first ++ '\n' :: second) + 2 := by
    rw [Text.utf8Length_append, Text.utf8Length_cons]
    omega
  obtain ⟨hjoined, hjoinedEnded, hjoinedEnds⟩ := runAll_eq_lex (first ++ '\n' :: second) options
    (Nat.le_add_right _ steps.length)
  obtain ⟨hsecond, -⟩ := runAll_eq_lex second options hmany
  obtain ⟨-, hitems⟩ := Pushdown.Control.lex_moved hbeside hshort
  refine ⟨hjoinedEnded.trans hjoinedEnds, ?_⟩
  rw [hjoined, (hleads.joined second).lex, List.map_append, hitems, hbreaks, hfirst, hsecond]

/-- A hashbang line, a brace that is left open and a return that the line feed completes; then
    braces that nothing opens, a template with its tag and a string that is not closed. -/
theorem Stream.runAll_joined_braces :
    ("#!x\n\x7b \x60a$\x7bb\x7d\x60\r".toList ++
        '\n' :: "\x7d\x7d c\x60d$\x7be\x7d\x60 'f".toList) =
        "#!x\n\x7b \x60a$\x7bb\x7d\x60\r\n\x7d\x7d c\x60d$\x7be\x7d\x60 'f".toList ∧
      (runAll (.ofSource
          "#!x\n\x7b \x60a$\x7bb\x7d\x60\r\n\x7d\x7d c\x60d$\x7be\x7d\x60 'f".toList {})).items =
        (runAll (.ofSource "#!x\n\x7b \x60a$\x7bb\x7d\x60\r".toList {})).items ++
          marked true ((runAll (.ofSource
            "\x7d\x7d c\x60d$\x7be\x7d\x60 'f".toList {})).items.map (moved 15 2)) := by
  have hok : ∀ item ∈ (runAll (.ofSource "#!x\n\x7b \x60a$\x7bb\x7d\x60\r".toList {})).items,
      item.1.isOk = true := by decide +kernel
  have hclosed : (runAll (.ofSource
      "#!x\n\x7b \x60a$\x7bb\x7d\x60\r".toList {})).stream.templates = [] := by decide +kernel
  have hbacktick : ∀ filler rest,
      "\x7d\x7d c\x60d$\x7be\x7d\x60 'f".toList = filler ++ '\x60' :: rest →
        ¬Trivia.Filler ('\x60' :: rest) filler := by
    intro filler rest hsecond hfiller
    have hhead : (filler ++ '\x60' :: rest).head? = some '\x7d' := by
      rw [← hsecond]
      rfl
    cases hfiller with
    | nil => cases hhead
    | blank hc | terminator hc =>
      cases hhead
      cases hc
    | lineComment | blockComment => cases hhead
  exact ⟨rfl, (Stream.runAll_joined _ _ {} (by decide) hok hclosed (by decide) hbacktick).2⟩

end EcmaLexer
