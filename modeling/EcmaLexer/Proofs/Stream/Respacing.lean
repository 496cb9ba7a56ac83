import EcmaLexer.Proofs.Lexeme.Closing
import EcmaLexer.Proofs.Stream.Tiling
import EcmaLexer.Proofs.Trivia.Stopping
import Mathlib.Data.List.Forall2

namespace EcmaLexer

open Text (Stopped slice? utf8Length word32)

namespace Pushdown.Control

theorem opensComment_of_lexeme {control : Control} {text : List Char} {token : Token}
    (hresult : (control.lexeme text).result = .ok token) : Trivia.opensComment text = false := by
  cases hopens : Trivia.opensComment text with
  | false => rfl
  | true =>
    rw [lexeme_of_opensComment control hopens] at hresult
    cases hresult

/-- A token never begins like a hashbang line. -/
theorem not_hashbang_of_lexeme {control : Control} {text : List Char} {token : Token}
    (hresult : (control.lexeme text).result = .ok token) :
    "#!".toList.isPrefixOf text = false := by
  rw [Bool.eq_false_iff]
  intro hstarts
  obtain ⟨rest, rfl⟩ := List.isPrefixOf_iff_prefix.mp hstarts
  cases hresult

/-- A token is read alike from its own text, whatever it is that a stop begins after it. -/
theorem lexeme_settled {control : Control} {text : List Char} (hne : text ≠ []) {token : Token}
    (hresult : (control.lexeme text).result = .ok token) {right : List Char}
    (hstopped : Stopped right) :
    control.lexeme (text.take (control.lexeme text).width ++ right) = control.lexeme text := by
  have hopens := Trivia.opensComment_of_take hstopped (opensComment_of_lexeme hresult)
  revert hresult
  fun_cases lexeme control text with
  | case1 => exact absurd rfl hne
  | case2 => rintro ⟨⟩
  | case3 c rest _ segment hresumed =>
    intro hresult
    obtain ⟨tail, -, hcons, -⟩ := eq_brace_of_resumed? hresumed
    cases hcons
    have hsame := Template.segment_settled (Lexeme.result_of_after_ok hresult) right
    generalize hsegment : Template.segment (segment.context.union control.options.context) rest =
      lexeme at hsame ⊢
    have hagain :
        control.resumed? ('\x7d' :: (rest.take lexeme.width ++ right)) = some segment := by
      rw [← hresumed]
      exact control.resumed?_congr Iff.rfl
    have hclosed := hopens (lexeme.width + 1)
    rw [List.take_succ_cons, List.cons_append] at hclosed
    have hwidth : (lexeme.after 1 [] {}).width = lexeme.width + 1 := Nat.add_comm _ _
    rw [hwidth, List.take_succ_cons, List.cons_append, Control.lexeme, hclosed, hagain]
    simp only [hsame]
    rfl
  | case4 c rest _ hresumed =>
    intro hresult
    obtain ⟨width, hwidth, hsame⟩ := Lexeme.read_settled hresult hstopped
    have hnone : control.resumed? (c :: (rest.take width ++ right)) = none := by
      rw [← hresumed]
      exact control.resumed?_congr Iff.rfl
    have hclosed := hopens (width + 1)
    rw [hwidth, List.take_succ_cons, List.cons_append] at *
    rw [lexeme, hclosed, hnone]
    exact hsame

/-- The text of the next token. -/
def piece (control : Control) (read unread : List Char) : List Char :=
  (control.ahead read unread).take (control.reading read unread).width

theorem length_piece (control : Control) (read unread : List Char) :
    (control.piece read unread).length = (control.reading read unread).width :=
  List.length_take_of_le (control.lexeme_fits (control.ahead read unread)).width_le

section Spaced

variable {control : Control} {read unread : List Char} (hne : control.ahead read unread ≠ [])
  {token : Token} (hresult : (control.reading read unread).result = .ok token)
  {right : List Char} (hstopped : Stopped right)
  {blank : List Char} (hblank : blank = [] ∨ blank = [' ']) (before : List Char)
include hne hresult hstopped hblank

/-- At most a space is skipped before the text of a token. -/
theorem gap_spaced : control.gap before (blank ++ (control.piece read unread ++ right)) =
    ⟨blank.length, false, false⟩ := by
  have hnone := control.element?_ahead read unread
  have hclosed := opensComment_of_lexeme hresult
  have hopens := Trivia.opensComment_of_take hstopped hclosed (control.reading read unread).width
  have helement := Trivia.element?_of_take hstopped hclosed hnone (take_ahead_ne_nil hne hresult)
  rcases hblank with rfl | rfl
  · have hline : "#!".toList.isPrefixOf (control.piece read unread ++ right) = false := by
      rw [hstopped.isPrefixOf_append (by decide), Bool.eq_false_iff]
      intro hstarts
      exact Bool.eq_false_iff.mp (not_hashbang_of_lexeme hresult) (Text.isPrefixOf_of_take hstarts)
    exact Trivia.skip_zero hopens helement hline _
  · exact Trivia.skip_space hopens helement _

theorem ahead_spaced : control.ahead before (blank ++ (control.piece read unread ++ right)) =
    control.piece read unread ++ right := by
  rw [ahead, gap_spaced hne hresult hstopped hblank, List.drop_left]

theorem reading_spaced : control.reading before (blank ++ (control.piece read unread ++ right)) =
    control.reading read unread := by
  rw [reading, ahead_spaced hne hresult hstopped hblank]
  exact lexeme_settled hne hresult hstopped

theorem piece_spaced : control.piece before (blank ++ (control.piece read unread ++ right)) =
    control.piece read unread := by
  rw [piece, ahead_spaced hne hresult hstopped hblank, reading_spaced hne hresult hstopped hblank,
    ← length_piece, List.take_left]

theorem rest_spaced : control.rest before (blank ++ (control.piece read unread ++ right)) =
    right := by
  rw [rest, ahead_spaced hne hresult hstopped hblank, reading_spaced hne hresult hstopped hblank,
    ← length_piece, List.drop_left]

theorem breaksLine_spaced :
    control.breaksLine before (blank ++ (control.piece read unread ++ right)) = false := by
  rw [breaksLine, gap_spaced hne hresult hstopped hblank]
  rfl

theorem follow_spaced :
    control.follow (control.ahead before (blank ++ (control.piece read unread ++ right))) token =
      control.follow (control.ahead read unread) token := by
  have hwidth : (control.reading read unread).width ≠ 0 :=
    Nat.ne_of_gt (lexeme_token hne hresult).2
  have hhead : (control.piece read unread ++ right).head? = (control.ahead read unread).head? := by
    obtain ⟨c, rest, htext⟩ := List.exists_cons_of_ne_nil hne
    rw [piece, List.head?_append, List.head?_take, if_neg hwidth, htext]
    rfl
  rw [ahead_spaced hne hresult hstopped hblank]
  exact follow_congr (control.resumed?_congr (by rw [hhead])) token

end Spaced

/-- The range of a token cuts its text out of the source. -/
theorem slice?_piece (control : Control) {read unread : List Char}
    (hlength : utf8Length (read ++ unread) < 4294967296) :
    slice? (read ++ unread) (word32 (utf8Length (control.before read unread)))
      (word32 (utf8Length (control.passed read unread))) = some (control.piece read unread) := by
  have hwhole := control.passed_append_rest read unread
  rw [← hwhole] at hlength
  have hpassed : utf8Length (control.passed read unread) =
      utf8Length (control.before read unread) + utf8Length (control.piece read unread) :=
    Text.utf8Length_append _ _
  have hsource : read ++ unread = control.before read unread ++ control.piece read unread ++
      control.rest read unread := hwhole.symm
  rw [Text.utf8Length_append] at hlength
  rw [Text.word32_of_lt (by omega), Text.word32_of_lt (by omega), hpassed, hsource,
    Text.slice?_append]

end Pushdown.Control

/-- The texts of the tokens among the items, as their ranges cut them out of the source. -/
def Stream.texts (source : List Char) (items : List (Item × Text.Location)) : List (List Char) :=
  items.filterMap fun item =>
    item.1.toOption.bind fun scanned => slice? source scanned.range.first scanned.range.stop

/-- A token that is read once more from another source: only the place is another one, and
    no line ends before it. -/
inductive Stream.Reread (source spaced : List Char) : Item → Item → Prop where
  | token {given again : ScannedToken} (text : List Char) (htoken : again.token = given.token)
      (hvalue : again.value = given.value) (hraw : again.raw = given.raw)
      (hflags : again.flags = { given.flags with precedingLineBreak := false })
      (hgiven : slice? source given.range.first given.range.stop = some text)
      (hagain : slice? spaced again.range.first again.range.stop = some text) :
      Reread source spaced (.ok given) (.ok again)

/-- The texts with a space before each of them but the first, which `blank` comes before. -/
def Text.spaced (blank : List Char) : List (List Char) → List Char
  | [] => []
  | piece :: pieces => blank ++ (piece ++ spaced [' '] pieces)

theorem Text.intercalate_eq_spaced (pieces : List (List Char)) :
    [' '].intercalate pieces = spaced [] pieces := by
  induction pieces with
  | nil => rfl
  | cons piece pieces ih =>
    cases pieces with
    | nil => simp [spaced]
    | cons next pieces =>
      rw [List.intercalate_cons_cons, ih]
      simp [spaced]

theorem Text.stopped_spaced (pieces : List (List Char)) : Stopped (spaced [' '] pieces) := by
  cases pieces with
  | nil => exact .nil
  | cons piece pieces => exact .cons (by decide) _

namespace Pushdown.Control

theorem texts_cons (control : Control) {read unread : List Char}
    (hlength : utf8Length (read ++ unread) < 4294967296) (token : Token)
    (items : List (Stream.Item × Text.Location)) :
    Stream.texts (read ++ unread) ((control.tokenStep read unread token).output :: items) =
      control.piece read unread :: Stream.texts (read ++ unread) items := by
  have hslice := control.slice?_piece hlength
  exact List.filterMap_cons_some hslice

/-- A token and the same token after at most a space. -/
theorem tokenStep_reread {control : Control} {read unread : List Char}
    (hne : control.ahead read unread ≠ []) {token : Token}
    (hresult : (control.reading read unread).result = .ok token)
    (hlength : utf8Length (read ++ unread) < 4294967296) {right blank before : List Char}
    (hstopped : Stopped right) (hblank : blank = [] ∨ blank = [' '])
    (hspaced : utf8Length (before ++ (blank ++ (control.piece read unread ++ right))) <
      4294967296) :
    Stream.Reread (read ++ unread) (before ++ (blank ++ (control.piece read unread ++ right)))
      (control.tokenStep read unread token).item
      (control.tokenStep before (blank ++ (control.piece read unread ++ right)) token).item := by
  have hreading := reading_spaced hne hresult hstopped hblank before
  have hpiece := piece_spaced hne hresult hstopped hblank before
  have hagain := control.slice?_piece hspaced
  rw [hpiece] at hagain
  refine .token (control.piece read unread) rfl ?_ ?_ ?_ (control.slice?_piece hlength) hagain
  · simp only [Lexeme.scanned, hreading]
  · exact congrArg token.rawOf hpiece
  · simp only [Lexeme.scanned, hreading, breaksLine_spaced hne hresult hstopped hblank]

/-- The tokens of a run are read once more from their texts. -/
theorem lex_spaced {requests : Nat} {control : Control} {read unread : List Char}
    (hlength : utf8Length (read ++ unread) < 4294967296)
    (hended : (control.lex requests read unread).ended = true)
    (hok : ∀ step ∈ (control.lex requests read unread).steps, step.item.isOk = true)
    {pieces : List (List Char)} (hpieces : Stream.texts (read ++ unread)
      ((control.lex requests read unread).steps.map Step.output) = pieces)
    {blank before : List Char} (hblank : blank = [] ∨ blank = [' '])
    (hspaced : utf8Length (before ++ Text.spaced blank pieces) < 4294967296) :
    (control.lex requests before (Text.spaced blank pieces)).ended = true ∧
      List.Forall₂ (fun given again => Stream.Reread (read ++ unread)
          (before ++ Text.spaced blank pieces) given.item again.item)
        (control.lex requests read unread).steps
        (control.lex requests before (Text.spaced blank pieces)).steps := by
  fun_induction lex requests control read unread generalizing pieces blank before with
  | case1 control read unread => cases hended
  | case2 requests control read unread hend =>
    cases hpieces
    have hnil : control.ahead before (Text.spaced blank []) = [] := List.drop_nil
    have hlex : control.lex (requests + 1) before (Text.spaced blank []) = ⟨[], true⟩ := by
      rw [lex, if_pos hnil]
    rw [Stream.texts, List.map_nil, List.filterMap_nil, hlex]
    exact ⟨rfl, .nil⟩
  | case3 requests control read unread hne misread hresult =>
    cases hok _ List.mem_cons_self
  | case4 requests control read unread hne token hresult ih =>
    have hpieces := hpieces.symm.trans (control.texts_cons hlength token _)
    subst hpieces
    generalize hlater : Stream.texts (read ++ unread) _ = later at hspaced ⊢
    have hstopped := Text.stopped_spaced later
    rw [Text.spaced] at hspaced ⊢
    have hagain := control.passed_append_rest before
      (blank ++ (control.piece read unread ++ Text.spaced [' '] later))
    rw [rest_spaced hne hresult hstopped hblank] at hagain
    have hshort := hspaced
    rw [← hagain] at hshort
    rw [passed_append_rest] at ih
    obtain ⟨hends, hreread⟩ := ih hlength hended
      (fun step hmem => hok step (List.mem_cons_of_mem _ hmem)) hlater (.inr rfl) hshort
    rw [hagain] at hreread
    have hahead : control.ahead before
        (blank ++ (control.piece read unread ++ Text.spaced [' '] later)) ≠ [] := by
      rw [ahead_spaced hne hresult hstopped hblank]
      exact fun hnil => take_ahead_ne_nil hne hresult (List.append_eq_nil_iff.mp hnil).1
    rw [lex, if_neg hahead, reading_spaced hne hresult hstopped hblank, hresult]
    simp only [follow_spaced hne hresult hstopped hblank, rest_spaced hne hresult hstopped hblank]
    exact ⟨hends, .cons (tokenStep_reread hne hresult hlength hstopped hblank hspaced) hreread⟩

end Pushdown.Control

/-- The tokens of a source without faults, with single spaces between their texts, are read
    once more as what they are: a token depends neither on the filler around it nor on the
    tokens next to it, but for what the stream keeps in mind. -/
theorem Stream.runAll_reread (source : List Char) (options : Options)
    (hlength : utf8Length source < 4294967296)
    (hok : ∀ item ∈ (runAll (.ofSource source options)).items, item.1.isOk = true)
    (hspaced : utf8Length
      ([' '].intercalate (texts source (runAll (.ofSource source options)).items)) < 4294967296) :
    let given := runAll (.ofSource source options)
    let spaced := [' '].intercalate (texts source given.items)
    let again := runAll (.ofSource spaced options)
    given.ended = true ∧ again.ended = true ∧
      List.Forall₂ (fun given again => Reread source spaced given.1 again.1)
        given.items again.items := by
  intro given spaced again
  have hmany : utf8Length source + 2 ≤ utf8Length source + utf8Length spaced + 2 := by omega
  have hmore : utf8Length spaced + 2 ≤ utf8Length source + utf8Length spaced + 2 := by omega
  obtain ⟨hitems, hended, hends⟩ := runAll_eq_lex source options hmany
  obtain ⟨hagain, hagainEnded, -⟩ := runAll_eq_lex spaced options hmore
  have hsteps : ∀ step ∈ (Pushdown.Control.lex (utf8Length source + utf8Length spaced + 2)
      ⟨options, [], none, 0⟩ [] source).steps, step.item.isOk = true := by
    intro step hmem
    exact hok step.output (by rw [hitems]; exact List.mem_map_of_mem hmem)
  have hpieces : texts source given.items = texts source (List.map Pushdown.Step.output
      (Pushdown.Control.lex (utf8Length source + utf8Length spaced + 2) ⟨options, [], none, 0⟩ []
        source).steps) := by rw [← hitems]
  have hjoined : spaced = Text.spaced [] (texts source given.items) :=
    Text.intercalate_eq_spaced _
  have hshort : utf8Length ([] ++ Text.spaced [] (texts source given.items)) < 4294967296 := by
    rw [List.nil_append, ← hjoined]
    exact hspaced
  have hwhole : utf8Length ([] ++ source) < 4294967296 := hlength
  obtain ⟨hlexEnded, hreread⟩ :=
    Pushdown.Control.lex_spaced hwhole hends hsteps hpieces.symm (.inl rfl) hshort
  rw [List.nil_append, List.nil_append, ← hjoined] at hreread
  rw [← hjoined] at hlexEnded
  refine ⟨hended.trans hends, hagainEnded.trans hlexEnded, ?_⟩
  rw [hitems, hagain]
  exact List.forall₂_map_left_iff.mpr (List.forall₂_map_right_iff.mpr hreread)

/-- A point that belongs to the digit after it, a template that is gone on with after a comment,
    and two signs that only a space keeps apart. -/
theorem Stream.runAll_reread_template :
    utf8Length "x?.5:\x60b\n$\x7bc /**/\x7d\x60+ +1.".toList < 4294967296 ∧
      [' '].intercalate (texts "x?.5:\x60b\n$\x7bc /**/\x7d\x60+ +1.".toList
        (runAll (.ofSource "x?.5:\x60b\n$\x7bc /**/\x7d\x60+ +1.".toList {})).items) =
          "x ? .5 : \x60b\n$\x7b c \x7d\x60 + + 1.".toList ∧
      List.Forall₂ (fun given again => Reread "x?.5:\x60b\n$\x7bc /**/\x7d\x60+ +1.".toList
          "x ? .5 : \x60b\n$\x7b c \x7d\x60 + + 1.".toList given.1 again.1)
        (runAll (.ofSource "x?.5:\x60b\n$\x7bc /**/\x7d\x60+ +1.".toList {})).items
        (runAll (.ofSource "x ? .5 : \x60b\n$\x7b c \x7d\x60 + + 1.".toList {})).items := by
  have hlength : utf8Length "x?.5:\x60b\n$\x7bc /**/\x7d\x60+ +1.".toList < 4294967296 := by decide
  have hok : ∀ item ∈ (runAll (.ofSource "x?.5:\x60b\n$\x7bc /**/\x7d\x60+ +1.".toList {})).items,
      item.1.isOk = true := by decide +kernel
  have hjoined : [' '].intercalate (texts "x?.5:\x60b\n$\x7bc /**/\x7d\x60+ +1.".toList
      (runAll (.ofSource "x?.5:\x60b\n$\x7bc /**/\x7d\x60+ +1.".toList {})).items) =
        "x ? .5 : \x60b\n$\x7b c \x7d\x60 + + 1.".toList := by decide +kernel
  have hspaced : utf8Length ([' '].intercalate (texts "x?.5:\x60b\n$\x7bc /**/\x7d\x60+ +1.".toList
      (runAll (.ofSource "x?.5:\x60b\n$\x7bc /**/\x7d\x60+ +1.".toList {})).items)) <
        4294967296 := by
    rw [hjoined]
    decide
  obtain ⟨-, -, hreread⟩ := Stream.runAll_reread _ {} hlength hok hspaced
  rw [hjoined] at hreread
  exact ⟨hlength, hjoined, hreread⟩

end EcmaLexer
