import EcmaLexer.Proofs.Stream.Tiling
import EcmaLexer.Proofs.Trivia.LineEndings
import Mathlib.Data.List.Forall2

namespace EcmaLexer

open Text (CleanCut LineMap endLocation normLines normLines_append normLines_cons utf8Length)

theorem Lexeme.Fits.cleanCut_before {text : List Char} {lexeme : Lexeme} (hfits : lexeme.Fits text)
    {misread : Misread} (hresult : lexeme.result = .error misread) :
    CleanCut (text.take misread.before) (text.drop misread.before) := by
  obtain ⟨hbefore, hunbroken⟩ := hfits.fault misread hresult
  rcases Nat.lt_or_eq_of_le hbefore with hlt | heq
  · refine .of_head_ne fun hhead => ?_
    have hmem : '\n' ∈ (text.take lexeme.width).drop misread.before := by
      rw [List.drop_take]
      apply List.mem_of_mem_head?
      rw [List.head?_take, if_neg (by omega)]
      exact hhead
    exact absurd (hunbroken '\n' hmem) (by decide)
  · rw [heq]
    exact hfits.clean

/-- The error is where the fault was found, on the line where the reading stops. -/
theorem Lexeme.Fits.scanError_location {text : List Char} {lexeme : Lexeme}
    (hfits : lexeme.Fits text) {misread : Misread} (hresult : lexeme.result = .error misread)
    (read : List Char) :
    (lexeme.scanError read text misread).location =
      endLocation (read ++ text.take misread.before) := by
  obtain ⟨hbefore, hunbroken⟩ := hfits.fault misread hresult
  have hsplit : text.take lexeme.width =
      text.take misread.before ++ (text.take lexeme.width).drop misread.before := by
    conv_lhs => rw [← List.take_append_drop misread.before (text.take lexeme.width)]
    rw [List.take_take, Nat.min_eq_left hbefore]
  rw [Lexeme.scanError, hsplit, ← List.append_assoc]
  exact Text.Mark.locate_origin_past hunbroken

/-- Delimiters are the same in both texts. -/
theorem Token.rawOf_normLines {delimiter : Char} (hdelimiter : delimiter ≠ '\r') (token : Token)
    (raw : List Char) :
    token.rawOf (normLines (Template.opener delimiter token ++ raw ++ Template.closer token)) =
      normLines raw := by
  have hcloser : normLines (raw ++ Template.closer token) =
      normLines raw ++ Template.closer token := by
    have hcut : CleanCut raw (Template.closer token) ∧
        normLines (Template.closer token) = Template.closer token := by
      cases token <;> exact ⟨.of_head_ne nofun, rfl⟩
    rw [normLines_append hcut.1, hcut.2]
  have hopener : normLines (Template.opener delimiter token ++ (raw ++ Template.closer token)) =
      Template.opener delimiter token ++ normLines (raw ++ Template.closer token) := by
    unfold Template.opener
    split
    · exact normLines_cons hdelimiter _
    · rfl
  rw [List.append_assoc, hopener, hcloser, ← List.append_assoc, rawOf_delimited]

/-- Two items that differ at most in how the line endings of the source are spelled. The place of
    the cursor after them is the same; where a token starts is read off the line maps. -/
inductive Stream.SpelledAlike (lines plainLines : LineMap) :
    Item × Text.Location → Item × Text.Location → Prop where
  | token {scanned plain : ScannedToken} (location : Text.Location)
      (htoken : plain.token = scanned.token) (hvalue : plain.value = scanned.value)
      (hflags : plain.flags = scanned.flags) (hraw : plain.raw = normLines scanned.raw)
      (hstart : plainLines.locationOf plain.range.first = lines.locationOf scanned.range.first) :
      SpelledAlike lines plainLines (.ok scanned, location) (.ok plain, location)
  | fault {error plain : ScanError} (location : Text.Location)
      (hfault : plain.fault = error.fault) (hlocation : plain.location = error.location) :
      SpelledAlike lines plainLines (.error error, location) (.error plain, location)

namespace Pushdown.Control

theorem resumed?_normLines (control : Control) (text : List Char) :
    control.resumed? (normLines text) = control.resumed? text := by
  apply resumed?_congr
  constructor
  · intro hhead
    obtain ⟨rest, hnormal⟩ := List.head?_eq_some_iff.mp hhead
    obtain ⟨tail, rfl⟩ := Text.eq_cons_of_normLines (by decide) hnormal
    rfl
  · intro hhead
    rw [Text.head?_normLines, hhead]
    rfl

/-- What is read at the head of a text that no gap comes before is the same in both texts. -/
theorem lexeme_normLines (control : Control) {text : List Char}
    (hreturn : text.head? ≠ some '\r') :
    control.lexeme (normLines text) = (control.lexeme text).normalized text := by
  have hopensComment := Trivia.opensComment_normLines text
  have hresumedNormal := control.resumed?_normLines text
  fun_cases lexeme control text with
  | case1 => rfl
  | case2 c rest hopens =>
    have hlength : rest.length + 1 = (c :: rest).length := rfl
    rw [hopens] at hopensComment
    rw [lexeme_of_opensComment control hopensComment, hlength]
    simp only [Lexeme.normalized, Lexeme.reject, List.take_length]
  | case3 c rest hopens segment hresumed =>
    obtain ⟨tail, -, hcons, -⟩ := eq_brace_of_resumed? hresumed
    cases hcons
    rw [normLines_cons (by decide)] at hopensComment hresumedNormal ⊢
    rw [lexeme, hopensComment, if_neg hopens, hresumedNormal, hresumed,
      Lexeme.normalized_after_one (.of_ne (by decide) rest), ← Template.segment_normLines]
  | case4 c rest hopens hresumed =>
    have hc : c ≠ '\r' := fun h => hreturn (by rw [h]; rfl)
    rw [normLines_cons hc] at hopensComment hresumedNormal ⊢
    rw [lexeme, hopensComment, if_neg hopens, hresumedNormal, hresumed,
      ← Lexeme.read_normLines hc]

/-- No carriage return is left after the gap. -/
theorem head?_ahead_ne_return (control : Control) (read unread : List Char) :
    (control.ahead read unread).head? ≠ some '\r' := by
  intro hhead
  have hnone := control.element?_ahead read unread
  obtain ⟨rest, htext⟩ := List.head?_eq_some_iff.mp hhead
  rw [htext] at hnone
  cases hnone

variable {read unread : List Char}

theorem gap_normLines (control : Control) (read unread : List Char) :
    control.gap (normLines read) (normLines unread) =
      (control.gap read unread).normalized unread := by
  rw [gap, gap, Text.isEmpty_normLines, Trivia.skip_normLines]

theorem ahead_normLines (control : Control) (read unread : List Char) :
    control.ahead (normLines read) (normLines unread) = normLines (control.ahead read unread) := by
  have hcut := Trivia.skip_cleanCut (control.options.skipHashbang && read.isEmpty) unread
  rw [ahead, ahead, gap_normLines]
  exact (Text.split_normLines hcut).2

theorem before_normLines (control : Control) (hclean : CleanCut read unread) :
    control.before (normLines read) (normLines unread) =
      normLines (control.before read unread) := by
  have hcut := Trivia.skip_cleanCut (control.options.skipHashbang && read.isEmpty) unread
  rw [before, before, gap_normLines, normLines_append (hclean.take _)]
  exact congrArg (normLines read ++ ·) (Text.split_normLines hcut).1

theorem breaksLine_normLines (control : Control) (read unread : List Char) :
    control.breaksLine (normLines read) (normLines unread) = control.breaksLine read unread := by
  have hahead := control.ahead_normLines read unread
  rw [ahead, ahead] at hahead
  rw [breaksLine, breaksLine, hahead, resumed?_normLines, gap_normLines]
  rfl

theorem reading_normLines (control : Control) (read unread : List Char) :
    control.reading (normLines read) (normLines unread) =
      (control.reading read unread).normalized (control.ahead read unread) := by
  have hreturn := control.head?_ahead_ne_return read unread
  rw [reading, ahead_normLines, lexeme_normLines control hreturn]
  rfl

theorem split_reading (control : Control) (read unread : List Char) :
    (normLines (control.ahead read unread)).take
        (control.reading (normLines read) (normLines unread)).width =
      normLines ((control.ahead read unread).take (control.reading read unread).width) ∧
    (normLines (control.ahead read unread)).drop
        (control.reading (normLines read) (normLines unread)).width =
      normLines (control.rest read unread) := by
  rw [reading_normLines]
  exact Text.split_normLines (control.lexeme_fits (control.ahead read unread)).clean

theorem passed_normLines (control : Control) (hclean : CleanCut read unread) :
    control.passed (normLines read) (normLines unread) =
      normLines (control.passed read unread) := by
  rw [passed, passed, ahead_normLines, before_normLines control hclean,
    (control.split_reading read unread).1,
    normLines_append ((control.cleanCut_before hclean).take _)]

theorem rest_normLines (control : Control) (read unread : List Char) :
    control.rest (normLines read) (normLines unread) = normLines (control.rest read unread) := by
  rw [rest, ahead_normLines, (control.split_reading read unread).2]

theorem result_normLines_ok {token : Token} (control : Control)
    (hresult : (control.reading read unread).result = .ok token) :
    (control.reading (normLines read) (normLines unread)).result = .ok token := by
  rw [reading_normLines, Lexeme.normalized, hresult]

/-- A token is the same in both texts. -/
theorem tokenStep_spelledAlike (control : Control) (hclean : CleanCut read unread)
    (hlength : utf8Length (read ++ unread) < 4294967296) {token : Token}
    (hresult : (control.reading read unread).result = .ok token) :
    Stream.SpelledAlike (.ofText (read ++ unread)) (.ofText (normLines (read ++ unread)))
      (control.tokenStep read unread token).output
      (control.tokenStep (normLines read) (normLines unread) token).output := by
  have hdelimiter : control.delimiter (control.ahead read unread) ≠ '\r' := by
    unfold delimiter
    split <;> decide
  have hlocation : endLocation (control.passed (normLines read) (normLines unread)) =
      endLocation (control.passed read unread) := by
    rw [control.passed_normLines hclean, Text.endLocation_normLines]
  obtain ⟨raw, hraw⟩ := control.lexeme_delimited (control.ahead read unread) token hresult
  have hnormal := normLines_append (control.cleanCut_before hclean)
  have hshort := Nat.lt_of_le_of_lt (Text.utf8Length_normLines_le (read ++ unread)) hlength
  simp only [Step.output, tokenStep, hlocation]
  refine .token _ rfl ?_ ?_ ?_ ?_
  · simp only [Lexeme.scanned, reading_normLines]
    rfl
  · simp only [Lexeme.scanned, reading_normLines, breaksLine_normLines]
    rfl
  · simp only [Lexeme.scanned, ahead_normLines]
    rw [(control.split_reading read unread).1, reading, hraw, Token.rawOf_normLines hdelimiter,
      Token.rawOf_delimited]
  · simp only [Lexeme.scanned, control.before_normLines hclean, Text.Range.ofOffsets]
    rw [← before_append_ahead control] at hlength hshort ⊢
    rw [hnormal] at hshort ⊢
    rw [LineMap.locationOf_utf8Length (Text.cleanCut_normLines _ _) hshort,
      LineMap.locationOf_utf8Length (control.cleanCut_before hclean) hlength,
      Text.endLocation_normLines]

/-- A fault is the same in both texts. -/
theorem faultStep_spelledAlike (control : Control) (hclean : CleanCut read unread)
    {misread : Misread} (hresult : (control.reading read unread).result = .error misread)
    (lines plainLines : LineMap) :
    ∃ plain, (control.reading (normLines read) (normLines unread)).result = .error plain ∧
      Stream.SpelledAlike lines plainLines (control.faultStep read unread misread).output
        (control.faultStep (normLines read) (normLines unread) plain).output := by
  have hlocation : endLocation (control.passed (normLines read) (normLines unread)) =
      endLocation (control.passed read unread) := by
    rw [control.passed_normLines hclean, Text.endLocation_normLines]
  have hfits : (control.reading read unread).Fits (control.ahead read unread) :=
    control.lexeme_fits _
  have hplainFits : (control.reading (normLines read) (normLines unread)).Fits
      (normLines (control.ahead read unread)) := by
    rw [← ahead_normLines]
    exact control.lexeme_fits _
  have hplain : (control.reading (normLines read) (normLines unread)).result = .error
      ⟨misread.fault, (normLines ((control.ahead read unread).take misread.before)).length⟩ := by
    rw [reading_normLines, Lexeme.normalized, hresult]
  refine ⟨_, hplain, ?_⟩
  simp only [Step.output, faultStep, hlocation]
  refine .fault _ rfl ?_
  rw [ahead_normLines, control.before_normLines hclean, hfits.scanError_location hresult,
    hplainFits.scanError_location hplain,
    (Text.split_normLines (hfits.cleanCut_before hresult)).1,
    ← normLines_append ((control.cleanCut_before hclean).take _), Text.endLocation_normLines]

/-- Both texts are read in step. -/
theorem lex_normLines (requests : Nat) (control : Control) (hclean : CleanCut read unread)
    (hlength : utf8Length (read ++ unread) < 4294967296) :
    (control.lex requests (normLines read) (normLines unread)).ended =
        (control.lex requests read unread).ended ∧
      List.Forall₂ (Stream.SpelledAlike (.ofText (read ++ unread))
          (.ofText (normLines (read ++ unread))))
        ((control.lex requests read unread).steps.map Step.output)
        ((control.lex requests (normLines read) (normLines unread)).steps.map Step.output) := by
  fun_induction lex requests control read unread with
  | case1 control read unread => exact ⟨rfl, .nil⟩
  | case2 requests control read unread hend =>
    rw [lex, if_pos (by rw [ahead_normLines, hend, normLines])]
    exact ⟨rfl, .nil⟩
  | case3 requests control read unread hne misread hresult =>
    obtain ⟨plain, hplain, halike⟩ := control.faultStep_spelledAlike hclean hresult
      (.ofText (read ++ unread)) (.ofText (normLines (read ++ unread)))
    rw [lex, if_neg (by rwa [ahead_normLines, Text.normLines_eq_nil_iff]), hplain]
    exact ⟨rfl, .cons halike .nil⟩
  | case4 requests control read unread hne token hresult ih =>
    have hfollow : control.follow (normLines (control.ahead read unread)) token =
        control.follow (control.ahead read unread) token :=
      follow_congr (control.resumed?_normLines _) token
    obtain ⟨hended, halike⟩ := ih (control.cleanCut_passed hclean) (by rwa [passed_append_rest])
    rw [passed_append_rest] at halike
    rw [lex, if_neg (by rwa [ahead_normLines, Text.normLines_eq_nil_iff]),
      control.result_normLines_ok hresult]
    simp only [ahead_normLines, hfollow, control.passed_normLines hclean, rest_normLines]
    exact ⟨hended, .cons (control.tokenStep_spelledAlike hclean hlength hresult) halike⟩

end Pushdown.Control

/-- Two runs, the second on the normalized text, that give corresponding items. -/
structure Stream.Run.SpelledAlike (source : List Char) (given plain : Run) : Prop where
  ended : plain.ended = given.ended
  items : List.Forall₂ (Stream.SpelledAlike (.ofText source) (.ofText (normLines source)))
    given.items plain.items

/-- However the line endings of a source are spelled, every run gives the same items, and so
    does the whole stream. -/
theorem Stream.run_spelledAlike (source : List Char) (options : Options)
    (hlength : utf8Length source < 4294967296) :
    (∀ requests, Run.SpelledAlike source (run requests (.ofSource source options))
      (run requests (.ofSource (normLines source) options))) ∧
    Run.SpelledAlike source (runAll (.ofSource source options))
      (runAll (.ofSource (normLines source) options)) ∧
    (runAll (.ofSource source options)).ended = true := by
  have hlex (requests : Nat) := Pushdown.Control.lex_normLines requests ⟨options, [], none, 0⟩
    (CleanCut.nil_left source) hlength
  have hmany := Nat.add_le_add_right (Text.utf8Length_normLines_le source) 2
  obtain ⟨hitems, hended, hends⟩ := runAll_eq_lex source options (Nat.le_refl _)
  obtain ⟨hplainItems, hplainEnded, -⟩ := runAll_eq_lex (normLines source) options hmany
  refine ⟨fun requests => ⟨?_, ?_⟩, ⟨?_, ?_⟩, hended.trans hends⟩
  · rw [(run_eq_lex source options requests).2, (run_eq_lex _ options requests).2]
    exact (hlex requests).1
  · rw [(run_eq_lex source options requests).1, (run_eq_lex _ options requests).1]
    exact (hlex requests).2
  · rw [hended, hplainEnded]
    exact (hlex _).1
  · rw [hitems, hplainItems]
    exact (hlex _).2

/-- A pair and a single return between tokens, both kinds again inside of a template, one of
    them escaped, and a string that a return breaks off. -/
theorem Stream.run_spelledAlike_returns :
    utf8Length "a\r\n\rb \x60c\r\\\r\nd\x60 'e\r'".toList < 4294967296 ∧
      Run.SpelledAlike "a\r\n\rb \x60c\r\\\r\nd\x60 'e\r'".toList
        (runAll (.ofSource "a\r\n\rb \x60c\r\\\r\nd\x60 'e\r'".toList {}))
        (runAll (.ofSource "a\n\nb \x60c\n\\\nd\x60 'e\n'".toList {})) := by
  have hlength : utf8Length "a\r\n\rb \x60c\r\\\r\nd\x60 'e\r'".toList < 4294967296 := by decide
  exact ⟨hlength, (Stream.run_spelledAlike _ {} hlength).2.1⟩

end EcmaLexer
