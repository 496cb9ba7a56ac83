import EcmaLexer.Proofs.Lexeme.Spelling
import EcmaLexer.Proofs.Scanner.SegmentScan
import EcmaLexer.Proofs.Scanner.Tokens

namespace EcmaLexer

open Spelling (SplitsPair cooked elements unitsOf)
open Text (utf8Length)

/-- The text between the delimiters of a literal. The raw text of a template segment does not have
    them in the first place. -/
def Token.inner (token : Token) (raw : List Char) : List Char :=
  if token.isTemplate then raw else (raw.drop 1).dropLast

namespace Scanner

/-- Whatever the request, a segment that was read came right after one byte of the source. -/
theorem SegmentEntry.exists_segment {entry : SegmentEntry} {scanner after : Scanner}
    {context : Context} {token : Token} (hscan : entry.scan scanner context = (.ok token, after))
    (htoken : entry = .reached → token.isTemplate = true) :
    ∃ before text mark breaksLine, scanner.source = before ++ text ∧
      mark.offset = utf8Length before ∧ 0 < mark.offset ∧
      commit scanner (mark.offset - 1) mark breaksLine text
        (Template.segment (scanner.contextFor context) text) = (.ok token, after) := by
  have hne {tokenStart : Nat} {mark : Text.Mark} {breaksLine : Bool} {text : List Char}
      (hcommit : commit scanner tokenStart mark breaksLine text
        (Template.segment (scanner.contextFor context) text) = (.ok token, after)) :
      text ≠ [] := by
    rintro rfl
    have hresult := (commit_token hcommit).1
    rw [Template.segment] at hresult
    cases hresult
  cases entry with
  | opening =>
    have hcommit : commit scanner scanner.offset (scanner.state.mark.advance 1) false
        (scanner.textFrom (scanner.offset + 1)) (Template.segment (scanner.contextFor context)
          (scanner.textFrom (scanner.offset + 1))) = (.ok token, after) := hscan
    obtain ⟨before, hsource, hbefore⟩ := source_eq_append_textFrom (hne hcommit)
    exact ⟨before, _, _, _, hsource, hbefore.symm, Nat.succ_pos _, hcommit⟩
  | reached =>
    have hread : scanner.scan context = (.ok token, after) := hscan
    obtain ⟨c, tail, htaken⟩ := exists_taken hread fun hend => by cases hend ▸ htoken rfl
    have hbacktick := (Lexeme.read_readAs htaken.result).template_backtick (htoken rfl)
    rw [hbacktick] at htaken
    have hopens : SegmentEntry.reached.Opens scanner (scanner.tokenMark.offset + 1) tail :=
      ⟨closed_of_scan_ok hread, htaken.ahead, rfl⟩
    obtain ⟨before, hsource, hbefore⟩ := hopens.source
    rw [hopens.scan_eq_commit (by rintro ⟨⟩)] at hscan
    exact ⟨before, tail, _, _, hsource, hbefore.symm, Nat.succ_pos _, hscan⟩
  | resumed =>
    have hresume : scanner.resumeTemplate context = (.ok token, after) := hscan
    unfold resumeTemplate at hresume
    split at hresume
    · cases hresume
    · next hstart =>
      obtain ⟨before, hsource, hbefore⟩ := source_eq_append_unread (hne hresume)
      refine ⟨before, _, _, _, hsource, hbefore.symm, ?_, hresume⟩
      simp only [Bool.or_eq_true, beq_iff_eq, not_or] at hstart
      exact Nat.pos_of_ne_zero hstart.2

/-- The value of a segment, if it has one, is cooked from its raw text. -/
theorem commit_segment {scanner after : Scanner} {context : Context} {before text : List Char}
    {mark : Text.Mark} {breaksLine : Bool} {token : Token}
    (hsource : scanner.source = before ++ text) (hmark : mark.offset = utf8Length before)
    (hpositive : 0 < mark.offset)
    (hcommit : commit scanner (mark.offset - 1) mark breaksLine text
      (Template.segment (scanner.contextFor context) text) = (.ok token, after)) :
    token.isTemplate = true ∧ ∃ raw, after.raw? = some raw ∧
      ∀ value, after.state.value = some value → Template.cook mark.offset raw = .ok value := by
  have hresult := (commit_token hcommit).1
  have houtcome := Template.segment_outcome (scanner.contextFor context) mark.offset text
  refine ⟨Template.segment_isTemplate hresult, (Template.walk text).1, ?_⟩
  have hkept (hcloses : Template.Closes text (Template.segment (scanner.contextFor context) text)) :
      after.raw? = some (Template.walk text).1 ∧
        after.state.value = (Template.segment (scanner.contextFor context) text).value := by
    obtain ⟨found, hfound, -, -, -, hraw, hvalue, -⟩ :=
      commit_closed hsource hmark hpositive hcloses (hcloses.stop hresult) breaksLine
    cases hfound.symm.trans hcommit
    exact ⟨hraw, hvalue⟩
  generalize hcook : Template.cook mark.offset (Template.walk text).1 = outcome at houtcome
  cases houtcome with
  | cooked value hcloses hvalue hflags =>
    obtain ⟨hraw, hkept⟩ := hkept hcloses
    refine ⟨hraw, fun other hother => ?_⟩
    rw [hkept, hvalue] at hother
    exact congrArg Except.ok (Option.some.inj hother)
  | abandoned position fault htagged hcloses hvalue hflags =>
    obtain ⟨hraw, hkept⟩ := hkept hcloses
    refine ⟨hraw, fun other hother => ?_⟩
    rw [hkept, hvalue] at hother
    cases hother
  | refused fault prior body rest htagged htext hwidth hunbroken hfault =>
    cases hresult.symm.trans hfault

/-- A string literal that was read is closed, and has a value. -/
theorem exists_closed {scanner after : Scanner} {context : Context}
    (hscan : scanner.scan context = (.ok .stringLiteral, after)) :
    ∃ quote inner rest value, StringLiteral.IsQuote quote ∧
      StringLiteral.Elements (scanner.contextFor context).strict quote (quote :: rest) inner value ∧
      after.raw? = some (quote :: inner ++ [quote]) ∧ after.state.value = some value := by
  obtain ⟨quote, tail, htaken⟩ := exists_taken hscan nofun
  have hquote := (Lexeme.read_readAs htaken.result).string_quote rfl
  rw [StringLiteral.read_of_quote hquote] at htaken
  obtain ⟨inner, rest, value, rfl, helements, hstop⟩ :=
    StringLiteral.exists_elements (scanner.contextFor context).strict quote tail
  rcases hstop with hhead | ⟨fault, before, hproblem⟩
  · obtain ⟨rest, rfl⟩ := List.head?_eq_some_iff.mp hhead
    have hclosed : StringLiteral.Closed (scanner.contextFor context).strict quote
        (inner ++ quote :: rest) inner rest value := ⟨rfl, helements⟩
    rw [hclosed.read hquote] at htaken
    refine ⟨quote, inner, rest, value, hquote, helements, ?_, htaken.value⟩
    have hsplit : quote :: (inner ++ quote :: rest) = (quote :: inner ++ [quote]) ++ rest := by simp
    rw [htaken.raw rfl, hsplit, List.take_left]
  · cases htaken.result.symm.trans (hproblem.read_literal hquote helements)

/-- The value of a literal is what its code units stand for exactly if no surrogate pair is split:
    only two escapes of four digits are read together. -/
theorem literal_value_eq_decode_iff {entry : SegmentEntry} {scanner after : Scanner} {context : Context}
    {token : Token} (hscan : entry.scan scanner context = (.ok token, after))
    (hliteral : token = .stringLiteral ∨ token.isTemplate = true) :
    ∃ raw, after.raw? = some raw ∧
      (token = .stringLiteral → ∃ value, after.state.value = some value) ∧
      ∀ value, after.state.value = some value →
        (value = Utf16.decode (unitsOf (elements (token.inner raw))) ↔
          ¬SplitsPair (elements (token.inner raw))) := by
  have hvalue {text value : List Char} (hcooked : cooked (elements text) = value) :
      value = Utf16.decode (unitsOf (elements text)) ↔ ¬SplitsPair (elements text) := by
    rw [← hcooked]
    exact (Spelling.faithful (elements text)).eq_iff
  by_cases hstring : entry = .reached ∧ token = .stringLiteral
  · obtain ⟨rfl, rfl⟩ := hstring
    obtain ⟨quote, inner, rest, value, hquote, helements, hraw, hkept⟩ := exists_closed hscan
    have hinner : Token.inner .stringLiteral (quote :: inner ++ [quote]) = inner :=
      List.dropLast_concat
    refine ⟨_, hraw, fun _ => ⟨value, hkept⟩, fun other hother => ?_⟩
    rw [hkept] at hother
    cases hother
    rw [hinner]
    exact hvalue (Spelling.cooked_of_elements hquote helements)
  · have htoken (hreached : entry = .reached) : token.isTemplate = true :=
      hliteral.resolve_left fun heq => hstring ⟨hreached, heq⟩
    obtain ⟨before, text, mark, breaksLine, hsource, hmark, hpositive, hcommit⟩ :=
      entry.exists_segment hscan htoken
    obtain ⟨htemplate, raw, hraw, hcook⟩ := commit_segment hsource hmark hpositive hcommit
    have hinner : token.inner raw = raw := if_pos htemplate
    refine ⟨raw, hraw, ?_, fun value hkept => ?_⟩
    · rintro rfl
      cases htemplate
    · rw [hinner]
      exact hvalue (Spelling.cooked_of_cook (hcook value hkept))

/-- Escapes of four digits: a pair, and then half a pair. -/
theorem literal_value_eq_decode_iff_pair :
    ∃ after, (ofSource "\"\\uD83D\\uDE00\\uD83D\"".toList {}).scan {} =
        (.ok .stringLiteral, after) ∧
      after.state.value = some ['😀', '\ufffd'] ∧
      ¬SplitsPair (elements "\\uD83D\\uDE00\\uD83D".toList) := by
  have hresult : ((ofSource "\"\\uD83D\\uDE00\\uD83D\"".toList {}).scan {}).1 =
      .ok .stringLiteral := by
    with_unfolding_all rfl
  have hraw : ((ofSource "\"\\uD83D\\uDE00\\uD83D\"".toList {}).scan {}).2.raw? =
      some "\"\\uD83D\\uDE00\\uD83D\"".toList := by
    decide +kernel
  have hvalue : ((ofSource "\"\\uD83D\\uDE00\\uD83D\"".toList {}).scan {}).2.state.value =
      some ['😀', '\ufffd'] := by
    decide +kernel
  have hdecode : ['😀', '\ufffd'] =
      Utf16.decode (unitsOf (elements "\\uD83D\\uDE00\\uD83D".toList)) := by
    decide +kernel
  obtain ⟨raw, hfound, -, hiff⟩ :=
    @literal_value_eq_decode_iff .reached _ _ {} _ (Prod.ext hresult rfl) (.inl rfl)
  obtain rfl := Option.some.inj (hraw.symm.trans hfound)
  exact ⟨_, Prod.ext hresult rfl, hvalue, (hiff _ hvalue).mp hdecode⟩

/-- Braces around the first half keep the two apart. -/
theorem literal_value_ne_decode :
    ∃ after, (ofSource "\x60\\u\x7bD83D\x7d\\uDE00\x60".toList {}).scan {} =
        (.ok .templateTail, after) ∧
      after.raw? = some "\\u\x7bD83D\x7d\\uDE00".toList ∧
      after.state.value = some ['\ufffd', '\ufffd'] ∧
      Utf16.decode (unitsOf (elements "\\u\x7bD83D\x7d\\uDE00".toList)) = ['😀'] := by
  have hresult : ((ofSource "\x60\\u\x7bD83D\x7d\\uDE00\x60".toList {}).scan {}).1 =
      .ok .templateTail := by
    with_unfolding_all rfl
  refine ⟨_, Prod.ext hresult rfl, ?_, ?_, ?_⟩
  all_goals decide +kernel

end Scanner

end EcmaLexer
