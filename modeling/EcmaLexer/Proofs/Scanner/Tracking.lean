import EcmaLexer.Proofs.Lexeme.Fits
import EcmaLexer.Proofs.Scanner.Segment
import EcmaLexer.Proofs.Text.Lines
import EcmaLexer.Proofs.Trivia

namespace EcmaLexer.Scanner

open Text (LineMap utf8Length)

/-- A state that scanning the source can leave: its mark stands before some rest of the
    source, and its raw text is there. -/
structure State.Follows (source : List Char) (state : State) : Prop where
  reaches : ∃ unread, state.mark.Reaches source unread
  raw : (Text.slice? source state.rawStart state.rawStop).isSome = true

/-- The location of a fault is that of its position. -/
def Located (source : List Char) (result : Except ScanError Token) : Prop :=
  ∀ error, result = .error error → error.location = (LineMap.ofText source).locationOf error.position

/-- What every request for a token keeps to. -/
structure Tracks (source : List Char) (outcome : Except ScanError Token × Scanner) : Prop where
  sameSource : outcome.2.source = source
  follows : outcome.2.state.Follows source
  located : Located source outcome.1

theorem State.initial_follows (source : List Char) : State.initial.Follows source where
  reaches := ⟨source, Text.Mark.origin_reaches source⟩
  raw := by
    rw [State.initial, Text.slice?, if_pos (Nat.le_refl 0), Text.dropBytes?_zero, Option.bind_some,
      Nat.sub_self, Text.takeBytes?_zero]
    rfl

theorem State.Follows.unread {scanner : Scanner} (hfollows : scanner.state.Follows scanner.source) :
    scanner.state.mark.Reaches scanner.source scanner.unread := by
  obtain ⟨unread, hreaches⟩ := hfollows.reaches
  have hunread : scanner.unread = unread := by
    rw [Scanner.unread, textFrom, offset, hreaches.dropBytes?, Option.getD_some]
  rw [hunread]
  exact hreaches

section

variable {source : List Char} (hlength : utf8Length source < 4294967296)
include hlength

/-- A fault on the line where the scanner stands is located right. -/
theorem report_tracks {scanner : Scanner} (hsource : scanner.source = source)
    (hfollows : scanner.state.Follows source) {position : Nat}
    (hstart : scanner.state.mark.lineStart ≤ position)
    (hstop : position ≤ scanner.offset) (fault : Fault) :
    Tracks source (report scanner fault position) where
  sameSource := hsource
  follows := ⟨hfollows.reaches, hfollows.raw⟩
  located := by
    intro error hresult
    cases hresult
    obtain ⟨unread, hreaches⟩ := hfollows.reaches
    exact hreaches.locate_eq hlength hstart hstop

/-- What fits into the text at a mark is taken over with the right line. -/
theorem commit_tracks {scanner : Scanner} (hsource : scanner.source = source)
    (hfollows : scanner.state.Follows source) {start : Text.Mark} {text : List Char}
    (hreaches : start.Reaches source text) {lexeme : Lexeme} (hfits : lexeme.Fits text)
    {tokenStart : Nat}
    (hopener : ∀ token, lexeme.result = .ok token → tokenStart + token.openerLength = start.offset)
    (breaksLine : Bool) :
    Tracks source (commit scanner tokenStart start breaksLine text lexeme) := by
  have hmark := hreaches.past_take hfits.clean
  cases hresult : lexeme.result with
  | ok token =>
    rw [commit_ok hresult]
    refine ⟨hsource, ⟨⟨text.drop lexeme.width, hmark⟩, ?_⟩, nofun⟩
    obtain ⟨raw, hraw⟩ := hfits.closed token hresult
    obtain ⟨read, htext, -, hstart⟩ := hreaches
    have hoffset : start.offset = utf8Length read := by
      rw [hstart, Text.Mark.offset_past]
      exact Nat.zero_add _
    have hstop : (start.past (text.take lexeme.width)).offset - token.closerLength =
        utf8Length read + utf8Length raw := by
      rw [Text.Mark.offset_past, ← hraw, hoffset, Text.utf8Length_append,
        Template.utf8Length_closer]
      omega
    have hparts : source = read ++ raw ++ (Template.closer token ++ text.drop lexeme.width) := by
      rw [List.append_assoc, ← List.append_assoc raw, hraw, List.take_append_drop]
      exact htext
    simp only [hopener token hresult, hstop, hoffset]
    rw [hparts, Text.slice?_append]
    rfl
  | error misread =>
    rw [commit_error hresult]
    obtain ⟨hbefore, hunbroken⟩ := hfits.fault misread hresult
    have hsplit : text.take lexeme.width =
        text.take misread.before ++ (text.take lexeme.width).drop misread.before := by
      have happend := List.take_append_drop misread.before (text.take lexeme.width)
      rw [List.take_take, Nat.min_eq_left hbefore] at happend
      exact happend.symm
    refine report_tracks hlength ?_ ?_ ?_ ?_ misread.fault
    · exact hsource
    · exact ⟨⟨text.drop lexeme.width, hmark⟩, hfollows.raw⟩
    · rw [hsplit]
      exact Text.Mark.lineStart_past_append_le hreaches.lineStart_le _ hunbroken
    · simp only [offset, Text.Mark.offset_past]
      rw [hsplit, Text.utf8Length_append]
      omega

/-- A template segment is taken over with the right line, from the text after its
    opening delimiter. -/
theorem commit_segment_tracks {scanner : Scanner} (hsource : scanner.source = source)
    (hfollows : scanner.state.Follows source) {start : Text.Mark} {text : List Char}
    (hreaches : start.Reaches source text) {tokenStart : Nat}
    (hopener : tokenStart + 1 = start.offset) (context : Context) (breaksLine : Bool) :
    Tracks source (commit scanner tokenStart start breaksLine text (Template.segment context text)) := by
  have hfits := Template.segment_fits context text
  refine commit_tracks hlength hsource hfollows hreaches hfits (fun token hresult => ?_) breaksLine
  rw [Token.openerLength, if_pos (Template.segment_isTemplate hresult)]
  exact hopener

theorem scan_tracks {scanner : Scanner} (hsource : scanner.source = source)
    (hfollows : scanner.state.Follows source) (context : Context) :
    Tracks source (scanner.scan context) := by
  subst hsource
  have hunread := hfollows.unread
  cases hunclosed : scanner.gapAhead.unclosed with
  | true =>
    have hend : (scanner.state.mark.past scanner.unread).Reaches scanner.source [] := by
      refine Text.Mark.Reaches.past ?_ (.nil_right _)
      rw [List.append_nil]
      exact hunread
    rw [scan_unclosed hunclosed]
    refine report_tracks hlength ?_ ?_ ?_ ?_ .unterminatedComment
    · rfl
    · exact ⟨⟨[], hend⟩, hfollows.raw⟩
    · exact hend.lineStart_le
    · exact Nat.le_refl _
  | false =>
    have hcut :=
      Trivia.skip_cleanCut (scanner.options.skipHashbang && scanner.offset == 0) scanner.unread
    have htoken : scanner.tokenMark.Reaches scanner.source
        (scanner.unread.drop scanner.gapAhead.width) := hunread.past_take hcut
    cases hdrop : scanner.unread.drop scanner.gapAhead.width with
    | nil =>
      rw [scan_nil hunclosed hdrop]
      rw [hdrop] at htoken
      refine commit_tracks hlength rfl hfollows htoken (.of_inline (.accept_zero [] rfl)) ?_ _
      intro token hresult
      cases hresult
      rfl
    | cons c rest =>
      rw [scan_cons hunclosed hdrop]
      rw [hdrop] at htoken
      by_cases hbacktick : c = '\x60'
      · subst hbacktick
        have hread : Lexeme.read (scanner.contextFor context) '\x60' rest =
            (Template.segment (scanner.contextFor context) rest).after 1 [] {} := rfl
        rw [hread, commit_backtick]
        exact commit_segment_tracks hlength rfl hfollows (htoken.advance (by decide)) rfl _ _
      · obtain ⟨hfits, hplain⟩ := Lexeme.read_fits hbacktick (scanner.contextFor context) rest
        refine commit_tracks hlength rfl hfollows htoken hfits ?_ _
        intro token hresult
        rw [Token.openerLength, hplain token hresult]
        rfl

theorem scanTemplate_tracks {scanner : Scanner} (hsource : scanner.source = source)
    (hfollows : scanner.state.Follows source) (hbacktick : scanner.unread.head? = some '\x60')
    (context : Context) :
    Tracks source (scanner.scanTemplate context) := by
  subst hsource
  obtain ⟨text, hunread⟩ := List.head?_eq_some_iff.mp hbacktick
  have hopens : SegmentEntry.opening.Opens scanner (scanner.offset + 1) text := ⟨hunread, rfl⟩
  have hscan := hopens.scan_eq_commit nofun context
  rw [SegmentEntry.scan] at hscan
  rw [hscan]
  have hreaches := hfollows.unread
  rw [hunread] at hreaches
  exact commit_segment_tracks hlength rfl hfollows (hreaches.advance (by decide)) rfl _ _

/-- A segment may be asked for anywhere, also where no brace closes a substitution. -/
theorem resumeTemplate_tracks {scanner : Scanner} (hsource : scanner.source = source)
    (hfollows : scanner.state.Follows source) (context : Context) :
    Tracks source (scanner.resumeTemplate context) := by
  subst hsource
  have hreaches := hfollows.unread
  fun_cases resumeTemplate scanner context with
  | case1 hend => exact report_tracks hlength rfl hfollows hreaches.lineStart_le (Nat.le_refl _) _
  | case2 hend =>
    have hpositive : 0 < scanner.offset := by
      simp only [Bool.or_eq_true, beq_iff_eq, not_or] at hend
      exact Nat.pos_of_ne_zero hend.2
    exact commit_segment_tracks hlength rfl hfollows hreaches (Nat.sub_add_cancel hpositive) _ _

end

end EcmaLexer.Scanner
