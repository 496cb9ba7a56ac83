import EcmaLexer.Proofs.Text.Slicing
import EcmaLexer.Proofs.Trivia.LineEndings

namespace EcmaLexer.Trivia

open Text (Mark CleanCut utf8Length dropBytes? bytes leadByte isTrailByte ahead bumpTo isSeparator
  isLineTerminator)

/-- The first bytes of the four line terminators. -/
def isLineByte (byte : UInt8) : Bool := byte == 0x0A || byte == 0x0D || byte == 0xE2

/-- Where the line ends that goes on at an offset, found by searching the bytes from there. Every
    slice may fail; so does a search that would go on outside of the text. -/
def lineEnd? (source : List Char) (offset : Nat) : Option Nat := do
  let rest ← dropBytes? offset source
  match (bytes rest).findIdx? isLineByte with
  | none => some (utf8Length source)
  | some found =>
    let byte ← (bytes rest)[found]?
    if byte = 0xE2 then
      match ahead source (offset + found) with
      | [] => some (offset + found)
      | c :: _ =>
        let next := offset + found + c.utf8Size
        if isSeparator c then some (offset + found)
        else if next ≤ utf8Length source then lineEnd? source next
        else none
    else some (offset + found)
termination_by utf8Length source - offset
decreasing_by
  have hpos := c.utf8Size_pos
  omega

theorem isLineByte_of_isTrailByte (byte : UInt8) (htrail : isTrailByte byte = true) :
    isLineByte byte = false := by
  rw [Bool.eq_false_iff]
  intro hline
  simp only [isLineByte, Bool.or_eq_true, beq_iff_eq] at hline
  rcases hline with (rfl | rfl) | rfl <;> cases htrail

theorem isLineByte_leadByte {c : Char} (hbreak : isLineTerminator c = true) :
    isLineByte (leadByte c) = true := by
  simp only [isLineTerminator, isSeparator, Bool.or_eq_true, beq_iff_eq] at hbreak
  rcases hbreak with (rfl | rfl) | rfl | rfl <;> decide

/-- Of the characters that begin like a line terminator only those in the block of the two
    separators may be something else. -/
theorem isLineTerminator_of_leadByte {c : Char} (hline : isLineByte (leadByte c) = true)
    (hlead : leadByte c ≠ 0xE2) : isLineTerminator c = true := by
  simp only [isLineByte, Bool.or_eq_true, beq_iff_eq] at hline
  rcases hline with (hfeed | hreturn) | hblock
  · have hc : c = '\n' := Text.eq_of_leadByte (by decide) hfeed
    rw [hc]
    decide
  · have hc : c = '\r' := Text.eq_of_leadByte (by decide) hreturn
    rw [hc]
    decide
  · exact absurd hblock hlead

theorem lineEnd?_eq {source text : List Char} {offset : Nat}
    (hdrop : dropBytes? offset source = some text) :
    lineEnd? source offset =
      some (offset + utf8Length (text.takeWhile (!isLineTerminator ·))) := by
  have htake {piece : List Char} (hpiece : ∀ d ∈ piece, isLineByte (leadByte d) = false)
      (rest : List Char) : (piece ++ rest).takeWhile (!isLineTerminator ·) =
        piece ++ rest.takeWhile (!isLineTerminator ·) := by
    refine List.takeWhile_append_of_pos fun d hmem => ?_
    cases hd : isLineTerminator d with
    | false => rfl
    | true =>
      have hbyte := isLineByte_leadByte hd
      rw [hpiece d hmem] at hbyte
      cases hbyte
  induction hlength : text.length using Nat.strongRecOn generalizing text offset with
  | ind length ih =>
    subst hlength
    rw [lineEnd?, hdrop, Option.bind_eq_bind, Option.bind_some]
    rcases Text.findIdx?_bytes isLineByte_of_isTrailByte text with
      ⟨hnone, hall⟩ | ⟨before, c, rest, rfl, hbefore, hc, hfound, hbyte⟩
    · have hwhole := htake hall []
      rw [List.append_nil, List.takeWhile_nil, List.append_nil] at hwhole
      rw [hnone, hwhole, Text.dropBytes?_length hdrop]
    · have hnext := Text.dropBytes?_add hdrop
      have hstops (hbreak : isLineTerminator c = true) :
          (c :: rest).takeWhile (!isLineTerminator ·) = [] :=
        List.takeWhile_cons_of_neg (by simp [hbreak])
      simp only [hfound, hbyte, Option.bind_eq_bind, Option.bind_some,
        Text.ahead_of_dropBytes? hnext, htake hbefore]
      split
      · next hblock =>
        cases hc : isSeparator c with
        | true =>
          rw [if_pos rfl, hstops (by simp [isLineTerminator, hc]), List.append_nil]
        | false =>
          have hordinary : isLineTerminator c = false := by
            rw [isLineTerminator, hc, Bool.or_false, Bool.or_eq_false_iff, beq_eq_false_iff_ne,
              beq_eq_false_iff_ne]
            constructor
            · rintro rfl
              cases hblock
            · rintro rfl
              cases hblock
          have hgoes : (c :: rest).takeWhile (!isLineTerminator ·) =
              c :: rest.takeWhile (!isLineTerminator ·) :=
            List.takeWhile_cons_of_pos (by simp [hordinary])
          have hrest : dropBytes? (offset + utf8Length before + c.utf8Size) source = some rest :=
            Text.dropBytes?_add (show _ = some ([c] ++ rest) from hnext)
          have hlength := Text.dropBytes?_length hrest
          have hshorter : rest.length < (before ++ c :: rest).length := by
            rw [List.length_append, List.length_cons]
            omega
          rw [if_neg Bool.false_ne_true, if_pos (by omega), ih _ hshorter hrest rfl, hgoes,
            Text.utf8Length_append, Text.utf8Length_cons]
          simp only [Nat.add_assoc]
      · next hlead => rw [hstops (isLineTerminator_of_leadByte hc hlead), List.append_nil]

/-- The number of bytes before the first `*/`. -/
def findClosing : List UInt8 → Option Nat
  | first :: second :: rest =>
    if first = 0x2A ∧ second = 0x2F then some 0
    else (findClosing (second :: rest)).map (· + 1)
  | _ => none

theorem findClosing_cons {byte : UInt8} {rest : List UInt8}
    (hcut : byte = 0x2A → rest.head? ≠ some 0x2F) :
    findClosing (byte :: rest) = (findClosing rest).map (· + 1) := by
  cases rest with
  | nil => rfl
  | cons second rest =>
    rw [findClosing, if_neg]
    rintro ⟨hstar, rfl⟩
    exact hcut hstar rfl

theorem findClosing_append {left : List UInt8} (hleft : ∀ byte ∈ left, byte ≠ 0x2A)
    (right : List UInt8) :
    findClosing (left ++ right) = (findClosing right).map (· + left.length) := by
  induction left with
  | nil => simp
  | cons byte left ih =>
    have hbyte := hleft byte List.mem_cons_self
    rw [List.cons_append, findClosing_cons fun hstar => absurd hstar hbyte,
      ih fun other hmem => hleft other (List.mem_cons_of_mem byte hmem), Option.map_map]
    rfl

/-- The end of a comment is at the same place in the characters of a text and in its bytes. -/
theorem findClosing_bytes (text : List Char) :
    findClosing (bytes text) =
      (commentWidth? text).map fun width => utf8Length (text.take width) := by
  fun_induction commentWidth? text with
  | case1 => rfl
  | case2 rest =>
    have hbytes : bytes ('*' :: '/' :: rest) = 0x2A :: 0x2F :: bytes rest := rfl
    rw [hbytes, findClosing, if_pos ⟨rfl, rfl⟩]
    rfl
  | case3 c rest hopen ih =>
    have hskip : findClosing (bytes (c :: rest)) =
        (findClosing (bytes rest)).map (· + c.utf8Size) := by
      by_cases hstar : c = '*'
      · subst hstar
        have hhead : (bytes rest).head? ≠ some 0x2F := by
          cases rest with
          | nil =>
            intro hslash
            cases hslash
          | cons d rest =>
            rw [Text.head?_bytes_cons]
            intro hslash
            have hd : d = '/' := Text.eq_of_leadByte (by decide) (Option.some.inj hslash)
            exact hopen rest rfl (by rw [hd])
        exact findClosing_cons fun _ => hhead
      · obtain ⟨trail, hencode, htrail⟩ := Text.utf8EncodeChar_eq_cons c
        rw [Text.bytes_cons, findClosing_append, String.length_utf8EncodeChar]
        rw [hencode]
        intro byte hmem
        rcases List.mem_cons.mp hmem with rfl | hmem
        · exact fun hlead => hstar (Text.eq_of_leadByte (by decide) hlead)
        · rintro rfl
          cases htrail _ hmem
    rw [hskip, ih, Option.map_map, Option.map_map]
    congr 1
    funext width
    simp only [Function.comp_apply, List.take_succ_cons, Text.utf8Length_cons, Nat.add_comm]

/-- What one turn of skipping comes to: the end of the gap, a comment that never ends and with it
    the end of the text, or something that is passed over. -/
inductive Turn where
  | stop
  | unclosed (last : Mark)
  | passed (next : Mark) (breaksLine : Bool)

/-- Skips the block comment at a mark. Its end is searched for in the bytes after its opening. -/
def blockComment? (source : List Char) (mark : Mark) : Option Turn := do
  let body := mark.advance 2
  let rest ← dropBytes? body.offset source
  match findClosing (bytes rest) with
  | none => some (.unclosed (bumpTo source (utf8Length source) body))
  | some found =>
    let closing := bumpTo source (body.offset + found) body
    some (.passed (closing.advance 2) (closing.line != mark.line))

/-- Skips the blank, line terminator or comment at a mark. -/
def turn? (source : List Char) (mark : Mark) : Option Turn :=
  match ahead source mark.offset with
  | '/' :: '/' :: _ => do
    let stop ← lineEnd? source (mark.offset + 2)
    some (.passed { mark with offset := stop } false)
  | '/' :: '*' :: _ => blockComment? source mark
  | '\r' :: '\n' :: _ => some (.passed (mark.breakLine 2) true)
  | c :: _ =>
    if isLineTerminator c then some (.passed (mark.breakLine c.utf8Size) true)
    else if Character.isBlank c then some (.passed (mark.advance c.utf8Size) false)
    else some .stop
  | [] => some .stop

/-- What a turn at the head of a text does, in terms of the gap there. -/
inductive Turn.Follows (mark : Mark) (text : List Char) : Turn → Prop where
  | stop (hrun : run text = ⟨0, false, false⟩) : Follows mark text .stop
  | unclosed (hrun : run text = ⟨0, false, true⟩) : Follows mark text (.unclosed (mark.past text))
  | passed {width : Nat} {breaksLine : Bool} (hpos : 0 < width) (hne : text ≠ [])
      (hclean : CleanCut (text.take width) (text.drop width))
      (hrun : run text = (run (text.drop width)).after ⟨width, breaksLine⟩) :
      Follows mark text (.passed (mark.past (text.take width)) breaksLine)

/-- An element that ends no line terminator halfway is passed over in one turn. -/
theorem Turn.Follows.of_element? {mark : Mark} {text : List Char} {element : Element}
    (helement : element? text = some element) (hpair : ∀ rest, text ≠ '\r' :: '\n' :: rest) :
    Follows mark text (.passed (mark.past (text.take element.width)) element.breaksLine) := by
  refine .passed (element?_width_pos helement) ?_ ?_ (run_of_element? helement)
  · rintro rfl
    cases helement
  · rcases element?_cleanCut helement with hclean | ⟨rest, hrest⟩
    · exact hclean
    · exact absurd hrest (hpair rest)

/-- A line comment is passed over up to the end of its line. -/
theorem follows_lineComment (mark : Mark) (rest : List Char) :
    Turn.Follows mark ('/' :: '/' :: rest)
      (.passed
        { mark with
          offset := mark.offset + 2 + utf8Length (rest.takeWhile (!isLineTerminator ·)) }
        false) := by
  have helement : element? ('/' :: '/' :: rest) = some ⟨2 + lineWidth rest, false⟩ := rfl
  have htake : ('/' :: '/' :: rest).take (2 + lineWidth rest) =
      '/' :: '/' :: rest.takeWhile (!isLineTerminator ·) := by
    rw [lineWidth, Nat.add_comm, List.take_succ_cons, List.take_succ_cons,
      Escape.take_length_takeWhile]
  have hmark : mark.past (('/' :: '/' :: rest).take (2 + lineWidth rest)) =
      { mark with
        offset := mark.offset + 2 + utf8Length (rest.takeWhile (!isLineTerminator ·)) } := by
    calc mark.past (('/' :: '/' :: rest).take (2 + lineWidth rest))
        = (mark.advance 2).past (rest.takeWhile (!isLineTerminator ·)) := by
          rw [htake]
          rfl
      _ = _ := Mark.past_of_unbroken (isLine_takeWhile rest).unbroken _
  rw [← hmark]
  exact .of_element? helement (by simp)

/-- A mark comes to another line exactly if a line terminator is passed. -/
theorem line_past_ne (mark : Mark) (text : List Char) :
    ((mark.past text).line != mark.line) = text.any isLineTerminator := by
  have hends (offset : Nat) :
      text.any isLineTerminator = decide (Text.terminatorEnds offset text ≠ []) := by
    fun_induction Text.terminatorEnds offset text with
    | case1 => rfl
    | case2 => rfl
    | case3 offset c text hpair next hbreak => simp [hbreak]
    | case4 offset c text hpair next hbreak ih => simpa [hbreak] using ih
  rw [Mark.line_past, hends mark.offset]
  cases Text.terminatorEnds mark.offset text with
  | nil => simp
  | cons first rest => simp

/-- A block comment is passed over up to its end, or else up to the end of the text. -/
theorem blockComment?_eq {source rest : List Char} {mark : Mark}
    (hdrop : dropBytes? mark.offset source = some ('/' :: '*' :: rest)) :
    ∃ turn, blockComment? source mark = some turn ∧ turn.Follows mark ('/' :: '*' :: rest) := by
  have hbody : dropBytes? (mark.advance 2).offset source = some rest :=
    Text.dropBytes?_add (show _ = some (['/', '*'] ++ rest) from hdrop)
  simp only [blockComment?, hbody, Option.bind_eq_bind, Option.bind_some, findClosing_bytes]
  cases hwidth : commentWidth? rest with
  | none =>
    have helement : element? ('/' :: '*' :: rest) = none := by
      rw [element?, hwidth, Option.map_none]
    have hlast : bumpTo source (utf8Length source) (mark.advance 2) =
        mark.past ('/' :: '*' :: rest) := by
      rw [← List.append_nil rest] at hbody
      exact Text.bumpTo_eq hbody
        (by rw [← Text.dropBytes?_length hbody, List.append_nil]) (.nil_right rest)
    refine ⟨_, rfl, ?_⟩
    rw [hlast]
    exact .unclosed (run_of_element?_eq_none helement)
  | some width =>
    obtain ⟨body, after, rfl, rfl, -⟩ := commentWidth?_eq_some hwidth
    have helement : element? ('/' :: '*' :: (body ++ '*' :: '/' :: after)) =
        some ⟨2 + body.length + 2, body.any isLineTerminator⟩ := by
      rw [element?, hwidth, Option.map_some, List.take_left]
    have hclosing : bumpTo source ((mark.advance 2).offset + utf8Length body) (mark.advance 2) =
        (mark.advance 2).past body :=
      Text.bumpTo_eq hbody rfl (.of_head_ne (by simp))
    have htake : ('/' :: '*' :: (body ++ '*' :: '/' :: after)).take (2 + body.length + 2) =
        '/' :: '*' :: (body ++ ['*', '/']) := by
      rw [Nat.add_assoc, Nat.add_comm 2, List.take_succ_cons, List.take_succ_cons,
        List.take_length_add_append]
      rfl
    have hmark : ((mark.advance 2).past body).advance 2 =
        mark.past (('/' :: '*' :: (body ++ '*' :: '/' :: after)).take (2 + body.length + 2)) := by
      calc ((mark.advance 2).past body).advance 2
          = ((mark.advance 2).past body).past ['*', '/'] := rfl
        _ = (mark.advance 2).past (body ++ ['*', '/']) :=
          (Mark.past_append _ (.of_head_ne (by simp))).symm
        _ = mark.past ('/' :: '*' :: (body ++ ['*', '/'])) := rfl
        _ = _ := by rw [htake]
    have hline : (((mark.advance 2).past body).line != mark.line) = body.any isLineTerminator :=
      line_past_ne (mark.advance 2) body
    rw [Option.map_some, List.take_left]
    refine ⟨_, rfl, ?_⟩
    rw [hclosing, hline, hmark]
    exact .of_element? helement (by simp)

/-- A carriage return and its line feed are two elements, passed over in one turn. -/
theorem follows_pair (mark : Mark) (rest : List Char) :
    Turn.Follows mark ('\r' :: '\n' :: rest) (.passed (mark.breakLine 2) true) := by
  have hreturn : run ('\r' :: '\n' :: rest) = (run ('\n' :: rest)).after ⟨1, true⟩ :=
    run_of_element? rfl
  have hfeed : run ('\n' :: rest) = (run rest).after ⟨1, true⟩ := run_of_element? rfl
  have hrun : run ('\r' :: '\n' :: rest) = (run rest).after ⟨2, true⟩ := by
    rw [hreturn, hfeed]
    simp only [Gap.after, Bool.true_or, ← Nat.add_assoc]
  have hclean : CleanCut ['\r', '\n'] rest := .of_last_ne (by decide) ['\r'] rest
  exact .passed (Nat.zero_lt_succ 1) (List.cons_ne_nil _ _) hclean hrun

theorem turn?_eq {source text : List Char} {mark : Mark}
    (hdrop : dropBytes? mark.offset source = some text) :
    ∃ turn, turn? source mark = some turn ∧ turn.Follows mark text := by
  unfold turn?
  rw [Text.ahead_of_dropBytes? hdrop]
  split
  · next rest =>
    have hrest : dropBytes? (mark.offset + 2) source = some rest :=
      Text.dropBytes?_add (show _ = some (['/', '/'] ++ rest) from hdrop)
    rw [lineEnd?_eq hrest]
    exact ⟨_, rfl, follows_lineComment mark rest⟩
  · exact blockComment?_eq hdrop
  · next rest => exact ⟨_, rfl, follows_pair mark rest⟩
  · next c rest hline hblock hpair =>
    have helement := element?.eq_3 c rest hline hblock
    have hpast := mark.past_singleton c
    have hunpaired (tail : List Char) : c :: rest ≠ '\r' :: '\n' :: tail := by
      rintro ⟨⟩
      exact hpair tail rfl rfl
    split
    · next hbreak =>
      rw [if_pos hbreak] at helement hpast
      rw [← hpast]
      exact ⟨_, rfl, .of_element? helement hunpaired⟩
    · next hbreak =>
      rw [if_neg hbreak] at helement hpast
      split
      · next hblank =>
        rw [if_pos hblank] at helement
        rw [← hpast]
        exact ⟨_, rfl, .of_element? helement hunpaired⟩
      · next hblank =>
        rw [if_neg hblank] at helement
        have hopens : opensComment (c :: rest) = false := by
          unfold opensComment
          split
          · next tail hcons =>
            cases hcons
            exact (hblock tail rfl rfl).elim
          · rfl
        refine ⟨_, rfl, .stop ?_⟩
        rw [run_of_element?_eq_none helement, hopens]
  · exact ⟨_, rfl, .stop (run_of_element?_eq_none rfl)⟩

/-- Where a gap ends, whether a line ends in it, and whether a comment in it never ends. -/
structure Skipped where
  mark : Mark
  breaksLine : Bool
  unclosed : Bool

/-- Skips turn by turn. A turn that does not get on, or leaves the text, counts as failed. -/
def run? (source : List Char) (mark : Mark) (breaksLine : Bool) : Option Skipped := do
  match ← turn? source mark with
  | .stop => some ⟨mark, breaksLine, false⟩
  | .unclosed last => some ⟨last, breaksLine, true⟩
  | .passed next breaks =>
    if mark.offset < next.offset ∧ next.offset ≤ utf8Length source then
      run? source next (breaksLine || breaks)
    else none
termination_by utf8Length source - mark.offset
decreasing_by omega

/-- The gap of a text, skipped from a mark on. -/
def Gap.skippedFrom (gap : Gap) (mark : Mark) (text : List Char) (breaksLine : Bool) : Skipped where
  mark := if gap.unclosed then mark.past text else mark.past (text.take gap.width)
  breaksLine := breaksLine || gap.breaksLine
  unclosed := gap.unclosed

theorem Gap.skippedFrom_after {element : Element} {text : List Char}
    (hclean : CleanCut (text.take element.width) (text.drop element.width)) (gap : Gap)
    (mark : Mark) (breaksLine : Bool) :
    (gap.after element).skippedFrom mark text breaksLine =
      gap.skippedFrom (mark.past (text.take element.width)) (text.drop element.width)
        (breaksLine || element.breaksLine) := by
  have hwhole : mark.past text =
      (mark.past (text.take element.width)).past (text.drop element.width) := by
    rw [← Mark.past_append _ hclean, List.take_append_drop]
  have hpart : mark.past (text.take (element.width + gap.width)) =
      (mark.past (text.take element.width)).past ((text.drop element.width).take gap.width) := by
    rw [List.take_add, Mark.past_append _ (hclean.take gap.width)]
  simp only [skippedFrom, Gap.after, hwhole, hpart, Bool.or_assoc]

theorem run?_eq {source text : List Char} {mark : Mark}
    (hdrop : dropBytes? mark.offset source = some text) (breaksLine : Bool) :
    run? source mark breaksLine = some ((run text).skippedFrom mark text breaksLine) := by
  induction hlength : text.length using Nat.strongRecOn generalizing text mark breaksLine with
  | ind length ih =>
    subst hlength
    obtain ⟨turn, hturn, hfollows⟩ := turn?_eq hdrop
    rw [run?, hturn]
    cases hfollows with
    | stop hrun =>
      simp only [hrun, Gap.skippedFrom, List.take_zero, Bool.or_false]
      rfl
    | unclosed hrun =>
      simp only [hrun, Gap.skippedFrom, Bool.or_false]
      rfl
    | @passed width breaks hpos hne hclean hrun =>
      have hsplit : dropBytes? mark.offset source = some (text.take width ++ text.drop width) := by
        rw [List.take_append_drop, hdrop]
      have hsome : text.take width ≠ [] := by
        simp only [ne_eq, List.take_eq_nil_iff, hne, or_false]
        omega
      have hshorter : (text.drop width).length < text.length := by
        have htext := List.length_pos_iff.mpr hne
        rw [List.length_drop]
        omega
      simp only [Option.bind_eq_bind, Option.bind_some]
      rw [if_pos (Mark.past_inside hsplit hsome), ih _ hshorter (Mark.dropBytes?_past hsplit) _ rfl,
        hrun, Gap.skippedFrom_after hclean]

/-- Skips what stands before a token; where a hashbang may stand, a first line that is one too. -/
def skip? (hashbang : Bool) (source : List Char) (mark : Mark) : Option Skipped :=
  if hashbang && "#!".toList.isPrefixOf (ahead source mark.offset) then do
    let stop ← lineEnd? source mark.offset
    run? source { mark with offset := stop } false
  else run? source mark false

/-- Whatever stands before a token is skipped without a slice that fails, wherever the mark is: if
    it is not between two characters, nothing is sliced. -/
theorem skip?_eq (hashbang : Bool) (source : List Char) (mark : Mark) :
    skip? hashbang source mark =
      some ((skip hashbang (ahead source mark.offset)).skippedFrom mark (ahead source mark.offset)
        false) := by
  cases htext : ahead source mark.offset with
  | nil =>
    have hturn : turn? source mark = some .stop := by rw [turn?, htext]
    have hnone : skip hashbang [] = ⟨0, false, false⟩ := by
      rw [skip, if_neg (by simp)]
      exact run_of_element?_eq_none rfl
    rw [skip?, htext, if_neg (by simp), run?, hturn, hnone]
    rfl
  | cons c rest =>
    have hdrop := Text.dropBytes?_of_ahead htext (List.cons_ne_nil c rest)
    rw [skip?, skip, htext]
    split
    · have hclean : CleanCut ((c :: rest).take (lineWidth (c :: rest)))
          ((c :: rest).drop (lineWidth (c :: rest))) :=
        .of_unbroken (take_lineWidth_unbroken _)
      have hmark : mark.past ((c :: rest).take (lineWidth (c :: rest))) =
          { mark with
            offset := mark.offset + utf8Length ((c :: rest).takeWhile (!isLineTerminator ·)) } := by
        rw [Mark.past_of_unbroken (take_lineWidth_unbroken _), lineWidth,
          Escape.take_length_takeWhile]
        rfl
      have hnext : dropBytes? (mark.past ((c :: rest).take (lineWidth (c :: rest)))).offset source =
          some ((c :: rest).drop (lineWidth (c :: rest))) :=
        Mark.dropBytes?_past (by rw [List.take_append_drop, hdrop])
      rw [lineEnd?_eq hdrop, Gap.skippedFrom_after hclean, ← run?_eq hnext, hmark]
      rfl
    · exact run?_eq hdrop false

end EcmaLexer.Trivia
