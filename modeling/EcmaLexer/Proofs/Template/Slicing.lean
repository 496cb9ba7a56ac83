import EcmaLexer.Proofs.Lexeme.LineEndings
import EcmaLexer.Proofs.Template.Walk
import EcmaLexer.Proofs.Text.Slicing

namespace EcmaLexer.Template

open Text (Mark CleanCut utf8Length dropBytes? slice? bytes leadByte isTrailByte ahead bumpTo
  isLineTerminator)

/-- The bytes at which a search for the end of a segment stops. -/
def isTemplateByte (byte : UInt8) : Bool := byte == 0x60 || byte == 0x24 || byte == 0x5C

theorem isTemplateByte_of_isTrailByte (byte : UInt8) (htrail : isTrailByte byte = true) :
    isTemplateByte byte = false := by
  rw [Bool.eq_false_iff]
  intro hstop
  simp only [isTemplateByte, Bool.or_eq_true, beq_iff_eq] at hstop
  rcases hstop with (rfl | rfl) | rfl <;> cases htrail

theorem inert_of_leadByte {c : Char} (hlead : isTemplateByte (leadByte c) = false) : Inert c := by
  refine ⟨?_, ?_, ?_⟩ <;> rintro rfl <;> revert hlead <;> decide

/-- One turn of the search: it comes to an end, after a delimiter or without one, or goes on. -/
inductive Turn where
  | ended (last : Mark) (token? : Option Token)
  | passed (next : Mark)

/-- What comes of a byte found at an offset, where the mark has been moved to. A backslash hides the
    character after it, or the line terminator. -/
def turnAt (source : List Char) (byte : UInt8) (offset : Nat) (mark : Mark) : Turn :=
  if byte = 0x60 then .ended (mark.advance 1) (some .templateTail)
  else if byte = 0x24 then
    if (bytes source)[offset + 1]? = some 0x7B then .ended (mark.advance 2) (some .templateCont)
    else .passed (mark.advance 1)
  else
    match ahead source (mark.advance 1).offset with
    | [] => .ended (mark.advance 1) none
    | '\r' :: '\n' :: _ => .passed ((mark.advance 1).breakLine 2)
    | c :: _ => .passed ((mark.advance 1).past [c])

/-- Searches the bytes from a mark on for the next one at which something has to be decided. -/
def turn? (source : List Char) (mark : Mark) : Option Turn := do
  let rest ← dropBytes? mark.offset source
  match (bytes rest).findIdx? isTemplateByte with
  | none => some (.ended (bumpTo source (utf8Length source) mark) none)
  | some found =>
    let byte ← (bytes rest)[found]?
    let offset := mark.offset + found
    some (turnAt source byte offset (bumpTo source offset mark))

/-- A reading that ends after `width` characters, without a token at the end of the text. -/
def ending (token? : Option Token) (width : Nat) : Lexeme :=
  match token? with
  | some token => .accept token width
  | none => .reject .unexpectedEndOfInput width width

/-- What a turn at the head of a text does, in terms of the reading there. -/
inductive Turn.Follows (mark : Mark) (text : List Char) : Turn → Prop where
  | ended {consumed rest : List Char} {token? : Option Token} (htext : text = consumed ++ rest)
      (hread : uncooked text = ending token? consumed.length) :
      Follows mark text (.ended (mark.past consumed) token?)
  | passed {consumed rest : List Char} (htext : text = consumed ++ rest) (hne : consumed ≠ [])
      (hread : uncooked text = (uncooked rest).after consumed.length [] {}) :
      Follows mark text (.passed (mark.past consumed))

/-- Characters that decide nothing are passed over. -/
theorem uncooked_append {before : List Char} (hinert : ∀ c ∈ before, Inert c) (rest : List Char) :
    uncooked (before ++ rest) = (uncooked rest).after before.length [] {} := by
  induction before with
  | nil =>
    rcases huncooked : uncooked rest with ⟨width, value, flags, token | misread⟩ <;>
      simp [huncooked, Lexeme.after, Flags.union]
  | cons c before ih =>
    obtain ⟨hbacktick, hbackslash, hdollar⟩ := hinert c List.mem_cons_self
    rw [List.cons_append, uncooked_ordinary hbacktick hbackslash (fun hc => absurd hc hdollar),
      ih fun d hmem => hinert d (List.mem_cons_of_mem c hmem), Lexeme.after_after, List.length_cons,
      Nat.add_comm]

theorem ending_after (token? : Option Token) (width more : Nat) :
    (ending token? more).after width [] {} = ending token? (width + more) := by
  cases token? with
  | none => rfl
  | some token => rfl

theorem Turn.Follows.after_inert {mark : Mark} {before text : List Char} {turn : Turn}
    (hfollows : turn.Follows (mark.past before) text) (hinert : ∀ c ∈ before, Inert c)
    (hclean : CleanCut before text) : turn.Follows mark (before ++ text) := by
  have hmark {consumed rest : List Char} (htext : text = consumed ++ rest) :
      (mark.past before).past consumed = mark.past (before ++ consumed) := by
    have hcut := hclean.take consumed.length
    rw [htext, List.take_left] at hcut
    exact (Mark.past_append mark hcut).symm
  cases hfollows with
  | @ended consumed rest token? htext hread =>
    rw [hmark htext]
    refine .ended (by rw [htext, List.append_assoc]) ?_
    rw [uncooked_append hinert, hread, ending_after, List.length_append]
  | @passed consumed rest htext hne hread =>
    rw [hmark htext]
    refine .passed (by rw [htext, List.append_assoc]) (by simp [hne]) ?_
    rw [uncooked_append hinert, hread, Lexeme.after_after, List.length_append]

theorem turnAt_backtick (source rest : List Char) (offset : Nat) (mark : Mark) :
    (turnAt source (leadByte '\x60') offset mark).Follows mark ('\x60' :: rest) := by
  have hturn : turnAt source (leadByte '\x60') offset mark =
      .ended (mark.past ['\x60']) (some .templateTail) := if_pos (by decide)
  rw [hturn]
  exact .ended (show _ = ['\x60'] ++ rest from rfl) (uncooked.eq_2 rest)

theorem turnAt_dollar {source rest : List Char} {mark : Mark}
    (hdrop : dropBytes? mark.offset source = some ('$' :: rest)) :
    (turnAt source (leadByte '$') mark.offset mark).Follows mark ('$' :: rest) := by
  have hbyte : (bytes source)[mark.offset + 1]? = some 0x7B ↔ rest.head? = some '\x7b' := by
    have hnext : dropBytes? (mark.offset + 1) source = some rest :=
      Text.dropBytes?_add (show _ = some (['$'] ++ rest) from hdrop)
    exact Text.getElem?_bytes_eq_some (c := '\x7b') (by decide) hnext
  rw [turnAt, if_neg (by decide), if_pos (by decide)]
  split
  · next hbrace =>
    obtain ⟨tail, rfl⟩ := List.head?_eq_some_iff.mp (hbyte.mp hbrace)
    exact .ended (show _ = ['$', '\x7b'] ++ tail from rfl) (uncooked.eq_3 tail)
  · next hbrace =>
    refine .passed (show _ = ['$'] ++ rest from rfl) (List.cons_ne_nil _ _) ?_
    exact uncooked_ordinary (by decide) (by decide) fun _ => mt hbyte.mpr hbrace

theorem turnAt_backslash {source rest : List Char} {mark : Mark} (offset : Nat)
    (hdrop : dropBytes? mark.offset source = some ('\\' :: rest)) :
    (turnAt source (leadByte '\\') offset mark).Follows mark ('\\' :: rest) := by
  have hnext : dropBytes? (mark.advance 1).offset source = some rest :=
    Text.dropBytes?_add (show _ = some (['\\'] ++ rest) from hdrop)
  rw [turnAt, if_neg (by decide), if_neg (by decide), Text.ahead_of_dropBytes? hnext]
  split
  · exact .ended (show _ = ['\\'] ++ [] from rfl) uncooked.eq_4
  · next tail =>
    refine .passed (show _ = ['\\', '\r', '\n'] ++ tail from rfl) (List.cons_ne_nil _ _) ?_
    have hfeed : uncooked ('\n' :: tail) = (uncooked tail).after 1 [] {} :=
      uncooked_ordinary (by decide) (by decide) (fun hc => absurd hc (by decide))
    show uncooked ('\\' :: '\r' :: '\n' :: tail) = _
    rw [uncooked.eq_5, hfeed, Lexeme.after_after]
    rfl
  · next c tail hpair =>
    exact .passed (show _ = ['\\', c] ++ tail from rfl) (List.cons_ne_nil _ _) (uncooked.eq_5 _ _)

theorem turn?_eq {source text : List Char} {mark : Mark}
    (hdrop : dropBytes? mark.offset source = some text) :
    ∃ turn, turn? source mark = some turn ∧ turn.Follows mark text := by
  simp only [turn?, hdrop, Option.bind_eq_bind, Option.bind_some]
  rcases Text.findIdx?_bytes isTemplateByte_of_isTrailByte text with
    ⟨hnone, hall⟩ | ⟨before, c, rest, rfl, hbefore, hc, hfound, hbyte⟩
  · have hlast : bumpTo source (utf8Length source) mark = mark.past text := by
      rw [← List.append_nil text] at hdrop
      exact Text.bumpTo_eq hdrop
        (by rw [← Text.dropBytes?_length hdrop, List.append_nil]) (.nil_right text)
    have hread : uncooked text = ending none text.length := by
      have happend := uncooked_append (fun c hmem => inert_of_leadByte (hall c hmem)) []
      rwa [List.append_nil] at happend
    rw [hnone, hlast]
    exact ⟨_, rfl, .ended (List.append_nil text).symm hread⟩
  · have hclean : CleanCut before (c :: rest) := by
      refine .of_head_ne ?_
      rintro ⟨⟩
      cases hc
    have hoffset : (mark.past before).offset = mark.offset + utf8Length before :=
      Mark.offset_past _ _
    have hstop : bumpTo source (mark.past before).offset mark = mark.past before :=
      Text.bumpTo_eq hdrop hoffset hclean
    have hnext : dropBytes? (mark.past before).offset source = some (c :: rest) :=
      Mark.dropBytes?_past hdrop
    simp only [hfound, hbyte, Option.bind_some, ← hoffset, hstop]
    refine ⟨_, rfl, .after_inert ?_ (fun d hmem => inert_of_leadByte (hbefore d hmem)) hclean⟩
    simp only [isTemplateByte, Bool.or_eq_true, beq_iff_eq] at hc
    rcases hc with (hbacktick | hdollar) | hbackslash
    · obtain rfl : c = '\x60' := Text.eq_of_leadByte (by decide) hbacktick
      exact turnAt_backtick _ _ _ _
    · obtain rfl : c = '$' := Text.eq_of_leadByte (by decide) hdollar
      exact turnAt_dollar hnext
    · obtain rfl : c = '\\' := Text.eq_of_leadByte (by decide) hbackslash
      exact turnAt_backslash _ hnext

/-- Finds the end of a segment turn by turn. The slices between the marks only count characters. A
    turn that does not get on, or leaves the text, counts as failed. -/
def uncooked? (source : List Char) (mark : Mark) : Option Lexeme := do
  match ← turn? source mark with
  | .ended last token? =>
    let consumed ← slice? source mark.offset last.offset
    some (ending token? consumed.length)
  | .passed next =>
    let consumed ← slice? source mark.offset next.offset
    if mark.offset < next.offset ∧ next.offset ≤ utf8Length source then
      (uncooked? source next).map (·.after consumed.length [] {})
    else none
termination_by utf8Length source - mark.offset
decreasing_by omega

theorem uncooked?_eq {source text : List Char} {mark : Mark}
    (hdrop : dropBytes? mark.offset source = some text) :
    uncooked? source mark = some (uncooked text) := by
  induction hlength : text.length using Nat.strongRecOn generalizing text mark with
  | ind length ih =>
    subst hlength
    obtain ⟨turn, hturn, hfollows⟩ := turn?_eq hdrop
    rw [uncooked?, hturn]
    cases hfollows with
    | @ended consumed rest token? htext hread =>
      subst htext
      simp only [Option.bind_eq_bind, Option.bind_some, Mark.slice?_past hdrop, hread]
    | @passed consumed rest htext hne hread =>
      subst htext
      have hshorter : rest.length < (consumed ++ rest).length := by
        rw [List.length_append]
        exact Nat.lt_add_of_pos_left (List.length_pos_iff.mpr hne)
      simp only [Option.bind_eq_bind, Option.bind_some, Mark.slice?_past hdrop]
      rw [if_pos (Mark.past_inside hdrop hne), ih _ hshorter (Mark.dropBytes?_past hdrop) rfl,
        hread, Option.map_some]

/-- Reads a segment from a mark on, where `text` stands. Only after a malformed escape anything is
    sliced. -/
def segment? (context : Context) (source : List Char) (mark : Mark) (text : List Char) :
    Option Lexeme :=
  match text with
  | [] => some (.reject .unexpectedEndOfInput 0 0)
  | '\x60' :: _ => some (.accept .templateTail 1)
  | '$' :: '\x7b' :: _ => some (.accept .templateCont 2)
  | ['\\'] => some (.reject .unexpectedEndOfInput 1 1)
  | '\\' :: first :: tail =>
    let escape := Escape.read .template context.strict first tail
    let next := mark.past ('\\' :: (first :: tail).take escape.width)
    let rest := (first :: tail).drop escape.width
    match escape.result with
    | .ok value => (segment? context source next rest).map (·.after (1 + escape.width) value {})
    | .error fault =>
      if context.tagged then
        (uncooked? source next).map fun lexeme => abandon (lexeme.after (1 + escape.width) [] {})
      else some (.reject (.invalidEscapeSequence fault) (1 + escape.width) 0)
  | '\r' :: '\n' :: rest =>
    (segment? context source (mark.breakLine 2) rest).map (·.after 2 ['\n'] {})
  | '\r' :: rest => (segment? context source (mark.breakLine 1) rest).map (·.after 1 ['\n'] {})
  | c :: rest => (segment? context source (mark.past [c]) rest).map (·.after 1 [c] {})
termination_by text.length
decreasing_by
  all_goals simp only [List.length_drop, List.length_cons]
  all_goals omega

theorem segment?_eq (context : Context) {source text : List Char} {mark : Mark}
    (hdrop : dropBytes? mark.offset source = some text) :
    segment? context source mark text = some (segment context text) := by
  have hescape {mark : Mark} {rest : List Char} (width : Nat)
      (hdrop : dropBytes? mark.offset source = some ('\\' :: rest)) :
      dropBytes? (mark.past ('\\' :: rest.take width)).offset source = some (rest.drop width) := by
    refine Mark.dropBytes?_past ?_
    rw [List.cons_append, List.take_append_drop, hdrop]
  fun_induction segment? context source mark text with
  | case1 => rw [segment]
  | case2 => rw [segment]
  | case3 => rw [segment]
  | case4 => rw [segment]
  | case5 mark first tail escape next rest value hresult ih =>
    rw [ih (hescape escape.width hdrop), segment.eq_5, Option.map_some]
    simp only [escape, hresult]
    rfl
  | case6 mark first tail escape next fault hresult htagged =>
    rw [uncooked?_eq (hescape escape.width hdrop), segment.eq_5, Option.map_some]
    simp only [escape, hresult]
    rw [if_pos htagged]
  | case7 mark first tail escape fault hresult htagged =>
    rw [segment.eq_5]
    simp only [escape, hresult]
    rw [if_neg htagged]
  | case8 mark rest ih =>
    rw [ih (Mark.dropBytes?_past (show _ = some (['\r', '\n'] ++ rest) from hdrop)), segment.eq_6,
      Option.map_some]
  | case9 mark rest hfeed ih =>
    rw [ih (Mark.dropBytes?_past (show _ = some (['\r'] ++ rest) from hdrop)),
      segment.eq_7 _ _ hfeed, Option.map_some]
  | case10 mark c rest hbacktick hdollar hend hescape hfeed hreturn ih =>
    rw [ih (Mark.dropBytes?_past (show _ = some ([c] ++ rest) from hdrop)),
      segment.eq_8 _ _ _ hbacktick hdollar hend hescape hfeed hreturn, Option.map_some]

end EcmaLexer.Template
