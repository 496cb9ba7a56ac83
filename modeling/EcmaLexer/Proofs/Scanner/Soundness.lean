import EcmaLexer.Proofs.Lexeme.Plain
import EcmaLexer.Proofs.Scanner.Segment
import EcmaLexer.Scanner.Session

namespace EcmaLexer

open Text (utf8Length)

/-- An offset between two characters of a text, or at one of its ends. -/
def Text.IsBoundary (text : List Char) (offset : Nat) : Prop :=
  (dropBytes? offset text).isSome = true

theorem Text.isBoundary_append (before rest : List Char) :
    IsBoundary (before ++ rest) (utf8Length before) := by
  rw [IsBoundary, dropBytes?_utf8Length_append]
  rfl

theorem Text.IsBoundary.split {text : List Char} {offset : Nat}
    (hboundary : IsBoundary text offset) :
    ∃ before rest, text = before ++ rest ∧ utf8Length before = offset := by
  obtain ⟨rest, hrest⟩ := Option.isSome_iff_exists.mp hboundary
  obtain ⟨before, htext, hlength⟩ := dropBytes?_eq_some hrest
  exact ⟨before, rest, htext, hlength⟩

theorem Text.IsBoundary.le {text : List Char} {offset : Nat} (hboundary : IsBoundary text offset) :
    offset ≤ utf8Length text := by
  obtain ⟨before, rest, rfl, rfl⟩ := hboundary.split
  rw [utf8Length_append]
  exact Nat.le_add_right _ _

namespace Scanner

/-- What holds of the state of a scanner between any two operations. The cursor, the start
    of the token and the bounds of the raw text are between characters and in order, and
    the cooked value is missing exactly if the flags say so. A failed reading keeps the
    raw bounds of the token before it, so these are not bounded by the token's start. -/
structure State.Sound (source : List Char) (state : State) : Prop where
  cursor : Text.IsBoundary source state.mark.offset
  cursor_le : state.mark.offset ≤ utf8Length source
  tokenStart : Text.IsBoundary source state.tokenStart
  tokenStart_le : state.tokenStart ≤ state.mark.offset
  rawStart : Text.IsBoundary source state.rawStart
  rawStop : Text.IsBoundary source state.rawStop
  rawStart_le : state.rawStart ≤ state.rawStop
  rawStop_le : state.rawStop ≤ state.mark.offset
  abandoned : state.value = none ↔ state.flags.containsInvalidEscape = true
  token : state.value = none →
    state.token = .templateTail ∨ state.token = .templateCont ∨ state.token = .error

theorem State.initial_sound (source : List Char) : State.initial.Sound source := by
  have hstart : Text.IsBoundary source 0 := Text.isBoundary_append [] source
  exact ⟨hstart, Nat.zero_le _, hstart, Nat.le_refl 0, hstart, hstart, Nat.le_refl 0, Nat.le_refl 0,
    by decide, nofun⟩

/-- Between two boundaries in order there is a text. -/
theorem slice?_isSome {source : List Char} {first stop : Nat}
    (hfirst : Text.IsBoundary source first) (hstop : Text.IsBoundary source stop)
    (hle : first ≤ stop) : (Text.slice? source first stop).isSome = true := by
  obtain ⟨left, right, hsplit, hleft⟩ := hfirst.split
  obtain ⟨before, rest, hsource, hbefore⟩ := hstop.split
  have hstarts : left <+: before := by
    have hboth : left ++ right = before ++ rest := hsplit.symm.trans hsource
    rcases List.append_eq_append_iff.mp hboth with ⟨middle, hmiddle, -⟩ | ⟨middle, hmiddle, -⟩
    · exact ⟨middle, hmiddle.symm⟩
    · have hlength := congrArg utf8Length hmiddle
      rw [Text.utf8Length_append] at hlength
      have hnil : middle = [] := by
        cases middle with
        | nil => rfl
        | cons c middle =>
          have hpos := c.utf8Size_pos
          rw [Text.utf8Length_cons] at hlength
          omega
      have hsame : left = before := by rw [hmiddle, hnil, List.append_nil]
      exact hsame ▸ List.prefix_rfl
  obtain ⟨middle, hmiddle⟩ := hstarts
  have hlength : utf8Length left + utf8Length middle = utf8Length before := by
    rw [← hmiddle, Text.utf8Length_append]
  rw [hsource, ← hmiddle, ← hleft, ← hbefore, ← hlength, Text.slice?_append]
  rfl

/-- What a request for a token leaves behind: a sound state over the same source, with the
    cursor where it was or further on. -/
structure Advances (scanner : Scanner) (outcome : Except ScanError Token × Scanner) : Prop where
  sameSource : outcome.2.source = scanner.source
  sound : outcome.2.state.Sound scanner.source
  forward : scanner.offset ≤ outcome.2.offset

/-- A reading that can be taken over: it fits into the text at a mark, which is not before the
    cursor but may divide a line terminator. The opening delimiter, if there is one, is the byte
    before the mark. -/
structure Takeover (scanner : Scanner) (tokenStart : Nat) (start : Text.Mark) (text : List Char)
    (lexeme : Lexeme) : Prop where
  placed : ∃ read, scanner.source = read ++ text ∧ start.offset = utf8Length read
  forward : scanner.offset ≤ start.offset
  fits : lexeme.Fits text
  marked : lexeme.Marked
  template : lexeme.value = none → ∀ token, lexeme.result = .ok token → token.isTemplate = true
  tokenStart_le : tokenStart ≤ start.offset
  opener : ∀ token, lexeme.result = .ok token → tokenStart + token.openerLength = start.offset

/-- What the raw text depends on. Unlike soundness it does not ask where the token starts, so the
    opening delimiter of a segment may be any byte. -/
structure State.Readable (source : List Char) (state : State) : Prop where
  cursor : Text.IsBoundary source state.mark.offset
  rawStart : Text.IsBoundary source state.rawStart
  rawStop : Text.IsBoundary source state.rawStop
  rawStart_le : state.rawStart ≤ state.rawStop

theorem State.Sound.readable {source : List Char} {state : State} (hsound : state.Sound source) :
    state.Readable source :=
  ⟨hsound.cursor, hsound.rawStart, hsound.rawStop, hsound.rawStart_le⟩

section Takeover

variable {scanner : Scanner} {tokenStart : Nat} {start : Text.Mark} {text : List Char}
  {lexeme : Lexeme}

theorem commit_readable (htakeover : Takeover scanner tokenStart start text lexeme)
    (hreadable : scanner.state.Readable scanner.source) (breaksLine : Bool) :
    (commit scanner tokenStart start breaksLine text lexeme).2.state.Readable scanner.source := by
  obtain ⟨read, hsource, hstart⟩ := htakeover.placed
  have hstop : (start.past (text.take lexeme.width)).offset =
      utf8Length (read ++ text.take lexeme.width) := by
    rw [Text.Mark.offset_past, hstart, Text.utf8Length_append]
  have hcursor : Text.IsBoundary scanner.source (start.past (text.take lexeme.width)).offset := by
    have hboundary :=
      Text.isBoundary_append (read ++ text.take lexeme.width) (text.drop lexeme.width)
    rwa [List.append_assoc, List.take_append_drop, ← hsource, ← hstop] at hboundary
  cases hresult : lexeme.result with
  | error misread =>
    rw [commit_error hresult]
    exact ⟨hcursor, hreadable.rawStart, hreadable.rawStop, hreadable.rawStart_le⟩
  | ok token =>
    rw [commit_ok hresult]
    obtain ⟨raw, hraw⟩ := htakeover.fits.closed token hresult
    have hclosed : (start.past (text.take lexeme.width)).offset - token.closerLength =
        utf8Length (read ++ raw) := by
      rw [hstop, ← hraw, ← List.append_assoc, Text.utf8Length_append, Template.utf8Length_closer,
        Nat.add_sub_cancel]
    have hrawStart : Text.IsBoundary scanner.source start.offset := by
      rw [hsource, hstart]
      exact Text.isBoundary_append _ _
    have hrawStop : Text.IsBoundary scanner.source (utf8Length (read ++ raw)) := by
      have hboundary := Text.isBoundary_append (read ++ raw)
        (Template.closer token ++ text.drop lexeme.width)
      rwa [List.append_assoc, ← List.append_assoc raw, hraw, List.take_append_drop,
        ← hsource] at hboundary
    refine ⟨hcursor, ?_, ?_, ?_⟩
    · simp only [htakeover.opener token hresult]
      exact hrawStart
    · simp only [hclosed]
      exact hrawStop
    · simp only [htakeover.opener token hresult, hclosed, hstart, Text.utf8Length_append]
      exact Nat.le_add_right _ _

theorem commit_advances (htakeover : Takeover scanner tokenStart start text lexeme)
    (hsound : scanner.state.Sound scanner.source)
    (htokenStart : Text.IsBoundary scanner.source tokenStart) (breaksLine : Bool) :
    Advances scanner (commit scanner tokenStart start breaksLine text lexeme) := by
  have hpast : start.offset ≤ (start.past (text.take lexeme.width)).offset := by
    rw [Text.Mark.offset_past]
    exact Nat.le_add_right _ _
  have htokenPast := Nat.le_trans htakeover.tokenStart_le hpast
  have hforward := Nat.le_trans htakeover.forward hpast
  have hafter := commit_readable htakeover hsound.readable breaksLine
  cases hresult : lexeme.result with
  | error misread =>
    rw [commit_error hresult] at hafter ⊢
    obtain ⟨hcursor, hrawStart, hrawStop, hrawStart_le⟩ := hafter
    have hrawStop_le : scanner.state.rawStop ≤ (start.past (text.take lexeme.width)).offset :=
      Nat.le_trans hsound.rawStop_le hforward
    exact ⟨rfl, ⟨hcursor, hcursor.le, htokenStart, htokenPast, hrawStart, hrawStop, hrawStart_le,
      hrawStop_le, htakeover.marked, fun _ => .inr (.inr rfl)⟩, hforward⟩
  | ok token =>
    rw [commit_ok hresult] at hafter ⊢
    obtain ⟨hcursor, hrawStart, hrawStop, hrawStart_le⟩ := hafter
    refine ⟨rfl, ⟨hcursor, hcursor.le, htokenStart, htokenPast, hrawStart, hrawStop, hrawStart_le,
      Nat.sub_le _ _, htakeover.marked, fun hvalue => ?_⟩, hforward⟩
    have htoken := htakeover.template hvalue token hresult
    cases token <;> first | exact .inl rfl | exact .inr (.inl rfl) | cases htoken

end Takeover

/-- A template segment is taken over from the text after its opening delimiter, which is any one
    byte. -/
theorem segment_takeover {scanner : Scanner} {read text : List Char}
    (hsource : scanner.source = read ++ text) {start : Text.Mark}
    (hstart : start.offset = utf8Length read) (hforward : scanner.offset ≤ start.offset)
    {tokenStart : Nat} (hopener : tokenStart + 1 = start.offset) (context : Context) :
    Takeover scanner tokenStart start text (Template.segment context text) where
  placed := ⟨read, hsource, hstart⟩
  forward := hforward
  fits := Template.segment_fits context text
  marked := Template.segment_marked context text
  template := fun _ _ => Template.segment_isTemplate
  tokenStart_le := by omega
  opener := by
    intro token hresult
    rw [Token.openerLength, if_pos (Template.segment_isTemplate hresult)]
    exact hopener

/-- The text that a scanner has not read is a part of the source, if its cursor is in between. -/
theorem State.Readable.unread {scanner : Scanner}
    (hreadable : scanner.state.Readable scanner.source) :
    ∃ read, scanner.source = read ++ scanner.unread ∧ utf8Length read = scanner.offset := by
  obtain ⟨read, rest, hsource, hlength⟩ := hreadable.cursor.split
  have hunread : scanner.unread = rest := by
    rw [Scanner.unread, offset, ← hlength]
    exact textFrom_utf8Length hsource
  exact ⟨read, by rw [hunread, hsource], hlength⟩

/-- A comment that never ends leads to the end of the source. -/
theorem past_unread {scanner : Scanner} (hreadable : scanner.state.Readable scanner.source) :
    (scanner.state.mark.past scanner.unread).offset = utf8Length scanner.source := by
  obtain ⟨read, hsource, hread⟩ := hreadable.unread
  rw [Text.Mark.offset_past, hsource, Text.utf8Length_append, hread]
  rfl

theorem isBoundary_utf8Length (text : List Char) : Text.IsBoundary text (utf8Length text) := by
  have hboundary := Text.isBoundary_append text []
  rwa [List.append_nil] at hboundary

/-- The next token, whatever it is, is taken over. -/
theorem scan_takeover {scanner : Scanner} (hreadable : scanner.state.Readable scanner.source)
    (hunclosed : scanner.gapAhead.unclosed = false) (context : Context) :
    Text.IsBoundary scanner.source scanner.tokenMark.offset ∧
      ∃ start text lexeme, Takeover scanner scanner.tokenMark.offset start text lexeme ∧
        scanner.scan context = commit scanner scanner.tokenMark.offset start
          scanner.gapAhead.breaksLine text lexeme := by
  obtain ⟨read, hsource, hread⟩ := hreadable.unread
  have hforward : scanner.offset ≤ scanner.tokenMark.offset := by
    rw [tokenMark_offset]
    exact Nat.le_add_right _ _
  have htext : scanner.source = (read ++ scanner.unread.take scanner.gapAhead.width) ++
      scanner.unread.drop scanner.gapAhead.width := by
    rw [List.append_assoc, List.take_append_drop]
    exact hsource
  have hstart : scanner.tokenMark.offset =
      utf8Length (read ++ scanner.unread.take scanner.gapAhead.width) := by
    rw [tokenMark_offset, Text.utf8Length_append, hread]
  have hboundary : Text.IsBoundary scanner.source scanner.tokenMark.offset := by
    rw [hstart, htext]
    exact Text.isBoundary_append _ _
  refine ⟨hboundary, ?_⟩
  cases hdrop : scanner.unread.drop scanner.gapAhead.width with
  | nil =>
    rw [hdrop] at htext
    refine ⟨scanner.tokenMark, [], _, ?_, scan_nil hunclosed hdrop context⟩
    refine ⟨⟨_, htext, hstart⟩, hforward, .of_inline (.accept_zero [] rfl), ⟨nofun, nofun⟩, nofun,
      Nat.le_refl _, ?_⟩
    intro token hresult
    cases hresult
    rfl
  | cons c rest =>
    rw [hdrop] at htext
    by_cases hbacktick : c = '\x60'
    · subst hbacktick
      have hread : Lexeme.read (scanner.contextFor context) '\x60' rest =
          (Template.segment (scanner.contextFor context) rest).after 1 [] {} := rfl
      have hopened : scanner.source =
          (read ++ scanner.unread.take scanner.gapAhead.width ++ ['\x60']) ++ rest := by
        rw [htext, List.append_assoc _ ['\x60'], List.singleton_append]
      refine ⟨scanner.tokenMark.advance 1, rest, _,
        segment_takeover hopened ?_ ?_ rfl (scanner.contextFor context), ?_⟩
      · rw [Text.utf8Length_append, ← hstart]
        rfl
      · exact Nat.le_succ_of_le hforward
      · rw [scan_cons hunclosed hdrop, hread, commit_backtick]
    · obtain ⟨hfits, hplain⟩ := Lexeme.read_fits hbacktick (scanner.contextFor context) rest
      obtain ⟨hsome, hmarked⟩ := Lexeme.read_value hbacktick (scanner.contextFor context) rest
      refine ⟨scanner.tokenMark, c :: rest, _, ?_, scan_cons hunclosed hdrop context⟩
      refine ⟨⟨_, htext, hstart⟩, hforward, hfits, hmarked, ?_, Nat.le_refl _, ?_⟩
      · intro hvalue
        rw [hvalue] at hsome
        cases hsome
      · intro token hresult
        rw [Token.openerLength, hplain token hresult]
        rfl

theorem scan_advances {scanner : Scanner} (hsound : scanner.state.Sound scanner.source)
    (context : Context) : Advances scanner (scanner.scan context) := by
  cases hunclosed : scanner.gapAhead.unclosed with
  | true =>
    rw [scan_unclosed hunclosed]
    have hend := past_unread hsound.readable
    have hpast : scanner.offset ≤ (scanner.state.mark.past scanner.unread).offset := by
      rw [hend]
      exact hsound.cursor_le
    have hcursor :
        Text.IsBoundary scanner.source (scanner.state.mark.past scanner.unread).offset := by
      rw [hend]
      exact isBoundary_utf8Length _
    exact ⟨rfl, ⟨hcursor, hcursor.le, hsound.tokenStart, Nat.le_trans hsound.tokenStart_le hpast,
      hsound.rawStart, hsound.rawStop, hsound.rawStart_le, Nat.le_trans hsound.rawStop_le hpast,
      ⟨nofun, nofun⟩, nofun⟩, hpast⟩
  | false =>
    obtain ⟨hboundary, start, text, lexeme, htakeover, hscan⟩ :=
      scan_takeover hsound.readable hunclosed context
    rw [hscan]
    exact commit_advances htakeover hsound hboundary _

/-- Whether a text begins with a character of one byte. -/
def opensNarrow (text : List Char) : Bool := text.head?.any (·.utf8Size == 1)

/-- The first segment of a template is taken over after any character of one byte. -/
theorem scanTemplate_takeover {scanner : Scanner}
    (hreadable : scanner.state.Readable scanner.source)
    (hnarrow : opensNarrow scanner.unread = true) (context : Context) :
    Takeover scanner scanner.offset (scanner.state.mark.advance 1)
      (scanner.textFrom (scanner.state.mark.advance 1).offset)
      (Template.segment context (scanner.textFrom (scanner.state.mark.advance 1).offset)) := by
  obtain ⟨read, hsource, hread⟩ := hreadable.unread
  obtain ⟨c, text, hunread, hc⟩ := Text.exists_cons_of_head?_any hnarrow
  have hwidth : c.utf8Size = 1 := by simpa using hc
  have hopened : scanner.source = (read ++ [c]) ++ text := by
    rw [hsource, hunread, List.append_assoc, List.singleton_append]
  have hstart : (scanner.state.mark.advance 1).offset = utf8Length (read ++ [c]) := by
    rw [Text.utf8Length_append, hread, Text.utf8Length_cons, hwidth]
    rfl
  have htext : scanner.textFrom (scanner.state.mark.advance 1).offset = text := by
    rw [hstart]
    exact textFrom_utf8Length hopened
  rw [htext]
  exact segment_takeover hopened hstart (Nat.le_succ _) rfl context

theorem scanTemplate_advances {scanner : Scanner} (hsound : scanner.state.Sound scanner.source)
    (hnarrow : opensNarrow scanner.unread = true) (context : Context) :
    Advances scanner (scanner.scanTemplate context) :=
  commit_advances (scanTemplate_takeover hsound.readable hnarrow _) hsound hsound.cursor false

/-- A segment is resumed after any byte, also one that is a part of a character. -/
theorem resumeTemplate_takeover {scanner : Scanner}
    (hreadable : scanner.state.Readable scanner.source)
    (hbegun : ¬(scanner.atEnd || scanner.offset == 0) = true) (context : Context) :
    Takeover scanner (scanner.offset - 1) scanner.state.mark scanner.unread
      (Template.segment context scanner.unread) := by
  obtain ⟨read, hsource, hread⟩ := hreadable.unread
  have hpositive : scanner.offset ≠ 0 := by
    intro hzero
    simp [hzero] at hbegun
  exact segment_takeover hsource hread.symm (Nat.le_refl _)
    (Nat.sub_add_cancel (Nat.pos_of_ne_zero hpositive)) context

/-- A segment may be resumed after any character of one byte. -/
theorem resumeTemplate_advances {scanner : Scanner} (hsound : scanner.state.Sound scanner.source)
    (hnarrow : (scanner.atEnd || scanner.offset == 0) = true ∨
      opensNarrow (scanner.textFrom (scanner.offset - 1)) = true) (context : Context) :
    Advances scanner (scanner.resumeTemplate context) := by
  fun_cases resumeTemplate scanner context with
  | case1 hend => exact ⟨rfl, { hsound with token := fun _ => .inr (.inr rfl) }, Nat.le_refl _⟩
  | case2 hend =>
    have htokenStart : Text.IsBoundary scanner.source (scanner.offset - 1) := by
      obtain ⟨c, text, htext, -⟩ := Text.exists_cons_of_head?_any (hnarrow.resolve_left hend)
      rw [textFrom] at htext
      unfold Text.IsBoundary
      cases hdrop : Text.dropBytes? (scanner.offset - 1) scanner.source with
      | none => simp [hdrop] at htext
      | some rest => rfl
    exact commit_advances (resumeTemplate_takeover hsound.readable hend _) hsound htokenStart false

/-- Whether a command is given where the scanner can carry it out: the delimiter that a
    template begins with, whatever it is, has to be one byte long. -/
def Command.isTimely (command : Command) (scanner : Scanner) : Bool :=
  match command with
  | .scanTemplate _ => opensNarrow scanner.unread
  | .resumeTemplate _ =>
    scanner.atEnd || scanner.offset == 0 || opensNarrow (scanner.textFrom (scanner.offset - 1))
  | _ => true

/-- Whether a command asks for a token. -/
def Command.isScan : Command → Bool
  | .scan _ | .scanTemplate _ | .resumeTemplate _ => true
  | _ => false

/-- Among the commands carried out one after another from a session on, inside of
    look-aheads and of trials too, is the given one, carried out on the given session. -/
inductive Performed : List Command → Session → Command → Session → Prop where
  | first (command : Command) (commands : List Command) (session : Session) :
      Performed (command :: commands) session command session
  | lookAhead {inner : List Command} {session before : Session} {command : Command}
      (hinner : Performed inner session command before) (commands : List Command) :
      Performed (.lookAhead inner :: commands) session command before
  | tryScan {inner : List Command} {session before : Session} {command : Command}
      (hinner : Performed inner session command before) (keep : Bool) (commands : List Command) :
      Performed (.tryScan inner keep :: commands) session command before
  | later {first command : Command} {commands : List Command} {session before : Session}
      (hlater : Performed commands (first.run session).2 command before) :
      Performed (first :: commands) session command before

/-- A session on a source whose state and saved states all have a property. -/
structure Session.Keeps (source : List Char) (holds : State → Prop) (session : Session) :
    Prop where
  sameSource : session.scanner.source = source
  state : holds session.scanner.state
  slots : ∀ state ∈ session.slots, holds state

/-- Every request for a token that is made on the way keeps the property. -/
def KeptByRequests (source : List Char) (holds : State → Prop) (commands : List Command)
    (session : Session) : Prop :=
  ∀ command before, Performed commands session command before → command.isScan = true →
    before.Keeps source holds → (command.run before).2.Keeps source holds

/-- What a single command of a list carries out, the list carries out too. -/
theorem Performed.of_command {commands : List Command} {session before inside : Session}
    {command other : Command} (hperformed : Performed commands session command before)
    (hother : Performed [command] before other inside) :
    Performed commands session other inside := by
  induction hperformed with
  | first command commands session =>
    cases hother with
    | first => exact .first _ _ _
    | lookAhead hinner => exact .lookAhead hinner _
    | tryScan hinner => exact .tryScan hinner _ _
    | later hlater => cases hlater
  | lookAhead hinner commands ih => exact .lookAhead (ih hother) commands
  | tryScan hinner keep commands ih => exact .tryScan (ih hother) keep commands
  | later hlater ih => exact .later (ih hother)

section Keeps

variable {source : List Char} {holds : State → Prop}

theorem Session.Keeps.raw? {session : Session} (hkeeps : session.Keeps source holds)
    (hreadable : ∀ state, holds state → state.Readable source) :
    session.scanner.raw?.isSome = true := by
  have hstate := hreadable _ hkeeps.state
  rw [Scanner.raw?, hkeeps.sameSource]
  exact slice?_isSome hstate.rawStart hstate.rawStop hstate.rawStart_le

theorem KeptByRequests.command {commands : List Command} {session before : Session}
    {command : Command} (hrequests : KeptByRequests source holds commands session)
    (hperformed : Performed commands session command before) :
    KeptByRequests source holds [command] before :=
  fun other inside hother => hrequests other inside (hperformed.of_command hother)

mutual

/-- A property of states that every request keeps, and that lets the raw text be read, is kept by
    every command: the others only bring back states there were. -/
theorem Command.run_keeps (hreadable : ∀ state, holds state → state.Readable source) :
    ∀ (command : Command) (session : Session), session.Keeps source holds →
      KeptByRequests source holds [command] session → (command.run session).2.Keeps source holds
  | .scan _, _, hkeeps, hrequests => hrequests _ _ (.first _ _ _) rfl hkeeps
  | .scanTemplate _, _, hkeeps, hrequests => hrequests _ _ (.first _ _ _) rfl hkeeps
  | .resumeTemplate _, _, hkeeps, hrequests => hrequests _ _ (.first _ _ _) rfl hkeeps
  | .save, session, hkeeps, _ => by
    rw [Command.run]
    refine ⟨hkeeps.sameSource, hkeeps.state, fun state hmem => ?_⟩
    rcases List.mem_append.mp hmem with hmem | hmem
    · exact hkeeps.slots state hmem
    · rw [List.mem_singleton.mp hmem]
      exact hkeeps.state
  | .restore slot, session, hkeeps, _ => by
    rw [Command.run]
    refine ⟨hkeeps.sameSource, ?_, hkeeps.slots⟩
    cases hslot : session.slots[slot]? with
    | none => exact hkeeps.state
    | some state => exact hkeeps.slots state (List.mem_of_getElem? hslot)
  | .lookAhead commands, session, hkeeps, hrequests => by
    have hahead := runAll_keeps hreadable commands session hkeeps
      fun command before hperformed => hrequests command before (.lookAhead hperformed _)
    rw [Command.run]
    exact ⟨hahead.sameSource, hkeeps.state, hahead.slots⟩
  | .tryScan commands keep, session, hkeeps, hrequests => by
    have hahead := runAll_keeps hreadable commands session hkeeps
      fun command before hperformed => hrequests command before (.tryScan hperformed _ _)
    rw [Command.run]
    cases keep with
    | true => exact hahead
    | false => exact ⟨hahead.sameSource, hkeeps.state, hahead.slots⟩
  | .current, session, hkeeps, _ => by
    rw [Command.run]
    exact hkeeps
  | .diagnostics, session, hkeeps, _ => by
    rw [Command.run]
    exact hkeeps

theorem runAll_keeps (hreadable : ∀ state, holds state → state.Readable source) :
    ∀ (commands : List Command) (session : Session), session.Keeps source holds →
      KeptByRequests source holds commands session →
      (runAll commands session).2.Keeps source holds
  | [], session, hkeeps, _ => by
    rw [runAll]
    exact hkeeps
  | command :: commands, session, hkeeps, hrequests => by
    have hafter :=
      Command.run_keeps hreadable command session hkeeps (hrequests.command (.first _ _ _))
    have hend := runAll_keeps hreadable commands _ hafter
      fun other before hperformed => hrequests other before (.later hperformed)
    have hsome : (command.run session).2.scanner.snapshot?.isSome = true := by
      rw [snapshot?, Option.isSome_map]
      exact hafter.raw? hreadable
    obtain ⟨snapshot, hsnapshot⟩ := Option.isSome_iff_exists.mp hsome
    rw [runAll]
    simp only [hsnapshot]
    exact hend

end

/-- Whatever a command is carried out on has the property, however deep in a list it stands. -/
theorem Performed.keeps (hreadable : ∀ state, holds state → state.Readable source)
    {commands : List Command} {session before : Session} {command : Command}
    (hperformed : Performed commands session command before)
    (hkeeps : session.Keeps source holds)
    (hrequests : KeptByRequests source holds commands session) : before.Keeps source holds := by
  induction hperformed with
  | first command commands session => exact hkeeps
  | lookAhead hinner commands ih =>
    exact ih hkeeps
      fun command before hperformed => hrequests command before (.lookAhead hperformed _)
  | tryScan hinner keep commands ih =>
    exact ih hkeeps
      fun command before hperformed => hrequests command before (.tryScan hperformed _ _)
  | later hlater ih =>
    have hafter := Command.run_keeps hreadable _ _ hkeeps (hrequests.command (.first _ _ _))
    exact ih hafter fun command before hperformed => hrequests command before (.later hperformed)

end Keeps

/-- Every command that is carried out on the way is carried out in time. -/
def AllTimely (commands : List Command) (session : Session) : Prop :=
  ∀ command before, Performed commands session command before →
    command.isTimely before.scanner = true

/-- A session on a source whose state and saved states are all sound. -/
abbrev Session.Sound (source : List Char) (session : Session) : Prop :=
  session.Keeps source (State.Sound source)

theorem Session.Sound.snapshot? {source : List Char} {session : Session}
    (hsound : session.Sound source) : session.scanner.snapshot?.isSome = true := by
  rw [Scanner.snapshot?, Option.isSome_map]
  exact hsound.raw? fun _ hstate => hstate.readable

theorem AllTimely.command {commands : List Command} {session before : Session} {command : Command}
    (htimely : AllTimely commands session)
    (hperformed : Performed commands session command before) : AllTimely [command] before :=
  fun other inside hother => htimely other inside (hperformed.of_command hother)

/-- A request for a token in time keeps a session sound and does not move the cursor back. -/
theorem Command.request_sound {source : List Char} {session : Session}
    (hsound : session.Sound source) {command : Command} (hscan : command.isScan = true)
    (htimely : command.isTimely session.scanner = true) :
    (command.run session).2.Sound source ∧
      session.scanner.offset ≤ (command.run session).2.scanner.offset := by
  obtain ⟨rfl, hstate, hslots⟩ := hsound
  have hact (action : Scanner → Except ScanError Token × Scanner)
      (hadvances : Advances session.scanner (action session.scanner)) :
      (session.act action).2.Sound session.scanner.source ∧
        session.scanner.offset ≤ (session.act action).2.scanner.offset :=
    ⟨⟨hadvances.sameSource, hadvances.sound, hslots⟩, hadvances.forward⟩
  cases command with
  | scan context =>
    rw [Command.run]
    exact hact (·.scan context) (scan_advances hstate context)
  | scanTemplate context =>
    rw [Command.run]
    exact hact (·.scanTemplate context) (scanTemplate_advances hstate htimely context)
  | resumeTemplate context =>
    rw [Command.run]
    exact hact (·.resumeTemplate context)
      (resumeTemplate_advances hstate (Bool.or_eq_true_iff.mp htimely) context)
  | _ => cases hscan

theorem AllTimely.keptByRequests {commands : List Command} {session : Session}
    (htimely : AllTimely commands session) (source : List Char) :
    KeptByRequests source (State.Sound source) commands session :=
  fun command before hperformed hscan hsound =>
    (Command.request_sound hsound hscan (htimely command before hperformed)).1

theorem Command.run_sound {source : List Char} (command : Command) (session : Session)
    (hsound : session.Sound source) (htimely : AllTimely [command] session) :
    (command.run session).2.Sound source ∧
      (command.isScan = true → session.scanner.offset ≤ (command.run session).2.scanner.offset) :=
  ⟨Command.run_keeps (fun _ hstate => hstate.readable) command session hsound
      (htimely.keptByRequests source),
    fun hscan => (Command.request_sound hsound hscan (htimely _ _ (.first _ _ _))).2⟩

theorem Performed.sound {source : List Char} {commands : List Command} {session before : Session}
    {command : Command} (hperformed : Performed commands session command before)
    (hsound : session.Sound source) (htimely : AllTimely commands session) :
    before.Sound source :=
  hperformed.keeps (fun _ hstate => hstate.readable) hsound (htimely.keptByRequests source)

/-- Over any text, with any options and whatever was done before, faults included: after
    every command the state is sound and the raw text can be read, and a request for a
    token never moves the cursor back. A template may be asked for in front of any
    character of one byte and resumed after any. -/
theorem performed_keeps_sound (source : List Char) (options : Options) (commands : List Command)
    (htimely : AllTimely commands (.ofScanner (.ofSource source options))) (command : Command)
    (before : Session)
    (hperformed : Performed commands (.ofScanner (.ofSource source options)) command before) :
    (command.run before).2.scanner.state.Sound source ∧
      (command.run before).2.scanner.raw?.isSome = true ∧
      (command.isScan = true →
        before.scanner.offset ≤ (command.run before).2.scanner.offset) := by
  have hstart : (Session.ofScanner (.ofSource source options)).Sound source :=
    ⟨rfl, State.initial_sound source, fun _ hmem => absurd hmem List.not_mem_nil⟩
  obtain ⟨hafter, hforward⟩ := Command.run_sound command before (hperformed.sound hstart htimely)
    (htimely.command hperformed)
  have hraw := hafter.snapshot?
  rw [snapshot?, Option.isSome_map] at hraw
  exact ⟨hafter.state, hraw, hforward⟩

/-- A segment is resumed where nothing was read yet, then a template is asked for between
    a carriage return and its line feed, and the next token after its malformed escape. -/
theorem performed_keeps_sound_malformed :
    AllTimely [.resumeTemplate {}, .lookAhead [.scanTemplate { tagged := true }, .scan {}]]
        (.ofScanner (.ofSource "\r\n\\u".toList {})) ∧
      ∃ before,
        Performed [.resumeTemplate {}, .lookAhead [.scanTemplate { tagged := true }, .scan {}]]
          (.ofScanner (.ofSource "\r\n\\u".toList {})) (.scan {}) before ∧
        ((Command.scan {}).run before).2.scanner.state.Sound "\r\n\\u".toList ∧
        before.scanner.offset ≤ ((Command.scan {}).run before).2.scanner.offset := by
  have htimely :
      AllTimely [.resumeTemplate {}, .lookAhead [.scanTemplate { tagged := true }, .scan {}]]
        (.ofScanner (.ofSource "\r\n\\u".toList {})) := by
    intro command before hperformed
    cases hperformed with
    | first => rfl
    | later hlater =>
      cases hlater with
      | first => rfl
      | lookAhead hinner =>
        cases hinner with
        | first => rfl
        | later hlater =>
          cases hlater with
          | first => rfl
          | later hnone => cases hnone
      | later hnone => cases hnone
  refine ⟨htimely, _, .later (.lookAhead (.later (.first _ _ _)) _), ?_⟩
  obtain ⟨hsound, -, hforward⟩ := performed_keeps_sound "\r\n\\u".toList {} _ htimely (.scan {}) _
    (.later (.lookAhead (.later (.first _ _ _)) _))
  exact ⟨hsound, hforward rfl⟩

end Scanner

end EcmaLexer
