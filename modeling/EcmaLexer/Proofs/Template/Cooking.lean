import EcmaLexer.Proofs.Template.Locality
import EcmaLexer.Proofs.Template.Walk

namespace EcmaLexer.Template

theorem decode_length {text value after : List Char} (hdecode : decode text = .ok (value, after)) :
    after.length ≤ text.length := by
  cases text with
  | nil =>
    cases hdecode
    exact Nat.le_refl _
  | cons first tail =>
    have hagrees := read_agrees false first tail
    unfold Agrees at hagrees
    rw [hdecode] at hagrees
    cases hresult : (Escape.read .template false first tail).result with
    | error fault => simp [hresult, Except.map] at hagrees
    | ok decoded =>
      simp only [hresult, Except.map, Except.ok.injEq, Prod.mk.injEq] at hagrees
      rw [hagrees.2, List.length_drop]
      exact Nat.sub_le _ _

set_option linter.unusedVariables false in
/-- The cooked value of a raw text that begins at a byte offset, or the first
    malformed escape with the offset of its backslash. Ordinary characters stand for
    themselves, and a carriage return, alone or before a line feed, for a line
    feed. -/
def cook (offset : Nat) (raw : List Char) : Except (Nat × EscapeFault) (List Char) :=
  match raw with
  | [] => .ok []
  | '\\' :: rest =>
    match hdecode : decode rest with
    | .error fault => .error (offset, fault)
    | .ok (value, after) =>
      (cook (offset + (Text.utf8Length ('\\' :: rest) - Text.utf8Length after)) after).map (value ++ ·)
  | '\r' :: '\n' :: rest => (cook (offset + 2) rest).map ('\n' :: ·)
  | '\r' :: rest => (cook (offset + 1) rest).map ('\n' :: ·)
  | c :: rest => (cook (offset + c.utf8Size) rest).map (c :: ·)
termination_by raw.length
decreasing_by
  · have hlength := decode_length hdecode
    simp only [List.length_cons]
    omega
  all_goals
    simp only [List.length_cons]
    omega

theorem cook_escape {offset : Nat} {rest value after : List Char}
    (hdecode : decode rest = .ok (value, after)) :
    cook offset ('\\' :: rest) =
      (cook (offset + (Text.utf8Length ('\\' :: rest) - Text.utf8Length after)) after).map (value ++ ·) := by
  rw [cook]
  split
  · next hfault => simp [hdecode] at hfault
  · next heq =>
    simp only [hdecode, Except.ok.injEq, Prod.mk.injEq] at heq
    obtain ⟨rfl, rfl⟩ := heq
    rfl

theorem cook_malformed {offset : Nat} {rest : List Char} {fault : EscapeFault}
    (hdecode : decode rest = .error fault) :
    cook offset ('\\' :: rest) = .error (offset, fault) := by
  rw [cook]
  split
  · next hfault => simp_all
  · next heq => simp [hdecode] at heq

/-- The search stops at the end of the text or before a delimiter. -/
theorem walk_split (text : List Char) :
    ∃ closing, text = (walk text).1 ++ closing ∧ Stops closing := by
  fun_induction walk text with
  | case1 => exact ⟨[], rfl, by simp [Stops]⟩
  | case2 rest => exact ⟨'\x60' :: rest, rfl, by simp [Stops]⟩
  | case3 rest => exact ⟨'$' :: '\x7b' :: rest, rfl, by simp [Stops]⟩
  | case4 c rest ih =>
    obtain ⟨closing, hrest, hstops⟩ := ih
    exact ⟨closing, by rw [List.cons_append, List.cons_append, ← hrest], hstops⟩
  | case5 c rest _ _ _ ih =>
    obtain ⟨closing, hrest, hstops⟩ := ih
    exact ⟨closing, by rw [List.cons_append, ← hrest], hstops⟩

theorem walk_backslash (c : Char) (rest : List Char) :
    (walk ('\\' :: c :: rest)).1 = '\\' :: c :: (walk rest).1 := by
  rw [walk]

theorem backslash_length {first : Char} {tail : List Char} {reading : Escape.Reading (List Char)}
    (hdivides : Escape.Divides (first :: tail) reading) :
    ('\\' :: (first :: tail).take reading.width).length = 1 + reading.width := by
  rw [List.length_cons, List.length_take, Nat.min_eq_left hdivides.width_le, Nat.add_comm]

/-- The text that the search passes after a backslash is what the decoder consumes
    and what the search passes from there. -/
theorem walk_reading {first : Char} {tail : List Char} {reading : Escape.Reading (List Char)}
    (hdivides : Escape.Divides (first :: tail) reading) :
    first :: (walk tail).1 =
      (first :: tail).take reading.width ++ (walk ((first :: tail).drop reading.width)).1 := by
  have hescape := passesTo_escape first tail
  have hpasses := passesTo_reading hdivides
  unfold PassesTo at hescape hpasses
  rw [List.cons_append, List.take_append_drop] at hpasses
  have hboth := congrArg Prod.fst (hescape.symm.trans hpasses)
  simpa using hboth

/-- The scanner decodes an escape of a segment as the grammar does when it is given
    only the text up to the delimiter. -/
theorem decode_walk (strict : Bool) (first : Char) (tail : List Char) :
    decode (first :: (walk tail).1) =
      (Escape.read .template strict first tail).result.map fun value =>
        (value, (walk ((first :: tail).drop (Escape.read .template strict first tail).width)).1) := by
  have hagrees := read_agrees strict first tail
  have hbody := walk_reading (Escape.read_divides .template strict first tail)
  unfold Agrees at hagrees
  generalize Escape.read .template strict first tail = reading at *
  obtain ⟨closing, hdropped, hstops⟩ := walk_split ((first :: tail).drop reading.width)
  have htail : first :: tail = first :: (walk tail).1 ++ closing := by
    rw [hbody, List.append_assoc, ← hdropped, List.take_append_drop]
  have happend := decode_append hstops first (walk tail).1
  rw [← htail, hagrees] at happend
  cases hresult : reading.result with
  | error fault =>
    cases hdecode : decode (first :: (walk tail).1) with
    | error other =>
      simp only [hresult, hdecode, Except.map, Except.error.injEq] at happend
      rw [happend]
      rfl
    | ok found => simp [hresult, hdecode, Except.map] at happend
  | ok value =>
    cases hdecode : decode (first :: (walk tail).1) with
    | error other => simp [hresult, hdecode, Except.map] at happend
    | ok found =>
      simp only [hresult, hdecode, Except.map, continued, Except.ok.injEq, Prod.mk.injEq] at happend
      obtain ⟨hvalue, hafter⟩ := happend
      rw [hdropped] at hafter
      have hrest := List.append_cancel_right hafter
      rw [hvalue, Except.map, hrest]

/-- What becomes of a segment: it has the cooked value, or none when the template is
    tagged and an escape malformed, or else the first malformed escape is its fault.
    In the last case the scanner has consumed `body` after the backslash. -/
inductive Outcome (context : Context) (offset : Nat) (text : List Char) (lexeme : Lexeme) :
    Except (Nat × EscapeFault) (List Char) → Prop where
  | cooked (value : List Char) (hcloses : Closes text lexeme) (hvalue : lexeme.value = some value)
      (hflags : lexeme.flags = {}) : Outcome context offset text lexeme (.ok value)
  | abandoned (position : Nat) (fault : EscapeFault) (htagged : context.tagged = true)
      (hcloses : Closes text lexeme) (hvalue : lexeme.value = none)
      (hflags : lexeme.flags = { containsInvalidEscape := true }) :
      Outcome context offset text lexeme (.error (position, fault))
  | refused (fault : EscapeFault) (before body rest : List Char) (htagged : context.tagged = false)
      (htext : text = before ++ '\\' :: body ++ rest) (hwidth : lexeme.width = before.length + 1 + body.length)
      (hunbroken : ∀ c ∈ body, Text.isLineTerminator c = false)
      (hresult : lexeme.result = .error ⟨.invalidEscapeSequence fault, before.length⟩) :
      Outcome context offset text lexeme (.error (offset + Text.utf8Length before, fault))

theorem Outcome.after {context : Context} {offset : Nat} {passed rest : List Char} {lexeme : Lexeme}
    {outcome : Except (Nat × EscapeFault) (List Char)}
    (hrest : Outcome context (offset + Text.utf8Length passed) rest lexeme outcome)
    (hpasses : PassesTo passed rest) (value : List Char) :
    Outcome context offset (passed ++ rest) (lexeme.after passed.length value {}) (outcome.map (value ++ ·)) := by
  cases hrest with
  | cooked tail hcloses hvalue hflags =>
    exact .cooked _ (hcloses.after hpasses value {}) (by simp [Lexeme.after, hvalue])
      (by simp [Lexeme.after, hflags, Flags.union])
  | abandoned position fault htagged hcloses hvalue hflags =>
    exact .abandoned position fault htagged (hcloses.after hpasses value {}) (by simp [Lexeme.after, hvalue])
      (by simp [Lexeme.after, hflags, Flags.union])
  | refused fault before body rest htagged htext hwidth hunbroken hresult =>
    rw [Except.map, Nat.add_assoc, ← Text.utf8Length_append]
    refine .refused fault (passed ++ before) body rest htagged ?_ ?_ hunbroken ?_
    · simp [htext]
    · simp [Lexeme.after, hwidth, Nat.add_assoc]
    · simp [Lexeme.after, hresult]

theorem uncooked_flags (text : List Char) : (uncooked text).flags = {} := by
  fun_induction uncooked text with
  | case1 => rfl
  | case2 => rfl
  | case3 => rfl
  | case4 => rfl
  | case5 c rest ih => simp [Lexeme.after, ih, Flags.union]
  | case6 c rest _ _ _ _ ih => simp [Lexeme.after, ih, Flags.union]

theorem cook_ordinary {offset : Nat} {c : Char} {rest : List Char} (hbackslash : c ≠ '\\')
    (hreturn : c ≠ '\r') :
    cook offset (c :: rest) = (cook (offset + c.utf8Size) rest).map (c :: ·) := by
  rw [cook.eq_5]
  · exact fun h => absurd h hbackslash
  · exact fun _ h => absurd h hreturn
  · exact fun h => absurd h hreturn

/-- The cooked value of a segment is a function of its raw text alone, and so is
    the fault of an untagged one. -/
theorem segment_outcome (context : Context) (offset : Nat) (text : List Char) :
    Outcome context offset text (segment context text) (cook offset (walk text).1) := by
  fun_induction segment context text generalizing offset with
  | case1 =>
    rw [walk, cook]
    exact .cooked [] ⟨rfl, rfl⟩ rfl rfl
  | case2 rest =>
    rw [walk, cook]
    exact .cooked [] ⟨rfl, rfl⟩ rfl rfl
  | case3 rest =>
    rw [walk, cook]
    exact .cooked [] ⟨rfl, rfl⟩ rfl rfl
  | case4 =>
    have hcook : cook offset ['\\'] = .ok [] := by
      rw [cook_escape rfl, cook]
      rfl
    rw [show (walk ['\\']).1 = ['\\'] from rfl]
    rw [hcook]
    exact .cooked [] ⟨rfl, rfl⟩ rfl rfl
  | case5 first tail escape rest value hresult ih =>
    have hdivides := Escape.read_divides .template context.strict first tail
    have hdecode := decode_walk context.strict first tail
    rw [hresult, Except.map] at hdecode
    have hbytes : Text.utf8Length ('\\' :: first :: (walk tail).1) - Text.utf8Length (walk rest).1 =
        Text.utf8Length ('\\' :: (first :: tail).take escape.width) := by
      rw [walk_reading hdivides, ← List.cons_append, Text.utf8Length_append, Nat.add_sub_cancel]
    have houtcome := (ih (offset + Text.utf8Length ('\\' :: (first :: tail).take escape.width))).after
      (passesTo_reading hdivides) value
    rw [backslash_length hdivides, List.cons_append, List.take_append_drop] at houtcome
    rw [walk_backslash, cook_escape hdecode, hbytes]
    exact houtcome
  | case6 first tail escape rest fault hresult htagged =>
    have hdivides := Escape.read_divides .template context.strict first tail
    have hdecode := decode_walk context.strict first tail
    rw [hresult, Except.map] at hdecode
    have hcloses := (uncooked_closes rest).after (passesTo_reading hdivides) [] {}
    rw [backslash_length hdivides, List.cons_append, List.take_append_drop] at hcloses
    rw [walk_backslash, cook_malformed hdecode]
    exact .abandoned offset fault htagged hcloses rfl (by simp [abandon, Lexeme.after, uncooked_flags, Flags.union])
  | case7 first tail escape fault hresult htagged =>
    have hdivides := Escape.read_divides .template context.strict first tail
    have hdecode := decode_walk context.strict first tail
    rw [hresult, Except.map] at hdecode
    have hlength : ((first :: tail).take escape.width).length = escape.width := by
      rw [List.length_take, Nat.min_eq_left hdivides.width_le]
    rw [walk_backslash, cook_malformed hdecode]
    refine .refused fault [] ((first :: tail).take escape.width) ((first :: tail).drop escape.width)
      (by simpa using htagged) ?_ ?_ (hdivides.unbroken fault hresult) rfl
    · rw [List.nil_append, List.cons_append, List.take_append_drop]
    · rw [hlength]
      simp [Lexeme.reject]
  | case8 rest ih =>
    have hpasses : PassesTo ['\r', '\n'] rest := passesTo_of_inert (by simp [Inert]) rest
    have hwalk : (walk ('\r' :: '\n' :: rest)).1 = '\r' :: '\n' :: (walk rest).1 :=
      congrArg Prod.fst hpasses
    rw [hwalk, cook]
    exact (ih (offset + 2)).after hpasses ['\n']
  | case9 rest hpair ih =>
    have hpasses : PassesTo ['\r'] rest := passesTo_of_inert (by simp [Inert]) rest
    have hwalk : (walk ('\r' :: rest)).1 = '\r' :: (walk rest).1 := congrArg Prod.fst hpasses
    rw [hwalk, cook.eq_4]
    · exact (ih (offset + 1)).after hpasses ['\n']
    · intro tail hfeed
      obtain ⟨closing, hrest, -⟩ := walk_split rest
      rw [hfeed, List.cons_append] at hrest
      exact hpair _ hrest
  | case10 c rest hbacktick hdollar hend hescape _ hreturn ih =>
    have hpasses : PassesTo [c] rest := passesTo_ordinary hbacktick hdollar hend hescape
    have hwalk : (walk (c :: rest)).1 = c :: (walk rest).1 := congrArg Prod.fst hpasses
    have hbackslash : c ≠ '\\' := by
      intro hc
      cases rest with
      | nil => exact hend hc rfl
      | cons next tail => exact hescape next tail hc rfl
    rw [hwalk, cook_ordinary hbackslash hreturn]
    exact (ih (offset + c.utf8Size)).after hpasses [c]

/-- A segment is read up to its delimiter, or up to a malformed escape and then not
    past the line of its backslash. -/
theorem segment_closes_or_refuses (context : Context) (text : List Char) :
    Closes text (segment context text) ∨
      ∃ fault before body rest,
        text = before ++ '\\' :: body ++ rest ∧
          (segment context text).width = before.length + 1 + body.length ∧
          (∀ c ∈ body, Text.isLineTerminator c = false) ∧
          (segment context text).result = .error ⟨.invalidEscapeSequence fault, before.length⟩ := by
  have houtcome := segment_outcome context 0 text
  generalize cook 0 (walk text).1 = cooked at houtcome
  cases houtcome with
  | cooked value hcloses => exact .inl hcloses
  | abandoned position fault htagged hcloses => exact .inl hcloses
  | refused fault before body rest htagged htext hwidth hunbroken hresult =>
    exact .inr ⟨fault, before, body, rest, htext, hwidth, hunbroken, hresult⟩

/-- A segment that is read to its end is read as a template token. -/
theorem segment_isTemplate {context : Context} {text : List Char} {token : Token}
    (hresult : (segment context text).result = .ok token) : token.isTemplate = true := by
  obtain hcloses | ⟨fault, before, body, rest, -, -, -, hrefused⟩ := segment_closes_or_refuses context text
  · obtain ⟨rfl | rfl, -⟩ := walk_delimiter (hcloses.stop hresult)
    · rfl
    · rfl
  · cases hresult.symm.trans hrefused

theorem read_template_strict (strict : Bool) (first : Char) (rest : List Char) :
    Escape.read .template strict first rest = Escape.read .template false first rest := by
  simp [Escape.read, Escape.digit]

/-- Strict mode does not change how a segment is read. -/
theorem segment_strict (context : Context) (text : List Char) :
    segment context text = segment { tagged := context.tagged } text := by
  fun_induction segment context text with
  | case1 => rw [segment]
  | case2 rest => rw [segment]
  | case3 rest => rw [segment]
  | case4 => rw [segment]
  | case5 first tail escape rest value hresult ih =>
    have hread : (Escape.read .template context.strict first tail).result = .ok value := hresult
    rw [segment, ← read_template_strict context.strict, hread, ih]
  | case6 first tail escape rest fault hresult htagged =>
    have hread : (Escape.read .template context.strict first tail).result = .error fault := hresult
    rw [segment, ← read_template_strict context.strict, hread]
    simp only [htagged, if_true]
    rfl
  | case7 first tail escape fault hresult htagged =>
    have hread : (Escape.read .template context.strict first tail).result = .error fault := hresult
    rw [segment, ← read_template_strict context.strict, hread]
    simp only [htagged]
    rfl
  | case8 rest ih => rw [segment, ih]
  | case9 rest hpair ih => rw [segment.eq_7 _ _ hpair, ih]
  | case10 c rest hbacktick hdollar hend hescape hpair hreturn ih =>
    rw [segment.eq_8 _ _ _ hbacktick hdollar hend hescape hpair hreturn, ih]

end EcmaLexer.Template
