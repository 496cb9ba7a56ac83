import EcmaLexer.Proofs.Lexeme.Settling

namespace EcmaLexer

namespace Escape

theorem digit_width_pos {site : Site} {strict : Bool} {first : Char} {rest value : List Char}
    (hresult : (digit site strict first rest).result = .ok value) :
    0 < (digit site strict first rest).width := by
  have hdigits (hoctal : Character.isOctalDigit first = true) :
      0 < (octalDigits first rest).length := by
    unfold octalDigits
    split
    all_goals
      rw [List.take_succ_cons, List.takeWhile_cons, if_pos hoctal]
      exact Nat.succ_pos _
  revert hresult
  fun_cases digit site strict first rest with
  | case1 | case6 => exact fun _ => Nat.one_pos
  | case2 | case3 | case5 => rintro ⟨⟩
  | case4 hzero hoctal => exact fun _ => hdigits hoctal

/-- A well-formed escape takes up a character at least. -/
theorem read_width_pos {site : Site} {strict : Bool} {first : Char} {rest value : List Char}
    (hresult : (read site strict first rest).result = .ok value) :
    0 < (read site strict first rest).width := by
  revert hresult
  fun_cases read site strict first rest with
  | case1 | case2 | case3 | case5 | case6 | case8 => exact fun _ => Nat.succ_pos _
  | case4 => rintro ⟨⟩
  | case7 => exact digit_width_pos

/-- What comes after a stop does not matter to an escape before it. -/
theorem read_stop {stop : Char} (hstop : stop ∈ Text.stops) (site : Site) (strict : Bool)
    (first : Char) (left rest other : List Char) :
    read site strict first (left ++ stop :: rest) =
      read site strict first (left ++ stop :: other) := by
  by_cases hreturn : first = '\r'
  · have hhead : (left ++ stop :: rest).head? = (left ++ stop :: other).head? := by
      cases left <;> rfl
    subst hreturn
    unfold read
    rw [hhead]
    rfl
  · rw [read_append (.cons hstop rest) site strict hreturn,
      read_append (.cons hstop other) site strict hreturn]

end Escape

namespace StringLiteral

/-- A string literal is read alike whatever comes after its closing quote. -/
theorem body_settled {strict : Bool} {quote : Char} (hquote : quote ∈ Text.stops)
    {text : List Char} {token : Token} (hresult : (body strict quote text).result = .ok token) :
    ∃ inner rest, text = inner ++ quote :: rest ∧
      (body strict quote text).width = inner.length + 1 ∧
      ∀ other, body strict quote (inner ++ quote :: other) = body strict quote text := by
  have hother {c : Char} (hc : c ≠ quote) (hbackslash : c ≠ '\\')
      (hbreak : ¬(c = '\n' || c = '\r') = true) (rest : List Char) :
      body strict quote (c :: rest) = (body strict quote rest).after 1 [c] {} := by
    rw [body.eq_def]
    simp only [hc, hbackslash, hbreak, if_false]
    rfl
  revert hresult
  fun_induction body strict quote text with
  | case1 => rintro ⟨⟩
  | case2 rest =>
    intro _
    refine ⟨[], rest, rfl, rfl, fun other => ?_⟩
    rw [List.nil_append, body.eq_def]
    simp only [if_true]
  | case3 hc => rintro ⟨⟩
  | case4 first tail escape value hescape hc ih =>
    intro hresult
    obtain ⟨inner, rest, hrest, hwidth, hinner⟩ := ih (Lexeme.result_of_after_ok hresult)
    have hle : escape.width ≤ (first :: tail).length :=
      (Escape.read_divides .stringLiteral strict first tail).width_le
    obtain ⟨width, hescapeWidth⟩ := Nat.exists_eq_add_of_lt (Escape.read_width_pos hescape)
    have hsame : escape.width = width + 1 := by rw [hescapeWidth, Nat.zero_add]
    have hlength : (tail.take width).length = width := by
      rw [hsame, List.length_cons] at hle
      exact List.length_take_of_le (Nat.le_of_succ_le_succ hle)
    rw [hsame, List.drop_succ_cons] at hrest
    have htail : tail = tail.take width ++ inner ++ quote :: rest := by
      rw [List.append_assoc, ← hrest, List.take_append_drop]
    refine ⟨'\\' :: first :: (tail.take width ++ inner), rest, ?_, ?_, fun other => ?_⟩
    · rw [List.cons_append, List.cons_append, ← htail]
    · rw [Lexeme.after, hwidth]
      simp only [List.length_cons, List.length_append, hlength, hsame]
      omega
    · have hread : Escape.read .stringLiteral strict first
          (tail.take width ++ inner ++ quote :: other) = escape := by
        rw [Escape.read_stop hquote _ _ _ _ other rest, ← htail]
      have hdrop : (first :: (tail.take width ++ inner ++ quote :: other)).drop escape.width =
          inner ++ quote :: other := by
        rw [hsame, List.drop_succ_cons, List.append_assoc, List.drop_left' hlength]
      rw [List.cons_append, List.cons_append, body.eq_def]
      simp only [hc, if_false, if_true, hread, hescape, hdrop, hinner]
  | case5 first tail escape fault hescape hc => rintro ⟨⟩
  | case6 c rest hc hbackslash hbreak => rintro ⟨⟩
  | case7 c rest hc hbackslash hbreak ih =>
    intro hresult
    obtain ⟨inner, after, hrest, hwidth, hinner⟩ := ih (Lexeme.result_of_after_ok hresult)
    refine ⟨c :: inner, after, by rw [hrest, List.cons_append], ?_, fun other => ?_⟩
    · rw [Lexeme.after, hwidth, List.length_cons, Nat.add_comm]
    · rw [List.cons_append, hother hc hbackslash hbreak, hinner]

end StringLiteral

namespace Template

/-- The search stops at the same delimiter whatever comes after it. -/
theorem walk_settled {text : List Char} {token : Token} (hstop : (walk text).2 = some token)
    (other : List Char) : walk ((walk text).1 ++ closer token ++ other) = walk text := by
  fun_induction walk text with
  | case1 => cases hstop
  | case2 rest =>
    cases hstop
    rfl
  | case3 rest =>
    cases hstop
    rfl
  | case4 c rest ih =>
    have hrest := ih hstop
    simp only [List.cons_append, walk, hrest]
  | case5 c rest hbacktick hdollar hescape ih =>
    have hrest := ih hstop
    obtain ⟨htoken, after, hsplit⟩ := walk_delimiter hstop
    have hsame (passed : List Char) : (passed ++ closer token ++ other).head? =
        (passed ++ (closer token ++ after)).head? := by
      rcases htoken with rfl | rfl <;> cases passed <;> rfl
    have hhead := hsame (walk rest).1
    rw [← hsplit] at hhead
    have hpasses : PassesTo [c] ((walk rest).1 ++ closer token ++ other) := by
      apply passesTo_ordinary hbacktick
      · intro tail hc hbrace
        rw [hbrace, List.head?_cons, eq_comm] at hhead
        obtain ⟨tail, hrest⟩ := List.head?_eq_some_iff.mp hhead
        exact hdollar tail hc hrest
      · intro _ hnil
        rcases htoken with rfl | rfl <;> simp [closer] at hnil
      · intro next tail hc hnext
        rw [hnext, List.head?_cons, eq_comm] at hhead
        obtain ⟨tail, hrest⟩ := List.head?_eq_some_iff.mp hhead
        exact hescape next tail hc hrest
    have hwalk : walk ([c] ++ ((walk rest).1 ++ closer token ++ other)) =
        ([c] ++ (walk ((walk rest).1 ++ closer token ++ other)).1,
          (walk ((walk rest).1 ++ closer token ++ other)).2) := hpasses
    rw [hrest] at hwalk
    exact hwalk

/-- A segment is read alike whatever comes after its closing delimiter. -/
theorem segment_settled {context : Context} {text : List Char} {token : Token}
    (hresult : (segment context text).result = .ok token) (other : List Char) :
    segment context (text.take (segment context text).width ++ other) = segment context text := by
  obtain hcloses | ⟨fault, before, body, rest, -, -, -, hrefused⟩ :=
    segment_closes_or_refuses context text
  case inr => cases hresult.symm.trans hrefused
  have hstop := hcloses.stop hresult
  have hwidth : (segment context text).width = (walk text).1.length + token.closerLength := by
    unfold Closes at hcloses
    rw [hstop] at hcloses
    exact hcloses.2
  rw [hwidth, take_delimiter hstop]
  have hwalk := walk_settled hstop other
  have hgiven := segment_outcome context 0 text
  have hother := segment_outcome context 0 ((walk text).1 ++ closer token ++ other)
  rw [hwalk] at hother
  have hext {lexeme : Lexeme} (hcloses : Closes ((walk text).1 ++ closer token ++ other) lexeme)
      (hvalue : lexeme.value = (segment context text).value)
      (hflags : lexeme.flags = (segment context text).flags) : lexeme = segment context text := by
    unfold Closes at hcloses
    rw [hwalk, hstop] at hcloses
    calc lexeme = ⟨lexeme.width, lexeme.value, lexeme.flags, lexeme.result⟩ := rfl
      _ = ⟨(segment context text).width, (segment context text).value,
          (segment context text).flags, (segment context text).result⟩ := by
        rw [hcloses.2, hvalue, hflags, hcloses.1, hwidth, hresult]
      _ = segment context text := rfl
  generalize cook 0 (walk text).1 = cooked at hgiven hother
  cases hgiven with
  | cooked value _ hvalue hflags =>
    cases hother with
    | cooked _ hcloses hsame hplain =>
      exact hext hcloses (hsame.trans hvalue.symm) (hplain.trans hflags.symm)
  | abandoned position fault htagged _ hvalue hflags =>
    cases hother with
    | abandoned _ _ _ hcloses hsame hplain =>
      exact hext hcloses (hsame.trans hvalue.symm) (hplain.trans hflags.symm)
    | refused _ _ _ _ huntagged => cases htagged.symm.trans huntagged
  | refused fault before body rest htagged htext hwidth hunbroken hrefused =>
    cases hresult.symm.trans hrefused

end Template

namespace Lexeme

/-- A string or a template segment is read alike from its own text, whatever comes after it. -/
theorem read_closed {context : Context} {c : Char} {rest : List Char} {token : Token}
    (hresult : (read context c rest).result = .ok token)
    (hclosed : c = '\x60' ∨ StartClass.ofChar? c = some .quote) :
    ∃ width, (read context c rest).width = width + 1 ∧
      ∀ other, read context c (rest.take width ++ other) = read context c rest := by
  rcases hclosed with hbacktick | hclass
  · have hread (rest : List Char) :
        read context c rest = (Template.segment context rest).after 1 [] {} := by
      rw [hbacktick]
      rfl
    rw [hread] at hresult
    refine ⟨(Template.segment context rest).width, by rw [hread, after, Nat.add_comm],
      fun other => ?_⟩
    rw [hread, hread, Template.segment_settled (result_of_after_ok hresult)]
  · have hstop : c ∈ Text.stops := by
      have hascii := ofAscii_of_class hclass
      unfold StartClass.ofAscii at hascii
      repeat' split at hascii
      all_goals first | decide | cases hascii
    have hread (rest : List Char) :
        read context c rest = (StringLiteral.body context.strict c rest).after 1 [] {} := by
      rw [read, hclass]
      rfl
    rw [hread] at hresult
    obtain ⟨inner, after, hrest, hwidth, hinner⟩ :=
      StringLiteral.body_settled hstop (result_of_after_ok hresult)
    refine ⟨inner.length + 1, by rw [hread, Lexeme.after, hwidth, Nat.add_comm], fun other => ?_⟩
    have htake : rest.take (inner.length + 1) = inner ++ [c] := by
      rw [hrest, List.take_length_add_append]
      rfl
    rw [hread, hread, htake, List.append_assoc, List.singleton_append, hinner]

/-- Every token is read alike from its own text, whatever it is that a stop begins after it. -/
theorem read_settled {context : Context} {c : Char} {rest right : List Char} {token : Token}
    (hresult : (read context c rest).result = .ok token) (hstopped : Text.Stopped right) :
    ∃ width, (read context c rest).width = width + 1 ∧
      read context c (rest.take width ++ right) = read context c rest := by
  by_cases hclosed : c = '\x60' ∨ StartClass.ofChar? c = some .quote
  · obtain ⟨width, hwidth, hsame⟩ := read_closed hresult hclosed
    exact ⟨width, hwidth, hsame right⟩
  · obtain ⟨hbacktick, hclass⟩ := not_or.mp hclosed
    obtain ⟨width, hwidth, hsame⟩ := read_take hresult hclass hbacktick
    refine ⟨width, hwidth, ?_⟩
    rw [read_append hstopped hclass hbacktick, hsame]

/-- A token is read alike whatever it is that a stop begins after the text it stands in. -/
theorem read_joined {context : Context} {c : Char} {rest right : List Char} {token : Token}
    (hresult : (read context c rest).result = .ok token) (hstopped : Text.Stopped right) :
    read context c (rest ++ right) = read context c rest := by
  by_cases hclosed : c = '\x60' ∨ StartClass.ofChar? c = some .quote
  · obtain ⟨width, -, hsame⟩ := read_closed hresult hclosed
    rw [← List.take_append_drop width rest, List.append_assoc, hsame, hsame]
  · obtain ⟨hbacktick, hclass⟩ := not_or.mp hclosed
    exact read_append hstopped hclass hbacktick context rest

end Lexeme

end EcmaLexer
