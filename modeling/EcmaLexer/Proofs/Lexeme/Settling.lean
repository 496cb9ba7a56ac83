import EcmaLexer.Proofs.Lexeme.Plain
import EcmaLexer.Proofs.Lexeme.Stopping

namespace EcmaLexer

/-- A run at the head of a text is also at the head of any part of it that the run ends in. -/
theorem Text.takeWhile_take {inRun : Char → Bool} {text : List Char} {count : Nat}
    (hcount : (text.takeWhile inRun).length ≤ count) :
    (text.take count).takeWhile inRun = text.takeWhile inRun := by
  induction text generalizing count with
  | nil => rw [List.take_nil]
  | cons c text ih =>
    rw [List.takeWhile_cons] at hcount ⊢
    split
    · next hc =>
      rw [if_pos hc, List.length_cons] at hcount
      obtain ⟨count, rfl⟩ := Nat.exists_eq_add_of_lt hcount
      rw [List.take_succ_cons, List.takeWhile_cons, if_pos hc, ih (Nat.le_add_right _ _)]
    · next hc =>
      cases count with
      | zero => rfl
      | succ count => rw [List.take_succ_cons, List.takeWhile_cons, if_neg hc]

theorem Text.head?_drop_take {text : List Char} {passed count : Nat} (hlt : passed < count) :
    ((text.take count).drop passed).head? = (text.drop passed).head? := by
  rw [List.drop_take, List.head?_take, if_neg (by omega)]

namespace Escape

theorem hexDigits?_take {count limit : Nat} (hcount : count ≤ limit) (value : Nat)
    (text : List Char) :
    hexDigits? count value (text.take limit) = hexDigits? count value text := by
  have htake : (text.take limit).take count = text.take count := by
    rw [List.take_take, Nat.min_eq_left hcount]
  have hlength : count ≤ (text.take limit).length ↔ count ≤ text.length := by
    rw [List.length_take]
    omega
  rw [hexDigits?_eq, hexDigits?_eq, htake]
  simp only [hlength]

theorem lowSurrogate?_take_of_some {text : List Char} {low : Nat}
    (hlow : lowSurrogate? text = some low) {count : Nat} (hcount : 6 ≤ count) :
    lowSurrogate? (text.take count) = some low := by
  obtain ⟨rest, rfl, hdigits, hrange⟩ := lowSurrogate?_eq_some hlow
  obtain ⟨count, rfl⟩ := Nat.exists_eq_add_of_le' hcount
  have htake : ('\\' :: 'u' :: rest).take (count + 6) = '\\' :: 'u' :: rest.take (count + 4) := rfl
  rw [htake, lowSurrogate?, hexDigits?_take (Nat.le_add_left 4 count), ← hlow, lowSurrogate?]

theorem lowSurrogate?_take {text : List Char} (hnone : lowSurrogate? text = none) (count : Nat) :
    lowSurrogate? (text.take count) = none := by
  cases hlow : lowSurrogate? (text.take count) with
  | none => rfl
  | some low =>
    obtain ⟨rest, htake, hdigits, hrange⟩ := lowSurrogate?_eq_some hlow
    have htext := List.take_append_drop count text
    rw [htake] at htext
    have hmore : hexDigits? 4 0 (rest ++ text.drop count) = some low := by
      have hlength := (hexDigits?_eq_some hdigits).1
      rw [← hdigits, ← hexDigits?_take (Nat.le_refl 4) 0 (rest ++ _),
        List.take_append_of_le_length hlength, hexDigits?_take (Nat.le_refl 4)]
    rw [← htext, List.cons_append, List.cons_append, lowSurrogate?, hmore, Option.filter_some,
      if_pos hrange] at hnone
    cases hnone

theorem fourDigits_settled {text : List Char} {c : Char}
    (hresult : (fourDigits text).result = .ok c) {count : Nat}
    (hcount : (fourDigits text).width ≤ count) :
    fourDigits (text.take count) = fourDigits text := by
  cases hunit : hexDigits? 4 0 text with
  | none =>
    rw [fourDigits, hunit] at hresult
    cases hresult
  | some unit =>
    cases hlow : if isHighSurrogate unit then lowSurrogate? (text.drop 4) else none with
    | none =>
      have hfour : fourDigits text = ⟨4, .ok (scalar unit)⟩ := by
        simp only [fourDigits, hunit, hlow]
      rw [hfour] at hcount ⊢
      have hnone : (if isHighSurrogate unit then lowSurrogate? ((text.take count).drop 4)
          else none) = none := by
        rw [List.drop_take]
        split at hlow
        · next hhigh => rw [if_pos hhigh, lowSurrogate?_take hlow]
        · next hhigh => rw [if_neg hhigh]
      simp only [fourDigits, hexDigits?_take hcount, hunit, hnone]
    | some low =>
      have hten : 10 ≤ count := by
        simpa only [fourDigits, hunit, hlow] using hcount
      have hsome : (if isHighSurrogate unit then lowSurrogate? ((text.take count).drop 4)
          else none) = some low := by
        split at hlow
        · next hhigh =>
          rw [if_pos hhigh, List.drop_take, lowSurrogate?_take_of_some hlow (by omega)]
        · cases hlow
      have hdigits := hexDigits?_take (Nat.le_trans (by decide : 4 ≤ 10) hten) 0 text
      simp only [fourDigits, hdigits, hunit, hsome, hlow]

theorem bracedDigits_settled {text : List Char} {c : Char}
    (hresult : (bracedDigits text).result = .ok c) {count : Nat}
    (hcount : (bracedDigits text).width ≤ count) :
    bracedDigits (text.take count) = bracedDigits text := by
  revert hresult hcount
  fun_cases bracedDigits text with
  | case1 digits hdigits => rintro ⟨⟩
  | case2 digits hdigits hlarge => rintro ⟨⟩
  | case3 digits hdigits hsmall =>
    intro hresult hcount
    have hlt : digits.length < count := hcount
    have htake : (text.take count).takeWhile Character.isHexDigit = digits :=
      Text.takeWhile_take (Nat.le_of_lt hlt)
    simp only [bracedDigits, htake, Text.head?_drop_take hlt]
    rw [if_neg hdigits, if_neg hsmall]

/-- A unicode escape does not depend on what comes after it. -/
theorem unicode_settled {text : List Char} {c : Char} (hresult : (unicode text).result = .ok c)
    {count : Nat} (hcount : (unicode text).width ≤ count) :
    unicode (text.take count) = unicode text := by
  revert hresult hcount
  fun_cases unicode text with
  | case1 text braced =>
    intro hresult hcount
    obtain ⟨count, rfl⟩ := Nat.exists_eq_add_of_lt hcount
    rw [List.take_succ_cons, unicode, bracedDigits_settled hresult (Nat.le_add_right _ _)]
  | case2 text hbrace =>
    intro hresult hcount
    rw [unicode.eq_2, fourDigits_settled hresult hcount]
    intro rest htake
    have htext := List.take_append_drop count text
    rw [htake] at htext
    exact hbrace _ htext.symm

end Escape

namespace Lexeme

/-- Where a token is read, its own text alone gives the same token. -/
def Settled (reader : List Char → Lexeme) (text : List Char) : Prop :=
  ∀ token, (reader text).result = .ok token → reader (text.take (reader text).width) = reader text

/-- A reader that passes the first part of a text and goes on with another reader. -/
theorem Settled.after {reader next : List Char → Lexeme} (passed value : List Char)
    (flags : Flags) {rest : List Char} (hreader : ∀ count, reader (passed ++ rest.take count) =
      (next (rest.take count)).after passed.length value flags)
    (hnext : Settled next rest) : Settled reader (passed ++ rest) := by
  have hwhole : reader (passed ++ rest) = (next rest).after passed.length value flags := by
    have hlength := hreader rest.length
    rwa [List.take_length] at hlength
  intro token hresult
  rw [hwhole] at hresult
  have hwidth : (reader (passed ++ rest)).width = passed.length + (next rest).width := by
    rw [hwhole, Lexeme.after]
  rw [hwidth, List.take_length_add_append, hreader, hnext token (result_of_after_ok hresult),
    hwhole]

/-- A reader that is the same as another one on every part of the text that it begins with. -/
theorem Settled.of_eq {reader other : List Char → Lexeme} {text : List Char}
    (hreader : ∀ count, reader (text.take count) = other (text.take count))
    (hother : Settled other text) : Settled reader text := by
  have hwhole : reader text = other text := by
    have hlength := hreader text.length
    rwa [List.take_length] at hlength
  intro token hresult
  rw [hwhole] at hresult ⊢
  rw [hreader, hother token hresult]

end Lexeme

theorem Text.head?_of_take {text : List Char} {count : Nat} {c : Char}
    (hhead : (text.take count).head? = some c) : text.head? = some c := by
  rw [List.head?_take] at hhead
  split at hhead
  · cases hhead
  · exact hhead

theorem Text.any_of_take {text : List Char} {count : Nat} {inClass : Char → Bool}
    (hnone : text.head?.any inClass = false) : (text.take count).head?.any inClass = false := by
  rw [List.head?_take]
  split
  · rfl
  · exact hnone

namespace Number

open Lexeme (Settled result_of_after_ok)

theorem digits_settled {radix : Radix} {started : Bool} {text : List Char}
    (hplaced : (digits radix started text).misplaced = none) {count : Nat}
    (hcount : (digits radix started text).width ≤ count) :
    digits radix started (text.take count) = digits radix started text := by
  revert hplaced hcount
  fun_induction digits radix started text generalizing count with
  | case1 started =>
    rw [List.take_nil, digits]
    exact fun _ _ => rfl
  | case2 started rest hstarted => rintro ⟨⟩
  | case3 started rest hstarted hdouble => rintro ⟨⟩
  | case4 started rest hstarted hdouble hdigit ih =>
    intro hplaced hcount
    have hpos : 0 < (digits radix true rest).width := by
      obtain ⟨d, tail, rfl, hd⟩ := Text.exists_cons_of_head?_any hdigit
      exact digits_width_pos hd true tail
    obtain ⟨more, rfl⟩ := Nat.exists_eq_add_of_lt hcount
    have hhead : (rest.take ((digits radix true rest).width + more)).head? = rest.head? := by
      rw [List.head?_take, if_neg (by omega)]
    have hrest := ih (Option.map_eq_none_iff.mp hplaced) (Nat.le_add_right _ more)
    rw [DigitRun.after, List.take_succ_cons, digits, if_pos rfl, if_neg hstarted, hhead,
      if_neg hdouble, if_pos hdigit, hrest]
    rfl
  | case5 started rest hstarted hdouble hdigit => rintro ⟨⟩
  | case6 started c rest hunderscore hdigit ih =>
    intro hplaced hcount
    obtain ⟨more, rfl⟩ := Nat.exists_eq_add_of_lt hcount
    have hrest := ih (Option.map_eq_none_iff.mp hplaced) (Nat.le_add_right _ more)
    rw [DigitRun.after, List.take_succ_cons, digits, if_neg hunderscore, if_pos hdigit, hrest]
    rfl
  | case7 started c rest hunderscore hdigit =>
    intro _ _
    cases count with
    | zero => rfl
    | succ count => rw [List.take_succ_cons, digits, if_neg hunderscore, if_neg hdigit]

theorem finish_settled (token : Token) (text : List Char) : Settled (finish token) text := by
  unfold Settled
  fun_cases finish token text with
  | case1 => exact fun _ _ => rfl
  | case2 rest => rintro _ ⟨⟩
  | case3 c rest => rintro _ ⟨⟩
  | case4 c rest => exact fun _ _ => rfl

theorem suffix_settled (integer : Bool) (text : List Char) : Settled (suffix integer) text := by
  by_cases hbig : (integer && text.head? = some 'n') = true
  · obtain ⟨hinteger, hhead⟩ := Bool.and_eq_true_iff.mp hbig
    obtain ⟨rest, rfl⟩ := List.head?_eq_some_iff.mp (of_decide_eq_true hhead)
    rw [hinteger]
    exact .after ['n'] [] {} (fun count => rfl) (finish_settled .bigIntLiteral rest)
  · refine .of_eq (fun count => ?_) (finish_settled .numericLiteral text)
    rw [suffix, if_neg]
    simp only [Bool.and_eq_true, decide_eq_true_eq, not_and] at hbig ⊢
    exact fun hinteger hhead => hbig hinteger (Text.head?_of_take hhead)

theorem withDigits_settled {next : List Char → Lexeme} (hnext : ∀ rest, Settled next rest)
    (radix : Radix) (required : Bool) (text : List Char) :
    Settled (withDigits radix required · next) text := by
  simp only [Settled]
  fun_cases withDigits radix required text next with
  | case1 run flags before hmisplaced => rintro _ ⟨⟩
  | case2 run hmisplaced hmissing => rintro _ ⟨⟩
  | case3 run flags hmisplaced hmissing =>
    intro token hresult
    have hrest := hnext _ token (result_of_after_ok hresult)
    have hdigits : digits radix false
        (text.take (run.width + (next (text.drop run.width)).width)) = run :=
      digits_settled hmisplaced (Nat.le_add_right _ _)
    have hdrop : (text.take (run.width + (next (text.drop run.width)).width)).drop run.width =
        (text.drop run.width).take (next (text.drop run.width)).width := by
      rw [List.drop_take, Nat.add_sub_cancel_left]
    simp only [Lexeme.after, withDigits, hdigits, hmisplaced, hmissing, hdrop, hrest]
    rfl

theorem exponent_settled (integer : Bool) (text : List Char) : Settled (exponent integer) text := by
  have hdigits := withDigits_settled (suffix_settled false) .decimal true
  cases hmark : text.head?.any isExponentMark with
  | false =>
    refine .of_eq (fun count => ?_) (suffix_settled integer text)
    rw [exponent, Text.any_of_take hmark]
    rfl
  | true =>
    obtain ⟨c, rest, rfl, hc⟩ := Text.exists_cons_of_head?_any hmark
    have hhead (rest : List Char) : (c :: rest).head?.any isExponentMark = true := hc
    cases hsign : rest.head?.any isSign with
    | false =>
      refine .after [c] [] { scientific := true } (fun count => ?_) (hdigits rest)
      simp only [exponent, List.singleton_append, hhead, if_true, List.drop_one, List.tail_cons,
        Text.any_of_take hsign]
      rfl
    | true =>
      obtain ⟨sign, tail, rfl, hs⟩ := Text.exists_cons_of_head?_any hsign
      refine .after [c, sign] [] { scientific := true } (fun count => ?_) (hdigits tail)
      have hsigned : (sign :: tail.take count).head?.any isSign = true := hs
      simp only [exponent, List.cons_append, List.nil_append, hhead, if_true, List.drop_one,
        List.tail_cons, hsigned]
      rfl

theorem afterInteger_settled (text : List Char) : Settled afterInteger text := by
  by_cases hpoint : text.head? = some '.'
  · obtain ⟨rest, rfl⟩ := List.head?_eq_some_iff.mp hpoint
    exact .after ['.'] [] {} (fun count => rfl)
      (withDigits_settled (exponent_settled false) .decimal false rest)
  · refine .of_eq (fun count => ?_) (exponent_settled true text)
    rw [afterInteger, if_neg fun hhead => hpoint (Text.head?_of_take hhead)]

theorem isDigit_of_digitClass {c : Char} (hclass : DigitClass.ofChar? c = some .digit) :
    c.isDigit = true := by
  unfold DigitClass.ofChar? DigitClass.ofAscii at hclass
  repeat' split at hclass
  all_goals first | assumption | cases hclass

theorem prefixed_settled {strict : Bool} {letter : Char} {radix : Radix} {flags : Flags}
    (hprefixed : ∀ rest,
      leadingZero strict (letter :: rest) = prefixed radix flags (letter :: rest))
    (rest : List Char) : Settled (shape strict) ('0' :: letter :: rest) := by
  refine .after ['0', letter] [] flags (fun count => ?_)
    (withDigits_settled (suffix_settled true) radix true rest)
  exact hprefixed (rest.take count)

/-- The digits of a legacy number end where they do in the whole text. -/
theorem legacy_settled {strict : Bool} {c : Char} (hclass : DigitClass.ofChar? c = some .digit)
    (rest : List Char) : Settled (shape strict) ('0' :: c :: rest) := by
  have hdigit := isDigit_of_digitClass hclass
  have hrest : rest.takeWhile Char.isDigit ++ rest.dropWhile Char.isDigit = rest :=
    List.takeWhile_append_dropWhile
  have hwhole : (c :: rest).takeWhile Char.isDigit = c :: rest.takeWhile Char.isDigit := by
    rw [List.takeWhile_cons, if_pos hdigit]
  generalize rest.takeWhile Char.isDigit = run at *
  generalize rest.dropWhile Char.isDigit = after at *
  subst hrest
  have hrun (count : Nat) : (c :: run ++ after.take count).takeWhile Char.isDigit = c :: run := by
    rw [← List.take_length_add_append, List.cons_append, Text.takeWhile_take, hwhole]
    rw [hwhole]
    exact Nat.le_add_right _ _
  have hshape (count : Nat) : shape strict ('0' :: c :: run ++ after.take count) =
      legacy strict (c :: run ++ after.take count) := by
    have hclass : (c :: run ++ after.take count).head?.bind DigitClass.ofChar? = some .digit :=
      hclass
    rw [List.cons_append, shape, leadingZero, hclass]
  cases strict with
  | true =>
    intro token hresult
    have hwhole := hshape after.length
    rw [List.take_length] at hwhole
    rw [← List.cons_append, ← List.cons_append, hwhole] at hresult
    cases hresult
  | false =>
    cases hoctal : (c :: run).all Character.isOctalDigit with
    | true =>
      refine .after ('0' :: c :: run) [] { octal := true } (fun count => ?_)
        (finish_settled .numericLiteral after)
      rw [hshape, legacy, List.length_cons, Nat.add_comm]
      simp only [hrun, hoctal, List.drop_left]
      rfl
    | false =>
      refine .after ('0' :: c :: run) [] {} (fun count => ?_) (afterInteger_settled after)
      rw [hshape, legacy, List.length_cons, Nat.add_comm]
      simp only [hrun, hoctal, List.drop_left]
      rfl

/-- A zero alone, or before a fraction or an exponent. -/
theorem zero_settled {strict : Bool} {text : List Char}
    (hother : ∀ found, text.head?.bind DigitClass.ofChar? = some found → found = .other) :
    Settled (shape strict) ('0' :: text) := by
  refine .after ['0'] [] {} (fun count => ?_) (afterInteger_settled text)
  have hcount : ∀ found, (text.take count).head?.bind DigitClass.ofChar? = some found →
      found = .other := by
    intro found hfound
    obtain ⟨c, hhead, hclass⟩ := Option.bind_eq_some_iff.mp hfound
    apply hother
    rw [Text.head?_of_take hhead, Option.bind_some, hclass]
  rw [List.singleton_append, shape, leadingZero]
  cases hclass : (text.take count).head?.bind DigitClass.ofChar? with
  | none => rfl
  | some found =>
    rw [hcount found hclass]
    rfl

theorem shape_settled (strict : Bool) (text : List Char) : Settled (shape strict) text := by
  have hhead (count : Nat) {c : Char} {rest : List Char} (htake : text.take count = c :: rest) :
      ∃ rest, text = c :: rest := by
    have hsome : (text.take count).head? = some c := by rw [htake, List.head?_cons]
    exact List.head?_eq_some_iff.mp (Text.head?_of_take hsome)
  fun_cases shape strict text with
  | case1 rest =>
    cases rest with
    | nil => exact zero_settled (by simp)
    | cons c rest =>
      cases hclass : DigitClass.ofChar? c with
      | none => exact zero_settled (by simp [hclass])
      | some found =>
        have hzero (rest : List Char) :
            (c :: rest).head?.bind DigitClass.ofChar? = some found := hclass
        cases found with
        | other => exact zero_settled (by simp [hclass])
        | digit => exact legacy_settled hclass rest
        | binary | octal | hex =>
          apply prefixed_settled
          intro rest
          rw [leadingZero, hzero]
        | underscore =>
          intro token hresult
          rw [shape, leadingZero, hzero] at hresult
          cases hresult
  | case2 rest =>
    refine .after ['.'] [] {} (fun count => ?_)
      (withDigits_settled (exponent_settled false) .decimal false rest)
    rfl
  | case3 _ hzero hpoint =>
    refine .of_eq (fun count => ?_) (withDigits_settled afterInteger_settled .decimal false text)
    rw [shape.eq_3]
    · intro rest htake
      obtain ⟨rest, htext⟩ := hhead count htake
      exact hzero rest htext
    · intro rest htake
      obtain ⟨rest, htext⟩ := hhead count htake
      exact hpoint rest htext

/-- A number that begins with its point has a digit after it. -/
theorem read_point_width {c : Char} (hc : c.isDigit = true) (strict : Bool) (rest : List Char) :
    1 < (read strict ('.' :: c :: rest)).width := by
  have hpos := withDigits_width_pos (isDigit_decimal hc) false rest (exponent false)
  have hshape : 1 < (shape strict ('.' :: c :: rest)).width := Nat.lt_add_of_pos_right hpos
  fun_cases read strict ('.' :: c :: rest) with
  | case1 | case2 => exact hshape

theorem read_settled (strict : Bool) (text : List Char) : Settled (read strict) text := by
  unfold Settled
  fun_cases read strict text with
  | case1 lexeme token hresult =>
    intro found hfound
    have hshape : shape strict (text.take lexeme.width) = lexeme :=
      shape_settled strict text token hresult
    simp only [read, hshape, hresult, List.take_take, Nat.min_self]
  | case2 lexeme misread hresult =>
    intro token htoken
    have herror : lexeme.result = .ok token := htoken
    rw [hresult] at herror
    cases herror

end Number

namespace Name

open Lexeme (Settled result_of_after_ok)

theorem elements_settled (first : Bool) (text : List Char) : Settled (elements first) text := by
  fun_induction elements first text with
  | case1 first =>
    intro _ _
    rw [List.take_nil]
  | case2 first rest escape c hresult hallowed ih =>
    have hlength : escape.width ≤ rest.length := (Escape.unicode_take rest).1
    have htext : '\\' :: 'u' :: rest =
        '\\' :: 'u' :: rest.take escape.width ++ rest.drop escape.width := by
      rw [List.cons_append, List.cons_append, List.take_append_drop]
    rw [htext]
    refine .after _ [c] { unicodeEscape := true } (fun count => ?_) ih
    have hescape : Escape.unicode (rest.take (escape.width + count)) = escape :=
      Escape.unicode_settled hresult (Nat.le_add_right _ _)
    have hwidth : ('\\' :: 'u' :: rest.take escape.width).length = 2 + escape.width := by
      rw [List.length_cons, List.length_cons, List.length_take_of_le hlength]
      omega
    rw [List.cons_append, List.cons_append, ← List.take_add, elements, hwidth]
    simp only [hescape, hresult, hallowed, if_true, List.drop_take, Nat.add_sub_cancel_left]
  | case3 first rest escape c hresult hallowed =>
    have hread : (Escape.unicode rest).result = .ok c := hresult
    intro token hfound
    simp only [elements, hread, hallowed] at hfound
    cases hfound
  | case4 first rest escape fault hresult =>
    have hread : (Escape.unicode rest).result = .error fault := hresult
    intro token hfound
    simp only [elements, hread] at hfound
    cases hfound
  | case5 first rest hunicode =>
    intro token hfound
    rw [elements.eq_3 _ _ hunicode] at hfound
    cases hfound
  | case6 first c rest hunicode hbackslash hallowed ih =>
    refine .after [c] [c] {} (fun count => ?_) ih
    rw [List.singleton_append, elements_ordinary hbackslash, if_pos hallowed]
    rfl
  | case7 first c rest hunicode hbackslash hallowed =>
    intro _ _
    rw [elements_ordinary hbackslash, if_neg hallowed, Lexeme.accept, List.take_zero, elements]
    rfl

theorem identifier_settled (keywordLetter : Bool) (text : List Char) :
    Settled (identifier keywordLetter) text := by
  obtain ⟨hwidth, hresult⟩ := settle_reads (elements true text)
  intro token hfound
  have hsettled : ∃ token, (elements true text).result = .ok token ∧
      (identifier keywordLetter text).width = (elements true text).width := by
    rw [← hwidth, ← hresult]
    revert hfound
    fun_cases identifier keywordLetter text with
    | case1 lexeme token hlexeme => exact fun _ => ⟨token, hlexeme, rfl⟩
    | case2 lexeme token hlexeme => exact fun _ => ⟨token, hlexeme, rfl⟩
    | case3 lexeme token hlexeme => exact fun _ => ⟨token, hlexeme, rfl⟩
    | case4 lexeme misread hlexeme => exact fun hfound => ⟨token, hfound, rfl⟩
  obtain ⟨token, helements, hsame⟩ := hsettled
  rw [hsame]
  unfold identifier
  rw [elements_settled true text token helements]

theorem privateName_settled {rest : List Char} {token : Token}
    (hresult : (privateName rest).result = .ok token) :
    ∃ width, (privateName rest).width = width + 1 ∧
      privateName (rest.take width) = privateName rest := by
  obtain ⟨hwidth, hsame⟩ := settle_reads (elements true rest)
  cases hstart : rest.head?.any fun c => c == '\\' || Character.isIdentifierStart c with
  | false =>
    rw [privateName, hstart] at hresult
    cases hresult
  | true =>
    obtain ⟨c, tail, rfl, hc⟩ := Text.exists_cons_of_head?_any hstart
    have hread : ∃ token, (elements true (c :: tail)).result = .ok token ∧
        (privateName (c :: tail)).width = (elements true (c :: tail)).width + 1 := by
      rw [← hwidth, ← hsame]
      simp only [privateName, hstart, if_true] at hresult ⊢
      cases hsettled : (settle (elements true (c :: tail))).result with
      | ok token =>
        refine ⟨token, rfl, ?_⟩
        rw [Lexeme.after, Nat.add_comm]
      | error misread =>
        have hfault := result_of_after_ok hresult
        rw [hsettled] at hfault
        cases hsettled.symm.trans hfault
    obtain ⟨token, helements, hprivate⟩ := hread
    have hpos := elements_width_pos (by simpa using hc) helements
    refine ⟨_, hprivate, ?_⟩
    have hhead : ((c :: tail).take (elements true (c :: tail)).width).head? = some c := by
      rw [List.head?_take, if_neg (Nat.ne_of_gt hpos), List.head?_cons]
    unfold privateName
    rw [elements_settled true (c :: tail) token helements, hhead, List.head?_cons]

end Name

namespace Punctuator

theorem longest_mem (first : Punctuator) (text : List Char) :
    first.longest text = first ∨ first.longest text ∈ first.extensions := by
  unfold longest
  cases hfind : first.extensions.find? (·.fits text) with
  | none => exact .inl rfl
  | some found => exact .inr (List.mem_of_find?_eq_some hfind)

/-- Every punctuator is the longest one in its own text. -/
theorem longest_text (first : Punctuator) :
    first.longest first.text.toList = first ∧
      ∀ longer ∈ first.extensions, first.longest longer.text.toList = longer := by
  cases first <;> decide

theorem longest_longest (first : Punctuator) (text : List Char) :
    first.longest (first.longest text).text.toList = first.longest text := by
  rcases first.longest_mem text with hfirst | hlonger
  · rw [hfirst, first.longest_text.1]
  · exact first.longest_text.2 _ hlonger

end Punctuator

namespace Lexeme

theorem Settled.take_cons {reader : List Char → Lexeme} {c : Char} {rest : List Char}
    (hsettled : Settled reader (c :: rest)) {token : Token}
    (hresult : (reader (c :: rest)).result = .ok token) (hpos : 0 < (reader (c :: rest)).width) :
    ∃ width, (reader (c :: rest)).width = width + 1 ∧
      reader (c :: rest.take width) = reader (c :: rest) := by
  have hsame := hsettled token hresult
  obtain ⟨width, hwidth⟩ := Nat.exists_eq_add_of_lt hpos
  rw [Nat.zero_add] at hwidth
  rw [hwidth, List.take_succ_cons] at hsame
  exact ⟨width, hwidth, hsame⟩

theorem ofPunctuator_settled {first : Punctuator} {c : Char}
    (hchar : Punctuator.ofChar? c = some first) (rest : List Char) :
    Settled (ofPunctuator first) (c :: rest) := by
  intro token _
  have hwidth : (ofPunctuator first (c :: rest)).width =
      (first.longest (c :: rest)).text.toList.length := rfl
  rw [hwidth, ← List.prefix_iff_eq_take.mp (Punctuator.longest_prefix hchar rest)]
  simp only [ofPunctuator, Punctuator.longest_longest]

/-- A name, number or punctuator is read alike from its own text alone. -/
theorem read_take {context : Context} {c : Char} {rest : List Char} {token : Token}
    (hresult : (read context c rest).result = .ok token)
    (hquote : StartClass.ofChar? c ≠ some .quote) (hbacktick : c ≠ '\x60') :
    ∃ width, (read context c rest).width = width + 1 ∧
      read context c (rest.take width) = read context c rest := by
  have hpos := read_width_pos hresult
  revert hresult hpos
  fun_cases read context c rest with
  | case1 hclass => exact absurd hclass hquote
  | case2 hclass => exact absurd (eq_backtick_of_class hclass) hbacktick
  | case3 hclass | case4 hclass =>
    intro hresult hpos
    obtain ⟨width, hwidth, hsame⟩ := (Number.read_settled _ _).take_cons hresult hpos
    refine ⟨width, hwidth, ?_⟩
    rw [read, hclass]
    exact hsame
  | case5 hclass | case6 hclass | case7 hclass =>
    intro hresult hpos
    obtain ⟨width, hwidth, hsame⟩ := (Name.identifier_settled _ _).take_cons hresult hpos
    refine ⟨width, hwidth, ?_⟩
    rw [read, hclass]
    exact hsame
  | case8 first hclass hpoint =>
    intro hresult hpos
    obtain ⟨width, hwidth, hsame⟩ := (Number.read_settled _ _).take_cons hresult hpos
    refine ⟨width, hwidth, ?_⟩
    obtain ⟨hperiod, hdigit⟩ := Bool.and_eq_true_iff.mp hpoint
    obtain ⟨d, tail, rfl, hd⟩ := Text.exists_cons_of_head?_any hdigit
    have htext := Punctuator.text_of_ofChar? (ofChar?_of_class hclass)
    rw [of_decide_eq_true hperiod] at htext
    obtain rfl : '.' = c := (List.cons.inj htext).1
    have hlt := Number.read_point_width hd context.strict tail
    have hhead : ((d :: tail).take width).head? = some d := by
      rw [List.head?_take, if_neg (by omega), List.head?_cons]
    rw [read, hclass]
    simp only [hperiod, hhead, Option.any_some, hd, Bool.and_self, if_true]
    exact hsame
  | case9 first hclass hpoint =>
    intro hresult hpos
    obtain ⟨width, hwidth, hsame⟩ :=
      (ofPunctuator_settled (ofChar?_of_class hclass) rest).take_cons hresult hpos
    refine ⟨width, hwidth, ?_⟩
    have hother : ¬(first = .period && (rest.take width).head?.any Char.isDigit) = true := by
      simp only [Bool.and_eq_true, decide_eq_true_eq, not_and, Bool.not_eq_true] at hpoint ⊢
      exact fun hperiod => Text.any_of_take (hpoint hperiod)
    rw [read, hclass]
    simp only [hother]
    exact hsame
  | case10 hclass hsign =>
    intro hresult _
    obtain ⟨width, hwidth, hsame⟩ := Name.privateName_settled hresult
    refine ⟨width, hwidth, ?_⟩
    rw [read, hclass]
    simp only [hsign, if_true]
    exact hsame
  | case11 | case12 | case13 | case14 => rintro ⟨⟩
  | case15 hclass hstart =>
    intro hresult hpos
    obtain ⟨width, hwidth, hsame⟩ := (Name.identifier_settled _ _).take_cons hresult hpos
    refine ⟨width, hwidth, ?_⟩
    rw [read, hclass]
    simp only [hstart, if_true]
    exact hsame
  | case16 => rintro ⟨⟩

end Lexeme

end EcmaLexer
