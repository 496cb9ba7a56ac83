import EcmaLexer.Proofs.Scanner.Tokens

namespace EcmaLexer

open Character (isIdentifierStart isOctalDigit)
open Text (utf8Length)

namespace Number

/-- Whether a number begins with a zero and another digit. -/
def hasLeadingZero : List Char → Bool
  | '0' :: c :: _ => c.isDigit
  | _ => false

theorem Exponent.kindOf {exponent : List Char} (hexponent : Exponent exponent) :
    kindOf exponent = .numericLiteral := by
  have hdigits {digits : List Char} (hdigits : Digits .decimal digits) :
      Number.kindOf digits = .numericLiteral := by
    rw [← List.append_nil digits, kindOf_digits hdigits]
    rfl
  cases hexponent with
  | none => rfl
  | @unsigned mark digits hmark hmore =>
    have hlead : 'n' ∉ [mark] := by
      rintro (_ | ⟨_, ⟨⟩⟩)
      cases hmark
    exact (kindOf_append hlead digits).trans (hdigits hmore)
  | @signed mark sign digits hmark hsign hmore =>
    have hlead : 'n' ∉ [mark, sign] := by
      rintro (_ | ⟨_, _ | ⟨_, ⟨⟩⟩⟩)
      · cases hmark
      · cases hsign
    exact (kindOf_append hlead digits).trans (hdigits hmore)

/-- Of all that may follow an integer only an `n` makes it a big one. -/
theorem AfterInteger.eq_of_bigInt {after : List Char} (hafter : AfterInteger after)
    (hkind : kindOf after = .bigIntLiteral) : after = ['n'] := by
  have hpoint (word : List Char) : kindOf ('.' :: word) = kindOf word :=
    @kindOf_append ['.'] (by decide) word
  cases hafter with
  | bigInt => rfl
  | integer hexponent => cases hkind.symm.trans hexponent.kindOf
  | point hexponent =>
    rw [hpoint, hexponent.kindOf] at hkind
    cases hkind
  | fraction hdigits hexponent =>
    rw [hpoint, kindOf_digits hdigits, hexponent.kindOf] at hkind
    cases hkind

/-- A big integer can have a leading zero only if its digits are not all octal. -/
theorem Literal.leadingZero_bigInt {strict : Bool} {text : List Char}
    (hliteral : Literal strict text) (hkind : kindOf text = .bigIntLiteral)
    (hzero : hasLeadingZero text = true) :
    strict = false ∧ ∃ digits, text = '0' :: (digits ++ ['n']) ∧
      (∀ c ∈ digits, c.isDigit = true) ∧ ∃ c ∈ digits, isOctalDigit c = false := by
  unfold hasLeadingZero at hzero
  split at hzero
  · next c rest =>
    have hlead {digits : List Char} (hdigits : ∀ c ∈ digits, c.isDigit = true) :
        'n' ∉ '0' :: digits := by
      rintro (_ | ⟨_, hmem⟩)
      cases hdigits _ hmem
    generalize hword : c :: rest = word at hliteral hkind
    cases hliteral.afterZero with
    | prefixed hletter =>
      cases hword
      cases hzero.symm.trans (letters_spec _ _ hletter).1
    | integer hafter =>
      subst hword
      cases hzero.symm.trans hafter.no_digit
    | legacyOctal hsloppy hne hdigits =>
      have hn := hlead fun c hmem => isDigit_of_octal (hdigits c hmem)
      rw [← List.append_nil ('0' :: word), kindOf_append hn] at hkind
      cases hkind
    | @legacyDecimal digits after hsloppy hdigits hlarge hafter =>
      rw [← List.cons_append, kindOf_append (hlead hdigits)] at hkind
      rw [hafter.eq_of_bigInt hkind]
      exact ⟨hsloppy, digits, rfl, hdigits, hlarge⟩
  · cases hzero

theorem result_read (strict : Bool) (text : List Char) :
    (read strict text).result = (shape strict text).result := by
  unfold read
  cases hresult : (shape strict text).result <;> simp only [hresult]

theorem width_read (strict : Bool) (text : List Char) :
    (read strict text).width = (shape strict text).width := by
  unfold read
  cases hresult : (shape strict text).result <;> simp only [hresult]

section LeadingZero

variable {digits : List Char} (hne : digits ≠ []) (hdigits : ∀ c ∈ digits, c.isDigit = true)
include hne hdigits

theorem leadingZero_digits (strict : Bool) (rest : List Char) :
    leadingZero strict (digits ++ rest) = legacy strict (digits ++ rest) := by
  have hclasses : ∀ c ∈ "0123456789".toList, DigitClass.ofChar? c = some .digit :=
    Text.forall_mem_of_all (by decide)
  cases digits with
  | nil => exact absurd rfl hne
  | cons c digits =>
    have hclass := hclasses c (mem_of_isDigit (hdigits c List.mem_cons_self))
    simp only [leadingZero, List.cons_append, List.head?_cons, Option.bind_some, hclass]

/-- Where an `n` follows the digits after a leading zero, only a number that sloppy mode takes to
    be decimal may end with it. -/
theorem shape_leadingZero (strict : Bool) (rest : List Char) :
    shape strict ('0' :: (digits ++ 'n' :: rest)) =
      if strict then .reject .legacyOctalLiteral 1 0
      else if digits.all isOctalDigit then
        (finish .numericLiteral ('n' :: rest)).after (1 + digits.length) [] { octal := true }
      else ((finish .bigIntLiteral rest).after 1 [] {}).after (1 + digits.length) [] {} := by
  have hrun : (digits ++ 'n' :: rest).takeWhile Char.isDigit = digits :=
    takeWhile_digits hdigits rfl
  have hafter : afterInteger ('n' :: rest) = (finish .bigIntLiteral rest).after 1 [] {} := rfl
  rw [shape, leadingZero_digits hne hdigits, legacy]
  simp only [hrun, List.drop_left, hafter]

theorem read_leadingZero_refused {strict : Bool} {rest : List Char}
    (hrefused : strict = true ∨ (∀ c ∈ digits, isOctalDigit c = true) ∨ blocked rest = true) :
    (read strict ('0' :: (digits ++ 'n' :: rest))).result.isOk = false := by
  rw [result_read, shape_leadingZero hne hdigits]
  split
  · rfl
  · next hsloppy =>
    split
    · rw [isOk_after, isOk_finish rfl]
    · next hlarge =>
      rw [isOk_after, isOk_after, isOk_finish]
      rcases hrefused with hstrict | hoctal | hblocked
      · exact absurd hstrict hsloppy
      · exact absurd (List.all_eq_true.mpr hoctal) hlarge
      · exact hblocked

theorem read_leadingZero_accepted {rest : List Char}
    (hlarge : ∃ c ∈ digits, isOctalDigit c = false) (hfree : blocked rest = false) :
    (read false ('0' :: (digits ++ 'n' :: rest))).result = .ok .bigIntLiteral ∧
      (read false ('0' :: (digits ++ 'n' :: rest))).width = ('0' :: (digits ++ ['n'])).length := by
  have hdecimal : digits.all isOctalDigit = false := by simpa using hlarge
  rw [result_read, width_read, shape_leadingZero hne hdigits, hdecimal, finish_eq_accept hfree]
  refine ⟨rfl, ?_⟩
  simp only [Bool.false_eq_true, if_false, Lexeme.after, Lexeme.accept, List.length_cons,
    List.length_append, List.length_nil]
  omega

end LeadingZero

end Number

/-- A name that begins with a backslash begins with a unicode escape. -/
theorem Name.head?_of_backslash {context : Context} {tail : List Char} {token : Token}
    (hresult : (Lexeme.read context '\\' tail).result = .ok token) : tail.head? = some 'u' := by
  refine Decidable.byContradiction fun hunicode => ?_
  have helements : elements true ('\\' :: tail) = .reject (.invalidCharacter '\\') 1 0 := by
    rw [elements.eq_3]
    rintro more rfl
    exact hunicode rfl
  have hread : Lexeme.read context '\\' tail = identifier false ('\\' :: tail) := rfl
  rw [hread, identifier, helements] at hresult
  cases hresult

namespace Scanner

/-- A number token is the text of a number, and nothing comes right after it that may not. -/
theorem exists_number {scanner after : Scanner} {context : Context} {token : Token}
    (hscan : scanner.scan context = (.ok token, after)) (hnumber : token.isNumber = true) :
    ∃ text, after.raw? = some text ∧
      Number.Literal (scanner.contextFor context).strict text ∧ token = Number.kindOf text ∧
      Number.blocked after.unread = false := by
  obtain ⟨c, tail, htaken⟩ := exists_taken hscan (by rintro rfl; cases hnumber)
  have hbegins := (Lexeme.read_readAs htaken.result).number_begins hnumber
  rw [Number.read_of_begins hbegins] at htaken
  obtain ⟨text, rest, hlongest, hfree, hread⟩ :=
    Number.exists_longest_of_ok hbegins htaken.result
  rw [hread, ← hlongest.split] at htaken
  have hkind : Number.kindOf text = token := Except.ok.inj htaken.result
  have hbare : token.isTemplate = false := by cases token <;> first | rfl | cases hnumber
  refine ⟨text, ?_, hlongest.word, hkind.symm, ?_⟩
  · rw [htaken.raw hbare, List.take_left]
  · rw [htaken.unread, List.drop_left, hfree]

/-- A name comes right after a number exactly if it begins there with a unicode escape: the check
    that ends a number only looks for a character that may itself begin a name. -/
theorem scan_name_after_number {scanner after last : Scanner} {context next : Context}
    {number name : Token} (hnumber : scanner.scan context = (.ok number, after))
    (hisNumber : number.isNumber = true) (hname : after.scan next = (.ok name, last))
    (hisName : name.isName = true) :
    last.state.tokenStart = after.offset ↔ ['\\', 'u'] <+: after.unread := by
  obtain ⟨-, -, -, -, hfree⟩ := exists_number hnumber hisNumber
  obtain ⟨c, tail, htaken⟩ := exists_taken hname (by rintro rfl; cases hisName)
  rw [htaken.start, tokenMark_offset]
  constructor
  · intro hstart
    -- A character in the gap would take up a byte.
    have hgap : after.unread.take after.gapAhead.width = [] := by
      refine Decidable.byContradiction fun hne => ?_
      have hpos := Text.utf8Length_pos hne
      omega
    have hunread : after.unread = c :: tail := by
      rw [← List.take_append_drop after.gapAhead.width after.unread, hgap, htaken.ahead,
        List.nil_append]
    obtain ⟨d, rest, hcons, hd⟩ := Name.exists_cons_of_begins
      ((Lexeme.read_readAs htaken.result).name_begins hisName)
    obtain ⟨rfl, rfl⟩ := List.cons.inj hcons
    rw [hunread] at hfree ⊢
    rcases hd with rfl | hd
    · obtain ⟨rest, rfl⟩ := List.head?_eq_some_iff.mp (Name.head?_of_backslash htaken.result)
      exact ⟨rest, rfl⟩
    · rw [Number.blocked, List.head?_cons, Option.any_some, hd, Bool.or_true] at hfree
      cases hfree
  · rintro ⟨rest, hunread⟩
    have hgap : after.gapAhead = ⟨0, false, false⟩ := by
      rw [gapAhead, ← hunread]
      exact Name.skip_of_begins (.inl rfl) rfl _
    rw [hgap, List.take_zero]
    rfl

/-- With a blank between them a name does not begin where a number ends. -/
theorem scan_name_after_number_blank :
    ∃ after last, (ofSource "1n of".toList {}).scan {} = (.ok .bigIntLiteral, after) ∧
      after.scan {} = (.ok (.keyword .ofKw), last) ∧ last.state.tokenStart ≠ after.offset := by
  have hnumber : ((ofSource "1n of".toList {}).scan {}).1 = .ok .bigIntLiteral := by
    with_unfolding_all rfl
  have hname : (((ofSource "1n of".toList {}).scan {}).2.scan {}).1 = .ok (.keyword .ofKw) := by
    with_unfolding_all rfl
  have hplain : ¬['\\', 'u'] <+: ((ofSource "1n of".toList {}).scan {}).2.unread := by
    decide +kernel
  refine ⟨_, _, Prod.ext hnumber rfl, Prod.ext hname rfl, fun hstart => ?_⟩
  exact hplain ((scan_name_after_number (Prod.ext hnumber rfl) rfl (Prod.ext hname rfl) rfl).mp
    hstart)

/-- A name right after a number. -/
theorem scan_name_right_after_number :
    ∃ after last, (ofSource "1\\u0061".toList {}).scan {} = (.ok .numericLiteral, after) ∧
      after.scan {} = (.ok .identifier, last) ∧ last.state.tokenStart = after.offset := by
  have hnumber : ((ofSource "1\\u0061".toList {}).scan {}).1 = .ok .numericLiteral := by
    with_unfolding_all rfl
  have hname : (((ofSource "1\\u0061".toList {}).scan {}).2.scan {}).1 = .ok .identifier := by
    with_unfolding_all rfl
  refine ⟨_, _, Prod.ext hnumber rfl, Prod.ext hname rfl, ?_⟩
  decide +kernel

/-- A big integer with a leading zero is one that sloppy mode takes to be decimal, for the sake of
    a digit that is not octal. Wherever its text begins it is read, and no other number with a
    leading zero may end with an `n`. -/
theorem scan_leadingZero_bigInt (scanner : Scanner) (context : Context) :
    (∀ after, scanner.scan context = (.ok .bigIntLiteral, after) →
      ∃ text, after.raw? = some text ∧
        (Number.hasLeadingZero text = true → (scanner.contextFor context).strict = false ∧
          ∃ digits, text = '0' :: (digits ++ ['n']) ∧ (∀ c ∈ digits, c.isDigit = true) ∧
            ∃ c ∈ digits, isOctalDigit c = false)) ∧
    ∀ digits rest, digits ≠ [] → (∀ c ∈ digits, c.isDigit = true) →
      scanner.unread.drop scanner.gapAhead.width = '0' :: (digits ++ 'n' :: rest) →
      ((scanner.contextFor context).strict = true ∨ (∀ c ∈ digits, isOctalDigit c = true) ∨
          Number.blocked rest = true → ∃ error, (scanner.scan context).1 = .error error) ∧
      ((scanner.contextFor context).strict = false → (∃ c ∈ digits, isOctalDigit c = false) →
        Number.blocked rest = false → ∃ after, scanner.scan context = (.ok .bigIntLiteral, after) ∧
          after.raw? = some ('0' :: (digits ++ ['n']))) := by
  refine ⟨fun after hscan => ?_, fun digits rest hne hdigits hahead => ?_⟩
  · obtain ⟨text, hraw, hliteral, hkind, -⟩ := exists_number hscan rfl
    exact ⟨text, hraw, hliteral.leadingZero_bigInt hkind.symm⟩
  · have hclosed : scanner.gapAhead.unclosed = false := by
      rw [gapAhead, Trivia.skip_unclosed]
      exact congrArg Trivia.opensComment hahead
    have hread : Lexeme.read (scanner.contextFor context) '0' (digits ++ 'n' :: rest) =
        Number.read (scanner.contextFor context).strict ('0' :: (digits ++ 'n' :: rest)) :=
      Number.read_of_begins rfl _
    have hscan := scan_cons hclosed hahead context
    rw [hread] at hscan
    refine ⟨fun hrefused => ?_, fun hsloppy hlarge hfree => ?_⟩
    · have hfailed := Number.read_leadingZero_refused hne hdigits hrefused
      rw [← isOk_commit scanner scanner.tokenMark.offset scanner.tokenMark
        scanner.gapAhead.breaksLine ('0' :: (digits ++ 'n' :: rest)), ← hscan] at hfailed
      cases hresult : (scanner.scan context).1 with
      | error error => exact ⟨error, rfl⟩
      | ok token =>
        rw [hresult] at hfailed
        cases hfailed
    · rw [hsloppy] at hscan
      obtain ⟨hresult, hwidth⟩ := Number.read_leadingZero_accepted hne hdigits hlarge hfree
      obtain ⟨after, hcommit, htaken⟩ := commit_taken hahead (List.cons_ne_nil _ _) hresult
      have hsplit : '0' :: (digits ++ 'n' :: rest) = ('0' :: (digits ++ ['n'])) ++ rest := by simp
      refine ⟨after, hscan.trans hcommit, ?_⟩
      rw [htaken.raw rfl, hwidth, hsplit, List.take_left]

/-- The digits after the zero are octal in the first number, but not in the second. -/
theorem scan_leadingZero_bigInt_octal :
    (∃ error, ((ofSource "/**/017n".toList {}).scan {}).1 = .error error) ∧
      ∃ after, (ofSource "/**/019n".toList {}).scan {} = (.ok .bigIntLiteral, after) ∧
        Number.hasLeadingZero "019n".toList = true ∧ after.raw? = some "019n".toList := by
  obtain ⟨-, hoctal⟩ := scan_leadingZero_bigInt (ofSource "/**/017n".toList {}) {}
  obtain ⟨-, hlarge⟩ := scan_leadingZero_bigInt (ofSource "/**/019n".toList {}) {}
  refine ⟨(hoctal "17".toList [] nofun (Text.forall_mem_of_all rfl) (by decide +kernel)).1
    (.inr (.inl (Text.forall_mem_of_all rfl))), ?_⟩
  obtain ⟨after, hscan, hraw⟩ :=
    (hlarge "19".toList [] nofun (Text.forall_mem_of_all rfl) (by decide +kernel)).2 rfl
      ⟨'9', by decide, rfl⟩ rfl
  exact ⟨after, hscan, rfl, hraw⟩

/-- A big integer with a leading zero. -/
theorem scan_bigInt_leadingZero :
    ∃ after, (ofSource "08n".toList {}).scan {} = (.ok .bigIntLiteral, after) ∧
      after.raw? = some "08n".toList ∧ Number.hasLeadingZero "08n".toList = true := by
  have hscan : ((ofSource "08n".toList {}).scan {}).1 = .ok .bigIntLiteral := by
    with_unfolding_all rfl
  exact ⟨_, Prod.ext hscan rfl, by decide +kernel, rfl⟩

end Scanner

end EcmaLexer
