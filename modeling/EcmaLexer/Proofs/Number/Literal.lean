import EcmaLexer.Proofs.Lexeme.Slicing
import EcmaLexer.Proofs.Number.Reading

namespace EcmaLexer.Number

open Character (isOctalDigit)

theorem isDigit_of_octal {c : Char} (hc : isOctalDigit c = true) : c.isDigit = true :=
  Template.isDigit_of_octal (by simpa [isOctalDigit] using hc)

theorem AfterInteger.head {after : List Char} (hafter : AfterInteger after) {c : Char}
    (hhead : after.head? = some c) : c ∈ ['n', '.', 'e', 'E'] := by
  cases hafter with
  | bigInt => cases hhead; decide
  | point | fraction => cases hhead; decide
  | integer hexponent =>
    rcases eq_of_isExponentMark (hexponent.head hhead) with rfl | rfl <;> decide

theorem AfterInteger.apart {after : List Char} (hafter : AfterInteger after) :
    Apart .decimal after := by
  have hheads : ∀ c ∈ ['n', '.', 'e', 'E'], isDigit .decimal c = false ∧ c ≠ '_' :=
    Text.forall_mem_of_all (by decide)
  exact fun c hhead => hheads c (hafter.head hhead)

theorem AfterInteger.no_digit {after : List Char} (hafter : AfterInteger after) :
    after.head?.any Char.isDigit = false := by
  have hheads : ∀ c ∈ ['n', '.', 'e', 'E'], c.isDigit = false :=
    Text.forall_mem_of_all (by decide)
  cases hhead : after.head? with
  | none => rfl
  | some c => exact hheads c (hafter.head hhead)

/-- What may follow a leading zero. -/
inductive AfterZero (strict : Bool) : List Char → Prop where
  | prefixed {radix : Radix} {letter : Char} {word : List Char} (hletter : letter ∈ letters radix)
      (hword : DigitsThen radix (Suffix true) word) : AfterZero strict (letter :: word)
  | integer {after : List Char} (hafter : AfterInteger after) : AfterZero strict after
  | legacyOctal {digits : List Char} (hsloppy : strict = false) (hne : digits ≠ [])
      (hdigits : ∀ c ∈ digits, isOctalDigit c = true) : AfterZero strict digits
  | legacyDecimal {digits after : List Char} (hsloppy : strict = false)
      (hdigits : ∀ c ∈ digits, c.isDigit = true) (hlarge : ∃ c ∈ digits, isOctalDigit c = false)
      (hafter : AfterInteger after) : AfterZero strict (digits ++ after)

theorem Literal.afterZero {strict : Bool} {word : List Char}
    (hliteral : Literal strict ('0' :: word)) : AfterZero strict word := by
  generalize htext : '0' :: word = text at hliteral
  cases hliteral with
  | prefixed hletter hdigits hsuffix =>
    cases htext
    refine .prefixed hletter (.intro hdigits ?_)
    rcases hsuffix with rfl | rfl
    · exact .none
    · exact .bigInt rfl
  | zero hafter =>
    cases htext
    exact .integer hafter
  | decimal hdigits hfirst hafter =>
    cases hdigits with
    | intro hc hmore =>
      obtain ⟨rfl, -⟩ := List.cons.inj htext
      exact absurd rfl hfirst
  | fraction => cases htext
  | legacyOctal hsloppy hne hdigits =>
    cases htext
    exact .legacyOctal hsloppy hne hdigits
  | legacyDecimal hsloppy hdigits hlarge hafter =>
    cases htext
    exact .legacyDecimal hsloppy hdigits hlarge hafter

/-- What a character after a leading zero says about the number. -/
theorem digitClass_spec (c : Char) :
    match DigitClass.ofChar? c with
    | some .binary => c ∈ letters .binary
    | some .octal => c ∈ letters .octal
    | some .hex => c ∈ letters .hex
    | some .underscore => c = '_'
    | some .digit => c.isDigit = true
    | some .other | none => c.isDigit = false ∧ ∀ radix, c ∉ letters radix := by
  fun_cases DigitClass.ofChar? c with
  | case1 hascii =>
    fun_cases DigitClass.ofAscii c with
    | case8 _ _ _ _ _ _ _ _ hdigit => exact hdigit
    | case9 _ hb hB ho hO hx hX hunderscore hdigit =>
      refine ⟨Bool.eq_false_iff.mpr hdigit, ?_⟩
      rintro (_ | _ | _ | _) <;> simp_all [letters]
    | _ => decide
  | case2 hascii =>
    refine ⟨Bool.eq_false_iff.mpr fun hdigit => hascii (toNat_lt_of_isDigit c hdigit), ?_⟩
    have hletters : ∀ radix, ∀ c ∈ letters radix, c.toNat < 0x80 := by
      rintro (_ | _ | _ | _) <;> exact Text.forall_mem_of_all (by decide)
    exact fun radix hletter => hascii (hletters radix c hletter)

theorem letters_spec : ∀ radix, ∀ letter ∈ letters radix, letter.isDigit = false ∧ letter ≠ '_' ∧
    letter ∉ ['n', '.', 'e', 'E'] ∧ Character.isIdentifierStart letter = true := by
  rintro (_ | _ | _ | _) <;> exact Text.forall_mem_of_all (by decide)

theorem letters_inj : ∀ radix other, ∀ letter ∈ letters radix, letter ∈ letters other →
    other = radix := by
  rintro (_ | _ | _ | _) (_ | _ | _ | _) <;> exact Text.forall_mem_of_all (by decide)

theorem head?_any_append {digits : List Char} (hne : digits ≠ [])
    (hdigits : ∀ c ∈ digits, c.isDigit = true) (rest : List Char) :
    (digits ++ rest).head?.any Char.isDigit = true := by
  cases digits with
  | nil => exact absurd rfl hne
  | cons c digits => exact hdigits c List.mem_cons_self

/-- Where neither a letter of a radix nor a digit of a legacy number comes after a zero, the zero
    is an integer. -/
theorem AfterZero.afterInteger {strict : Bool} {word text : List Char}
    (hword : AfterZero strict word) (hpart : word <+: text)
    (hletter : ∀ radix, ∀ c ∈ letters radix, text.head? ≠ some c)
    (hlegacy : strict = true ∨ text.head?.any Char.isDigit = false) : AfterInteger word := by
  obtain ⟨rest, rfl⟩ := hpart
  have hnone (hsloppy : strict = false) : ¬(word ++ rest).head?.any Char.isDigit = true := by
    rcases hlegacy with hstrict | hdigit
    · cases hsloppy.symm.trans hstrict
    · exact Bool.eq_false_iff.mp hdigit
  cases hword with
  | prefixed hmem => exact absurd rfl (hletter _ _ hmem)
  | integer hafter => exact hafter
  | legacyOctal hsloppy hne hdigits =>
    exact absurd (head?_any_append hne (fun c hmem => isDigit_of_octal (hdigits c hmem)) rest)
      (hnone hsloppy)
  | legacyDecimal hsloppy hdigits hlarge hafter =>
    obtain ⟨c, hmem, -⟩ := hlarge
    rw [List.append_assoc] at hnone
    exact absurd (head?_any_append (List.ne_nil_of_mem hmem) hdigits _) (hnone hsloppy)

/-- A letter of a radix after the zero says what must follow. -/
theorem AfterZero.after_letter {strict : Bool} {radix : Radix} {letter : Char} {word : List Char}
    (hafter : AfterZero strict (letter :: word)) (hletter : letter ∈ letters radix) :
    DigitsThen radix (Suffix true) word := by
  obtain ⟨hdigit, -, hheads, -⟩ := letters_spec radix letter hletter
  have hnone : ¬(letter :: word).head?.any Char.isDigit = true := Bool.eq_false_iff.mp hdigit
  generalize htext : letter :: word = text at hafter hnone
  cases hafter with
  | prefixed hmem hword =>
    cases htext
    rwa [letters_inj _ _ _ hletter hmem] at hword
  | integer hafter =>
    subst htext
    exact absurd (hafter.head rfl) hheads
  | legacyOctal hsloppy hne hdigits =>
    rw [← List.append_nil text] at hnone
    exact absurd (head?_any_append hne (fun c hmem => isDigit_of_octal (hdigits c hmem)) []) hnone
  | legacyDecimal hsloppy hdigits hlarge hafter =>
    obtain ⟨c, hmem, -⟩ := hlarge
    exact absurd (head?_any_append (List.ne_nil_of_mem hmem) hdigits _) hnone

/-- The mark of a letter that names a radix. -/
def specifier : Radix → Flags
  | .binary => { binarySpecifier := true }
  | .octal => { octalSpecifier := true }
  | .decimal => {}
  | .hex => { hexSpecifier := true }

/-- What is marked about the digits after such a letter. -/
def separatorFlags (text : List Char) : Flags where
  containsSeparator := text.contains '_'

theorem separatorFlags_append (left right : List Char) :
    separatorFlags (left ++ right) = (separatorFlags left).union (separatorFlags right) := by
  simp [separatorFlags, Flags.union]

theorem hasLetter_prefixed {radix : Radix} {letter : Char} (hletter : letter ∈ letters radix)
    (other : Radix) (word : List Char) :
    hasLetter other ('0' :: letter :: word) = decide (other = radix) := by
  rw [hasLetter, Bool.eq_iff_iff, List.contains_iff_mem, decide_eq_true_eq]
  constructor
  · exact letters_inj radix other letter hletter
  · rintro rfl
    exact hletter

/-- Only the digits of a hexadecimal number may be letters. -/
theorem DigitsThen.no_exponentMark {radix : Radix} {word : List Char}
    (hword : DigitsThen radix (Suffix true) word) (hradix : radix ≠ .hex) :
    word.any isExponentMark = false := by
  rw [List.any_eq_false]
  intro c hmem hmark
  have hletter := eq_of_isExponentMark hmark
  cases hword with
  | intro hdigits hsuffix =>
    rcases List.mem_append.mp hmem with hmem | hmem
    · rcases hdigits.mem hmem with rfl | hdigit
      · cases hmark
      · cases radix with
        | hex => exact hradix rfl
        | _ => rcases hletter with rfl | rfl <;> cases hdigit
    · cases hsuffix with
      | none => cases hmem
      | bigInt =>
        cases List.mem_singleton.mp hmem
        cases hmark

theorem flagsOf_prefixed {radix : Radix} {letter : Char} {word : List Char}
    (hletter : letter ∈ letters radix) (hword : DigitsThen radix (Suffix true) word) :
    flagsOf ('0' :: letter :: word) = (specifier radix).union (separatorFlags word) := by
  have hletters : ∀ radix, ∀ letter ∈ letters radix, isOctalDigit letter = false ∧
      isExponentMark letter = false ∧ ('_' == letter) = false := by
    rintro (_ | _ | _ | _) <;> exact Text.forall_mem_of_all (by decide)
  obtain ⟨hoctal, hmark, hunderscore⟩ := hletters radix letter hletter
  have hlegacy : isLegacyOctal ('0' :: letter :: word) = false := by
    rw [isLegacyOctal, List.all_cons, hoctal, Bool.false_and]
  have hseparator : ('0' :: letter :: word).contains '_' = word.contains '_' := by
    rw [List.contains_cons, List.contains_cons, hunderscore]
    rfl
  have hscientific :
      (!decide (.hex = radix) && ('0' :: letter :: word).any isExponentMark) = false := by
    by_cases hradix : radix = .hex
    · rw [hradix]
      rfl
    · rw [List.any_cons, List.any_cons, hmark, hword.no_exponentMark hradix]
      exact Bool.and_false _
  simp only [flagsOf, hlegacy, hasLetter_prefixed hletter, hseparator, hscientific]
  cases radix <;> simp [specifier, separatorFlags, Flags.union]

/-- After a zero that stands for itself, nothing else may come. -/
theorem zero_reads {strict : Bool} {text : List Char} {lexeme : Lexeme}
    (hothers : ∀ word, AfterZero strict word → word <+: text → word = [])
    (hblocked : blocked text = true) (hresult : lexeme.result.isOk = false) :
    Reads (Literal strict) flagsOf ('0' :: text) lexeme ['0'] text := by
  have hzero : Literal strict ['0'] := .zero (.integer .none)
  exact .of_fault hzero (fun word hliteral hpart => hothers word hliteral.afterZero hpart)
    hblocked hresult

theorem Literal.of_letter {strict : Bool} {radix : Radix} {letter : Char} {word : List Char}
    (hletter : letter ∈ letters radix) (hword : DigitsThen radix (Suffix true) word) :
    Literal strict ('0' :: letter :: word) := by
  cases hword with
  | intro hdigits hsuffix =>
    refine .prefixed hletter hdigits ?_
    cases hsuffix with
    | none => exact .inl rfl
    | bigInt => exact .inr rfl

theorem prefixed_reads (strict : Bool) {radix : Radix} {letter : Char}
    (hletter : letter ∈ letters radix) (text : List Char) :
    ∃ found rest, Reads (Literal strict) flagsOf ('0' :: letter :: text)
      (prefixed radix (specifier radix) (letter :: text)) found rest := by
  obtain ⟨-, -, hheads, hstart⟩ := letters_spec radix letter hletter
  by_cases hdigit : text.head?.any (isDigit radix) = true
  · have hsuffix : ∀ text, ∃ found rest,
        Reads (Suffix true) separatorFlags text (suffix true text) found rest :=
      suffix_reads rfl rfl true
    have hdigits : ∃ found rest, Reads (DigitsThen radix (Suffix true)) separatorFlags text
        (withDigits radix true text (suffix true)) found rest :=
      withDigits_reads hdigit true hsuffix .none (fun word hword => hword.apart radix)
        fun digits word _ _ => separatorFlags_append digits word
    obtain ⟨found, rest, hreads⟩ := hdigits
    have hword : Literal strict (['0', letter] ++ found) :=
      .of_letter hletter hreads.longest.word
    have hlead : 'n' ∉ ['0', letter] := by
      rintro (_ | ⟨_, _ | ⟨_, ⟨⟩⟩⟩)
      exact hheads List.mem_cons_self
    exact ⟨['0', letter] ++ found, rest, hreads.after hword
      (fun word hliteral _ => .inr (hliteral.afterZero.after_letter hletter))
      (flagsOf_prefixed hletter hreads.longest.word) (kindOf_append hlead found)⟩
  · refine ⟨['0'], letter :: text, zero_reads (fun word hafter hpart => ?_) ?_ ?_⟩
    · cases word with
      | nil => rfl
      | cons c word =>
        obtain ⟨rfl, hrest⟩ := List.cons_prefix_cons.mp hpart
        exact absurd ((hafter.after_letter hletter).digit_ahead hrest) hdigit
    · rw [blocked, List.head?_cons, Option.any_some, hstart, Bool.or_true]
    · rw [prefixed, isOk_after]
      exact withDigits_required hdigit

/-- A number that does not begin with zero is marked as its parts are. -/
theorem flagsOf_of_head {text : List Char} (hfirst : text.head? ≠ some '0') :
    flagsOf text = decimalFlags text := by
  have hletter (radix : Radix) : hasLetter radix text = false := by
    unfold hasLetter
    split
    · exact absurd rfl hfirst
    · rfl
  have hlegacy : isLegacyOctal text = false := by
    unfold isLegacyOctal
    split
    · exact absurd rfl hfirst
    · rfl
  simp [flagsOf, decimalFlags, hletter, hlegacy]

/-- So is one that begins with zero, without a letter after it, but for legacy octal ones. -/
theorem flagsOf_zero {word : List Char}
    (hletter : ∀ radix, ∀ c ∈ letters radix, word.head? ≠ some c) :
    flagsOf ('0' :: word) =
      { decimalFlags word with octal := !word.isEmpty && word.all isOctalDigit } := by
  cases word with
  | nil => rfl
  | cons c word =>
    have hnone (radix : Radix) : hasLetter radix ('0' :: c :: word) = false := by
      rw [hasLetter, Bool.eq_false_iff]
      intro hmem
      exact hletter radix c (List.contains_iff_mem.mp hmem) rfl
    have hmarks : decimalFlags ('0' :: c :: word) = decimalFlags (c :: word) :=
      (decimalFlags_append ['0'] (c :: word)).trans (Flags.empty_union _)
    rw [← hmarks]
    simp [flagsOf, decimalFlags, hnone, isLegacyOctal]

/-- A zero without a legacy number or a letter of a radix. -/
theorem integer_reads {strict : Bool} {text : List Char}
    (hletter : ∀ radix, ∀ c ∈ letters radix, text.head? ≠ some c)
    (hdigit : text.head?.any Char.isDigit = false) :
    ∃ found rest, Reads (Literal strict) flagsOf ('0' :: text)
      ((afterInteger text).after 1 [] {}) found rest := by
  obtain ⟨found, rest, hreads⟩ := afterInteger_reads text
  have hafter := hreads.longest.word
  have hword : Literal strict (['0'] ++ found) := .zero hafter
  have hoctal : (!found.isEmpty && found.all isOctalDigit) = false := by
    cases found with
    | nil => rfl
    | cons c found =>
      have hheads : ∀ c ∈ ['n', '.', 'e', 'E'], isOctalDigit c = false :=
        Text.forall_mem_of_all (by decide)
      rw [List.all_cons, hheads c (hafter.head rfl), Bool.false_and, Bool.and_false]
  have hflags : flagsOf (['0'] ++ found) = Flags.union {} (decimalFlags found) := by
    rw [Flags.empty_union, List.singleton_append, flagsOf_zero, hoctal, decimalFlags]
    exact fun radix c hmem hhead => (letters_spec radix c hmem).2.2.1 (hafter.head hhead)
  exact ⟨['0'] ++ found, rest, hreads.after hword
    (fun word hliteral hpart => .inr (hliteral.afterZero.afterInteger hpart hletter (.inr hdigit)))
    hflags (kindOf_append (by decide) found)⟩

/-- A digit after the zero begins a legacy number. -/
theorem AfterZero.legacy {strict : Bool} {word : List Char} (hafter : AfterZero strict word)
    (hdigit : word.head?.any Char.isDigit = true) :
    (∀ c ∈ word, isOctalDigit c = true) ∨ ∃ digits after, word = digits ++ after ∧
      (∀ c ∈ digits, c.isDigit = true) ∧ (∃ c ∈ digits, isOctalDigit c = false) ∧
      AfterInteger after := by
  cases hafter with
  | prefixed hletter => cases hdigit.symm.trans (letters_spec _ _ hletter).1
  | integer hafter => cases hdigit.symm.trans hafter.no_digit
  | legacyOctal hsloppy hne hdigits => exact .inl hdigits
  | legacyDecimal hsloppy hdigits hlarge hafter =>
    exact .inr ⟨_, _, rfl, hdigits, hlarge, hafter⟩

theorem takeWhile_digits {digits rest : List Char} (hdigits : ∀ c ∈ digits, c.isDigit = true)
    (hrest : rest.head?.any Char.isDigit = false) :
    (digits ++ rest).takeWhile Char.isDigit = digits := by
  rw [List.takeWhile_append_of_pos hdigits]
  cases rest with
  | nil => exact List.append_nil digits
  | cons c rest =>
    have hc : ¬c.isDigit = true := Bool.eq_false_iff.mp hrest
    rw [List.takeWhile_cons_of_neg hc, List.append_nil]

section Legacy

variable {digits rest : List Char} (hne : digits ≠ [])
  (hdigits : ∀ c ∈ digits, c.isDigit = true) (hrest : rest.head?.any Char.isDigit = false)

include hrest in
/-- No more digits come after all that there are. -/
theorem digits_of_part {word : List Char} (hword : ∀ c ∈ word, c.isDigit = true)
    (hpart : word <+: digits ++ rest) : word <+: digits := by
  rcases List.prefix_or_prefix_of_prefix hpart (List.prefix_append digits rest) with
    hshort | ⟨more, rfl⟩
  · exact hshort
  · obtain ⟨tail, rfl⟩ := (List.prefix_append_right_inj digits).mp hpart
    cases more with
    | nil => exact ⟨[], by rw [List.append_nil, List.append_nil]⟩
    | cons c more => cases (hword c (by simp)).symm.trans hrest

include hne hdigits

/-- The digits of a legacy number have no mark of their own. -/
theorem flagsOf_legacy (word : List Char) : flagsOf ('0' :: (digits ++ word)) =
    { decimalFlags word with octal := (digits ++ word).all isOctalDigit } := by
  have hmark : digits.any isExponentMark = false := by
    rw [List.any_eq_false]
    intro c hmem hmark
    cases (isExponentMark_digit hmark).1.symm.trans (isDigit_decimal (hdigits c hmem))
  have hunderscore : digits.contains '_' = false := by
    rw [Bool.eq_false_iff]
    intro hmem
    cases hdigits _ (List.contains_iff_mem.mp hmem)
  rw [flagsOf_zero, decimalFlags_append, decimalFlags, hmark, hunderscore, Flags.empty_union]
  · simp [hne]
  · intro radix c hmem hhead
    have hdigit := head?_any_append hne hdigits word
    rw [hhead] at hdigit
    cases hdigit.symm.trans (letters_spec radix c hmem).1

include hrest

/-- A number with only octal digits ends after them. -/
theorem legacyOctal_longest (hoctal : ∀ c ∈ digits, isOctalDigit c = true) :
    Longest (Literal false) ('0' :: (digits ++ rest)) ('0' :: digits) rest := by
  refine ⟨rfl, .legacyOctal rfl hne hoctal, fun other hother hpart => ?_⟩
  match other, hpart with
  | [], _ | [_], _ => simp
  | first :: c :: word, hpart =>
    obtain ⟨rfl, hword⟩ := List.cons_prefix_cons.mp hpart
    have hdigit : (c :: word).head?.any Char.isDigit = true := by
      have hhead := head?_any_append hne hdigits rest
      obtain ⟨tail, htail⟩ := hword
      rwa [← htail] at hhead
    rcases hother.afterZero.legacy hdigit with hsmall | ⟨others, after, hsame, hothers, hlarge, -⟩
    · have hshort := digits_of_part hrest (fun d hmem => isDigit_of_octal (hsmall d hmem)) hword
      exact Nat.succ_le_succ hshort.length_le
    · rw [hsame] at hword
      have hshort := digits_of_part hrest hothers ((List.prefix_append _ _).trans hword)
      obtain ⟨d, hmem, hd⟩ := hlarge
      cases hd.symm.trans (hoctal d (hshort.mem hmem))

/-- One with a larger digit goes on as an integer does. -/
theorem legacyDecimal_after (hlarge : ∃ c ∈ digits, isOctalDigit c = false) {word : List Char}
    (hword : Literal false ('0' :: (digits ++ word))) (hpart : word <+: rest) :
    AfterInteger word := by
  have hend : word.head?.any Char.isDigit = false := by
    obtain ⟨tail, rfl⟩ := hpart
    cases word with
    | nil => rfl
    | cons c word => exact hrest
  rcases hword.afterZero.legacy (head?_any_append hne hdigits word) with
    hsmall | ⟨others, after, hsame, hothers, -, hafter⟩
  · obtain ⟨c, hmem, hc⟩ := hlarge
    cases hc.symm.trans (hsmall c (List.mem_append_left word hmem))
  · have hrun := congrArg (List.takeWhile Char.isDigit) hsame
    rw [takeWhile_digits hdigits hend, takeWhile_digits hothers hafter.no_digit] at hrun
    subst hrun
    rwa [List.append_cancel_left hsame]

theorem legacy_reads :
    ∃ found tail, Reads (Literal false) flagsOf ('0' :: (digits ++ rest))
      (legacy false (digits ++ rest)) found tail := by
  have hflags := flagsOf_legacy hne hdigits
  have hlead : 'n' ∉ '0' :: digits := by
    intro hmem
    rcases List.mem_cons.mp hmem with hn | hn
    · cases hn
    · cases hdigits _ hn
  rw [legacy, if_neg Bool.false_ne_true]
  simp only [takeWhile_digits hdigits hrest, List.drop_left, Nat.add_comm 1]
  cases hoctal : digits.all isOctalDigit with
  | true =>
    have hall : ∀ c ∈ digits, isOctalDigit c = true := List.all_eq_true.mp hoctal
    have hkind : kindOf ('0' :: digits) = .numericLiteral :=
      if_neg fun hlast => hlead (List.mem_of_getLast? hlast)
    have hnone := hflags []
    rw [List.append_nil, hoctal] at hnone
    rw [if_pos rfl, ← hkind]
    exact ⟨_, _, .of_finish (legacyOctal_longest hne hdigits hrest hall) hnone⟩
  | false =>
    obtain ⟨found, tail, hreads⟩ := afterInteger_reads rest
    have hlarge : ∃ c ∈ digits, isOctalDigit c = false := by
      simpa using hoctal
    have hword : Literal false (('0' :: digits) ++ found) :=
      .legacyDecimal rfl hdigits hlarge hreads.longest.word
    have hmarks : flagsOf (('0' :: digits) ++ found) = Flags.union {} (decimalFlags found) := by
      rw [List.cons_append, hflags, List.all_append, hoctal, Flags.empty_union, decimalFlags,
        Bool.false_and]
    rw [if_neg Bool.false_ne_true]
    exact ⟨('0' :: digits) ++ found, tail, hreads.after hword
      (fun word hword hpart => .inr (legacyDecimal_after hne hdigits hrest hlarge hword hpart))
      hmarks (kindOf_append hlead found)⟩

end Legacy

/-- An underscore may not follow a zero, nor may a digit in strict mode. -/
theorem zero_refused {strict : Bool} {c : Char} {text : List Char} {lexeme : Lexeme}
    (hc : c = '_' ∨ strict = true ∧ c.isDigit = true) (hresult : lexeme.result.isOk = false) :
    Reads (Literal strict) flagsOf ('0' :: c :: text) lexeme ['0'] (c :: text) := by
  have hletter : ∀ radix, ∀ letter ∈ letters radix, (c :: text).head? ≠ some letter := by
    intro radix letter hmem hhead
    obtain rfl := Option.some.inj hhead
    obtain ⟨hnone, hunderscore, -⟩ := letters_spec radix _ hmem
    rcases hc with rfl | ⟨-, hdigit⟩
    · exact hunderscore rfl
    · cases hdigit.symm.trans hnone
  have hlegacy : strict = true ∨ (c :: text).head?.any Char.isDigit = false := by
    rcases hc with rfl | ⟨hstrict, -⟩
    · exact .inr rfl
    · exact .inl hstrict
  refine zero_reads (fun word hafter hpart => ?_) ?_ hresult
  · refine (hafter.afterInteger hpart hletter hlegacy).apart.eq_nil hpart ?_
    rcases hc with rfl | ⟨-, hdigit⟩
    · exact .inr rfl
    · exact .inl (isDigit_decimal hdigit)
  · rcases hc with rfl | ⟨-, hdigit⟩
    · rfl
    · rw [blocked, List.head?_cons, Option.any_some, hdigit, Bool.true_or]

theorem exists_digits {text : List Char} (hdigit : text.head?.any Char.isDigit = true) :
    ∃ digits rest, text = digits ++ rest ∧ digits ≠ [] ∧ (∀ c ∈ digits, c.isDigit = true) ∧
      rest.head?.any Char.isDigit = false := by
  obtain ⟨c, text, rfl, hc⟩ := Text.exists_cons_of_head?_any hdigit
  refine ⟨(c :: text).takeWhile Char.isDigit, (c :: text).dropWhile Char.isDigit,
    List.takeWhile_append_dropWhile.symm, ?_, List.all_eq_true.mp List.all_takeWhile, ?_⟩
  · rw [List.takeWhile_cons_of_pos hc]
    exact List.cons_ne_nil _ _
  · have hstop := List.head?_dropWhile_not Char.isDigit (c :: text)
    cases hhead : ((c :: text).dropWhile Char.isDigit).head? with
    | none => rfl
    | some d => rwa [hhead] at hstop

theorem leadingZero_reads (strict : Bool) (text : List Char) :
    ∃ found rest, Reads (Literal strict) flagsOf ('0' :: text) (leadingZero strict text) found
      rest := by
  cases text with
  | nil => exact integer_reads nofun rfl
  | cons c text =>
    have hinteger (hnone : c.isDigit = false ∧ ∀ radix, c ∉ letters radix) :
        ∃ found rest, Reads (Literal strict) flagsOf ('0' :: c :: text)
          ((afterInteger (c :: text)).after 1 [] {}) found rest := by
      refine integer_reads (fun radix letter hmem hhead => hnone.2 radix ?_) hnone.1
      rwa [Option.some.inj hhead]
    have hspec := digitClass_spec c
    rw [leadingZero, List.head?_cons, Option.bind_some]
    cases hclass : DigitClass.ofChar? c with
    | none =>
      rw [hclass] at hspec
      exact hinteger hspec
    | some kind =>
      rw [hclass] at hspec
      cases kind with
      | binary | octal | hex => exact prefixed_reads strict hspec text
      | underscore => exact ⟨_, _, zero_refused (.inl hspec) rfl⟩
      | other => exact hinteger hspec
      | digit =>
        cases strict with
        | true => exact ⟨_, _, zero_refused (.inr ⟨rfl, hspec⟩) rfl⟩
        | false =>
          have hdigit : (c :: text).head?.any Char.isDigit = true := hspec
          obtain ⟨digits, rest, htext, hne, hdigits, hrest⟩ := exists_digits hdigit
          rw [htext]
          exact legacy_reads hne hdigits hrest

/-- The first character of a number tells which it may be. -/
theorem Literal.decimal_of_head {strict : Bool} {c : Char} {word : List Char}
    (hliteral : Literal strict (c :: word)) (hdigit : c.isDigit = true) (hfirst : c ≠ '0') :
    DigitsThen .decimal AfterInteger (c :: word) := by
  generalize htext : c :: word = text at hliteral
  cases hliteral with
  | prefixed | zero | legacyOctal | legacyDecimal => exact absurd (List.cons.inj htext).1 hfirst
  | decimal hdigits hfirst hafter => exact .intro hdigits hafter
  | fraction =>
    obtain ⟨rfl, -⟩ := List.cons.inj htext
    cases hdigit

theorem Literal.afterInteger_of_point {strict : Bool} {word : List Char}
    (hliteral : Literal strict ('.' :: word)) : AfterInteger ('.' :: word) := by
  generalize htext : '.' :: word = text at hliteral
  cases hliteral with
  | prefixed | zero | legacyOctal | legacyDecimal => cases (List.cons.inj htext).1
  | decimal hdigits hfirst hafter =>
    cases hdigits with
    | intro hc hmore =>
      obtain ⟨rfl, -⟩ := List.cons.inj htext
      cases hc
  | fraction hdigits hexponent => exact .fraction hdigits hexponent

theorem exists_cons_of_begins {text : List Char} (htext : begins text = true) :
    ∃ c rest, text = c :: rest ∧
      (c.isDigit = true ∨ c = '.' ∧ rest.head?.any Char.isDigit = true) := by
  cases text with
  | nil => cases htext
  | cons c rest => exact ⟨c, rest, rfl, by simpa [begins] using htext⟩

theorem decimal_reads (strict : Bool) {text : List Char}
    (hdigit : text.head?.any Char.isDigit = true) (hfirst : text.head? ≠ some '0') :
    ∃ found rest, Reads (Literal strict) flagsOf text (withDigits .decimal false text afterInteger)
      found rest := by
  obtain ⟨c, text, rfl, hc⟩ := Text.exists_cons_of_head?_any hdigit
  have hne : c ≠ '0' := fun heq => hfirst (congrArg some heq)
  have hhead : (c :: text).head?.any (isDigit .decimal) = true := isDigit_decimal hc
  have hempty : AfterInteger [] := .integer .none
  obtain ⟨found, rest, hreads⟩ := withDigits_reads hhead false afterInteger_reads hempty
    (fun word hword => hword.apart) fun digits word hdigits _ => decimalFlags_digits hdigits word
  have hword : Literal strict found ∧ found.head? ≠ some '0' := by
    have hsplit := hreads.longest.split
    cases hreads.longest.word with
    | intro hdigits hafter =>
      cases hdigits with
      | intro hd hmore =>
        obtain ⟨rfl, -⟩ := List.cons.inj hsplit
        exact ⟨.decimal (.intro hd hmore) hfirst hafter, hfirst⟩
  refine ⟨found, rest, hreads.congr hword.1 (fun other hother hpart => ?_)
    (flagsOf_of_head hword.2)⟩
  cases other with
  | nil => exact .inl rfl
  | cons d other =>
    obtain ⟨rfl, -⟩ := List.cons_prefix_cons.mp hpart
    exact .inr (hother.decimal_of_head hc hne)

theorem fraction_reads (strict : Bool) {text : List Char}
    (hdigit : text.head?.any Char.isDigit = true) :
    ∃ found rest, Reads (Literal strict) flagsOf ('.' :: text) (afterInteger ('.' :: text)) found
      rest := by
  obtain ⟨c, text, rfl, hc⟩ := Text.exists_cons_of_head?_any hdigit
  obtain ⟨found, rest, hreads⟩ := afterInteger_reads ('.' :: c :: text)
  have hword : Literal strict found ∧ found.head? = some '.' := by
    -- The point and the first digit are such a word, so the longest one has this digit too.
    have hshort : AfterInteger ('.' :: ([c] ++ [])) :=
      .fraction (.intro (isDigit_decimal hc) .nil) .none
    have hlength := hreads.longest.longest ['.', c] hshort ⟨text, rfl⟩
    have hsplit := hreads.longest.split
    have hfound := hreads.longest.word
    match found, hlength, hsplit, hfound with
    | first :: second :: more, _, hsplit, hfound =>
      obtain ⟨rfl, htail⟩ := List.cons.inj hsplit
      obtain ⟨rfl, -⟩ := List.cons.inj htail
      refine ⟨?_, rfl⟩
      rcases hfound.after_point with hexponent | hthen
      · cases (isDigit_decimal hc).symm.trans (hexponent.apart second rfl).1
      · generalize second :: more = word at hthen
        cases hthen with
        | intro hdigits hending => exact .fraction hdigits hending.exponent_of_false
  have hfirst : found.head? ≠ some '0' := by
    rw [hword.2]
    decide
  refine ⟨found, rest, hreads.congr hword.1 (fun other hother hpart => ?_)
    (flagsOf_of_head hfirst)⟩
  cases other with
  | nil => exact .inl rfl
  | cons d other =>
    obtain ⟨rfl, -⟩ := List.cons_prefix_cons.mp hpart
    exact .inr hother.afterInteger_of_point

/-- Every reading of a number is of the longest one that its text begins with. -/
theorem shape_reads (strict : Bool) {text : List Char} (htext : begins text = true) :
    ∃ found rest, Reads (Literal strict) flagsOf text (shape strict text) found rest := by
  fun_cases shape strict text with
  | case1 rest => exact leadingZero_reads strict rest
  | case2 rest => exact fraction_reads strict htext
  | case3 text hzero hpoint =>
    obtain ⟨c, rest, rfl, hc⟩ := exists_cons_of_begins htext
    have hdigit : (c :: rest).head?.any Char.isDigit = true :=
      hc.resolve_right fun hc => hpoint rest (by rw [hc.1])
    refine decimal_reads strict hdigit fun hhead => hzero rest ?_
    rw [Option.some.inj hhead]

/-- The reading of a text that begins as a number does is that of the longest number it begins
    with, unless a character follows that may not stand there. -/
theorem read_longest (strict : Bool) {text : List Char} (htext : begins text = true) :
    ∃ found rest, Longest (Literal strict) text found rest ∧
      (blocked rest = true → (read strict text).result.isOk = false) ∧
      (blocked rest = false → read strict text =
        ⟨found.length, some found, flagsOf found, .ok (kindOf found)⟩) := by
  obtain ⟨found, rest, hreads⟩ := shape_reads strict htext
  refine ⟨found, rest, hreads.longest, fun hblocked => ?_, fun hfree => ?_⟩
  · have hrefused := hreads.refused hblocked
    cases hresult : (shape strict text).result with
    | error misread => simp only [read, hresult, Except.isOk, Except.toBool]
    | ok token =>
      rw [hresult] at hrefused
      cases hrefused
  · obtain ⟨hwidth, hflags, hresult⟩ := hreads.accepted hfree
    have hvalue : text.take found.length = found := by
      rw [← hreads.longest.split, List.take_left]
    simp only [read, hwidth, hflags, hresult, hvalue]

end EcmaLexer.Number
