import EcmaLexer.Proofs.Lexeme.Fits

namespace EcmaLexer

/-- The value of a reading is missing exactly when its facts say that it was abandoned. -/
def Lexeme.Marked (lexeme : Lexeme) : Prop :=
  lexeme.value = none ↔ lexeme.flags.containsInvalidEscape = true

theorem Lexeme.Marked.after {lexeme : Lexeme} (hmarked : lexeme.Marked) (width : Nat)
    (value : List Char) {flags : Flags} (hflags : flags.containsInvalidEscape = false) :
    (lexeme.after width value flags).Marked := by
  unfold Marked at *
  simp only [Lexeme.after, Option.map_eq_none_iff, Flags.union, hflags, Bool.false_or]
  exact hmarked

/-- The tokens that are literals or names, templates apart. -/
def Token.isWord : Token → Bool
  | stringLiteral | numericLiteral | bigIntLiteral | identifier | privateName | keyword _ => true
  | _ => false

/-- A reading of a literal or a name, which keeps its cooked value also where it fails. -/
structure Lexeme.Plain (lexeme : Lexeme) : Prop where
  value : lexeme.value.isSome = true
  cooked : lexeme.flags.containsInvalidEscape = false
  token : ∀ token, lexeme.result = .ok token → token.isWord = true

namespace Lexeme.Plain

theorem marked {lexeme : Lexeme} (hplain : Plain lexeme) : lexeme.Marked := by
  obtain ⟨value, hvalue⟩ := Option.isSome_iff_exists.mp hplain.value
  simp [Marked, hvalue, hplain.cooked]

theorem accept {token : Token} (htoken : token.isWord = true) (width : Nat) :
    Plain (.accept token width) where
  value := rfl
  cooked := rfl
  token := by
    intro found hresult
    cases hresult
    exact htoken

theorem reject (fault : Fault) (width before : Nat) : Plain (.reject fault width before) where
  value := rfl
  cooked := rfl
  token := nofun

theorem after {lexeme : Lexeme} (hplain : Plain lexeme) (width : Nat) (value : List Char)
    {flags : Flags} (hflags : flags.containsInvalidEscape = false) :
    Plain (lexeme.after width value flags) where
  value := by
    rw [Lexeme.after, Option.isSome_map]
    exact hplain.value
  cooked := by
    rw [Lexeme.after, Flags.union, hflags, hplain.cooked]
    rfl
  token := fun token hresult => hplain.token token (result_of_after_ok hresult)

end Lexeme.Plain

namespace Number

open Lexeme (Plain)

theorem finish_plain {token : Token} (htoken : token.isWord = true) (text : List Char) :
    Plain (finish token text) := by
  fun_cases finish token text with
  | case1 => exact .accept htoken 0
  | case2 rest => exact .reject _ _ _
  | case3 c rest => exact .reject _ _ _
  | case4 c rest => exact .accept htoken 0

theorem suffix_plain (integer : Bool) (text : List Char) : Plain (suffix integer text) := by
  fun_cases suffix integer text with
  | case1 => exact (finish_plain rfl _).after 1 [] rfl
  | case2 => exact finish_plain rfl text

theorem withDigits_plain {next : List Char → Lexeme} (hnext : ∀ rest, Plain (next rest))
    (radix : Radix) (required : Bool) (text : List Char) :
    Plain (withDigits radix required text next) := by
  fun_cases withDigits radix required text next with
  | case1 run flags before hmisplaced => exact (Plain.reject _ _ _).after 0 [] rfl
  | case2 run hmisplaced hmissing => exact .reject _ _ _
  | case3 run flags hmisplaced hmissing => exact (hnext _).after _ [] rfl

theorem exponent_plain (integer : Bool) (text : List Char) : Plain (exponent integer text) := by
  fun_cases exponent integer text with
  | case1 hmark width => exact (withDigits_plain (suffix_plain false) _ _ _).after width [] rfl
  | case2 => exact suffix_plain integer text

theorem afterInteger_plain (text : List Char) : Plain (afterInteger text) := by
  fun_cases afterInteger text with
  | case1 hpoint => exact (withDigits_plain (exponent_plain false) _ _ _).after 1 [] rfl
  | case2 => exact exponent_plain true text

theorem prefixed_plain (radix : Radix) {flags : Flags}
    (hflags : flags.containsInvalidEscape = false) (text : List Char) :
    Plain (prefixed radix flags text) :=
  (withDigits_plain (suffix_plain true) radix true _).after 2 [] hflags

theorem legacy_plain (strict : Bool) (text : List Char) : Plain (legacy strict text) := by
  fun_cases legacy strict text with
  | case1 => exact .reject _ _ _
  | case2 hstrict run rest hoctal => exact (finish_plain rfl rest).after _ [] rfl
  | case3 hstrict run rest hoctal => exact (afterInteger_plain rest).after _ [] rfl

theorem leadingZero_plain (strict : Bool) (text : List Char) : Plain (leadingZero strict text) := by
  fun_cases leadingZero strict text with
  | case1 hclass => exact prefixed_plain _ rfl text
  | case2 hclass => exact prefixed_plain _ rfl text
  | case3 hclass => exact prefixed_plain _ rfl text
  | case4 hclass => exact .reject _ _ _
  | case5 hclass => exact legacy_plain strict text
  | case6 hclass => exact (afterInteger_plain text).after 1 [] rfl
  | case7 hclass => exact (afterInteger_plain text).after 1 [] rfl

theorem shape_plain (strict : Bool) (text : List Char) : Plain (shape strict text) := by
  fun_cases shape strict text with
  | case1 rest => exact leadingZero_plain strict rest
  | case2 rest => exact afterInteger_plain _
  | case3 => exact withDigits_plain afterInteger_plain _ _ text

theorem read_plain (strict : Bool) (text : List Char) : Plain (read strict text) := by
  have hshape := shape_plain strict text
  fun_cases read strict text with
  | case1 lexeme token hresult => exact ⟨rfl, hshape.cooked, hshape.token⟩
  | case2 lexeme misread hresult => exact ⟨rfl, hshape.cooked, hshape.token⟩

end Number

namespace Name

open Lexeme (Plain)

theorem elements_plain (first : Bool) (text : List Char) : Plain (elements first text) := by
  fun_induction elements first text with
  | case1 first => exact .accept rfl 0
  | case2 first rest escape c hresult hallowed ih => exact ih.after _ [c] rfl
  | case3 first rest escape c hresult hallowed => exact .reject _ _ _
  | case4 first rest escape fault hresult => exact .reject _ _ _
  | case5 first rest hunicode => exact .reject _ _ _
  | case6 first c rest hunicode hbackslash hallowed ih => exact ih.after 1 [c] rfl
  | case7 first c rest hunicode hbackslash hallowed => exact .accept rfl 0

theorem settle_plain {lexeme : Lexeme} (hplain : Plain lexeme) : Plain (settle lexeme) := by
  fun_cases settle lexeme with
  | case1 => exact hplain
  | case2 => exact ⟨hplain.value, rfl, hplain.token⟩

theorem identifier_plain (keywordLetter : Bool) (text : List Char) :
    Plain (identifier keywordLetter text) := by
  have hsettled := settle_plain (elements_plain true text)
  fun_cases identifier keywordLetter text with
  | case1 lexeme token hresult hlookup k hkeyword =>
    refine ⟨hsettled.value, hsettled.cooked, fun token hresult => ?_⟩
    cases hresult
    rfl
  | case2 => exact hsettled
  | case3 => exact hsettled
  | case4 => exact hsettled

theorem privateName_plain (rest : List Char) : Plain (privateName rest) := by
  have hsettled := settle_plain (elements_plain true rest)
  fun_cases privateName rest with
  | case1 hstart lexeme =>
    refine .after ?_ 1 ['#'] rfl
    split
    · refine ⟨hsettled.value, hsettled.cooked, fun token hresult => ?_⟩
      cases hresult
      rfl
    · exact hsettled
  | case2 => exact .reject _ _ _

end Name

theorem StringLiteral.body_plain (strict : Bool) (quote : Char) (text : List Char) :
    (body strict quote text).Plain := by
  fun_induction body strict quote text with
  | case1 => exact .reject _ _ _
  | case2 rest => exact .accept rfl 1
  | case3 => exact .reject _ _ _
  | case4 first tail escape value hresult hc ih => exact ih.after _ value rfl
  | case5 first tail escape fault hresult hc => exact .reject _ _ _
  | case6 c rest hc hbackslash hbreak => exact .reject _ _ _
  | case7 c rest hc hbackslash hbreak ih => exact ih.after 1 [c] rfl

/-- A segment has no value exactly when it is marked as one with a malformed escape,
    also where its end was not found. -/
theorem Template.segment_marked (context : Context) (text : List Char) :
    (segment context text).Marked := by
  fun_induction segment context text with
  | case1 => exact (Lexeme.Plain.reject _ _ _).marked
  | case2 rest => exact ⟨by rintro ⟨⟩, by rintro ⟨⟩⟩
  | case3 rest => exact ⟨by rintro ⟨⟩, by rintro ⟨⟩⟩
  | case4 => exact (Lexeme.Plain.reject _ _ _).marked
  | case5 first tail escape rest value hresult ih => exact ih.after _ value rfl
  | case6 first tail escape rest fault hresult htagged => simp [Lexeme.Marked, abandon]
  | case7 first tail escape fault hresult htagged => exact (Lexeme.Plain.reject _ _ _).marked
  | case8 rest ih => exact ih.after 2 ['\n'] rfl
  | case9 rest hpair ih => exact ih.after 1 ['\n'] rfl
  | case10 c rest hbacktick hdollar hend hescape hpair hreturn ih => exact ih.after 1 [c] rfl

namespace Lexeme

/-- Whatever a text begins with other than a backtick, a literal, a name or a punctuator
    is read there. -/
theorem read_plain {c : Char} (hbacktick : c ≠ '\x60') (context : Context) (rest : List Char) :
    Plain (read context c rest) ∨
      ∃ first, Punctuator.ofChar? c = some first ∧
        read context c rest = ofPunctuator first (c :: rest) := by
  fun_cases read context c rest with
  | case1 hclass => exact .inl ((StringLiteral.body_plain _ _ _).after 1 [] rfl)
  | case2 hclass => exact absurd (eq_backtick_of_class hclass) hbacktick
  | case3 | case4 | case8 => exact .inl (Number.read_plain _ _)
  | case5 | case6 | case7 | case15 => exact .inl (Name.identifier_plain _ _)
  | case9 first hclass hpoint => exact .inr ⟨first, ofChar?_of_class hclass, rfl⟩
  | case10 hclass hsign => exact .inl (Name.privateName_plain rest)
  | case11 | case12 | case13 | case14 | case16 => exact .inl (.reject _ _ _)

/-- Only a template can lose its cooked value. -/
theorem read_value {c : Char} (hbacktick : c ≠ '\x60') (context : Context) (rest : List Char) :
    (read context c rest).value.isSome = true ∧ (read context c rest).Marked := by
  rcases read_plain hbacktick context rest with hplain | ⟨first, hfirst, hread⟩
  · exact ⟨hplain.value, hplain.marked⟩
  · rw [hread]
    exact ⟨rfl, by rintro ⟨⟩, by rintro ⟨⟩⟩

end Lexeme

namespace StartClass

theorem eq_zero_of_class {c : Char} (hclass : ofChar? c = some .zero) : c = '0' := by
  have hascii := Lexeme.ofAscii_of_class hclass
  unfold ofAscii at hascii
  repeat' split at hascii
  all_goals first | rfl | cases hascii

theorem eq_backslash_of_class {c : Char} (hclass : ofChar? c = some .backslash) : c = '\\' := by
  have hascii := Lexeme.ofAscii_of_class hclass
  unfold ofAscii at hascii
  repeat' split at hascii
  all_goals first | rfl | cases hascii

theorem isDigit_of_class {c : Char} (hclass : ofChar? c = some .digit) : c.isDigit = true := by
  have hascii := Lexeme.ofAscii_of_class hclass
  unfold ofAscii at hascii
  repeat' split at hascii
  all_goals first | assumption | cases hascii

theorem isIdentifierStart_of_class {c : Char}
    (hclass : ofChar? c = some .letter ∨ ofChar? c = some .keywordLetter) :
    Character.isIdentifierStart c = true := by
  have hlow : c.toNat < 0x80 := by
    rcases Nat.lt_or_ge c.toNat 0x80 with hlow | hhigh
    · exact hlow
    · simp [ofChar?, Nat.not_lt.mpr hhigh] at hclass
  have hletter : (c == '_' || c == '$' || c.isAlpha) = true := by
    have hascii := hclass.imp Lexeme.ofAscii_of_class Lexeme.ofAscii_of_class
    have halpha : c.isAlpha = (c.isUpper || c.isLower) := rfl
    unfold ofAscii at hascii
    repeat' split at hascii
    all_goals simp_all
  simpa [Character.isIdentifierStart, Character.isAscii, hlow] using hletter

end StartClass

namespace Number

theorem leadingZero_width_pos (strict : Bool) (text : List Char) :
    0 < (leadingZero strict text).width := by
  have hafter (lexeme : Lexeme) (width : Nat) (flags : Flags) :
      0 < (lexeme.after (1 + width) [] flags).width := by
    simp only [Lexeme.after]
    omega
  fun_cases leadingZero strict text with
  | case1 | case2 | case3 => exact hafter _ 1 _
  | case4 => exact Nat.one_pos
  | case5 =>
    fun_cases legacy strict text with
    | case1 => exact Nat.one_pos
    | case2 | case3 => exact hafter _ _ _
  | case6 | case7 => exact hafter _ 0 _

theorem digits_width_pos {radix : Radix} {c : Char} (hc : isDigit radix c = true) (started : Bool)
    (rest : List Char) : 0 < (digits radix started (c :: rest)).width := by
  have hunderscore : c ≠ '_' := by
    rintro rfl
    cases radix <;> cases hc
  rw [digits, if_neg hunderscore, if_pos hc]
  exact Nat.succ_pos _

theorem isDigit_decimal {c : Char} (hc : c.isDigit = true) : isDigit .decimal c = true := by
  have hrange : 48 ≤ c.toNat ∧ c.toNat ≤ 57 := by
    simpa [Char.isDigit, UInt32.le_iff_toNat_le, ge_iff_le] using hc
  have hvalue : Character.hexValue? c = some (c.toNat - 48) := by
    have hdecimal : ('0' ≤ c && c ≤ '9') = true := by
      simpa [Char.le_def, UInt32.le_iff_toNat_le] using hrange
    rw [Character.hexValue?, if_pos hdecimal]
    rfl
  have hsmall : c.toNat - 48 < Radix.decimal.value := by
    rw [Radix.value]
    omega
  simpa [isDigit, hvalue] using hsmall

theorem withDigits_width_pos {radix : Radix} {c : Char} (hc : isDigit radix c = true)
    (required : Bool) (rest : List Char) (next : List Char → Lexeme) :
    0 < (withDigits radix required (c :: rest) next).width := by
  have hrun := digits_width_pos hc false rest
  fun_cases withDigits radix required (c :: rest) next with
  | case1 run flags before hmisplaced => exact Nat.lt_add_left 0 hrun
  | case2 run hmisplaced hmissing =>
    simp only [Bool.and_eq_true, decide_eq_true_eq] at hmissing
    exact absurd hmissing.2 (Nat.ne_of_gt hrun)
  | case3 run flags hmisplaced hmissing => exact Nat.lt_add_right _ hrun

theorem read_width_pos {c : Char} (hc : c.isDigit = true ∨ c = '.') (strict : Bool)
    (rest : List Char) : 0 < (read strict (c :: rest)).width := by
  have hshape : 0 < (shape strict (c :: rest)).width := by
    generalize htext : c :: rest = text
    fun_cases shape strict text with
    | case1 rest => exact leadingZero_width_pos strict rest
    | case2 rest =>
      simp only [afterInteger, List.head?_cons, if_true, Lexeme.after]
      omega
    | case3 _ hzero hpoint =>
      have hdigit := hc.resolve_right fun hc => hpoint rest (by rw [← htext, hc])
      rw [← htext]
      exact withDigits_width_pos (isDigit_decimal hdigit) _ _ _
  fun_cases read strict (c :: rest) with
  | case1 | case2 => exact hshape

end Number

namespace Name

theorem elements_width_pos {c : Char} {rest : List Char} {token : Token}
    (hc : c = '\\' ∨ Character.isIdentifierStart c = true)
    (hresult : (elements true (c :: rest)).result = .ok token) :
    0 < (elements true (c :: rest)).width := by
  revert hresult
  generalize htext : c :: rest = text
  fun_cases elements true text with
  | case1 => cases htext
  | case2 rest escape d hescape hallowed =>
    intro _
    simp only [Lexeme.after]
    omega
  | case3 | case4 | case5 => rintro ⟨⟩
  | case6 d rest hunicode hbackslash hallowed =>
    intro _
    simp only [Lexeme.after]
    omega
  | case7 d rest hunicode hbackslash hallowed =>
    cases htext
    rcases hc with rfl | hstart
    · exact absurd rfl (hbackslash)
    · exact absurd hstart hallowed

/-- The facts that are given up with a name do not change how far it was read. -/
theorem settle_reads (lexeme : Lexeme) :
    (settle lexeme).width = lexeme.width ∧ (settle lexeme).result = lexeme.result := by
  fun_cases settle lexeme with
  | case1 => exact ⟨rfl, rfl⟩
  | case2 => exact ⟨rfl, rfl⟩

theorem identifier_width_pos {c : Char} {rest : List Char} {token : Token} {keywordLetter : Bool}
    (hc : c = '\\' ∨ Character.isIdentifierStart c = true)
    (hresult : (identifier keywordLetter (c :: rest)).result = .ok token) :
    0 < (identifier keywordLetter (c :: rest)).width := by
  obtain ⟨hwidth, hsettled⟩ := settle_reads (elements true (c :: rest))
  have hpos {found : Token} (hfound : (settle (elements true (c :: rest))).result = .ok found) :
      0 < (settle (elements true (c :: rest))).width := by
    rw [hwidth]
    exact elements_width_pos hc (hsettled ▸ hfound)
  revert hresult
  fun_cases identifier keywordLetter (c :: rest) with
  | case1 lexeme found hfound => exact fun _ => hpos hfound
  | case2 lexeme found hfound => exact fun _ => hpos hfound
  | case3 lexeme found hfound => exact fun _ => hpos hfound
  | case4 lexeme misread hmisread => exact fun hresult => hpos hresult

end Name

theorem Punctuator.text_ne_nil (punctuator : Punctuator) : punctuator.text.toList ≠ [] := by
  cases punctuator <;> decide

namespace Lexeme

/-- A token takes up at least the character it begins with. -/
theorem read_width_pos {context : Context} {c : Char} {rest : List Char} {token : Token}
    (hresult : (read context c rest).result = .ok token) : 0 < (read context c rest).width := by
  have hafter (lexeme : Lexeme) (value : List Char) : 0 < (lexeme.after 1 value {}).width :=
    Nat.lt_add_right _ Nat.one_pos
  revert hresult
  fun_cases read context c rest with
  | case1 | case2 => exact fun _ => hafter _ []
  | case3 hclass =>
    rw [StartClass.eq_zero_of_class hclass]
    exact fun _ => Number.read_width_pos (.inl rfl) _ _
  | case4 hclass =>
    exact fun _ => Number.read_width_pos (.inl (StartClass.isDigit_of_class hclass)) _ _
  | case5 hclass =>
    exact Name.identifier_width_pos (.inr (StartClass.isIdentifierStart_of_class (.inr hclass)))
  | case6 hclass =>
    exact Name.identifier_width_pos (.inr (StartClass.isIdentifierStart_of_class (.inl hclass)))
  | case7 hclass => exact Name.identifier_width_pos (.inl (StartClass.eq_backslash_of_class hclass))
  | case8 first hclass hpoint =>
    simp only [Bool.and_eq_true, decide_eq_true_eq] at hpoint
    have htext := Punctuator.text_of_ofChar? (ofChar?_of_class hclass)
    rw [hpoint.1] at htext
    exact fun _ => Number.read_width_pos (.inr (List.cons.inj htext).1.symm) _ _
  | case9 first hclass hpoint =>
    intro _
    exact List.length_pos_iff.mpr (Punctuator.text_ne_nil _)
  | case10 hclass hsign =>
    fun_cases Name.privateName rest with
    | case1 => exact fun _ => hafter _ ['#']
    | case2 => exact fun _ => Nat.one_pos
  | case11 | case12 | case13 | case14 => rintro ⟨⟩
  | case15 hclass hstart => exact Name.identifier_width_pos (.inr hstart)
  | case16 => rintro ⟨⟩

end Lexeme

end EcmaLexer
