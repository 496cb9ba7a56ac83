import EcmaLexer.Lexeme.Read
import EcmaLexer.Proofs.Lexeme.Escape

namespace EcmaLexer

open Text (isLineTerminator isLineTerminator_eq_false)

theorem Lexeme.result_of_after_ok {lexeme : Lexeme} {width : Nat} {value : List Char}
    {flags : Flags} {token : Token}
    (hresult : (lexeme.after width value flags).result = .ok token) :
    lexeme.result = .ok token := by
  unfold Lexeme.after at hresult
  cases hlexeme : lexeme.result with
  | ok found => simpa [hlexeme] using hresult
  | error found => simp [hlexeme] at hresult

theorem Lexeme.result_of_after_error {lexeme : Lexeme} {width : Nat} {value : List Char}
    {flags : Flags}
    {misread : Misread} (hresult : (lexeme.after width value flags).result = .error misread) :
    ∃ found, lexeme.result = .error found ∧ misread.before = width + found.before := by
  unfold Lexeme.after at hresult
  cases hlexeme : lexeme.result with
  | ok token => simp [hlexeme] at hresult
  | error found =>
    simp only [hlexeme, Except.error.injEq] at hresult
    exact ⟨found, rfl, by rw [← hresult]⟩

theorem Flags.union_empty (flags : Flags) : flags.union {} = flags := by
  simp [union]

theorem Flags.empty_union (flags : Flags) : ({} : Flags).union flags = flags := by
  simp [union]

/-- Nothing before a reading leaves it as it is. -/
theorem Lexeme.after_zero (lexeme : Lexeme) : lexeme.after 0 [] {} = lexeme := by
  rcases lexeme with ⟨width, value, flags, result⟩
  cases result <;> simp [after, Flags.empty_union]

/-- Two pieces before a reading are one longer piece. -/
theorem Lexeme.after_append (lexeme : Lexeme) (width more : Nat) (value later : List Char)
    (flags others : Flags) :
    (lexeme.after more later others).after width value flags =
      lexeme.after (width + more) (value ++ later) (flags.union others) := by
  rcases lexeme with ⟨_, found, _, result⟩
  cases result <;> cases found <;> simp [after, Flags.union, Nat.add_assoc, Bool.or_assoc]

/-- A reading that stays on its line: what it consumes is there and has no line
    terminator, a fault is found in it, and the token is not a template. -/
structure Lexeme.Inline (text : List Char) (lexeme : Lexeme) : Prop where
  width_le : lexeme.width ≤ text.length
  unbroken : ∀ c ∈ text.take lexeme.width, isLineTerminator c = false
  before_le : ∀ misread, lexeme.result = .error misread → misread.before ≤ lexeme.width
  token : ∀ token, lexeme.result = .ok token → token.isTemplate = false

namespace Lexeme.Inline

theorem accept {text : List Char} {width : Nat} {token : Token} (hwidth : width ≤ text.length)
    (hunbroken : ∀ c ∈ text.take width, isLineTerminator c = false)
    (htoken : token.isTemplate = false) :
    Inline text (.accept token width) where
  width_le := hwidth
  unbroken := hunbroken
  before_le := nofun
  token := by
    intro found hresult
    cases hresult
    exact htoken

theorem reject {text : List Char} {width before : Nat} (hwidth : width ≤ text.length)
    (hunbroken : ∀ c ∈ text.take width, isLineTerminator c = false) (hbefore : before ≤ width)
    (fault : Fault) :
    Inline text (.reject fault width before) where
  width_le := hwidth
  unbroken := hunbroken
  before_le := by
    intro misread hresult
    cases hresult
    exact hbefore
  token := nofun

/-- A reading that consumes nothing cannot leave its line. -/
theorem accept_zero (text : List Char) {token : Token} (htoken : token.isTemplate = false) :
    Inline text (.accept token 0) := accept (Nat.zero_le _) (by simp) htoken

theorem reject_zero (text : List Char) (fault : Fault) : Inline text (.reject fault 0 0) :=
  reject (Nat.zero_le _) (by simp) (Nat.le_refl 0) fault

theorem after {text : List Char} {width : Nat} {lexeme : Lexeme}
    (hrest : Inline (text.drop width) lexeme)
    (hwidth : width ≤ text.length) (hunbroken : ∀ c ∈ text.take width, isLineTerminator c = false)
    (value : List Char) (flags : Flags) : Inline text (lexeme.after width value flags) where
  width_le := by
    have hle := hrest.width_le
    rw [List.length_drop] at hle
    simp only [Lexeme.after]
    omega
  unbroken := by
    intro c hmem
    rw [Lexeme.after, List.take_add, List.mem_append] at hmem
    exact hmem.elim (hunbroken c) (hrest.unbroken c)
  before_le := by
    intro misread hresult
    obtain ⟨found, hfound, hbefore⟩ := result_of_after_error hresult
    rw [hbefore]
    exact Nat.add_le_add_left (hrest.before_le found hfound) width
  token := fun token hresult => hrest.token token (result_of_after_ok hresult)

theorem after_cons {c : Char} {rest : List Char} {lexeme : Lexeme} (hrest : Inline rest lexeme)
    (hc : isLineTerminator c = false) (value : List Char) (flags : Flags) :
    Inline (c :: rest) (lexeme.after 1 value flags) := by
  have hdrop : Inline ((c :: rest).drop 1) lexeme := hrest
  exact hdrop.after (Nat.le_add_left 1 _) (by simpa using hc) value flags

/-- Neither the value nor the facts of a reading matter, nor which token it gives. -/
theorem congr {text : List Char} {lexeme other : Lexeme} (hinline : Inline text lexeme)
    (hwidth : other.width = lexeme.width)
    (herror : ∀ misread, other.result = .error misread → lexeme.result = .error misread)
    (htoken : ∀ token, other.result = .ok token → token.isTemplate = false) :
    Inline text other where
  width_le := hwidth ▸ hinline.width_le
  unbroken := hwidth ▸ hinline.unbroken
  before_le := fun misread hresult => hwidth ▸ hinline.before_le misread (herror misread hresult)
  token := htoken

end Lexeme.Inline

theorem Text.exists_cons_of_head?_any {inClass : Char → Bool} {text : List Char}
    (hhead : text.head?.any inClass = true) : ∃ c rest, text = c :: rest ∧ inClass c = true := by
  cases text with
  | nil => cases hhead
  | cons c rest => exact ⟨c, rest, rfl, hhead⟩

namespace Number

open Lexeme (Inline)

theorem isLineTerminator_of_isDigit {radix : Radix} {c : Char} (hdigit : isDigit radix c = true) :
    isLineTerminator c = false := by
  apply Escape.isLineTerminator_of_isHexDigit
  unfold isDigit at hdigit
  cases hvalue : Character.hexValue? c with
  | none => simp [hvalue] at hdigit
  | some value => simp [Character.isHexDigit, hvalue]

/-- A run of digits and underscores on one line, with any misplaced underscore among
    them or right after them. -/
structure DigitRun.Inline (text : List Char) (run : DigitRun) : Prop where
  width_le : run.width ≤ text.length
  unbroken : ∀ c ∈ text.take run.width, isLineTerminator c = false
  misplaced_le : ∀ before, run.misplaced = some before → before ≤ run.width

theorem DigitRun.Inline.after {c : Char} {rest : List Char} {run : DigitRun}
    (hrun : run.Inline rest) (hc : isLineTerminator c = false) (separator : Bool) :
    (run.after separator).Inline (c :: rest) where
  width_le := Nat.succ_le_succ hrun.width_le
  unbroken := by
    intro d hmem
    rw [DigitRun.after, List.take_succ_cons, List.mem_cons] at hmem
    rcases hmem with rfl | hmem
    · exact hc
    · exact hrun.unbroken d hmem
  misplaced_le := by
    intro before hmisplaced
    rw [DigitRun.after, Option.map_eq_some_iff] at hmisplaced
    obtain ⟨found, hfound, rfl⟩ := hmisplaced
    exact Nat.succ_le_succ (hrun.misplaced_le found hfound)

theorem digits_inline (radix : Radix) (started : Bool) (text : List Char) :
    (digits radix started text).Inline text := by
  fun_induction digits radix started text with
  | case1 started => exact ⟨Nat.le_refl 0, by simp, nofun⟩
  | case2 started rest hstarted => exact ⟨Nat.zero_le _, by simp, by simp⟩
  | case3 started rest hstarted hdouble => exact ⟨by simp, by simp; decide, by simp⟩
  | case4 started rest hstarted hdouble hdigit ih => exact ih.after (by decide) true
  | case5 started rest hstarted hdouble hdigit => exact ⟨by simp, by simp; decide, by simp⟩
  | case6 started c rest hunderscore hdigit ih =>
    exact ih.after (isLineTerminator_of_isDigit hdigit) false
  | case7 started c rest hunderscore hdigit => exact ⟨Nat.zero_le _, by simp, nofun⟩

theorem finish_inline {token : Token} (htoken : token.isTemplate = false) (text : List Char) :
    Inline text (finish token text) := by
  fun_cases finish token text with
  | case1 => exact .accept_zero [] htoken
  | case2 rest => exact .reject_zero _ _
  | case3 c rest => exact .reject_zero _ _
  | case4 c rest => exact .accept_zero _ htoken

theorem suffix_inline (integer : Bool) (text : List Char) : Inline text (suffix integer text) := by
  fun_cases suffix integer text with
  | case1 hbig =>
    simp only [Bool.and_eq_true, decide_eq_true_eq] at hbig
    obtain ⟨rest, rfl⟩ := List.head?_eq_some_iff.mp hbig.2
    exact (finish_inline rfl rest).after_cons (by decide) [] {}
  | case2 => exact finish_inline rfl text

theorem withDigits_inline {next : List Char → Lexeme} (hnext : ∀ rest, Inline rest (next rest))
    (radix : Radix)
    (required : Bool) (text : List Char) : Inline text (withDigits radix required text next) := by
  have hrun := digits_inline radix false text
  fun_cases withDigits radix required text next with
  | case1 run flags before hmisplaced =>
    have hreject : Inline text (.reject .invalidNumericSeparator run.width before) :=
      .reject hrun.width_le hrun.unbroken (hrun.misplaced_le before hmisplaced) _
    have hdrop : Inline (text.drop 0) (.reject .invalidNumericSeparator run.width before) := hreject
    exact hdrop.after (Nat.zero_le _) (by simp) [] flags
  | case2 run hmisplaced hmissing => exact .reject_zero text _
  | case3 run flags hmisplaced hmissing => exact (hnext _).after hrun.width_le hrun.unbroken [] flags

theorem exponent_inline (integer : Bool) (text : List Char) :
    Inline text (exponent integer text) := by
  fun_cases exponent integer text with
  | case1 hmark width =>
    obtain ⟨c, rest, rfl, hc⟩ := Text.exists_cons_of_head?_any hmark
    have hunbroken := isLineTerminator_eq_false isExponentMark hc (by decide)
    have hdigits := withDigits_inline (suffix_inline false) .decimal true ((c :: rest).drop width)
    cases hsign : rest.head?.any isSign with
    | false =>
      have hwidth : width = 1 := by simp [width, hsign]
      rw [hwidth] at hdigits ⊢
      exact hdigits.after_cons hunbroken [] { scientific := true }
    | true =>
      have hwidth : width = 2 := by simp [width, hsign]
      obtain ⟨sign, tail, rfl, hsign⟩ := Text.exists_cons_of_head?_any hsign
      have hsign := isLineTerminator_eq_false isSign hsign (by decide)
      rw [hwidth] at hdigits ⊢
      exact hdigits.after (by simp) (by simp [hunbroken, hsign]) [] { scientific := true }
  | case2 => exact suffix_inline integer text

theorem afterInteger_inline (text : List Char) : Inline text (afterInteger text) := by
  fun_cases afterInteger text with
  | case1 hpoint =>
    obtain ⟨rest, rfl⟩ := List.head?_eq_some_iff.mp hpoint
    exact (withDigits_inline (exponent_inline false) .decimal false rest).after_cons (by decide) [] {}
  | case2 => exact exponent_inline true text

theorem prefixed_inline {c : Char} (hc : isLineTerminator c = false) (radix : Radix) (flags : Flags)
    (rest : List Char) : Inline ('0' :: c :: rest) (prefixed radix flags (c :: rest)) := by
  have hdigits : Inline (('0' :: c :: rest).drop 2) (withDigits radix true rest (suffix true)) :=
    withDigits_inline (suffix_inline true) radix true rest
  exact hdigits.after (by simp) (by simp [hc]; decide) [] flags

theorem legacy_inline (strict : Bool) (text : List Char) :
    Inline ('0' :: text) (legacy strict text) := by
  have hwidth : 1 + (text.takeWhile Char.isDigit).length ≤ ('0' :: text).length := by
    have hle : (text.takeWhile Char.isDigit).length ≤ text.length :=
      (List.takeWhile_prefix Char.isDigit).length_le
    rw [List.length_cons]
    omega
  have hrun : ∀ c ∈ ('0' :: text).take (1 + (text.takeWhile Char.isDigit).length),
      isLineTerminator c = false := by
    intro c hmem
    rw [Nat.add_comm, List.take_succ_cons, Escape.take_length_takeWhile, List.mem_cons] at hmem
    rcases hmem with rfl | hmem
    · decide
    · have hdigit := List.all_eq_true.mp List.all_takeWhile c hmem
      exact isLineTerminator_eq_false Char.isDigit hdigit (by decide)
  fun_cases legacy strict text with
  | case1 => exact .reject (by simp) (by simp; decide) (Nat.zero_le 1) _
  | case2 hstrict run rest hoctal =>
    have hfinish : Inline (('0' :: text).drop (1 + run.length)) (finish .numericLiteral rest) := by
      rw [Nat.add_comm]
      exact finish_inline rfl rest
    exact hfinish.after hwidth hrun [] { octal := true }
  | case3 hstrict run rest hoctal =>
    have hafter : Inline (('0' :: text).drop (1 + run.length)) (afterInteger rest) := by
      rw [Nat.add_comm]
      exact afterInteger_inline rest
    exact hafter.after hwidth hrun [] {}

theorem leadingZero_inline (strict : Bool) (text : List Char) :
    Inline ('0' :: text) (leadingZero strict text) := by
  have hprefixed {digitClass : DigitClass}
      (hclass : text.head?.bind DigitClass.ofChar? = some digitClass)
      (hnone : ['\n', '\r', '\u2028', '\u2029'].any (DigitClass.ofChar? · == some digitClass) = false)
      (radix : Radix) (flags : Flags) : Inline ('0' :: text) (prefixed radix flags text) := by
    cases text with
    | nil => cases hclass
    | cons c rest =>
      have hc : (DigitClass.ofChar? c == some digitClass) = true := beq_iff_eq.mpr hclass
      have hunbroken := isLineTerminator_eq_false (DigitClass.ofChar? · == some digitClass) hc hnone
      exact prefixed_inline hunbroken radix flags rest
  fun_cases leadingZero strict text with
  | case1 hclass => exact hprefixed hclass (by decide) _ _
  | case2 hclass => exact hprefixed hclass (by decide) _ _
  | case3 hclass => exact hprefixed hclass (by decide) _ _
  | case4 hclass => exact .reject (by simp) (by simp; decide) (Nat.le_refl 1) _
  | case5 hclass => exact legacy_inline strict text
  | case6 hclass => exact (afterInteger_inline text).after_cons (by decide) [] {}
  | case7 hclass => exact (afterInteger_inline text).after_cons (by decide) [] {}

theorem shape_inline (strict : Bool) (text : List Char) : Inline text (shape strict text) := by
  fun_cases shape strict text with
  | case1 rest => exact leadingZero_inline strict rest
  | case2 rest => exact afterInteger_inline ('.' :: rest)
  | case3 => exact withDigits_inline afterInteger_inline .decimal false text

/-- A number stays on its line. -/
theorem read_inline (strict : Bool) (text : List Char) : Inline text (read strict text) := by
  have hshape := shape_inline strict text
  fun_cases read strict text with
  | case1 lexeme token hresult => exact hshape.congr rfl (fun _ h => h) hshape.token
  | case2 lexeme misread hresult => exact hshape.congr rfl (fun _ h => h) hshape.token

end Number

namespace Name

open Lexeme (Inline)

theorem isLineTerminator_of_allowed {first : Bool} {c : Char} (hallowed : allowed first c = true) :
    isLineTerminator c = false := by
  cases first with
  | false => exact isLineTerminator_eq_false Character.isIdentifierPart hallowed (by decide +kernel)
  | true => exact isLineTerminator_eq_false Character.isIdentifierStart hallowed (by decide +kernel)

theorem elements_inline (first : Bool) (text : List Char) : Inline text (elements first text) := by
  -- A unicode escape with its `\u`, whatever it stands for, is on one line.
  have hescape (rest : List Char) : 2 + (Escape.unicode rest).width ≤ ('\\' :: 'u' :: rest).length ∧
      ∀ c ∈ ('\\' :: 'u' :: rest).take (2 + (Escape.unicode rest).width),
        isLineTerminator c = false := by
    obtain ⟨hwidth, hbody⟩ := Escape.unicode_take rest
    refine ⟨?_, fun c hmem => ?_⟩
    · rw [List.length_cons, List.length_cons]
      omega
    · rw [Nat.add_comm, List.take_succ_cons, List.take_succ_cons, List.mem_cons,
        List.mem_cons] at hmem
      rcases hmem with rfl | rfl | hmem
      · decide
      · decide
      · exact hbody.unbroken c hmem
  fun_induction elements first text with
  | case1 first => exact .accept_zero [] rfl
  | case2 first rest escape c hresult hallowed ih =>
    have hdrop : Inline (('\\' :: 'u' :: rest).drop (2 + escape.width))
        (elements false (rest.drop escape.width)) := by
      rw [Nat.add_comm]
      exact ih
    exact hdrop.after (hescape rest).1 (hescape rest).2 [c] { unicodeEscape := true }
  | case3 first rest escape c hresult hallowed =>
    exact .reject (hescape rest).1 (hescape rest).2 (Nat.zero_le _) _
  | case4 first rest escape fault hresult =>
    exact .reject (hescape rest).1 (hescape rest).2 (Nat.zero_le _) _
  | case5 first rest hunicode => exact .reject (by simp) (by simp; decide) (Nat.zero_le 1) _
  | case6 first c rest hunicode hbackslash hallowed ih =>
    exact ih.after_cons (isLineTerminator_of_allowed hallowed) [c] {}
  | case7 first c rest hunicode hbackslash hallowed => exact .accept_zero _ rfl

theorem settle_inline {text : List Char} {lexeme : Lexeme} (hinline : Inline text lexeme) :
    Inline text (settle lexeme) := by
  fun_cases settle lexeme with
  | case1 => exact hinline
  | case2 => exact hinline.congr rfl (fun _ h => h) hinline.token

/-- An identifier or keyword stays on its line. -/
theorem identifier_inline (keywordLetter : Bool) (text : List Char) :
    Inline text (identifier keywordLetter text) := by
  have hsettled := settle_inline (elements_inline true text)
  fun_cases identifier keywordLetter text with
  | case1 lexeme token hresult hlookup k hkeyword =>
    refine hsettled.congr rfl nofun fun token hresult => ?_
    cases hresult
    rfl
  | case2 => exact hsettled
  | case3 => exact hsettled
  | case4 => exact hsettled

/-- A private name stays on its line. -/
theorem privateName_inline (rest : List Char) : Inline ('#' :: rest) (privateName rest) := by
  have hsettled := settle_inline (elements_inline true rest)
  fun_cases privateName rest with
  | case1 hstart lexeme =>
    refine .after_cons ?_ (by decide) ['#'] {}
    split
    · refine hsettled.congr rfl nofun fun token hresult => ?_
      cases hresult
      rfl
    · exact hsettled
  | case2 => exact .reject (by simp) (by simp; decide) (Nat.zero_le 1) _

end Name

namespace Punctuator

theorem text_unbroken (punctuator : Punctuator) :
    ∀ c ∈ punctuator.text.toList, isLineTerminator c = false := by
  have hall : punctuator.text.toList.all (fun c => !isLineTerminator c) = true := by
    cases punctuator <;> decide
  intro c hmem
  simpa using List.all_eq_true.mp hall c hmem

theorem text_of_ofChar? {c : Char} {punctuator : Punctuator} (hchar : ofChar? c = some punctuator) :
    punctuator.text.toList = [c] := by
  unfold ofChar? at hchar
  split at hchar <;> cases hchar <;> rfl

/-- The longest punctuator stands at the head of the text. -/
theorem longest_prefix {first : Punctuator} {c : Char} (hchar : ofChar? c = some first)
    (rest : List Char) :
    (first.longest (c :: rest)).text.toList <+: c :: rest := by
  unfold longest
  cases hfind : first.extensions.find? (·.fits (c :: rest)) with
  | none =>
    rw [Option.getD_none, text_of_ofChar? hchar]
    exact List.prefix_append [c] rest
  | some longer =>
    have hfits := List.find?_some hfind
    rw [fits, Bool.and_eq_true] at hfits
    exact List.isPrefixOf_iff_prefix.mp hfits.1

end Punctuator

theorem Lexeme.ofPunctuator_inline {first : Punctuator} {c : Char}
    (hchar : Punctuator.ofChar? c = some first)
    (rest : List Char) : Inline (c :: rest) (ofPunctuator first (c :: rest)) := by
  have hstarts := Punctuator.longest_prefix hchar rest
  refine .accept hstarts.length_le ?_ rfl
  rw [← List.prefix_iff_eq_take.mp hstarts]
  exact Punctuator.text_unbroken _

end EcmaLexer
