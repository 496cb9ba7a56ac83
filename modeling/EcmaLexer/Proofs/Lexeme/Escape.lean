import EcmaLexer.Lexeme.Escape
import EcmaLexer.Proofs.Text.Cut
import Mathlib.Algebra.Group.Nat.Defs

namespace EcmaLexer

/-- A class of characters that none of the four line terminators is in. -/
theorem Text.isLineTerminator_eq_false (inClass : Char → Bool) {c : Char} (hmem : inClass c = true)
    (hnone : ['\n', '\r', '\u2028', '\u2029'].any inClass = false) :
    isLineTerminator c = false := by
  cases hbreak : isLineTerminator c with
  | false => rfl
  | true =>
    simp only [List.any_cons, List.any_nil, Bool.or_eq_false_iff] at hnone
    rcases eq_of_isLineTerminator hbreak with rfl | rfl | rfl | rfl <;> simp_all

namespace Escape

/-- The number that a run of hexadecimal digits continues, without bounds. -/
def hexNumber (value : Nat) (digits : List Char) : Nat :=
  digits.foldl (fun value c => value * 16 + (Character.hexValue? c).getD 0) value

theorem hexValue?_lt {c : Char} {digit : Nat} (hvalue : Character.hexValue? c = some digit) :
    digit < 16 := by
  unfold Character.hexValue? at hvalue
  simp only [Bool.and_eq_true, decide_eq_true_eq, Char.le_def, UInt32.le_iff_toNat_le] at hvalue
  have hnine : '9'.val.toNat = 57 := rfl
  have hf : 'f'.val.toNat = 102 := rfl
  have hF : 'F'.val.toNat = 70 := rfl
  have h0 : '0'.toNat = 48 := rfl
  have ha : 'a'.toNat = 97 := rfl
  have hA : 'A'.toNat = 65 := rfl
  have hc : c.toNat = c.val.toNat := rfl
  split at hvalue
  · cases hvalue
    omega
  · split at hvalue
    · cases hvalue
      omega
    · split at hvalue
      · cases hvalue
        omega
      · cases hvalue

theorem hexNumber_lt (value : Nat) (digits : List Char) :
    hexNumber value digits < (value + 1) * 16 ^ digits.length := by
  induction digits generalizing value with
  | nil => simp [hexNumber]
  | cons c digits ih =>
    have hdigit : (Character.hexValue? c).getD 0 < 16 := by
      cases hvalue : Character.hexValue? c with
      | none => simp
      | some digit => exact hexValue?_lt hvalue
    have hstep := ih (value * 16 + (Character.hexValue? c).getD 0)
    calc hexNumber value (c :: digits)
        = hexNumber (value * 16 + (Character.hexValue? c).getD 0) digits := rfl
      _ < (value * 16 + (Character.hexValue? c).getD 0 + 1) * 16 ^ digits.length := hstep
      _ ≤ ((value + 1) * 16) * 16 ^ digits.length := Nat.mul_le_mul_right _ (by omega)
      _ = (value + 1) * 16 ^ (c :: digits).length := by
        rw [List.length_cons, Nat.pow_succ, Nat.mul_assoc, Nat.mul_comm 16]

/-- Saturation loses nothing below the largest number of 32 bits. -/
theorem saturatedHex_eq (digits : List Char) :
    saturatedHex digits = min largestWord (hexNumber 0 digits) := by
  have hfold (value : Nat) : digits.foldl (fun value c => accumulate value ((Character.hexValue? c).getD 0))
      (min largestWord value) = min largestWord (hexNumber value digits) := by
    induction digits generalizing value with
    | nil => rfl
    | cons c digits ih =>
      have hstep : accumulate (min largestWord value) ((Character.hexValue? c).getD 0) =
          min largestWord (value * 16 + (Character.hexValue? c).getD 0) := by
        simp only [accumulate, largestWord]
        omega
      rw [List.foldl_cons, hstep, ih]
      rfl
  exact hfold 0

/-- Digits are read off a text exactly when it begins with that many of them. -/
theorem hexDigits?_eq (count value : Nat) (text : List Char) :
    hexDigits? count value text =
      if count ≤ text.length ∧ (text.take count).all Character.isHexDigit then
        some (hexNumber value (text.take count))
      else none := by
  induction count generalizing value text with
  | zero => simp [hexDigits?, hexNumber]
  | succ count ih =>
    cases text with
    | nil => simp [hexDigits?]
    | cons c text =>
      cases hdigit : Character.hexValue? c with
      | none => simp [hexDigits?, hdigit, Character.isHexDigit]
      | some digit =>
        simp [hexDigits?, hdigit, ih, Character.isHexDigit, hexNumber]

theorem hexDigits?_eq_some {count value number : Nat} {text : List Char}
    (hread : hexDigits? count value text = some number) :
    count ≤ text.length ∧ ∀ c ∈ text.take count, Character.isHexDigit c = true := by
  rw [hexDigits?_eq] at hread
  split at hread
  · next hdigits => exact ⟨hdigits.1, List.all_eq_true.mp hdigits.2⟩
  · cases hread

/-- What the decoder may consume after `\u`: digits and braces, or the digits of
    two escapes that form a surrogate pair. -/
inductive UnicodeBody : List Char → Prop where
  | run (body : List Char) (hbody : ∀ c ∈ body, Character.isHexDigit c ∨ c = '\x7b' ∨ c = '\x7d') :
      UnicodeBody body
  | pair (high low : List Char) (hhigh : ∀ c ∈ high, Character.isHexDigit c = true)
      (hlow : ∀ c ∈ low, Character.isHexDigit c = true) : UnicodeBody (high ++ '\\' :: 'u' :: low)

theorem lowSurrogate?_eq_some {text : List Char} {low : Nat}
    (hlow : lowSurrogate? text = some low) :
    ∃ rest, text = '\\' :: 'u' :: rest ∧ hexDigits? 4 0 rest = some low ∧
      isLowSurrogate low = true := by
  unfold lowSurrogate? at hlow
  split at hlow
  · next rest =>
    rw [Option.filter_eq_some_iff] at hlow
    exact ⟨rest, rfl, hlow⟩
  · cases hlow

theorem fourDigits_take (text : List Char) :
    (fourDigits text).width ≤ text.length ∧ UnicodeBody (text.take (fourDigits text).width) := by
  unfold fourDigits
  split
  · exact ⟨Nat.zero_le _, .run _ (by simp)⟩
  · next unit hunit =>
    obtain ⟨hlength, hdigits⟩ := hexDigits?_eq_some hunit
    split
    · exact ⟨hlength, .run _ (fun c hmem => .inl (hdigits c hmem))⟩
    · next low hlow =>
      split at hlow
      · obtain ⟨rest, hdrop, hrest, -⟩ := lowSurrogate?_eq_some hlow
        obtain ⟨hrestLength, hrestDigits⟩ := hexDigits?_eq_some hrest
        have htext : text = text.take 4 ++ '\\' :: 'u' :: rest := by
          rw [← hdrop, List.take_append_drop]
        have htake : text.take 10 = text.take 4 ++ '\\' :: 'u' :: rest.take 4 := by
          rw [show 10 = 4 + 6 from rfl, List.take_add, hdrop]
          rfl
        constructor
        · rw [htext, List.length_append, List.length_take, List.length_cons, List.length_cons]
          simp only
          omega
        · simp only
          rw [htake]
          exact .pair _ _ hdigits hrestDigits
      · cases hlow

theorem take_length_takeWhile (inRun : Char → Bool) (text : List Char) :
    text.take (text.takeWhile inRun).length = text.takeWhile inRun :=
  (List.prefix_iff_eq_take.mp (List.takeWhile_prefix inRun)).symm

theorem drop_length_takeWhile (inRun : Char → Bool) (text : List Char) :
    text.drop (text.takeWhile inRun).length = text.dropWhile inRun :=
  calc text.drop (text.takeWhile inRun).length
      = (text.takeWhile inRun ++ text.dropWhile inRun).drop (text.takeWhile inRun).length := by
        rw [List.takeWhile_append_dropWhile]
    _ = text.dropWhile inRun := List.drop_left

theorem bracedDigits_take (text : List Char) :
    (bracedDigits text).width ≤ text.length ∧
      ∀ c ∈ text.take (bracedDigits text).width, Character.isHexDigit c ∨ c = '\x7d' := by
  have hlength := (List.takeWhile_prefix (l := text) Character.isHexDigit).length_le
  have hdigits : ∀ c ∈ text.takeWhile Character.isHexDigit, Character.isHexDigit c = true :=
    fun c hmem =>
    List.all_eq_true.mp List.all_takeWhile c hmem
  have hclosed : (text.drop (text.takeWhile Character.isHexDigit).length).head? = some '\x7d' →
      (text.takeWhile Character.isHexDigit).length + 1 ≤ text.length ∧
        ∀ c ∈ text.take ((text.takeWhile Character.isHexDigit).length + 1),
          Character.isHexDigit c ∨ c = '\x7d' := by
    intro hbrace
    obtain ⟨rest, hrest⟩ := List.head?_eq_some_iff.mp hbrace
    constructor
    · have hdrop := congrArg List.length hrest
      rw [List.length_drop, List.length_cons] at hdrop
      omega
    · rw [List.take_add, take_length_takeWhile, hrest]
      intro c hmem
      rw [List.mem_append] at hmem
      exact hmem.imp (hdigits c) (by simp)
  unfold bracedDigits
  simp only
  split
  · refine ⟨hlength, ?_⟩
    rw [take_length_takeWhile]
    exact fun c hmem => .inl (hdigits c hmem)
  · next hwellFormed =>
    have hbrace : (text.drop (text.takeWhile Character.isHexDigit).length).head? = some '\x7d' := by
      simp only [Bool.or_eq_true, bne_iff_ne, not_or, Decidable.not_not] at hwellFormed
      exact hwellFormed.2
    split <;> exact hclosed hbrace

/-- A unicode escape consumes digits, braces and at most one further escape of
    digits, whether it is well-formed or not. -/
theorem unicode_take (text : List Char) :
    (unicode text).width ≤ text.length ∧ UnicodeBody (text.take (unicode text).width) := by
  unfold unicode
  split
  · next text =>
    obtain ⟨hlength, hbody⟩ := bracedDigits_take text
    refine ⟨Nat.succ_le_succ hlength, .run _ ?_⟩
    intro c hmem
    rw [List.take_succ_cons, List.mem_cons] at hmem
    rcases hmem with rfl | hmem
    · exact .inr (.inl rfl)
    · exact (hbody c hmem).imp_right .inr
  · exact fourDigits_take text

theorem isLineTerminator_of_isHexDigit {c : Char} (hdigit : Character.isHexDigit c = true) :
    Text.isLineTerminator c = false :=
  Text.isLineTerminator_eq_false Character.isHexDigit hdigit (by decide)

theorem UnicodeBody.unbroken {body : List Char} (hbody : UnicodeBody body) :
    ∀ c ∈ body, Text.isLineTerminator c = false := by
  cases hbody with
  | run body hrun =>
    intro c hmem
    rcases hrun c hmem with hdigit | rfl | rfl
    · exact isLineTerminator_of_isHexDigit hdigit
    · rfl
    · rfl
  | pair high low hhigh hlow =>
    intro c hmem
    simp only [List.mem_append, List.mem_cons] at hmem
    rcases hmem with hmem | rfl | rfl | hmem
    · exact isLineTerminator_of_isHexDigit (hhigh c hmem)
    · rfl
    · rfl
    · exact isLineTerminator_of_isHexDigit (hlow c hmem)

/-- What the decoder may consume after a backslash. -/
inductive Body : List Char → Prop where
  /-- A malformed escape that begins with a digit. -/
  | nothing : Body []
  | single (c : Char) : Body [c]
  | returnFeed : Body ['\r', '\n']
  | hex (high low : Char) (hhigh : Character.isHexDigit high = true)
      (hlow : Character.isHexDigit low = true) : Body ['x', high, low]
  | octal (digits : List Char) (hdigits : ∀ c ∈ digits, Character.isOctalDigit c = true) : Body digits
  | unicode (body : List Char) (hbody : UnicodeBody body) : Body ('u' :: body)

/-- How a reading of the text after a backslash divides that text. A malformed
    escape passes no line terminator, and no escape stops between a carriage
    return and its line feed. -/
structure Divides (text : List Char) (reading : Reading (List Char)) : Prop where
  width_le : reading.width ≤ text.length
  body : Body (text.take reading.width)
  clean : Text.CleanCut (text.take reading.width) (text.drop reading.width)
  unbroken : ∀ fault, reading.result = .error fault →
    ∀ c ∈ text.take reading.width, Text.isLineTerminator c = false
  digit : reading.width = 0 → text.head?.any Char.isDigit = true

theorem Divides.of_unbroken {text : List Char} {reading : Reading (List Char)}
    (hlength : reading.width ≤ text.length) (hbody : Body (text.take reading.width))
    (hunbroken : ∀ c ∈ text.take reading.width, Text.isLineTerminator c = false)
    (hdigit : reading.width = 0 → text.head?.any Char.isDigit = true) : Divides text reading where
  width_le := hlength
  body := hbody
  clean := .of_unbroken hunbroken
  unbroken := fun _ _ => hunbroken
  digit := hdigit

/-- An escape of one character, which is a line terminator only when the escape is
    well-formed. -/
theorem Divides.single {first : Char} {rest : List Char} {result : Except EscapeFault (List Char)}
    (hclean : Text.CleanCut [first] rest)
    (hresult : ∀ fault, result = .error fault → Text.isLineTerminator first = false) :
    Divides (first :: rest) ⟨1, result⟩ where
  width_le := by simp
  body := .single first
  clean := hclean
  unbroken := by
    intro fault hfault c hmem
    simp only [List.take_succ_cons, List.take_zero, List.mem_singleton] at hmem
    rw [hmem]
    exact hresult fault hfault
  digit := by simp

theorem octalDigits_prefix (first : Char) (rest : List Char) :
    octalDigits first rest <+: first :: rest :=
  (List.takeWhile_prefix _).trans (List.take_prefix _ _)

theorem digit_divides (site : Site) (strict : Bool) {first : Char} (hfirst : first.isDigit = true)
    (rest : List Char) : Divides (first :: rest) (digit site strict first rest) := by
  have hbreak : Text.isLineTerminator first = false :=
    Text.isLineTerminator_eq_false Char.isDigit hfirst (by decide)
  have hsingle (value : List Char) : Divides (first :: rest) ⟨1, .ok value⟩ :=
    .single (.of_unbroken (by simpa using hbreak)) (by simp)
  have hnothing (fault : EscapeFault) : Divides (first :: rest) ⟨0, .error fault⟩ :=
    .of_unbroken (Nat.zero_le _) .nothing (by simp) (fun _ => by simpa using hfirst)
  unfold digit
  split
  · exact hsingle _
  · split
    · next hoctal =>
      split
      · exact hnothing _
      · split
        · exact hnothing _
        · have hstarts := octalDigits_prefix first rest
          have htake : (first :: rest).take (octalDigits first rest).length = octalDigits first rest :=
            (List.prefix_iff_eq_take.mp hstarts).symm
          have hdigits : ∀ c ∈ octalDigits first rest, Character.isOctalDigit c = true :=
            fun c hmem =>
            List.all_eq_true.mp List.all_takeWhile c hmem
          refine .of_unbroken hstarts.length_le ?_ ?_ (fun _ => by simpa using hfirst)
          · simp only [htake]
            exact .octal _ hdigits
          · simp only [htake]
            exact fun c hmem => Text.isLineTerminator_eq_false Character.isOctalDigit (hdigits c hmem) (by decide)
    · split
      · exact hnothing _
      · exact hsingle _

theorem hexPair_divides {rest : List Char} {value : Nat}
    (hvalue : hexDigits? 2 0 rest = some value) :
    Divides ('x' :: rest) ⟨3, .ok [scalar value]⟩ := by
  obtain ⟨hlength, hdigits⟩ := hexDigits?_eq_some hvalue
  match rest, hlength, hdigits with
  | high :: low :: rest, _, hdigits =>
    have hhigh := hdigits high (by simp)
    have hlow := hdigits low (by simp)
    refine .of_unbroken (by simp) (.hex high low hhigh hlow) ?_ (by simp)
    intro c hmem
    simp only [List.take_succ_cons, List.take_zero, List.mem_cons, List.not_mem_nil,
      or_false] at hmem
    rcases hmem with rfl | rfl | rfl
    · rfl
    · exact isLineTerminator_of_isHexDigit hhigh
    · exact isLineTerminator_of_isHexDigit hlow

theorem unicode_divides (rest : List Char) (result : Except EscapeFault (List Char)) :
    Divides ('u' :: rest) ⟨(unicode rest).width + 1, result⟩ := by
  obtain ⟨hlength, hbody⟩ := unicode_take rest
  refine .of_unbroken (Nat.succ_le_succ hlength) (.unicode _ hbody) ?_ (by simp)
  intro c hmem
  rw [List.take_succ_cons, List.mem_cons] at hmem
  rcases hmem with rfl | hmem
  · rfl
  · exact hbody.unbroken c hmem

/-- Every escape, whatever literal it stands in, divides the text after the
    backslash in this way. -/
theorem read_divides (site : Site) (strict : Bool) (first : Char) (rest : List Char) :
    Divides (first :: rest) (read site strict first rest) := by
  unfold read
  split
  · next c hletter =>
    have hbreak : Text.isLineTerminator first = false :=
      Text.isLineTerminator_eq_false (fun c => (letter? c).isSome) (by simp [hletter]) (by decide)
    exact .single (.of_unbroken (by simpa using hbreak)) (by simp)
  · split
    · next hpair =>
      simp only [Bool.and_eq_true, decide_eq_true_eq] at hpair
      obtain ⟨rfl, hfeed⟩ := hpair
      obtain ⟨tail, rfl⟩ := List.head?_eq_some_iff.mp hfeed
      exact ⟨by simp, .returnFeed, by simp [Text.CleanCut], by simp, by simp⟩
    · next hpair =>
      have hclean : Text.CleanCut [first] rest := by
        intro hreturn hfeed
        simp only [List.getLast?_singleton, Option.some.injEq] at hreturn
        exact hpair (by simp [hreturn, hfeed])
      split
      · exact .single hclean (by simp)
      · next hbreak =>
        simp only [Bool.not_eq_true] at hbreak
        split
        · next hx =>
          subst hx
          split
          · exact .single hclean (fun _ _ => hbreak)
          · next value hvalue => exact hexPair_divides hvalue
        · split
          · next hu =>
            subst hu
            exact unicode_divides rest _
          · split
            · next hdigit => exact digit_divides site strict hdigit rest
            · exact .single hclean (by simp)

end Escape

end EcmaLexer
