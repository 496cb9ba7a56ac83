import EcmaLexer.Proofs.Escape.Unicode
import EcmaLexer.Proofs.Lexeme.Strictness
import EcmaLexer.Proofs.Number.Grammar
import EcmaLexer.Proofs.Template.Grammar

namespace EcmaLexer.Escape

open Character (isHexDigit isOctalDigit)
open Template (letters)
open Text (isLineTerminator)

/-- The digits of a legacy octal escape. -/
structure IsOctal (digits : List Char) : Prop where
  ne_nil : digits ≠ []
  octal : ∀ c ∈ digits, isOctalDigit c = true
  length_le : digits.length ≤ 3
  small : octalValue digits ≤ 0o377

/-- The characters that stand for something else than themselves after a backslash. -/
def IsSpecial (c : Char) : Prop :=
  (letters.lookup c).isSome = true ∨ c = 'x' ∨ c = 'u' ∨ c.isDigit = true ∨
    isLineTerminator c = true

/-- An escape of a string literal without its backslash, before `rest`, and what it stands for.
    Strict mode has no octal escapes, and neither `\8` nor `\9`. -/
inductive StringEscape (strict : Bool) : List Char → List Char → List Char → Prop where
  | letter {c meaning : Char} (rest : List Char) (hletter : letters.lookup c = some meaning) :
      StringEscape strict [c] rest [meaning]
  | hex {high low c : Char} (rest : List Char) (hhigh : isHexDigit high = true)
      (hlow : isHexDigit low = true) (hc : c.toNat = hexNumber 0 [high, low]) :
      StringEscape strict ['x', high, low] rest [c]
  | unicode {digits rest : List Char} {c : Char}
      (hread : UnicodeRead (digits ++ rest) ⟨digits.length, .ok c⟩) :
      StringEscape strict ('u' :: digits) rest [c]
  | nul {rest : List Char} (hdigit : rest.head?.any Char.isDigit = false) :
      StringEscape strict ['0'] rest ['\x00']
  | octal {digits rest : List Char} {c : Char} (hsloppy : strict = false)
      (hlongest : Number.Longest IsOctal (digits ++ rest) digits rest)
      (hc : c.toNat = octalValue digits) : StringEscape strict digits rest [c]
  | eightOrNine {c : Char} (rest : List Char) (hsloppy : strict = false)
      (hc : c = '8' ∨ c = '9') : StringEscape strict [c] rest [c]
  | identity {c : Char} (rest : List Char) (hc : ¬IsSpecial c) : StringEscape strict [c] rest [c]
  | continuation {c : Char} {rest : List Char} (hc : isLineTerminator c = true)
      (hpair : c = '\r' → rest.head? ≠ some '\n') : StringEscape strict [c] rest []
  | returnFeed (rest : List Char) : StringEscape strict ['\r', '\n'] rest []

/-- Why the text after a backslash is no escape of a string literal. -/
inductive Malformed (strict : Bool) : List Char → EscapeFault → Prop where
  | hex {rest : List Char} (hshort : (rest.takeWhile isHexDigit).length < 2) :
      Malformed strict ('x' :: rest) .invalidHex
  | unicode {rest : List Char} {width : Nat} {fault : EscapeFault}
      (hread : UnicodeRead rest ⟨width, .error fault⟩) : Malformed strict ('u' :: rest) fault
  | octal {c : Char} {rest : List Char} (hstrict : strict = true) (hc : isOctalDigit c = true)
      (hnul : c = '0' → rest.head?.any Char.isDigit = true) :
      Malformed strict (c :: rest) .strictOctal
  | eightOrNine {c : Char} (rest : List Char) (hstrict : strict = true) (hc : c = '8' ∨ c = '9') :
      Malformed strict (c :: rest) (.eightOrNine c)

theorem octalDigit_bounds {c : Char} (hc : isOctalDigit c = true) :
    '0'.toNat ≤ c.toNat ∧ c.toNat ≤ '7'.toNat := by
  simp only [isOctalDigit, Bool.and_eq_true, decide_eq_true_eq] at hc
  exact hc

/-- Octal digits after the ones that gave `value` spell a number in the range of that many
    places. -/
theorem octalFold_bounds (value : Nat) {digits : List Char}
    (hdigits : ∀ c ∈ digits, isOctalDigit c = true) :
    value * 8 ^ digits.length ≤
        digits.foldl (fun value c => value * 8 + (c.toNat - '0'.toNat)) value ∧
      digits.foldl (fun value c => value * 8 + (c.toNat - '0'.toNat)) value <
        (value + 1) * 8 ^ digits.length := by
  induction digits generalizing value with
  | nil => simp
  | cons c digits ih =>
    obtain ⟨hc, hdigits⟩ := List.forall_mem_cons.mp hdigits
    obtain ⟨hlow, hhigh⟩ := octalDigit_bounds hc
    obtain ⟨hfirst, hlast⟩ := ih (value * 8 + (c.toNat - '0'.toNat)) hdigits
    have hseven : '7'.toNat - '0'.toNat = 7 := rfl
    rw [List.foldl_cons, List.length_cons, Nat.pow_succ', ← Nat.mul_assoc, ← Nat.mul_assoc]
    constructor
    · refine Nat.le_trans (Nat.mul_le_mul_right _ ?_) hfirst
      omega
    · refine Nat.lt_of_lt_of_le hlast (Nat.mul_le_mul_right _ ?_)
      omega

theorem octalValue_bounds (first : Char) {more : List Char}
    (hmore : ∀ c ∈ more, isOctalDigit c = true) :
    (first.toNat - '0'.toNat) * 8 ^ more.length ≤ octalValue (first :: more) ∧
      octalValue (first :: more) < (first.toNat - '0'.toNat + 1) * 8 ^ more.length := by
  rw [octalValue, List.foldl_cons, Nat.zero_mul, Nat.zero_add]
  exact octalFold_bounds _ hmore

/-- Digits are an octal escape just if there are not too many of them after the first. -/
theorem isOctal_iff {first : Char} {more : List Char} :
    IsOctal (first :: more) ↔ (∀ c ∈ first :: more, isOctalDigit c = true) ∧
      (first :: more).length ≤ if first ≤ '3' then 3 else 2 := by
  have hzero : '0'.toNat = 48 := rfl
  have hseven : '7'.toNat = 55 := rfl
  have hthree : first ≤ '3' ↔ first.toNat ≤ 51 := Iff.rfl
  rw [List.length_cons]
  constructor
  · intro hoctal
    obtain ⟨hfirst, hmore⟩ := List.forall_mem_cons.mp hoctal.octal
    have hlength := hoctal.length_le
    have hsmall := hoctal.small
    obtain ⟨hvalue, -⟩ := octalValue_bounds first hmore
    refine ⟨hoctal.octal, ?_⟩
    rw [List.length_cons] at hlength
    split
    · exact hlength
    · next hlarge =>
      -- A third digit would bring the number to 256 at least.
      rw [hthree] at hlarge
      refine Nat.succ_le_of_lt (Nat.lt_of_not_le fun hlong => ?_)
      have htwo : more.length = 2 := by omega
      rw [htwo] at hvalue
      omega
  · rintro ⟨hdigits, hlength⟩
    obtain ⟨hfirst, hmore⟩ := List.forall_mem_cons.mp hdigits
    obtain ⟨hlow, hhigh⟩ := octalDigit_bounds hfirst
    obtain ⟨-, hvalue⟩ := octalValue_bounds first hmore
    have hplaces (count : Nat) (hcount : more.length ≤ count) : 8 ^ more.length ≤ 8 ^ count :=
      Nat.pow_le_pow_right (by decide) hcount
    refine ⟨List.cons_ne_nil _ _, hdigits, ?_, ?_⟩
    · rw [List.length_cons]
      split at hlength <;> omega
    · split at hlength
      · next hsmall =>
        rw [hthree] at hsmall
        have hle := hplaces 2 (by omega)
        have hbound : (first.toNat - '0'.toNat + 1) * 8 ^ more.length ≤ 4 * 8 ^ 2 :=
          Nat.mul_le_mul (by omega) hle
        omega
      · have hle := hplaces 1 (by omega)
        have hbound : (first.toNat - '0'.toNat + 1) * 8 ^ more.length ≤ 8 * 8 ^ 1 :=
          Nat.mul_le_mul (by omega) hle
        omega

theorem octalDigits_longest {first : Char} (hfirst : isOctalDigit first = true)
    (rest : List Char) :
    Number.Longest IsOctal (first :: rest) (octalDigits first rest)
      ((first :: rest).drop (octalDigits first rest).length) := by
  have hprefix := octalDigits_prefix first rest
  have hcons : ∃ more, octalDigits first rest = first :: more := by
    unfold octalDigits
    split <;> exact ⟨_, List.takeWhile_cons_of_pos hfirst⟩
  have hall : ∀ c ∈ octalDigits first rest, isOctalDigit c = true :=
    List.all_eq_true.mp List.all_takeWhile
  have hlength : (octalDigits first rest).length ≤ if first ≤ '3' then 3 else 2 :=
    Nat.le_trans (List.takeWhile_prefix _).length_le (List.length_take_le _ _)
  refine ⟨?_, ?_, fun other hother hpart => ?_⟩
  · obtain ⟨tail, htail⟩ := hprefix
    rw [← htail, List.drop_left]
  · obtain ⟨more, hmore⟩ := hcons
    rw [hmore] at hall hlength ⊢
    exact isOctal_iff.mpr ⟨hall, hlength⟩
  · cases other with
    | nil => exact Nat.zero_le _
    | cons d more =>
      obtain rfl : d = first := (List.cons_prefix_cons.mp hpart).1
      obtain ⟨hdigits, hcount⟩ := isOctal_iff.mp hother
      obtain ⟨tail, htail⟩ := List.prefix_take_iff.mpr ⟨hpart, hcount⟩
      rw [octalDigits, ← htail, List.takeWhile_append_of_pos hdigits, List.length_append]
      exact Nat.le_add_right _ _

theorem isDigit_of_isOctalDigit {c : Char} (hc : isOctalDigit c = true) : c.isDigit = true :=
  Template.isDigit_of_octal (octalDigit_bounds hc)

/-- In sloppy mode every octal digit begins an octal escape; `\0` is one of them. -/
theorem digit_octal {first : Char} (hfirst : isOctalDigit first = true) (rest : List Char) :
    digit .stringLiteral false first rest =
      ⟨(octalDigits first rest).length, .ok [scalar (octalValue (octalDigits first rest))]⟩ := by
  unfold digit
  split
  · next hnul =>
    rw [Bool.and_eq_true, decide_eq_true_eq, Bool.not_eq_true'] at hnul
    obtain ⟨rfl, hhead⟩ := hnul
    have hdigits : octalDigits '0' rest = ['0'] := by
      cases rest with
      | nil => rfl
      | cons c rest =>
        have hstop : ¬isOctalDigit c = true := fun hc => by
          cases hhead.symm.trans (isDigit_of_isOctalDigit hc)
        exact congrArg ('0' :: ·) (List.takeWhile_cons_of_neg hstop)
    rw [hdigits]
    rfl
  · rfl

/-- The text has only one longest word. -/
theorem eq_octalDigits {first : Char} {more rest : List Char}
    (hlongest : Number.Longest IsOctal (first :: more ++ rest) (first :: more) rest) :
    octalDigits first (more ++ rest) = first :: more := by
  have hfirst := hlongest.word.octal first List.mem_cons_self
  have hother := octalDigits_longest hfirst (more ++ rest)
  have hparts := List.prefix_of_prefix_length_le ( octalDigits_prefix first (more ++ rest))
    (List.prefix_append (first :: more) rest) (hlongest.longest _ hother.word ?_)
  · exact hparts.eq_of_length_le (hother.longest _ hlongest.word (List.prefix_append _ _))
  · exact octalDigits_prefix first (more ++ rest)

theorem toNat_scalar_of_small {number : Nat} (hsmall : number ≤ 0xff) :
    (scalar number).toNat = number :=
  toNat_scalar (.inl (by omega))

/-- An escape is read to its end and cooked to what it stands for. -/
theorem StringEscape.read {strict : Bool} {spelling rest value : List Char}
    (hescape : StringEscape strict spelling rest value) :
    ∃ first tail, spelling = first :: tail ∧
      Escape.read .stringLiteral strict first (tail ++ rest) = ⟨spelling.length, .ok value⟩ := by
  cases hescape with
  | @letter c meaning rest hletter =>
    refine ⟨c, [], rfl, ?_⟩
    rw [Escape.read, Template.letter?_eq_lookup, hletter]
    rfl
  | @hex high low c rest hhigh hlow hc =>
    have hdigits : ∀ d ∈ [high, low], isHexDigit d = true := by simp [hhigh, hlow]
    have hread : hexDigits? 2 0 ([high, low] ++ rest) = some (hexNumber 0 [high, low]) :=
      hexDigits?_digits hdigits rest
    have hlt : hexNumber 0 [high, low] < (0 + 1) * 16 ^ 2 := hexNumber_lt 0 [high, low]
    have hscalar : (scalar (hexNumber 0 [high, low])).toNat = hexNumber 0 [high, low] :=
      toNat_scalar_of_small (by omega)
    refine ⟨'x', [high, low], rfl, ?_⟩
    rw [← Char.toNat_inj.mp (hscalar.trans hc.symm)]
    simp only [Escape.read, hread]
    rfl
  | @unicode digits rest c hread =>
    refine ⟨'u', digits, rfl, ?_⟩
    simp only [Escape.read, hread.eq]
    rfl
  | nul hdigit =>
    refine ⟨'0', [], rfl, ?_⟩
    rw [read_digit rfl, List.nil_append, digit, hdigit]
    rfl
  | @octal _ _ c hsloppy hlongest hc =>
    cases spelling with
    | nil => exact absurd rfl hlongest.word.ne_nil
    | cons first more =>
      have hfirst := hlongest.word.octal first List.mem_cons_self
      have hsmall := hlongest.word.small
      have hscalar : (scalar (octalValue (first :: more))).toNat = octalValue (first :: more) :=
        toNat_scalar_of_small (by omega)
      refine ⟨first, more, rfl, ?_⟩
      rw [read_digit (isDigit_of_isOctalDigit hfirst), hsloppy, digit_octal hfirst,
        eq_octalDigits hlongest, Char.toNat_inj.mp (hscalar.trans hc.symm)]
  | @eightOrNine c rest hsloppy hc =>
    refine ⟨c, [], rfl, ?_⟩
    rcases hc with rfl | rfl
    · rw [read_digit rfl, hsloppy]
      rfl
    · rw [read_digit rfl, hsloppy]
      rfl
  | @identity c rest hc =>
    simp only [IsSpecial, not_or, Bool.not_eq_true, Option.isSome_eq_false_iff,
      Option.isNone_iff_eq_none] at hc
    obtain ⟨hletter, hx, hu, hdigit, hbreak⟩ := hc
    have hreturn : c ≠ '\r' := by
      rintro rfl
      cases hbreak
    refine ⟨c, [], rfl, ?_⟩
    simp [Escape.read, Template.letter?_eq_lookup, hletter, hx, hu, hdigit, hbreak, hreturn]
  | @continuation c _ hc hpair =>
    refine ⟨c, [], rfl, ?_⟩
    rcases Text.eq_of_isLineTerminator hc with rfl | rfl | rfl | rfl
    · rfl
    · have hfeed : (rest.head? = some '\n') = False := eq_false (hpair rfl)
      simp [Escape.read, letter?, hfeed, hc]
    · rfl
    · rfl
  | returnFeed rest => exact ⟨'\r', ['\n'], rfl, rfl⟩

/-- A malformed escape is refused for what is wrong with it. -/
theorem Malformed.read {strict : Bool} {first : Char} {rest : List Char} {fault : EscapeFault}
    (hmalformed : Malformed strict (first :: rest) fault) :
    ∃ width, Escape.read .stringLiteral strict first rest = ⟨width, .error fault⟩ := by
  cases hmalformed with
  | hex hshort =>
    refine ⟨1, ?_⟩
    simp only [Escape.read, hexDigits?_eq_none_iff.mpr hshort]
    rfl
  | @unicode _ width _ hread =>
    refine ⟨width + 1, ?_⟩
    simp only [Escape.read, hread.eq]
    rfl
  | octal hstrict hc hnul =>
    refine ⟨0, ?_⟩
    have hdigit : (decide (first = '0') && !rest.head?.any Char.isDigit) = false :=
      Bool.and_eq_false_imp.mpr fun hzero => by simp [hnul (of_decide_eq_true hzero)]
    rw [read_digit (isDigit_of_isOctalDigit hc), digit, hdigit, hc, hstrict]
    rfl
  | eightOrNine rest hstrict hc =>
    refine ⟨0, ?_⟩
    rcases hc with rfl | rfl
    · rw [read_digit rfl, hstrict]
      rfl
    · rw [read_digit rfl, hstrict]
      rfl

/-- What begins with a digit is an escape, or strict mode refuses it. -/
theorem digit_cases (strict : Bool) {first : Char} (hfirst : first.isDigit = true)
    (tail : List Char) :
    (∃ spelling rest value, spelling ++ rest = first :: tail ∧
        StringEscape strict spelling rest value) ∨
      ∃ fault, Malformed strict (first :: tail) fault := by
  cases hoctal : isOctalDigit first with
  | false =>
    have hc := Template.eq_eight_or_nine hfirst hoctal
    cases strict with
    | false => exact .inl ⟨[first], tail, [first], rfl, .eightOrNine tail rfl hc⟩
    | true => exact .inr ⟨_, .eightOrNine tail rfl hc⟩
  | true =>
    cases strict with
    | false =>
      have hlongest := octalDigits_longest hoctal tail
      have hsmall := hlongest.word.small
      refine .inl ⟨_, _, _, hlongest.split, .octal rfl ?_ (toNat_scalar_of_small (by omega))⟩
      rwa [hlongest.split]
    | true =>
      by_cases hnul : first = '0' ∧ tail.head?.any Char.isDigit = false
      · obtain ⟨rfl, hdigit⟩ := hnul
        exact .inl ⟨['0'], tail, ['\x00'], rfl, .nul hdigit⟩
      · refine .inr ⟨_, .octal rfl hoctal fun hzero => ?_⟩
        cases hdigit : tail.head?.any Char.isDigit with
        | true => rfl
        | false => exact absurd ⟨hzero, hdigit⟩ hnul

/-- The text after a backslash begins with an escape, unless it is malformed. -/
theorem stringEscape_or_malformed (strict : Bool) (first : Char) (tail : List Char) :
    (∃ spelling rest value, spelling ++ rest = first :: tail ∧
        StringEscape strict spelling rest value) ∨
      ∃ fault, Malformed strict (first :: tail) fault := by
  by_cases hspecial : IsSpecial first
  · rcases hspecial with hletter | rfl | rfl | hdigit | hbreak
    · obtain ⟨meaning, hmeaning⟩ := Option.isSome_iff_exists.mp hletter
      exact .inl ⟨[first], tail, [meaning], rfl, .letter tail hmeaning⟩
    · cases hread : hexDigits? 2 0 tail with
      | none => exact .inr ⟨_, .hex (hexDigits?_eq_none_iff.mp hread)⟩
      | some number =>
        obtain ⟨digits, rest, rfl, hlength, hdigits, rfl⟩ := exists_digits hread
        match digits, hlength, hdigits with
        | [high, low], _, hdigits =>
          have hlt : hexNumber 0 [high, low] < (0 + 1) * 16 ^ 2 := hexNumber_lt 0 [high, low]
          exact .inl ⟨['x', high, low], rest, _, rfl, .hex rest (hdigits high (by simp))
            (hdigits low (by simp)) (toNat_scalar_of_small (by omega))⟩
    · have hread := unicodeRead_take tail
      cases hresult : (unicode tail).result with
      | ok c =>
        rw [hresult] at hread
        refine .inl ⟨_, _, _, ?_, .unicode hread⟩
        rw [List.cons_append, List.take_append_drop]
      | error fault =>
        rw [hresult, List.take_append_drop] at hread
        exact .inr ⟨fault, .unicode hread⟩
    · exact digit_cases strict hdigit tail
    · by_cases hpair : first = '\r' ∧ tail.head? = some '\n'
      · obtain ⟨rfl, hfeed⟩ := hpair
        obtain ⟨rest, rfl⟩ := List.head?_eq_some_iff.mp hfeed
        exact .inl ⟨['\r', '\n'], rest, [], rfl, .returnFeed rest⟩
      · refine .inl ⟨[first], tail, [], rfl, .continuation hbreak fun hreturn hfeed => ?_⟩
        exact hpair ⟨hreturn, hfeed⟩
  · exact .inl ⟨[first], tail, [first], rfl, .identity tail hspecial⟩

end EcmaLexer.Escape
