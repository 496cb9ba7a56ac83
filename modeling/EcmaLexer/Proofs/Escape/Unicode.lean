import EcmaLexer.Proofs.Lexeme.Escape

namespace EcmaLexer.Escape

open Character (isHexDigit)

/-- Four hexadecimal digits. -/
structure IsUnit (digits : List Char) : Prop where
  length : digits.length = 4
  hex : ∀ c ∈ digits, isHexDigit c = true

def IsHighHalf (number : Nat) : Prop := 0xd800 ≤ number ∧ number ≤ 0xdbff

def IsLowHalf (number : Nat) : Prop := 0xdc00 ≤ number ∧ number ≤ 0xdfff

instance (number : Nat) : Decidable (IsHighHalf number) := inferInstanceAs (Decidable (_ ∧ _))

instance (number : Nat) : Decidable (IsLowHalf number) := inferInstanceAs (Decidable (_ ∧ _))

/-- Whether a text begins with the escape of the second half of a surrogate pair. -/
def BeginsLowHalf (text : List Char) : Prop :=
  ∃ low rest, text = '\\' :: 'u' :: (low ++ rest) ∧ IsUnit low ∧ IsLowHalf (hexNumber 0 low)

/-- The character that a number stands for: the one with this number, or U+FFFD in place of a
    surrogate. -/
def StandsFor (number : Nat) (c : Char) : Prop :=
  if IsHighHalf number ∨ IsLowHalf number then c = '\ufffd' else c.toNat = number

/-- What the text after `\u` is read as, by the numbers that its digits spell, however many there
    are. -/
inductive UnicodeRead : List Char → Reading Char → Prop where
  | unclosed {digits rest : List Char} (hdigits : ∀ c ∈ digits, isHexDigit c = true)
      (hstop : rest.head?.any isHexDigit = false)
      (hbroken : digits = [] ∨ rest.head? ≠ some '\x7d') :
      UnicodeRead ('\x7b' :: (digits ++ rest)) ⟨digits.length + 1, .error .invalidUnicode⟩
  | overflow {digits : List Char} (rest : List Char) (hdigits : ∀ c ∈ digits, isHexDigit c = true)
      (hne : digits ≠ []) (hlarge : 0x10ffff < hexNumber 0 digits) :
      UnicodeRead ('\x7b' :: (digits ++ '\x7d' :: rest))
        ⟨digits.length + 2, .error .unicodeOverflow⟩
  | braced {digits : List Char} {c : Char} (rest : List Char)
      (hdigits : ∀ c ∈ digits, isHexDigit c = true) (hne : digits ≠ [])
      (hsmall : hexNumber 0 digits ≤ 0x10ffff) (hc : StandsFor (hexNumber 0 digits) c) :
      UnicodeRead ('\x7b' :: (digits ++ '\x7d' :: rest)) ⟨digits.length + 2, .ok c⟩
  | short {text : List Char} (hbrace : text.head? ≠ some '\x7b')
      (hshort : (text.takeWhile isHexDigit).length < 4) :
      UnicodeRead text ⟨0, .error .invalidUnicode⟩
  | pair {high low : List Char} {c : Char} (rest : List Char) (hhigh : IsUnit high)
      (hlow : IsUnit low) (hfirst : IsHighHalf (hexNumber 0 high))
      (hsecond : IsLowHalf (hexNumber 0 low))
      (hc : c.toNat =
        0x10000 + (hexNumber 0 high - 0xd800) * 0x400 + (hexNumber 0 low - 0xdc00)) :
      UnicodeRead (high ++ '\\' :: 'u' :: (low ++ rest)) ⟨10, .ok c⟩
  | unit {digits rest : List Char} {c : Char} (hdigits : IsUnit digits)
      (halone : IsHighHalf (hexNumber 0 digits) → ¬BeginsLowHalf rest)
      (hc : StandsFor (hexNumber 0 digits) c) : UnicodeRead (digits ++ rest) ⟨4, .ok c⟩

theorem toNat_scalar {number : Nat} (hvalid : number.isValidChar) :
    (scalar number).toNat = number := by
  rw [scalar, if_pos hvalid, Char.ofNat, dif_pos hvalid]
  rfl

theorem standsFor_scalar {number : Nat} (hsmall : number ≤ 0x10ffff) :
    StandsFor number (scalar number) := by
  unfold StandsFor IsHighHalf IsLowHalf
  split
  · next hsurrogate =>
    rw [scalar, if_neg]
    simp only [Nat.isValidChar]
    omega
  · next hsurrogate =>
    apply toNat_scalar
    simp only [Nat.isValidChar]
    omega

theorem StandsFor.eq_scalar {number : Nat} {c : Char} (hsmall : number ≤ 0x10ffff)
    (hc : StandsFor number c) : c = scalar number := by
  have hscalar := standsFor_scalar hsmall
  unfold StandsFor at hc hscalar
  split at hc
  · next hsurrogate =>
    rw [if_pos hsurrogate] at hscalar
    rw [hc, hscalar]
  · next hsurrogate =>
    rw [if_neg hsurrogate] at hscalar
    exact Char.toNat_inj.mp (hc.trans hscalar.symm)

theorem isHighSurrogate_iff {unit : Nat} : isHighSurrogate unit = true ↔ IsHighHalf unit := by
  simp only [isHighSurrogate, IsHighHalf, Bool.and_eq_true, decide_eq_true_eq]
  omega

theorem isLowSurrogate_iff {unit : Nat} : isLowSurrogate unit = true ↔ IsLowHalf unit := by
  simp only [isLowSurrogate, IsLowHalf, Bool.and_eq_true, decide_eq_true_eq]

theorem IsUnit.hexNumber_lt {digits : List Char} (hdigits : IsUnit digits) :
    hexNumber 0 digits < 0x10000 := by
  have hbound := Escape.hexNumber_lt 0 digits
  rw [hdigits.length] at hbound
  omega

theorem hexDigits?_digits {digits : List Char} (hdigits : ∀ c ∈ digits, isHexDigit c = true)
    (rest : List Char) :
    hexDigits? digits.length 0 (digits ++ rest) = some (hexNumber 0 digits) := by
  have hlength : digits.length ≤ (digits ++ rest).length := by
    rw [List.length_append]
    omega
  rw [hexDigits?_eq, List.take_left, if_pos ⟨hlength, List.all_eq_true.mpr hdigits⟩]

/-- Where digits can be read off a text, it begins with them. -/
theorem exists_digits {count number : Nat} {text : List Char}
    (hread : hexDigits? count 0 text = some number) :
    ∃ digits rest, text = digits ++ rest ∧ digits.length = count ∧
      (∀ c ∈ digits, isHexDigit c = true) ∧ hexNumber 0 digits = number := by
  obtain ⟨hlength, hdigits⟩ := hexDigits?_eq_some hread
  have htake : (text.take count).length = count := by
    rw [List.length_take]
    omega
  have hvalue := hexDigits?_digits hdigits (text.drop count)
  rw [List.take_append_drop, htake, hread] at hvalue
  exact ⟨_, _, (List.take_append_drop count text).symm, htake, hdigits,
    (Option.some.inj hvalue).symm⟩

theorem hexDigits?_eq_none_iff {count : Nat} {text : List Char} :
    hexDigits? count 0 text = none ↔ (text.takeWhile isHexDigit).length < count := by
  constructor
  · intro hnone
    refine Nat.lt_of_not_le fun hlong => ?_
    have hprefix := List.takeWhile_prefix (l := text) isHexDigit
    have hrun : (text.takeWhile isHexDigit).take count = text.take count := by
      rw [← take_length_takeWhile, List.take_take, Nat.min_eq_left hlong]
    have hdigits : ∀ c ∈ text.take count, isHexDigit c = true := fun c hmem =>
      List.all_eq_true.mp List.all_takeWhile c (List.mem_of_mem_take (hrun ▸ hmem))
    rw [hexDigits?_eq, if_pos ⟨by have := hprefix.length_le; omega,
      List.all_eq_true.mpr hdigits⟩] at hnone
    cases hnone
  · intro hshort
    cases hread : hexDigits? count 0 text with
    | none => rfl
    | some number =>
      obtain ⟨digits, rest, rfl, hlength, hdigits, -⟩ := exists_digits hread
      rw [List.takeWhile_append_of_pos hdigits, List.length_append, hlength] at hshort
      omega

theorem IsUnit.hexDigits?_append {digits : List Char} (hdigits : IsUnit digits)
    (rest : List Char) : hexDigits? 4 0 (digits ++ rest) = some (hexNumber 0 digits) := by
  rw [← hdigits.length]
  exact hexDigits?_digits hdigits.hex rest

theorem exists_unit {text : List Char} {unit : Nat} (hread : hexDigits? 4 0 text = some unit) :
    ∃ digits rest, text = digits ++ rest ∧ IsUnit digits ∧ hexNumber 0 digits = unit := by
  obtain ⟨digits, rest, htext, hlength, hdigits, hvalue⟩ := exists_digits hread
  exact ⟨digits, rest, htext, ⟨hlength, hdigits⟩, hvalue⟩

theorem lowSurrogate?_eq_some_iff {text : List Char} {low : Nat} :
    lowSurrogate? text = some low ↔
      ∃ digits rest, text = '\\' :: 'u' :: (digits ++ rest) ∧ IsUnit digits ∧
        hexNumber 0 digits = low ∧ IsLowHalf low := by
  constructor
  · intro hread
    obtain ⟨rest, rfl, hdigits, hlow⟩ := lowSurrogate?_eq_some hread
    obtain ⟨digits, rest, rfl, hunit, hvalue⟩ := exists_unit hdigits
    exact ⟨digits, rest, rfl, hunit, hvalue, isLowSurrogate_iff.mp hlow⟩
  · rintro ⟨digits, rest, rfl, hunit, rfl, hlow⟩
    rw [lowSurrogate?, hunit.hexDigits?_append, Option.filter_some,
      if_pos (isLowSurrogate_iff.mpr hlow)]

theorem beginsLowHalf_iff {text : List Char} :
    BeginsLowHalf text ↔ ∃ low, lowSurrogate? text = some low := by
  simp only [lowSurrogate?_eq_some_iff]
  constructor
  · rintro ⟨digits, rest, htext, hunit, hlow⟩
    exact ⟨_, digits, rest, htext, hunit, rfl, hlow⟩
  · rintro ⟨_, digits, rest, htext, hunit, rfl, hlow⟩
    exact ⟨digits, rest, htext, hunit, hlow⟩

/-- The two halves of a surrogate pair always give a character. -/
theorem isValidChar_pair {high low : Nat} (hhigh : IsHighHalf high) (hlow : IsLowHalf low) :
    (0x10000 + (high - 0xd800) * 0x400 + (low - 0xdc00)).isValidChar := by
  unfold IsHighHalf at hhigh
  unfold IsLowHalf at hlow
  simp only [Nat.isValidChar]
  omega

theorem bracedDigits_read (text : List Char) :
    UnicodeRead ('\x7b' :: text) ⟨(bracedDigits text).width + 1, (bracedDigits text).result⟩ := by
  have hsplit := List.takeWhile_append_dropWhile (p := isHexDigit) (l := text)
  have hdigits : ∀ c ∈ text.takeWhile isHexDigit, isHexDigit c = true :=
    List.all_eq_true.mp List.all_takeWhile
  have hsaturated := saturatedHex_eq (text.takeWhile isHexDigit)
  unfold bracedDigits
  simp only [drop_length_takeWhile]
  split
  · next hbroken =>
    rw [Bool.or_eq_true, List.isEmpty_iff, bne_iff_ne] at hbroken
    have hstop : (text.dropWhile isHexDigit).head?.any isHexDigit = false := by
      have hhead := List.head?_dropWhile_not isHexDigit text
      cases hrest : (text.dropWhile isHexDigit).head? with
      | none => rfl
      | some c =>
        rw [hrest] at hhead
        simpa using hhead
    have hread := UnicodeRead.unclosed hdigits hstop hbroken
    rwa [hsplit] at hread
  · next hclosed =>
    simp only [Bool.or_eq_true, List.isEmpty_iff, bne_iff_ne, not_or, Decidable.not_not] at hclosed
    obtain ⟨hne, hbrace⟩ := hclosed
    obtain ⟨rest, hrest⟩ := List.head?_eq_some_iff.mp hbrace
    rw [hrest] at hsplit
    simp only [largestWord] at hsaturated
    split
    · next hlarge =>
      rw [largestCodePoint] at hlarge
      have hread := UnicodeRead.overflow rest hdigits hne (by omega)
      rwa [hsplit] at hread
    · next hlarge =>
      -- Below the limit nothing was cut off.
      rw [largestCodePoint] at hlarge
      have hexact : saturatedHex (text.takeWhile isHexDigit) =
          hexNumber 0 (text.takeWhile isHexDigit) := by omega
      have hsmall : hexNumber 0 (text.takeWhile isHexDigit) ≤ 0x10ffff := by omega
      have hread := UnicodeRead.braced rest hdigits hne hsmall (standsFor_scalar hsmall)
      rwa [hsplit, ← hexact] at hread

theorem fourDigits_read {text : List Char} (hbrace : text.head? ≠ some '\x7b') :
    UnicodeRead text (fourDigits text) := by
  unfold fourDigits
  cases hunit : hexDigits? 4 0 text with
  | none => exact .short hbrace (hexDigits?_eq_none_iff.mp hunit)
  | some unit =>
    obtain ⟨digits, rest, rfl, hdigits, rfl⟩ := exists_unit hunit
    have hdrop : (digits ++ rest).drop 4 = rest := by rw [← hdigits.length, List.drop_left]
    have hlt := hdigits.hexNumber_lt
    have hscalar := standsFor_scalar (show hexNumber 0 digits ≤ 0x10ffff by omega)
    simp only [hdrop]
    split
    · next hnone =>
      refine .unit hdigits (fun hhigh hlow => ?_) hscalar
      obtain ⟨low, hlow⟩ := beginsLowHalf_iff.mp hlow
      rw [if_pos (isHighSurrogate_iff.mpr hhigh), hlow] at hnone
      cases hnone
    · next low hlow =>
      split at hlow
      · next hhigh =>
        have hhigh := isHighSurrogate_iff.mp hhigh
        obtain ⟨second, rest, rfl, hsecond, rfl, hhalf⟩ := lowSurrogate?_eq_some_iff.mp hlow
        exact .pair rest hdigits hsecond hhigh hhalf (toNat_scalar (isValidChar_pair hhigh hhalf))
      · cases hlow

/-- Every text after `\u` is read as its digits say. -/
theorem unicode_read (text : List Char) : UnicodeRead text (unicode text) := by
  unfold unicode
  split
  · next text => exact bracedDigits_read text
  · next hbrace =>
    refine fourDigits_read fun hhead => ?_
    obtain ⟨rest, rfl⟩ := List.head?_eq_some_iff.mp hhead
    exact hbrace rest rfl

theorem bracedDigits_closed {digits : List Char} (hdigits : ∀ c ∈ digits, isHexDigit c = true)
    (hne : digits ≠ []) (rest : List Char) :
    unicode ('\x7b' :: (digits ++ '\x7d' :: rest)) =
      ⟨digits.length + 2, if 0x10ffff < hexNumber 0 digits then .error .unicodeOverflow
        else .ok (scalar (hexNumber 0 digits))⟩ := by
  have htake : (digits ++ '\x7d' :: rest).takeWhile isHexDigit = digits := by
    rw [List.takeWhile_append_of_pos hdigits, List.takeWhile_cons_of_neg (by decide),
      List.append_nil]
  have hopen : (digits.isEmpty || (some '\x7d' != some '\x7d')) = false := by
    simpa using hne
  have hsaturated := saturatedHex_eq digits
  simp only [largestWord] at hsaturated
  simp only [unicode, bracedDigits, htake, List.drop_left, List.head?_cons, hopen,
    largestCodePoint, Bool.false_eq_true, if_false]
  by_cases hlarge : 0x10ffff < hexNumber 0 digits
  · rw [if_pos (by omega), if_pos hlarge]
  · have hexact : saturatedHex digits = hexNumber 0 digits := by omega
    rw [hexact, if_neg hlarge, if_neg hlarge]

theorem unicode_unit {digits : List Char} (hdigits : IsUnit digits) (rest : List Char) :
    unicode (digits ++ rest) =
      match if isHighSurrogate (hexNumber 0 digits) then lowSurrogate? rest else none with
      | none => ⟨4, .ok (scalar (hexNumber 0 digits))⟩
      | some low => ⟨10, .ok (scalar (0x10000 + (hexNumber 0 digits - 0xd800) * 0x400 +
          (low - 0xdc00)))⟩ := by
  have hbrace (tail : List Char) : digits ++ rest ≠ '\x7b' :: tail := by
    intro htext
    match digits, hdigits with
    | first :: digits, hdigits =>
      have hfirst := hdigits.hex first List.mem_cons_self
      rw [(List.cons.inj htext).1] at hfirst
      cases hfirst
    | [], hdigits => cases hdigits.length
  have hdrop : (digits ++ rest).drop 4 = rest := by rw [← hdigits.length, List.drop_left]
  rewrite [unicode.eq_2 _ hbrace, fourDigits, hdigits.hexDigits?_append, hdrop]
  rfl

/-- The digits leave only one reading. -/
theorem UnicodeRead.eq {text : List Char} {reading : Reading Char}
    (hread : UnicodeRead text reading) : unicode text = reading := by
  cases hread with
  | @unclosed digits rest hdigits hstop hbroken =>
    have htake : (digits ++ rest).takeWhile isHexDigit = digits := by
      rw [List.takeWhile_append_of_pos hdigits]
      cases rest with
      | nil => simp
      | cons c rest => rw [List.takeWhile_cons_of_neg (by simpa using hstop), List.append_nil]
    simp only [unicode, bracedDigits, htake, List.drop_left]
    rw [if_pos]
    simpa using hbroken
  | overflow rest hdigits hne hlarge => rw [bracedDigits_closed hdigits hne, if_pos hlarge]
  | braced rest hdigits hne hsmall hc =>
    rw [bracedDigits_closed hdigits hne, if_neg (Nat.not_lt.mpr hsmall), ← hc.eq_scalar hsmall]
  | short hbrace hshort =>
    have hother (tail : List Char) : text ≠ '\x7b' :: tail := by
      rintro rfl
      exact hbrace rfl
    rw [unicode.eq_2 _ hother, fourDigits, hexDigits?_eq_none_iff.mpr hshort]
  | @pair high low c rest hhigh hlow hfirst hsecond hc =>
    have hpaired : lowSurrogate? ('\\' :: 'u' :: (low ++ rest)) = some (hexNumber 0 low) :=
      lowSurrogate?_eq_some_iff.mpr ⟨low, rest, rfl, hlow, rfl, hsecond⟩
    have hscalar := toNat_scalar (isValidChar_pair hfirst hsecond)
    rw [unicode_unit hhigh, if_pos (isHighSurrogate_iff.mpr hfirst), hpaired,
      Char.toNat_inj.mp (hc.trans hscalar.symm)]
  | @unit digits rest c hdigits halone hc =>
    have hnone : (if isHighSurrogate (hexNumber 0 digits) then lowSurrogate? rest else none) =
        none := by
      split
      · next hhigh =>
        cases hlow : lowSurrogate? rest with
        | none => rfl
        | some low =>
          exact absurd (beginsLowHalf_iff.mpr ⟨low, hlow⟩) (halone (isHighSurrogate_iff.mp hhigh))
      · rfl
    have hlt := hdigits.hexNumber_lt
    rw [unicode_unit hdigits, hnone, hc.eq_scalar (by omega)]

/-- What is consumed of a text, together with what is left of it, is read the same way. -/
theorem unicodeRead_take (text : List Char) :
    UnicodeRead (text.take (unicode text).width ++ text.drop (unicode text).width)
      ⟨(text.take (unicode text).width).length, (unicode text).result⟩ := by
  rw [List.take_append_drop, List.length_take, Nat.min_eq_left (unicode_take text).1]
  exact unicode_read text

theorem unicode_eq_iff {text : List Char} {reading : Reading Char} :
    unicode text = reading ↔ UnicodeRead text reading :=
  ⟨fun heq => heq ▸ unicode_read text, UnicodeRead.eq⟩

end EcmaLexer.Escape
