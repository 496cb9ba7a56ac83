import EcmaLexer.Proofs.Escape.Unicode
import EcmaLexer.Proofs.Text.Slicing

namespace EcmaLexer.Escape

open Character (hexValue? isHexDigit)
open Text (ahead bytes dropBytes? leadByte utf8Length)

namespace Word

/-- The word of a number, if 32 bits hold it. -/
def ofNat? (number : Nat) : Option UInt32 :=
  if number ≤ largestWord then some (UInt32.ofNat number) else none

def add? (left right : UInt32) : Option UInt32 := ofNat? (left.toNat + right.toNat)

def mul? (left right : UInt32) : Option UInt32 := ofNat? (left.toNat * right.toNat)

/-- The difference of two words, if it is not below zero. -/
def sub? (left right : UInt32) : Option UInt32 :=
  if right ≤ left then some (left - right) else none

/-- A word with its bits moved up, if none of them is lost. -/
def shiftLeft? (word : UInt32) (count : Nat) : Option UInt32 := ofNat? (word.toNat <<< count)

/-- The word of a number, or the largest one in its place. -/
def saturated (number : Nat) : UInt32 := UInt32.ofNat (min largestWord number)

def saturatingAdd (left right : UInt32) : UInt32 := saturated (left.toNat + right.toNat)

def saturatingMul (left right : UInt32) : UInt32 := saturated (left.toNat * right.toNat)

theorem ofNat?_eq {number : Nat} (hsmall : number ≤ largestWord) :
    ∃ word, ofNat? number = some word ∧ word.toNat = number := by
  refine ⟨UInt32.ofNat number, if_pos hsmall, UInt32.toNat_ofNat_of_lt' ?_⟩
  rw [largestWord] at hsmall
  rw [UInt32.size]
  omega

theorem sub?_eq {left right : UInt32} (hle : right.toNat ≤ left.toNat) :
    ∃ word, sub? left right = some word ∧ word.toNat = left.toNat - right.toNat :=
  ⟨left - right, if_pos hle, UInt32.toNat_sub_of_le left right hle⟩

theorem toNat_saturated (number : Nat) : (saturated number).toNat = min largestWord number := by
  refine UInt32.toNat_ofNat_of_lt' ?_
  rw [largestWord, UInt32.size]
  omega

end Word

/-- The number that the hexadecimal digits among some bytes continue, after the digits before them
    gave `value`. There is none if a byte is no digit; the outer option fails where 32 bits do not
    hold a result. -/
def hexFold? (value : UInt32) : List UInt8 → Option (Option UInt32)
  | [] => some (some value)
  | byte :: rest => do
    let shifted ← Word.mul? value 16
    match hexValue? (Char.ofNat byte.toNat) with
    | none => some none
    | some digit => do
      let next ← Word.add? shifted (UInt32.ofNat digit)
      hexFold? next rest

/-- The number of the `count` hexadecimal digits at an offset, if there are as many bytes and all of
    them are digits. -/
def hexAt? (source : List Char) (offset count : Nat) : Option (Option UInt32) :=
  if offset + count ≤ (bytes source).length then
    hexFold? 0 (((bytes source).drop offset).take count)
  else some none

/-- Reads on in the digits between braces: the offset where they end, their saturated value and
    their number. -/
def bracedLoop (offset : Nat) (value : UInt32) (digits : Nat) : List Char → Nat × UInt32 × Nat
  | [] => (offset, value, digits)
  | c :: rest =>
    match hexValue? c with
    | none => (offset, value, digits)
    | some digit =>
      bracedLoop (offset + 1)
        (Word.saturatingAdd (Word.saturatingMul value 16) (UInt32.ofNat digit)) (digits + 1) rest

/-- The code point of a surrogate pair. -/
def combine? (unit low : UInt32) : Option UInt32 := do
  let high ← Word.sub? unit 0xd800
  let shifted ← Word.shiftLeft? high 10
  let base ← Word.add? 0x10000 shifted
  let rest ← Word.sub? low 0xdc00
  Word.add? base rest

/-- The code point of a surrogate pair, if `unit` is its first half and the bytes at an offset are
    the escape of its second half. -/
def pairAt? (source : List Char) (unit : UInt32) (offset : Nat) : Option (Option UInt32) :=
  if (0xd800 ≤ unit ∧ unit < 0xdc00) ∧ (bytes source)[offset]? = some 0x5c ∧
      (bytes source)[offset + 1]? = some 0x75 then do
    match ← hexAt? source (offset + 2) 4 with
    | none => some none
    | some low =>
      if 0xdc00 ≤ low ∧ low ≤ 0xdfff then (combine? unit low).map some else some none
  else some none

/-- Reads a unicode escape at an offset, just past its `\u`, in words of 32 bits and looking ahead
    byte by byte: where the cursor comes to stand, and what was read. -/
def unicodeAt? (source : List Char) (offset : Nat) : Option (Nat × Except EscapeFault Char) :=
  if (bytes source)[offset]? = some 0x7b then
    let (stop, value, digits) := bracedLoop (offset + 1) 0 0 (ahead source (offset + 1))
    if digits = 0 ∨ (bytes source)[stop]? ≠ some 0x7d then some (stop, .error .invalidUnicode)
    else if 0x10ffff < value then some (stop + 1, .error .unicodeOverflow)
    else some (stop + 1, .ok (scalar value.toNat))
  else do
    match ← hexAt? source offset 4 with
    | none => some (offset, .error .invalidUnicode)
    | some unit =>
      match ← pairAt? source unit (offset + 4) with
      | none => some (offset + 4, .ok (scalar unit.toNat))
      | some combined => some (offset + 10, .ok (scalar combined.toNat))

theorem toNat_lt_of_isHexDigit {c : Char} (hdigit : isHexDigit c = true) : c.toNat < 0x80 := by
  have hrange {first last : Char} (hc : (first ≤ c && c ≤ last) = true)
      (hlast : last.toNat < 0x80) : c.toNat < 0x80 := by
    simp only [Bool.and_eq_true, decide_eq_true_eq] at hc
    exact Nat.lt_of_le_of_lt hc.2 hlast
  unfold isHexDigit hexValue? at hdigit
  split at hdigit
  · next hc => exact hrange hc (by decide)
  · split at hdigit
    · next hc => exact hrange hc (by decide)
    · split at hdigit
      · next hc => exact hrange hc (by decide)
      · cases hdigit

theorem leadByte_of_ascii {c : Char} (hascii : c.toNat < 0x80) : (leadByte c).toNat = c.toNat := by
  have hvalue : c.val.toNat ≤ 0x7f := Nat.le_of_lt_succ hascii
  unfold leadByte String.utf8EncodeChar
  simp only [if_pos hvalue]
  exact UInt8.toNat_ofNat_of_lt' (by rw [UInt8.size]; omega)

/-- A byte is a hexadecimal digit exactly if the character that it begins is the same one. -/
theorem hexValue?_leadByte (c : Char) :
    hexValue? (Char.ofNat (leadByte c).toNat) = hexValue? c := by
  by_cases hascii : (leadByte c).toNat < 128
  · rw [Text.toNat_leadByte hascii, Char.ofNat_toNat]
  · have hnone {d : Char} (hd : ¬d.toNat < 0x80) : hexValue? d = none := by
      cases hvalue : hexValue? d with
      | none => rfl
      | some digit =>
        have hdigit : isHexDigit d = true := by rw [isHexDigit, hvalue]; rfl
        exact absurd (toNat_lt_of_isHexDigit hdigit) hd
    have hvalid : (leadByte c).toNat.isValidChar := by
      have hlt := (leadByte c).toNat_lt
      simp only [Nat.isValidChar]
      omega
    have hbyte : (Char.ofNat (leadByte c).toNat).toNat = (leadByte c).toNat := by
      rw [Char.ofNat, dif_pos hvalid]
      rfl
    rw [hnone (by rwa [hbyte]), hnone fun hc => hascii (by rwa [leadByte_of_ascii hc])]

theorem utf8Size_digit {c : Char} (hdigit : isHexDigit c = true) : c.utf8Size = 1 := by
  have hle : c.val ≤ 0x7f :=
    UInt32.le_iff_toNat_le.mpr (Nat.le_of_lt_succ (toNat_lt_of_isHexDigit hdigit))
  exact if_pos hle

theorem bytes_digit {c : Char} (hdigit : isHexDigit c = true) (text : List Char) :
    bytes (c :: text) = leadByte c :: bytes text := by
  obtain ⟨trail, hencode, -⟩ := Text.utf8EncodeChar_eq_cons c
  have hlength := congrArg List.length hencode
  rw [String.length_utf8EncodeChar, utf8Size_digit hdigit, List.length_cons] at hlength
  rw [Text.bytes_cons, hencode, List.length_eq_zero_iff.mp (by omega : trail.length = 0)]
  rfl

theorem length_le_utf8Length (text : List Char) : text.length ≤ utf8Length text := by
  induction text with
  | nil => exact Nat.le_refl 0
  | cons c text ih =>
    have hpos := c.utf8Size_pos
    rw [List.length_cons, Text.utf8Length_cons]
    omega

/-- Digits are read off the bytes of a text as off its characters, and as long as the value stays
    small no step leaves the 32 bits. -/
theorem hexFold?_bytes {count : Nat} {value : UInt32} {text : List Char}
    (hlength : count ≤ utf8Length text)
    (hbound : (value.toNat + 1) * 16 ^ count ≤ largestWord + 1) :
    ∃ found, hexFold? value ((bytes text).take count) = some found ∧
      found.map UInt32.toNat = hexDigits? count value.toNat text := by
  induction count generalizing value text with
  | zero => exact ⟨some value, rfl, rfl⟩
  | succ count ih =>
    cases text with
    | nil => cases hlength
    | cons c rest =>
      rw [Nat.pow_succ', ← Nat.mul_assoc] at hbound
      have hpow : 0 < 16 ^ count := Nat.pow_pos (by decide)
      have hfits : (value.toNat + 1) * 16 ≤ largestWord + 1 :=
        Nat.le_trans (Nat.le_mul_of_pos_right _ hpow) hbound
      have hsixteen : (16 : UInt32).toNat = 16 := rfl
      obtain ⟨shifted, hshifted, hvalue⟩ : ∃ word, Word.mul? value 16 = some word ∧
          word.toNat = value.toNat * 16 := Word.ofNat?_eq (by rw [hsixteen]; omega)
      cases hdigit : hexValue? c with
      | none =>
        obtain ⟨trail, hencode, -⟩ := Text.utf8EncodeChar_eq_cons c
        refine ⟨none, ?_, by rw [hexDigits?, hdigit]; rfl⟩
        rw [Text.bytes_cons, hencode, List.cons_append, List.take_succ_cons, hexFold?, hshifted]
        simp only [hexValue?_leadByte, hdigit, Option.bind_eq_bind, Option.bind_some]
      | some digit =>
        have hlt := hexValue?_lt hdigit
        have hword : (UInt32.ofNat digit).toNat = digit :=
          UInt32.toNat_ofNat_of_lt' (by rw [UInt32.size]; omega)
        obtain ⟨next, hnext, hsum⟩ : ∃ word, Word.add? shifted (UInt32.ofNat digit) = some word ∧
            word.toNat = shifted.toNat + (UInt32.ofNat digit).toNat :=
          Word.ofNat?_eq (by omega)
        have hhex : isHexDigit c = true := by rw [isHexDigit, hdigit]; rfl
        have hrest : count ≤ utf8Length rest := by
          have hsize := utf8Size_digit hhex
          rw [Text.utf8Length_cons] at hlength
          omega
        have hstep : (next.toNat + 1) * 16 ^ count ≤ largestWord + 1 :=
          Nat.le_trans (Nat.mul_le_mul_right _ (by omega)) hbound
        obtain ⟨found, hfound, hnumber⟩ := ih hrest hstep
        refine ⟨found, ?_, ?_⟩
        · rw [bytes_digit hhex, List.take_succ_cons, hexFold?, hshifted]
          simp only [hexValue?_leadByte, hdigit, Option.bind_eq_bind, Option.bind_some, hnext,
            hfound]
        · rw [hnumber, hexDigits?, hdigit, hsum, hvalue, hword]

theorem hexAt?_eq {source text : List Char} {offset : Nat}
    (hdrop : dropBytes? offset source = some text) :
    ∃ found, hexAt? source offset 4 = some found ∧
      found.map UInt32.toNat = hexDigits? 4 0 text := by
  obtain ⟨before, rfl, rfl⟩ := Text.dropBytes?_eq_some hdrop
  have hbytes : (bytes (before ++ text)).drop (utf8Length before) = bytes text := by
    have hsplit : bytes (before ++ text) = bytes before ++ bytes text := List.flatMap_append
    rw [hsplit, ← Text.length_bytes, List.drop_left]
  unfold hexAt?
  rw [Text.length_bytes, Text.utf8Length_append, hbytes]
  split
  · next hlength => exact hexFold?_bytes (by omega) (by decide)
  · next hlength =>
    refine ⟨none, rfl, ?_⟩
    cases hread : hexDigits? 4 0 text with
    | none => rfl
    | some unit =>
      obtain ⟨hlong, -⟩ := hexDigits?_eq_some hread
      have hle := length_le_utf8Length text
      omega

theorem Word.toNat_accumulate (value : UInt32) {digit : Nat} (hdigit : digit < 16) :
    (saturatingAdd (saturatingMul value 16) (UInt32.ofNat digit)).toNat =
      accumulate value.toNat digit := by
  have hword : (UInt32.ofNat digit).toNat = digit :=
    UInt32.toNat_ofNat_of_lt' (by rw [UInt32.size]; omega)
  rw [saturatingAdd, toNat_saturated, saturatingMul, toNat_saturated, hword]
  rfl

/-- The loop stops behind the last digit. -/
theorem bracedLoop_eq (offset : Nat) (value : UInt32) (digits : Nat) (text : List Char) :
    ∃ word, bracedLoop offset value digits text =
        (offset + (text.takeWhile isHexDigit).length, word,
          digits + (text.takeWhile isHexDigit).length) ∧
      word.toNat = (text.takeWhile isHexDigit).foldl
        (fun value c => accumulate value ((hexValue? c).getD 0)) value.toNat := by
  induction text generalizing offset value digits with
  | nil => exact ⟨value, rfl, rfl⟩
  | cons c rest ih =>
    cases hdigit : hexValue? c with
    | none =>
      have hstop : ¬isHexDigit c = true := by simp [isHexDigit, hdigit]
      rw [bracedLoop, hdigit, List.takeWhile_cons_of_neg hstop]
      exact ⟨value, rfl, rfl⟩
    | some digit =>
      have hgoes : isHexDigit c = true := by simp [isHexDigit, hdigit]
      obtain ⟨word, hloop, hword⟩ := ih (offset + 1)
        (Word.saturatingAdd (Word.saturatingMul value 16) (UInt32.ofNat digit)) (digits + 1)
      rw [Word.toNat_accumulate value (hexValue?_lt hdigit)] at hword
      rw [bracedLoop, hdigit, List.takeWhile_cons_of_pos hgoes, List.length_cons, List.foldl_cons,
        hdigit, Option.getD_some]
      refine ⟨word, ?_, hword⟩
      simp only [hloop, Prod.mk.injEq, true_and]
      omega

/-- The bytes of an escape's opening stand at an offset just if its characters do. -/
theorem opening_iff {source text : List Char} {offset : Nat}
    (hdrop : dropBytes? offset source = some text) :
    ((bytes source)[offset]? = some 0x5c ∧ (bytes source)[offset + 1]? = some 0x75) ↔
      ∃ rest, text = '\\' :: 'u' :: rest := by
  have hbackslash : (bytes source)[offset]? = some 0x5c ↔ text.head? = some '\\' :=
    Text.getElem?_bytes_eq_some (c := '\\') (by decide) hdrop
  have hnext {rest : List Char} (htext : text = '\\' :: rest) :
      (bytes source)[offset + 1]? = some 0x75 ↔ rest.head? = some 'u' := by
    subst htext
    exact Text.getElem?_bytes_eq_some (c := 'u') (by decide)
      (Text.dropBytes?_add (show _ = some (['\\'] ++ rest) from hdrop))
  constructor
  · rintro ⟨hfirst, hsecond⟩
    obtain ⟨rest, htext⟩ := List.head?_eq_some_iff.mp (hbackslash.mp hfirst)
    obtain ⟨tail, rfl⟩ := List.head?_eq_some_iff.mp ((hnext htext).mp hsecond)
    exact ⟨tail, htext⟩
  · rintro ⟨rest, htext⟩
    exact ⟨hbackslash.mpr (by rw [htext]; rfl), (hnext htext).mpr rfl⟩

/-- The halves of a surrogate pair are put together without a result below zero or above the 32
    bits. -/
theorem combine?_eq {unit low : UInt32} (hhigh : IsHighHalf unit.toNat)
    (hlow : IsLowHalf low.toNat) :
    ∃ combined, combine? unit low = some combined ∧
      combined.toNat = 0x10000 + (unit.toNat - 0xd800) * 0x400 + (low.toNat - 0xdc00) := by
  unfold IsHighHalf at hhigh
  unfold IsLowHalf at hlow
  have hbase : (0xd800 : UInt32).toNat = 0xd800 := rfl
  have hfloor : (0xdc00 : UInt32).toNat = 0xdc00 := rfl
  have hplane : (0x10000 : UInt32).toNat = 0x10000 := rfl
  obtain ⟨high, hsub, hvalue⟩ := Word.sub?_eq (show (0xd800 : UInt32).toNat ≤ unit.toNat by omega)
  obtain ⟨shifted, hshift, hshifted⟩ : ∃ word, Word.shiftLeft? high 10 = some word ∧
      word.toNat = high.toNat <<< 10 := Word.ofNat?_eq (by
    rw [Nat.shiftLeft_eq, largestWord]
    omega)
  rw [Nat.shiftLeft_eq] at hshifted
  obtain ⟨start, hadd, hstart⟩ : ∃ word, Word.add? 0x10000 shifted = some word ∧
      word.toNat = (0x10000 : UInt32).toNat + shifted.toNat := Word.ofNat?_eq (by
    rw [largestWord]
    omega)
  obtain ⟨rest, hrest, hremainder⟩ :=
    Word.sub?_eq (show (0xdc00 : UInt32).toNat ≤ low.toNat by omega)
  obtain ⟨combined, hsum, hcombined⟩ : ∃ word, Word.add? start rest = some word ∧
      word.toNat = start.toNat + rest.toNat := Word.ofNat?_eq (by
    rw [largestWord]
    omega)
  refine ⟨combined, ?_, by omega⟩
  simp only [combine?, hsub, hshift, hadd, hrest, hsum, Option.bind_eq_bind, Option.bind_some]

theorem highWord_iff {unit : UInt32} :
    (0xd800 ≤ unit ∧ unit < 0xdc00) ↔ IsHighHalf unit.toNat := by
  rw [UInt32.le_iff_toNat_le, UInt32.lt_iff_toNat_lt, IsHighHalf]
  have hfirst : (0xd800 : UInt32).toNat = 0xd800 := rfl
  have hstop : (0xdc00 : UInt32).toNat = 0xdc00 := rfl
  omega

theorem lowWord_iff {unit : UInt32} : (0xdc00 ≤ unit ∧ unit ≤ 0xdfff) ↔ IsLowHalf unit.toNat :=
  Iff.rfl

theorem pairAt?_eq {source text : List Char} {offset : Nat} (unit : UInt32)
    (hdrop : dropBytes? offset source = some text) :
    ∃ found, pairAt? source unit offset = some found ∧
      found.map UInt32.toNat =
        (if isHighSurrogate unit.toNat then lowSurrogate? text else none).map fun low =>
          0x10000 + (unit.toNat - 0xd800) * 0x400 + (low - 0xdc00) := by
  unfold pairAt?
  split
  · next hbegin =>
    rw [opening_iff hdrop, highWord_iff] at hbegin
    obtain ⟨hhigh, rest, rfl⟩ := hbegin
    have hrest : dropBytes? (offset + 2) source = some rest :=
      Text.dropBytes?_add (show _ = some (['\\', 'u'] ++ rest) from hdrop)
    obtain ⟨found, hfound, hdigits⟩ := hexAt?_eq hrest
    rw [if_pos (isHighSurrogate_iff.mpr hhigh), lowSurrogate?, ← hdigits, hfound]
    cases found with
    | none => exact ⟨none, rfl, rfl⟩
    | some low =>
      simp only [Option.bind_eq_bind, Option.bind_some, Option.map_some, Option.filter_some,
        isLowSurrogate_iff, lowWord_iff]
      split
      · next hlow =>
        obtain ⟨combined, hcombine, hvalue⟩ := combine?_eq hhigh hlow
        exact ⟨some combined, by rw [hcombine]; rfl, congrArg some hvalue⟩
      · exact ⟨none, rfl, rfl⟩
  · next hother =>
    rw [opening_iff hdrop, highWord_iff] at hother
    refine ⟨none, rfl, ?_⟩
    split
    · next hhigh =>
      cases hlow : lowSurrogate? text with
      | none => rfl
      | some low =>
        obtain ⟨digits, rest, htext, -⟩ := lowSurrogate?_eq_some_iff.mp hlow
        exact absurd ⟨isHighSurrogate_iff.mp hhigh, _, htext⟩ hother
    · rfl

theorem utf8Length_digits {digits : List Char} (hdigits : ∀ c ∈ digits, isHexDigit c = true) :
    utf8Length digits = digits.length := by
  induction digits with
  | nil => rfl
  | cons c digits ih =>
    obtain ⟨hc, hdigits⟩ := List.forall_mem_cons.mp hdigits
    rw [Text.utf8Length_cons, List.length_cons, utf8Size_digit hc, ih hdigits, Nat.add_comm]

theorem bracedAt?_eq {source text : List Char} {offset : Nat}
    (hdrop : dropBytes? offset source = some ('\x7b' :: text)) :
    unicodeAt? source offset =
      some (offset + (unicode ('\x7b' :: text)).width, (unicode ('\x7b' :: text)).result) := by
  have hopen : (bytes source)[offset]? = some 0x7b :=
    (Text.getElem?_bytes_eq_some (c := '\x7b') (by decide) hdrop).mpr rfl
  have hinner : dropBytes? (offset + 1) source = some text :=
    Text.dropBytes?_add (show _ = some (['\x7b'] ++ text) from hdrop)
  obtain ⟨word, hloop, hword⟩ := bracedLoop_eq (offset + 1) 0 0 text
  have hvalue : word.toNat = saturatedHex (text.takeWhile isHexDigit) := hword
  have hrest : dropBytes? (offset + 1 + (text.takeWhile isHexDigit).length) source =
      some (text.dropWhile isHexDigit) := by
    rw [← utf8Length_digits (List.all_eq_true.mp List.all_takeWhile)]
    rw [← List.takeWhile_append_dropWhile (p := isHexDigit) (l := text)] at hinner
    exact Text.dropBytes?_add hinner
  have hclose : (bytes source)[offset + 1 + (text.takeWhile isHexDigit).length]? = some 0x7d ↔
      (text.dropWhile isHexDigit).head? = some '\x7d' :=
    Text.getElem?_bytes_eq_some (c := '\x7d') (by decide) hrest
  have hlarge : 0x10ffff < word ↔
      largestCodePoint < saturatedHex (text.takeWhile isHexDigit) := by
    rw [← hvalue]
    exact UInt32.lt_iff_toNat_lt
  have hwidth (width : Nat) : offset + 1 + width = offset + (width + 1) := by omega
  simp only [unicodeAt?, hopen, if_true, Text.ahead_of_dropBytes? hinner, hloop, hclose, hlarge,
    unicode, bracedDigits, drop_length_takeWhile, Nat.zero_add, List.length_eq_zero_iff,
    Bool.or_eq_true, List.isEmpty_iff, bne_iff_ne, ne_eq, hvalue]
  split
  · rw [hwidth]
  · split
    · rw [hwidth, Nat.add_assoc]
    · rw [hwidth, Nat.add_assoc]

theorem fourAt?_eq {source text : List Char} {offset : Nat}
    (hdrop : dropBytes? offset source = some text) (hbrace : text.head? ≠ some '\x7b') :
    unicodeAt? source offset =
      some (offset + (fourDigits text).width, (fourDigits text).result) := by
  have hclosed : ¬(bytes source)[offset]? = some 0x7b := fun hopen =>
    hbrace ((Text.getElem?_bytes_eq_some (c := '\x7b') (by decide) hdrop).mp hopen)
  obtain ⟨found, hfound, hdigits⟩ := hexAt?_eq hdrop
  rw [unicodeAt?, if_neg hclosed, hfound]
  unfold fourDigits
  rw [← hdigits]
  cases found with
  | none => rfl
  | some unit =>
    obtain ⟨digits, rest, rfl, hunit, -⟩ := exists_unit hdigits.symm
    have hsize : utf8Length digits = 4 := (utf8Length_digits hunit.hex).trans hunit.length
    have hrest : dropBytes? (offset + 4) source = some ((digits ++ rest).drop 4) := by
      rw [← hunit.length, List.drop_left, hunit.length, ← hsize]
      exact Text.dropBytes?_add hdrop
    obtain ⟨pair, hpair, hvalue⟩ := pairAt?_eq unit hrest
    simp only [Option.bind_eq_bind, Option.bind_some, Option.map_some, hpair]
    cases pair with
    | none =>
      have hnone := Option.map_eq_none_iff.mp hvalue.symm
      rw [hnone]
    | some combined =>
      obtain ⟨low, hlow, hnumber⟩ := Option.map_eq_some_iff.mp hvalue.symm
      simp only [hlow, hnumber]

/-- In words of 32 bits and byte by byte an escape is read as it is with exact numbers. No operation
    leaves the 32 bits. -/
theorem unicodeAt?_eq {source text : List Char} {offset : Nat}
    (hdrop : dropBytes? offset source = some text) :
    unicodeAt? source offset =
      some (offset + (unicode text).width, (unicode text).result) := by
  by_cases hbrace : text.head? = some '\x7b'
  · obtain ⟨rest, rfl⟩ := List.head?_eq_some_iff.mp hbrace
    exact bracedAt?_eq hdrop
  · have hother (rest : List Char) : text ≠ '\x7b' :: rest := by
      rintro rfl
      exact hbrace rfl
    rw [unicode.eq_2 _ hother]
    exact fourAt?_eq hdrop hbrace

/-- A unicode escape is read by the exact number that its digits spell, however many there are; and
    the words of 32 bits that it is computed in, with looks at single bytes up to the end of the
    source, never fail or give another answer. -/
theorem unicode_exact {source text : List Char} {offset : Nat}
    (hdrop : dropBytes? offset source = some text) :
    (∀ reading, unicode text = reading ↔ UnicodeRead text reading) ∧
      unicodeAt? source offset =
        some (offset + (unicode text).width, (unicode text).result) :=
  ⟨fun _ => unicode_eq_iff, unicodeAt?_eq hdrop⟩

theorem unicode_exact_pair :
    dropBytes? 2 "\\ud83d\\ude00".toList = some "d83d\\ude00".toList ∧
      UnicodeRead "d83d\\ude00".toList ⟨10, .ok '😀'⟩ ∧
      unicodeAt? "\\ud83d\\ude00".toList 2 = some (12, .ok '😀') := by
  have hdrop : dropBytes? 2 "\\ud83d\\ude00".toList = some "d83d\\ude00".toList := by decide
  obtain ⟨hexact, hwords⟩ := unicode_exact hdrop
  have hread : UnicodeRead "d83d\\ude00".toList ⟨10, .ok '😀'⟩ :=
    @UnicodeRead.pair "d83d".toList "de00".toList '😀' [] ⟨rfl, Text.forall_mem_of_all rfl⟩
      ⟨rfl, Text.forall_mem_of_all rfl⟩ (by decide) (by decide) (by decide)
  rw [(hexact _).mpr hread] at hwords
  exact ⟨hdrop, hread, hwords⟩

end EcmaLexer.Escape
