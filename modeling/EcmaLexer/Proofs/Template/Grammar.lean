import EcmaLexer.Proofs.Lexeme.Escape

namespace EcmaLexer.Template

open Escape (hexNumber)

/-- The value of an escape and the text after it. -/
abbrev Decoded := Except EscapeFault (List Char × List Char)

/-- The letters that stand for a control character after a backslash. -/
def letters : List (Char × Char) :=
  [('b', '\x08'), ('t', '\t'), ('n', '\n'), ('v', '\x0b'), ('f', '\x0c'), ('r', '\r')]

/-- The character with a number of at most 0x10ffff. No character has the number of
    a surrogate; U+FFFD takes its place. -/
def character (number : Nat) : Char :=
  if 0xd800 ≤ number ∧ number ≤ 0xdfff then '\ufffd' else Char.ofNat number

/-- The number that the first `count` characters spell in hexadecimal digits, and
    the text after them. -/
def leadingHex? (count : Nat) (text : List Char) : Option (Nat × List Char) :=
  if count ≤ text.length ∧ (text.take count).all Character.isHexDigit then
    some (hexNumber 0 (text.take count), text.drop count)
  else none

/-- The second half of a surrogate pair, when it follows the first. -/
def pairedWith? (unit : Nat) : List Char → Option (Nat × List Char)
  | '\\' :: 'u' :: text =>
    if 0xd800 ≤ unit ∧ unit ≤ 0xdbff then
      (leadingHex? 4 text).filter fun (low, _) => decide (0xdc00 ≤ low ∧ low ≤ 0xdfff)
    else none
  | _ => none

/-- The escape `\u{H...}` after its opening brace. -/
def decodeBraced (text : List Char) : Decoded :=
  match text.takeWhile Character.isHexDigit, text.dropWhile Character.isHexDigit with
  | digit :: digits, '\x7d' :: rest =>
    let number := hexNumber 0 (digit :: digits)
    if number ≤ 0x10ffff then .ok ([character number], rest) else .error .unicodeOverflow
  | _, _ => .error .invalidUnicode

/-- The escape `\uHHHH` after its letter, with its other half if it begins a
    surrogate pair. -/
def decodeUnit (text : List Char) : Decoded :=
  match leadingHex? 4 text with
  | none => .error .invalidUnicode
  | some (unit, rest) =>
    match pairedWith? unit rest with
    | some (low, rest) => .ok ([Char.ofNat (0x10000 + (unit - 0xd800) * 0x400 + (low - 0xdc00))], rest)
    | none => .ok ([character unit], rest)

/-- A unicode escape after its letter. -/
def decodeUnicode : List Char → Decoded
  | '\x7b' :: text => decodeBraced text
  | text => decodeUnit text

/-- The escape at the head of the text after a backslash, by the grammar of
    templates: no octal digits, and neither `\8` nor `\9`. A backslash at the very
    end of a text begins no escape. -/
def decode : List Char → Decoded
  | [] => .ok ([], [])
  | c :: rest =>
    match letters.lookup c with
    | some meaning => .ok ([meaning], rest)
    | none =>
      if Text.isLineTerminator c then
        .ok ([], if c = '\r' ∧ rest.head? = some '\n' then rest.drop 1 else rest)
      else if c = 'x' then
        match leadingHex? 2 rest with
        | some (number, rest) => .ok ([character number], rest)
        | none => .error .invalidHex
      else if c = 'u' then decodeUnicode rest
      else if c = '0' ∧ rest.head?.any Char.isDigit = false then .ok (['\x00'], rest)
      else if '0' ≤ c ∧ c ≤ '7' then .error .templateOctal
      else if c = '8' ∨ c = '9' then .error (.eightOrNine c)
      else .ok ([c], rest)

theorem scalar_eq_character {number : Nat} (hnumber : number ≤ 0x10ffff) :
    Escape.scalar number = character number := by
  unfold Escape.scalar character
  by_cases hsurrogate : 0xd800 ≤ number ∧ number ≤ 0xdfff
  · rw [if_pos hsurrogate, if_neg]
    simp only [Nat.isValidChar]
    omega
  · rw [if_neg hsurrogate, if_pos]
    simp only [Nat.isValidChar]
    omega

theorem hexDigits?_eq_map (count : Nat) (text : List Char) :
    Escape.hexDigits? count 0 text = (leadingHex? count text).map Prod.fst := by
  rw [Escape.hexDigits?_eq, leadingHex?]
  split <;> rfl

theorem leadingHex?_eq_some {count number : Nat} {text rest : List Char}
    (hread : leadingHex? count text = some (number, rest)) :
    text.drop count = rest ∧ number < 16 ^ count := by
  unfold leadingHex? at hread
  split at hread
  · next hdigits =>
    simp only [Option.some.injEq, Prod.mk.injEq] at hread
    refine ⟨hread.2, ?_⟩
    have hbound := Escape.hexNumber_lt 0 (text.take count)
    rw [List.length_take, Nat.min_eq_left hdigits.1] at hbound
    omega
  · cases hread

/-- Both readers find the second half of a surrogate pair alike. -/
theorem lowSurrogate?_eq_map (unit : Nat) (text : List Char) :
    (if Escape.isHighSurrogate unit then Escape.lowSurrogate? text else none) =
      (pairedWith? unit text).map Prod.fst := by
  have hhigh : Escape.isHighSurrogate unit = true ↔ 0xd800 ≤ unit ∧ unit ≤ 0xdbff := by
    simp only [Escape.isHighSurrogate, Bool.and_eq_true, decide_eq_true_eq]
    omega
  have hlow (found : Nat × List Char) :
      decide (0xdc00 ≤ found.1 ∧ found.1 ≤ 0xdfff) = Escape.isLowSurrogate found.1 := by
    simp [Escape.isLowSurrogate]
  fun_cases pairedWith? unit text with
  | case1 text hunit =>
    rw [if_pos (hhigh.mpr hunit), Escape.lowSurrogate?, hexDigits?_eq_map]
    cases leadingHex? 4 text with
    | none => rfl
    | some found =>
      simp only [Option.map_some, Option.filter_some, hlow, apply_ite (Option.map Prod.fst), Option.map_none]
  | case2 text hunit => rw [if_neg (fun h => hunit (hhigh.mp h)), Option.map_none]
  | case3 text hpair =>
    rw [Escape.lowSurrogate?.eq_2 _ hpair]
    simp

theorem pairedWith?_eq_some {unit low : Nat} {text after : List Char}
    (hpair : pairedWith? unit text = some (low, after)) :
    (0xd800 ≤ unit ∧ unit ≤ 0xdbff) ∧ (0xdc00 ≤ low ∧ low ≤ 0xdfff) ∧ text.drop 6 = after := by
  fun_cases pairedWith? unit text with
  | case1 text hunit =>
    rw [pairedWith?, if_pos hunit, Option.filter_eq_some_iff] at hpair
    exact ⟨hunit, of_decide_eq_true hpair.2, (leadingHex?_eq_some hpair.1).1⟩
  | case2 text hunit =>
    rw [pairedWith?, if_neg hunit] at hpair
    cases hpair
  | case3 text hnone =>
    rw [pairedWith?.eq_2 _ _ hnone] at hpair
    cases hpair

theorem decodeUnit_eq (text : List Char) :
    decodeUnit text =
      (Escape.fourDigits text).result.map fun c => ([c], text.drop (Escape.fourDigits text).width) := by
  unfold decodeUnit Escape.fourDigits
  rw [hexDigits?_eq_map]
  cases hunit : leadingHex? 4 text with
  | none => rfl
  | some found =>
    obtain ⟨unit, rest⟩ := found
    obtain ⟨hdrop, hbound⟩ := leadingHex?_eq_some hunit
    simp only [Option.map_some, hdrop, lowSurrogate?_eq_map]
    cases hpair : pairedWith? unit rest with
    | none =>
      simp only [Option.map_none, Except.map, hdrop, scalar_eq_character (show unit ≤ 0x10ffff by omega)]
    | some found =>
      obtain ⟨low, after⟩ := found
      obtain ⟨hunitRange, hlowRange, hafter⟩ := pairedWith?_eq_some hpair
      have hnumber : 0x10000 + (unit - 0xd800) * 0x400 + (low - 0xdc00) ≤ 0x10ffff := by omega
      have hsurrogate : ¬ (0xd800 ≤ 0x10000 + (unit - 0xd800) * 0x400 + (low - 0xdc00) ∧
          0x10000 + (unit - 0xd800) * 0x400 + (low - 0xdc00) ≤ 0xdfff) := by omega
      have hdropped : text.drop 10 = after := by
        rw [← hafter, ← hdrop, List.drop_drop]
      simp only [Option.map_some, scalar_eq_character hnumber, character, if_neg hsurrogate,
        Except.map, hdropped]

theorem decodeBraced_eq (text : List Char) :
    decodeBraced text =
      (Escape.bracedDigits text).result.map fun c => ([c], text.drop (Escape.bracedDigits text).width) := by
  unfold decodeBraced Escape.bracedDigits
  have hafter : text.drop ((text.takeWhile Character.isHexDigit).length + 1) =
      (text.dropWhile Character.isHexDigit).drop 1 := by
    rw [← List.drop_drop, Escape.drop_length_takeWhile]
  simp only [Escape.drop_length_takeWhile]
  cases hdigits : text.takeWhile Character.isHexDigit with
  | nil => simp [Except.map]
  | cons digit digits =>
    rw [hdigits] at hafter
    cases hrest : text.dropWhile Character.isHexDigit with
    | nil => simp [Except.map]
    | cons c rest =>
      by_cases hbrace : c = '\x7d'
      · subst hbrace
        rw [hrest] at hafter
        have hvalue := Escape.saturatedHex_eq (digit :: digits)
        simp only [Escape.largestWord] at hvalue
        simp only [Escape.largestCodePoint]
        by_cases hbound : hexNumber 0 (digit :: digits) ≤ 0x10ffff
        · have hexact : Escape.saturatedHex (digit :: digits) = hexNumber 0 (digit :: digits) := by
            omega
          rw [List.length_cons, List.drop_one, List.tail_cons] at hafter
          simp [hexact, hbound, Nat.not_lt.mpr hbound, scalar_eq_character hbound, Except.map,
            hafter]
        · have hover : 0x10ffff < Escape.saturatedHex (digit :: digits) := by omega
          simp [hbound, hover, Except.map]
      · simp [hbrace, Except.map]

/-- The grammar and a reading agree on the value and on the text that is left. -/
def Agrees (text : List Char) (reading : Escape.Reading (List Char)) : Prop :=
  decode text = reading.result.map fun value => (value, text.drop reading.width)

theorem letter?_eq_lookup (c : Char) : Escape.letter? c = letters.lookup c := by
  fun_cases Escape.letter? c with
  | case1 => rfl
  | case2 => rfl
  | case3 => rfl
  | case4 => rfl
  | case5 => rfl
  | case6 => rfl
  | case7 c hb ht hn hv hf hr =>
    simp [letters, List.lookup_cons, beq_false_of_ne hb, beq_false_of_ne ht, beq_false_of_ne hn,
      beq_false_of_ne hv, beq_false_of_ne hf, beq_false_of_ne hr]

theorem eq_eight_or_nine {c : Char} (hdigit : c.isDigit = true)
    (hoctal : Character.isOctalDigit c = false) :
    c = '8' ∨ c = '9' := by
  have hrange : 48 ≤ c.toNat ∧ c.toNat ≤ 57 := by
    simpa [Char.isDigit, UInt32.le_iff_toNat_le, ge_iff_le] using hdigit
  have hlarge : ¬ c.toNat ≤ 55 := by
    intro hle
    simp only [Character.isOctalDigit, Bool.and_eq_false_iff, decide_eq_false_iff_not, Char.le_def,
      UInt32.le_iff_toNat_le] at hoctal
    have h0 : '0'.val.toNat = 48 := rfl
    have h7 : '7'.val.toNat = 55 := rfl
    have hc : c.toNat = c.val.toNat := rfl
    omega
  have hcases : c.toNat = '8'.toNat ∨ c.toNat = '9'.toNat := by
    have h8 : '8'.toNat = 56 := rfl
    have h9 : '9'.toNat = 57 := rfl
    omega
  exact hcases.imp Char.toNat_inj.mp Char.toNat_inj.mp

theorem isDigit_of_octal {c : Char} (hoctal : '0' ≤ c ∧ c ≤ '7') : c.isDigit = true := by
  have h0 : '0'.val.toNat = 48 := rfl
  have h7 : '7'.val.toNat = 55 := rfl
  simp only [Char.le_def, UInt32.le_iff_toNat_le, h0, h7, Char.toNat_val] at hoctal
  simp [Char.isDigit, UInt32.le_iff_toNat_le, ge_iff_le]
  omega

theorem digit_agrees (strict : Bool) {first : Char} (hfirst : first.isDigit = true)
    (hmeaning : letters.lookup first = none) (tail : List Char) :
    Agrees (first :: tail) (Escape.digit .template strict first tail) := by
  have hbreak : Text.isLineTerminator first = false :=
    Text.isLineTerminator_eq_false Char.isDigit hfirst (by decide)
  have hx : first ≠ 'x' := by rintro rfl; cases hfirst
  have hu : first ≠ 'u' := by rintro rfl; cases hfirst
  unfold Agrees Escape.digit
  simp only [decode, hmeaning, hbreak, hx, hu]
  by_cases hnul : first = '0' ∧ tail.head?.any Char.isDigit = false
  · simp [hnul, Except.map]
  · by_cases hoctal : Character.isOctalDigit first
    · have hrange : '0' ≤ first ∧ first ≤ '7' := by simpa [Character.isOctalDigit] using hoctal
      simp only [Bool.and_eq_true, decide_eq_true_eq, Bool.not_eq_true']
      simp [hnul, hoctal, hrange, Except.map]
    · rcases eq_eight_or_nine hfirst (by simpa using hoctal) with rfl | rfl
      · rfl
      · rfl

theorem unicode_agrees (tail : List Char) :
    Agrees ('u' :: tail) ⟨(Escape.unicode tail).width + 1, (Escape.unicode tail).result.map ([·])⟩ := by
  have hdecode : decode ('u' :: tail) = decodeUnicode tail := rfl
  unfold Agrees
  rw [hdecode]
  fun_cases decodeUnicode tail with
  | case1 tail =>
    have hunicode : Escape.unicode ('\x7b' :: tail) =
      ⟨(Escape.bracedDigits tail).width + 1, (Escape.bracedDigits tail).result⟩ := rfl
    rw [decodeBraced_eq, hunicode]
    cases (Escape.bracedDigits tail).result <;> rfl
  | case2 _ hbrace =>
    rw [decodeUnit_eq, Escape.unicode.eq_2 tail hbrace]
    cases (Escape.fourDigits tail).result <;> rfl

theorem hexPair_agrees (tail : List Char) :
    Agrees ('x' :: tail)
      (match Escape.hexDigits? 2 0 tail with
        | none => ⟨1, .error .invalidHex⟩
        | some value => ⟨3, .ok [Escape.scalar value]⟩) := by
  have hdecode : decode ('x' :: tail) =
      match leadingHex? 2 tail with
      | some (number, rest) => .ok ([character number], rest)
      | none => .error .invalidHex := rfl
  unfold Agrees
  rw [hdecode, hexDigits?_eq_map]
  cases hpair : leadingHex? 2 tail with
  | none => rfl
  | some found =>
    obtain ⟨number, rest⟩ := found
    obtain ⟨hdrop, hbound⟩ := leadingHex?_eq_some hpair
    simp [scalar_eq_character (show number ≤ 0x10ffff by omega), hdrop, Except.map]

/-- The decoder of the scanner reads an escape of a template by this grammar,
    whether the code is strict or not. -/
theorem read_agrees (strict : Bool) (first : Char) (tail : List Char) :
    Agrees (first :: tail) (Escape.read .template strict first tail) := by
  unfold Escape.read
  rw [letter?_eq_lookup]
  split
  · next meaning hmeaning =>
    simp [Agrees, decode, hmeaning, Except.map]
  · next hmeaning =>
    split
    · next hpair =>
      simp only [Bool.and_eq_true, decide_eq_true_eq] at hpair
      obtain ⟨rfl, hfeed⟩ := hpair
      simp [Agrees, decode, hmeaning, hfeed, Except.map, Text.isLineTerminator]
    · next hpair =>
      simp only [Bool.and_eq_true, decide_eq_true_eq] at hpair
      split
      · next hbreak => simp [Agrees, decode, hmeaning, hpair, hbreak, Except.map]
      · next hbreak =>
        split
        · next hx =>
          subst hx
          exact hexPair_agrees tail
        · next hx =>
          split
          · next hu =>
            subst hu
            exact unicode_agrees tail
          · next hu =>
            split
            · next hdigit => exact digit_agrees strict hdigit hmeaning tail
            · next hdigit =>
              have hzero : first ≠ '0' := by rintro rfl; exact hdigit rfl
              have height : ¬ (first = '8' ∨ first = '9') := by
                rintro (rfl | rfl)
                · exact hdigit rfl
                · exact hdigit rfl
              have hrange : ¬ ('0' ≤ first ∧ first ≤ '7') := by
                intro hoctal
                exact hdigit (isDigit_of_octal hoctal)
              simp [Agrees, decode, hmeaning, hbreak, hx, hu, hzero, hrange, height, Except.map]

end EcmaLexer.Template
