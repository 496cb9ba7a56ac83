import EcmaLexer.Proofs.Escape.StringEscape
import EcmaLexer.Proofs.Lexeme.Closing
import EcmaLexer.Proofs.StringLiteral.Elements
import EcmaLexer.Proofs.Template.Cooking
import EcmaLexer.Proofs.Text.Utf16

namespace EcmaLexer.Spelling

open Character (isHexDigit isOctalDigit)
open Escape (IsHighHalf IsLowHalf IsUnit UnicodeRead hexNumber octalDigits octalValue)
open Template (character leadingHex? letters)
open Text (isLineTerminator)
open Utf16 (Straddles decode encode paired)

/-- What one element of a literal adds to its code units. An escape of just four digits gives one
    of them; characters and all other escapes may give several or none. -/
inductive Element where
  | unit (value : Nat)
  | other (units : List Nat)
deriving DecidableEq

def Element.units : Element → List Nat
  | unit value => [value]
  | other units => units

/-- A unicode escape after its letter, and the text after it. -/
def unicode : List Char → Element × List Char
  | '\x7b' :: text =>
    let digits := text.takeWhile isHexDigit
    (.other (encode (hexNumber 0 digits)), text.drop (digits.length + 1))
  | text =>
    match leadingHex? 4 text with
    | some (unit, rest) => (.unit unit, rest)
    | none => (.other [], text)

/-- The escape that follows a backslash, and the text after it. A malformed one has no meaning. -/
def escape : List Char → Element × List Char
  | [] => (.other [], [])
  | c :: rest =>
    match letters.lookup c with
    | some meaning => (.other (encode meaning.toNat), rest)
    | none =>
      if isLineTerminator c then
        (.other [], if c = '\r' ∧ rest.head? = some '\n' then rest.drop 1 else rest)
      else if c = 'x' then
        match leadingHex? 2 rest with
        | some (unit, rest) => (.other [unit], rest)
        | none => (.other [], rest)
      else if c = 'u' then unicode rest
      else if isOctalDigit c then
        let digits := octalDigits c rest
        (.other [octalValue digits], (c :: rest).drop digits.length)
      else (.other (encode c.toNat), rest)

theorem length_unicode (text : List Char) : (unicode text).2.length ≤ text.length := by
  fun_cases unicode text with
  | case1 text digits =>
    rw [List.length_drop, List.length_cons]
    omega
  | case2 text hbrace unit rest hread =>
    rw [← (Template.leadingHex?_eq_some hread).1, List.length_drop]
    omega
  | case3 => exact Nat.le_refl _

theorem length_escape (text : List Char) : (escape text).2.length ≤ text.length := by
  fun_cases escape text with
  | case1 => exact Nat.le_refl _
  | case2 | case5 | case8 => exact Nat.le_succ _
  | case3 c rest hletter hbreak =>
    split
    · rw [List.length_drop, List.length_cons]
      omega
    · exact Nat.le_succ _
  | case4 rest unit after hread =>
    rw [← (Template.leadingHex?_eq_some hread).1, List.length_drop, List.length_cons]
    omega
  | case6 rest => exact Nat.le_trans (length_unicode rest) (Nat.le_succ _)
  | case7 c rest =>
    rw [List.length_drop]
    omega

/-- The elements of the text between the delimiters of a literal. A carriage return, alone or
    before a line feed, is a line feed. -/
def elements (text : List Char) : List Element :=
  match text with
  | [] => []
  | '\\' :: rest => (escape rest).1 :: elements (escape rest).2
  | '\r' :: '\n' :: rest => .other (encode '\n'.toNat) :: elements rest
  | '\r' :: rest => .other (encode '\n'.toNat) :: elements rest
  | c :: rest => .other (encode c.toNat) :: elements rest
termination_by text.length
decreasing_by
  · have hlength := length_escape rest
    simp only [List.length_cons]
    omega
  all_goals
    simp only [List.length_cons]
    omega

/-- The code units of a sequence of elements. -/
def unitsOf (elements : List Element) : List Nat := elements.flatMap Element.units

/-- A surrogate pair is split if its halves come from two elements, unless these are escapes of four
    digits, one right after the other. -/
inductive SplitsPair : List Element → Prop where
  | here {first : Element} {rest : List Element} (hseam : Straddles first.units (unitsOf rest))
      (hspelled : ∀ high low, first = .unit high → rest.head? ≠ some (.unit low)) :
      SplitsPair (first :: rest)
  | later {first : Element} {rest : List Element} (hrest : SplitsPair rest) :
      SplitsPair (first :: rest)

/-- What elements cook to when each is decoded for itself, but for two escapes of four digits that
    are a surrogate pair. -/
def cooked : List Element → List Char
  | [] => []
  | .other units :: rest => decode units ++ cooked rest
  | .unit high :: .unit low :: rest =>
    if IsHighHalf high ∧ IsLowHalf low then paired high low :: cooked rest
    else character high :: cooked (.unit low :: rest)
  | .unit unit :: rest => character unit :: cooked rest

@[simp] theorem unitsOf_cons (first : Element) (rest : List Element) :
    unitsOf (first :: rest) = first.units ++ unitsOf rest := rfl

/-- An escape of four digits is decoded for itself unless it makes up a pair with the next one. -/
theorem cooked_unit {unit : Nat} {rest : List Element}
    (halone : IsHighHalf unit → ∀ low, rest.head? = some (.unit low) → ¬IsLowHalf low) :
    cooked (.unit unit :: rest) = character unit :: cooked rest := by
  cases rest with
  | nil => rfl
  | cons second rest =>
    cases second with
    | other units => rfl
    | unit low => rw [cooked, if_neg fun hpair => halone hpair.1 low rfl hpair.2]

/-- Elements cook to what their code units stand for, as long as no pair is split. What comes out
    is longer otherwise. -/
structure Faithful (elements : List Element) : Prop where
  length_le : (decode (unitsOf elements)).length ≤ (cooked elements).length
  eq_iff : cooked elements = decode (unitsOf elements) ↔ ¬SplitsPair elements

/-- One more element that is decoded for itself. -/
theorem Faithful.cons {first : Element} {rest : List Element} (hrest : Faithful rest)
    (hcooked : cooked (first :: rest) = decode first.units ++ cooked rest)
    (hspelled : Straddles first.units (unitsOf rest) →
      ∀ high low, first = .unit high → rest.head? ≠ some (.unit low)) :
    Faithful (first :: rest) := by
  have hle := hrest.length_le
  by_cases hseam : Straddles first.units (unitsOf rest)
  -- The halves are decoded apart, so there is a character too many, and none is lost later.
  · have hlength := Utf16.length_decode_append hseam
    have hshort : (decode (unitsOf (first :: rest))).length < (cooked (first :: rest)).length := by
      rw [hcooked, List.length_append, unitsOf_cons]
      omega
    refine ⟨Nat.le_of_lt hshort, iff_of_false (fun heq => ?_) fun hwhole => ?_⟩
    · rw [heq] at hshort
      exact Nat.lt_irrefl _ hshort
    · exact hwhole (.here hseam (hspelled hseam))
  · have hsplit : SplitsPair (first :: rest) ↔ SplitsPair rest := by
      constructor
      · rintro (⟨hhere, -⟩ | hlater)
        · exact absurd hhere hseam
        · exact hlater
      · exact .later
    refine ⟨?_, ?_⟩
    · rw [hcooked, unitsOf_cons, Utf16.decode_append hseam, List.length_append,
        List.length_append]
      omega
    · rw [hcooked, unitsOf_cons, Utf16.decode_append hseam, List.append_cancel_left_eq, hsplit,
        hrest.eq_iff]

/-- Two escapes of four digits that are a pair. -/
theorem Faithful.pair {high low : Nat} (hhigh : IsHighHalf high) (hlow : IsLowHalf low)
    {rest : List Element} (hrest : Faithful rest) :
    Faithful (.unit high :: .unit low :: rest) := by
  have hcooked : cooked (.unit high :: .unit low :: rest) = paired high low :: cooked rest := by
    rw [cooked, if_pos ⟨hhigh, hlow⟩]
  have hdecode : decode (unitsOf (.unit high :: .unit low :: rest)) =
      paired high low :: decode (unitsOf rest) :=
    Utf16.decode_pair hhigh hlow _
  have hsplit : SplitsPair (.unit high :: .unit low :: rest) ↔ SplitsPair rest := by
    constructor
    · rintro (⟨-, hspelled⟩ | ⟨hseam, -⟩ | hlater)
      · exact absurd rfl (hspelled high low rfl)
      · obtain ⟨unit, hlast, hunit⟩ := hseam.high
        obtain rfl : low = unit := Option.some.inj hlast
        exact absurd hunit hlow.not_high
      · exact hlater
    · exact fun hlater => .later (.later hlater)
  refine ⟨?_, ?_⟩
  · rw [hcooked, hdecode, List.length_cons, List.length_cons]
    exact Nat.succ_le_succ hrest.length_le
  · rw [hcooked, hdecode, List.cons.injEq, hsplit, hrest.eq_iff]
    exact and_iff_right rfl

theorem faithful (elements : List Element) : Faithful elements := by
  have hnil : Faithful [] := ⟨Nat.le_refl _, iff_of_true rfl (by rintro ⟨⟩)⟩
  fun_induction cooked elements with
  | case1 => exact hnil
  | case2 units rest ih => exact ih.cons rfl fun _ _ _ heq => by cases heq
  | case3 high low rest hpair ih => exact ih.pair hpair.1 hpair.2
  | case4 high low rest hpair ih =>
    refine ih.cons (by rw [cooked, if_neg hpair]; rfl) fun hseam => ?_
    obtain ⟨⟨unit, hlast, hhigh⟩, other, hfirst, hlow⟩ := hseam
    obtain rfl : high = unit := Option.some.inj hlast
    obtain rfl : low = other := Option.some.inj hfirst
    exact absurd ⟨hhigh, hlow⟩ hpair
  | case5 unit rest hother ih =>
    refine ih.cons (cooked_unit fun _ low hhead => ?_) fun _ high low _ hhead => ?_
    all_goals
      obtain ⟨more, rfl⟩ := List.head?_eq_some_iff.mp hhead
      exact absurd rfl (hother low more)

theorem elements_backslash (rest : List Char) :
    elements ('\\' :: rest) = (escape rest).1 :: elements (escape rest).2 := by
  rw [elements]

theorem elements_ordinary {c : Char} (hbackslash : c ≠ '\\') (hreturn : c ≠ '\r')
    (rest : List Char) : elements (c :: rest) = .other (encode c.toNat) :: elements rest := by
  rw [elements]
  · exact fun h => absurd h hbackslash
  · exact fun _ h => absurd h hreturn
  · exact fun h => absurd h hreturn

theorem cooked_of_escape {rest after : List Char} {units : List Nat}
    (hescape : escape rest = (.other units, after)) :
    cooked (elements ('\\' :: rest)) = decode units ++ cooked (elements after) := by
  rw [elements_backslash, hescape, cooked]

theorem leadingHex?_digits {digits : List Char} (hdigits : ∀ c ∈ digits, isHexDigit c = true)
    (rest : List Char) :
    leadingHex? digits.length (digits ++ rest) = some (hexNumber 0 digits, rest) := by
  have hlength : digits.length ≤ (digits ++ rest).length := by
    rw [List.length_append]
    omega
  rw [leadingHex?, List.take_left, List.drop_left, if_pos ⟨hlength, List.all_eq_true.mpr hdigits⟩]

theorem unicode_digits {digits : List Char} (hdigits : IsUnit digits) (rest : List Char) :
    unicode (digits ++ rest) = (.unit (hexNumber 0 digits), rest) := by
  have hread := leadingHex?_digits hdigits.hex rest
  rw [hdigits.length] at hread
  rw [unicode, hread]
  intro text htext
  match digits, hdigits with
  | first :: digits, hdigits =>
    have hfirst := hdigits.hex first List.mem_cons_self
    rw [(List.cons.inj htext).1] at hfirst
    cases hfirst
  | [], hdigits => cases hdigits.length

/-- Only an escape of four digits is an element of that kind. -/
theorem exists_digits_of_unit {text : List Char} {unit : Nat}
    (hhead : (elements text).head? = some (.unit unit)) :
    ∃ digits rest, text = '\\' :: 'u' :: (digits ++ rest) ∧ IsUnit digits ∧
      hexNumber 0 digits = unit := by
  have hunicode (text : List Char) (hunit : (unicode text).1 = .unit unit) :
      ∃ digits rest, text = digits ++ rest ∧ IsUnit digits ∧ hexNumber 0 digits = unit := by
    revert hunit
    fun_cases unicode text with
    | case1 | case3 => rintro ⟨⟩
    | case2 text hbrace value rest hread =>
      rintro ⟨⟩
      apply Escape.exists_unit
      rw [Template.hexDigits?_eq_map, hread]
      rfl
  have hescape (text : List Char) (hunit : (escape text).1 = .unit unit) :
      ∃ digits rest, text = 'u' :: (digits ++ rest) ∧ IsUnit digits ∧
        hexNumber 0 digits = unit := by
    revert hunit
    fun_cases escape text with
    | case6 rest =>
      intro hunit
      obtain ⟨digits, more, rfl, hdigits⟩ := hunicode rest hunit
      exact ⟨digits, more, rfl, hdigits⟩
    | _ => rintro ⟨⟩
  revert hhead
  fun_cases elements text with
  | case2 rest =>
    intro hhead
    obtain ⟨digits, more, rfl, hdigits⟩ := hescape rest (Option.some.inj hhead)
    exact ⟨digits, more, rfl, hdigits⟩
  | _ => rintro ⟨⟩

/-- A unicode escape cooks to the character that it is read as. -/
theorem cooked_unicode {text : List Char} {width : Nat} {c : Char}
    (hread : UnicodeRead text ⟨width, .ok c⟩) :
    cooked (elements ('\\' :: 'u' :: text)) = c :: cooked (elements (text.drop width)) := by
  have hescape (text : List Char) : escape ('u' :: text) = unicode text := rfl
  cases hread with
  | @braced digits _ rest hdigits hne hsmall hc =>
    have hrun : (digits ++ '\x7d' :: rest).takeWhile isHexDigit = digits := by
      rw [List.takeWhile_append_of_pos hdigits, List.takeWhile_cons_of_neg (by decide),
        List.append_nil]
    have hunicode : unicode ('\x7b' :: (digits ++ '\x7d' :: rest)) =
        (.other (encode (hexNumber 0 digits)), rest) := by
      simp only [unicode, hrun, List.drop_length_add_append, List.drop_succ_cons, List.drop_zero]
    have hdrop : ('\x7b' :: (digits ++ '\x7d' :: rest)).drop (digits.length + 2) = rest := by
      rw [List.drop_succ_cons, List.drop_length_add_append, List.drop_succ_cons, List.drop_zero]
    rw [cooked_of_escape ((hescape _).trans hunicode), Utf16.decode_encode hsmall, hdrop,
      hc.eq_scalar hsmall, Template.scalar_eq_character hsmall, List.singleton_append]
  | @pair high low _ rest hhigh hlow hfirst hsecond hc =>
    have hdrop : (high ++ '\\' :: 'u' :: (low ++ rest)).drop 10 = rest := by
      rw [show 10 = high.length + (4 + 2) by rw [hhigh.length], List.drop_length_add_append,
        List.drop_succ_cons, List.drop_succ_cons, ← hlow.length, List.drop_left]
    have hchar : c = paired (hexNumber 0 high) (hexNumber 0 low) :=
      Char.toNat_inj.mp (hc.trans (Utf16.toNat_paired hfirst hsecond).symm)
    rw [elements_backslash, hescape, unicode_digits hhigh, elements_backslash, hescape,
      unicode_digits hlow, cooked, if_pos ⟨hfirst, hsecond⟩, hdrop, hchar]
  | @unit digits rest _ hdigits halone hc =>
    have hsmall := hdigits.hexNumber_lt
    have hdrop : (digits ++ rest).drop 4 = rest := by rw [← hdigits.length, List.drop_left]
    rw [elements_backslash, hescape, unicode_digits hdigits, cooked_unit, hdrop,
      hc.eq_scalar (by omega), Template.scalar_eq_character (by omega)]
    -- The reader has looked for the other half, so the next element is not it.
    intro hhigh low hhead hlow
    obtain ⟨second, more, htext, hunit, rfl⟩ := exists_digits_of_unit hhead
    exact halone hhigh ⟨second, more, htext, hunit, hlow⟩

theorem cooked_hex {tail : List Char} {number : Nat}
    (hread : Escape.hexDigits? 2 0 tail = some number) :
    cooked (elements ('\\' :: 'x' :: tail)) =
      Escape.scalar number :: cooked (elements (tail.drop 2)) := by
  rw [Template.hexDigits?_eq_map] at hread
  have hescape : escape ('x' :: tail) =
      match leadingHex? 2 tail with
      | some (unit, rest) => (.other [unit], rest)
      | none => (.other [], tail) := rfl
  cases hfound : leadingHex? 2 tail with
  | none =>
    rw [hfound] at hread
    cases hread
  | some found =>
    obtain ⟨unit, rest⟩ := found
    obtain ⟨hdrop, hlt⟩ := Template.leadingHex?_eq_some hfound
    rw [hfound] at hread hescape
    obtain rfl : unit = number := Option.some.inj hread
    rw [cooked_of_escape hescape, hdrop, Template.scalar_eq_character (by omega)]
    rfl

/-- A zero that no digit follows is an octal escape of one digit. -/
theorem octalDigits_zero {rest : List Char} (hrest : rest.head?.any Char.isDigit = false) :
    octalDigits '0' rest = ['0'] := by
  have hnone : (rest.take 2).takeWhile isOctalDigit = [] := by
    cases rest with
    | nil => rfl
    | cons c rest =>
      have hoctal : ¬isOctalDigit c = true := by
        intro hoctal
        cases hrest.symm.trans (Escape.isDigit_of_isOctalDigit hoctal)
      rw [List.take_succ_cons, List.takeWhile_cons_of_neg hoctal]
  have hthree : octalDigits '0' rest = '0' :: (rest.take 2).takeWhile isOctalDigit := rfl
  rw [hthree, hnone]

theorem cooked_digit {site : Escape.Site} {strict : Bool} {first : Char} {tail value : List Char}
    (hletter : Escape.letter? first = none) (hfirst : first.isDigit = true)
    (hresult : (Escape.digit site strict first tail).result = .ok value) :
    cooked (elements ('\\' :: first :: tail)) =
      value ++ cooked (elements
        ((first :: tail).drop (Escape.digit site strict first tail).width)) := by
  have hbreak : isLineTerminator first = false :=
    Text.isLineTerminator_eq_false Char.isDigit hfirst (by decide)
  have hx : first ≠ 'x' := by
    rintro rfl
    cases hfirst
  have hu : first ≠ 'u' := by
    rintro rfl
    cases hfirst
  have hescape : escape (first :: tail) =
      if isOctalDigit first then
        (.other [octalValue (octalDigits first tail)],
          (first :: tail).drop (octalDigits first tail).length)
      else (.other (encode first.toNat), tail) := by
    rw [Template.letter?_eq_lookup] at hletter
    simp only [escape, hletter, hbreak, hx, hu, if_false]
    rfl
  revert hresult
  fun_cases Escape.digit site strict first tail with
  | case1 hzero =>
    rintro ⟨⟩
    simp only [Bool.and_eq_true, decide_eq_true_eq, Bool.not_eq_true'] at hzero
    obtain ⟨rfl, hrest⟩ := hzero
    rw [octalDigits_zero hrest] at hescape
    exact cooked_of_escape hescape
  | case2 | case3 | case5 => rintro ⟨⟩
  | case4 hzero hoctal =>
    rintro ⟨⟩
    have hsmall := (Escape.octalDigits_longest hoctal tail).word.small
    have hscalar : Escape.scalar (octalValue (octalDigits first tail)) =
        character (octalValue (octalDigits first tail)) :=
      Template.scalar_eq_character (by omega)
    rw [if_pos hoctal] at hescape
    rw [cooked_of_escape hescape, hscalar]
    rfl
  | case6 hzero hoctal =>
    rintro ⟨⟩
    rw [if_neg hoctal] at hescape
    rw [cooked_of_escape hescape, Utf16.decode_encode_char]
    rfl

/-- Every escape cooks to the value that it is read as. -/
theorem cooked_read {site : Escape.Site} {strict : Bool} {first : Char} {tail value : List Char}
    (hresult : (Escape.read site strict first tail).result = .ok value) :
    cooked (elements ('\\' :: first :: tail)) =
      value ++ cooked (elements
        ((first :: tail).drop (Escape.read site strict first tail).width)) := by
  revert hresult
  fun_cases Escape.read site strict first tail with
  | case1 c hletter =>
    rintro ⟨⟩
    rw [Template.letter?_eq_lookup] at hletter
    have hescape : escape (first :: tail) = (.other (encode c.toNat), tail) := by
      simp only [escape, hletter]
    rw [cooked_of_escape hescape, Utf16.decode_encode_char]
    rfl
  | case2 hletter hpair =>
    rintro ⟨⟩
    simp only [Bool.and_eq_true, decide_eq_true_eq] at hpair
    obtain ⟨rfl, hfeed⟩ := hpair
    obtain ⟨rest, rfl⟩ := List.head?_eq_some_iff.mp hfeed
    have hescape : escape ('\r' :: '\n' :: rest) = (.other [], rest) := rfl
    exact cooked_of_escape hescape
  | case3 hletter hpair hbreak =>
    rintro ⟨⟩
    simp only [Bool.and_eq_true, decide_eq_true_eq] at hpair
    rw [Template.letter?_eq_lookup] at hletter
    have hescape : escape (first :: tail) = (.other [], tail) := by
      simp only [escape, hletter, hbreak, if_true, hpair, if_false]
    exact cooked_of_escape hescape
  | case4 => rintro ⟨⟩
  | case5 hletter hpair hbreak hx number hread =>
    subst hx
    rintro ⟨⟩
    exact cooked_hex hread
  | case6 hletter hpair hbreak hx hu reading =>
    subst hu
    intro hresult
    have hread : UnicodeRead tail reading := Escape.unicode_read tail
    obtain ⟨width, result⟩ := reading
    cases result with
    | error fault => cases hresult
    | ok c =>
      cases hresult
      exact cooked_unicode hread
  | case7 hletter hpair hbreak hx hu hdigit => exact cooked_digit hletter hdigit
  | case8 hletter hpair hbreak hx hu hdigit =>
    rintro ⟨⟩
    have hoctal : isOctalDigit first = false := by
      rw [Bool.eq_false_iff]
      exact fun hoctal => hdigit (Escape.isDigit_of_isOctalDigit hoctal)
    have hescape : escape (first :: tail) = (.other (encode first.toNat), tail) := by
      rw [Template.letter?_eq_lookup] at hletter
      simp only [escape, hletter, hbreak, if_false, hx, hu, hoctal]
      rfl
    rw [cooked_of_escape hescape, Utf16.decode_encode_char]
    rfl

theorem cooked_decode {rest value after : List Char}
    (hdecode : Template.decode rest = .ok (value, after)) :
    cooked (elements ('\\' :: rest)) = value ++ cooked (elements after) := by
  cases rest with
  | nil =>
    cases hdecode
    have hescape : escape [] = (.other [], []) := rfl
    exact cooked_of_escape hescape
  | cons first tail =>
    have hagrees := Template.read_agrees false first tail
    unfold Template.Agrees at hagrees
    rw [hdecode] at hagrees
    cases hresult : (Escape.read .template false first tail).result with
    | error fault =>
      rw [hresult] at hagrees
      cases hagrees
    | ok found =>
      rw [hresult] at hagrees
      cases hagrees
      exact cooked_read hresult

/-- The raw text of a template segment cooks to its value. -/
theorem cooked_of_cook {offset : Nat} {raw value : List Char}
    (hcook : Template.cook offset raw = .ok value) : cooked (elements raw) = value := by
  have hmap {result : Except (Nat × EscapeFault) (List Char)} {f : List Char → List Char}
      {value : List Char} (hresult : result.map f = .ok value) :
      ∃ later, result = .ok later ∧ f later = value := by
    cases result with
    | error fault => cases hresult
    | ok later => exact ⟨later, rfl, Except.ok.inj hresult⟩
  fun_induction Template.cook offset raw generalizing value with
  | case1 =>
    cases hcook
    rw [elements, cooked]
  | case2 => cases hcook
  | case3 offset rest found after hdecode ih =>
    obtain ⟨later, hlater, rfl⟩ := hmap hcook
    rw [cooked_decode hdecode, ih hlater]
  | case4 offset rest ih =>
    obtain ⟨later, hlater, rfl⟩ := hmap hcook
    rw [elements, cooked, Utf16.decode_encode_char, ih hlater, List.singleton_append]
  | case5 offset rest hpair ih =>
    obtain ⟨later, hlater, rfl⟩ := hmap hcook
    rw [elements.eq_4 _ hpair, cooked, Utf16.decode_encode_char, ih hlater, List.singleton_append]
  | case6 offset c rest hbackslash hpair hreturn ih =>
    obtain ⟨later, hlater, rfl⟩ := hmap hcook
    rw [elements_ordinary hbackslash hreturn, cooked, Utf16.decode_encode_char, ih hlater,
      List.singleton_append]

/-- An escape does not look past a quote. -/
theorem read_quote {quote : Char} (hquote : StringLiteral.IsQuote quote) (site : Escape.Site)
    (strict : Bool) (first : Char) (left rest : List Char) :
    Escape.read site strict first (left ++ quote :: rest) =
      Escape.read site strict first left := by
  by_cases hreturn : first = '\r'
  · have hhead : ((left ++ quote :: rest).head? = some '\n') = (left.head? = some '\n') := by
      cases left with
      | nil => rcases hquote with rfl | rfl <;> simp
      | cons c left => rfl
    subst hreturn
    unfold Escape.read
    simp only [hhead]
    rfl
  · have hstop : quote ∈ Text.stops := by rcases hquote with rfl | rfl <;> decide
    exact Escape.read_append (.cons hstop rest) site strict hreturn left

/-- The text between the quotes of a string literal cooks to its value. -/
theorem cooked_of_elements {strict : Bool} {quote : Char} (hquote : StringLiteral.IsQuote quote)
    {inner rest value : List Char}
    (helements : StringLiteral.Elements strict quote (quote :: rest) inner value) :
    cooked (elements inner) = value := by
  induction helements with
  | nil => rw [elements, cooked]
  | @cons spelling more value later hfirst hmore ih =>
    cases hfirst with
    | @ordinary c _ hother hc =>
      obtain ⟨hbackslash, -, hreturn⟩ := hc
      rw [List.singleton_append, elements_ordinary hbackslash hreturn, cooked,
        Utf16.decode_encode_char, ih]
    | @escape spelling _ _ hescape =>
      obtain ⟨first, tail, rfl, hread⟩ := hescape.read
      rw [← List.append_assoc, read_quote hquote] at hread
      have hcooked := cooked_read (congrArg Escape.Reading.result hread)
      rw [hread, ← List.cons_append, List.drop_left, ih] at hcooked
      exact hcooked

end EcmaLexer.Spelling
