import EcmaLexer.Proofs.Escape.Unicode
import EcmaLexer.Proofs.Template.Grammar

namespace EcmaLexer

theorem Escape.IsLowHalf.not_high {unit : Nat} (hlow : IsLowHalf unit) : ¬IsHighHalf unit := by
  unfold IsHighHalf
  unfold IsLowHalf at hlow
  omega

namespace Utf16

open Escape (IsHighHalf IsLowHalf)
open Template (character)

/-- The code units of a code point: itself, or the halves of a surrogate pair. -/
def encode (codePoint : Nat) : List Nat :=
  if codePoint < 0x10000 then [codePoint]
  else [0xd800 + (codePoint - 0x10000) / 0x400, 0xdc00 + (codePoint - 0x10000) % 0x400]

/-- The character that the two halves of a surrogate pair stand for. -/
def paired (high low : Nat) : Char :=
  Char.ofNat (0x10000 + (high - 0xd800) * 0x400 + (low - 0xdc00))

theorem toNat_paired {high low : Nat} (hhigh : IsHighHalf high) (hlow : IsLowHalf low) :
    (paired high low).toNat = 0x10000 + (high - 0xd800) * 0x400 + (low - 0xdc00) := by
  rw [paired, Char.ofNat, dif_pos (Escape.isValidChar_pair hhigh hlow)]
  rfl

/-- The characters that code units stand for. U+FFFD takes the place of a half that has not the
    other half of a surrogate pair beside it. -/
def decode : List Nat → List Char
  | [] => []
  | [unit] => [character unit]
  | high :: low :: rest =>
    if IsHighHalf high ∧ IsLowHalf low then paired high low :: decode rest
    else character high :: decode (low :: rest)

/-- A surrogate pair with one half in each of two sequences that meet. -/
structure Straddles (left right : List Nat) : Prop where
  high : ∃ unit, left.getLast? = some unit ∧ IsHighHalf unit
  low : ∃ unit, right.head? = some unit ∧ IsLowHalf unit

theorem decode_cons {unit : Nat} (hunit : ¬IsHighHalf unit) (rest : List Nat) :
    decode (unit :: rest) = character unit :: decode rest := by
  cases rest with
  | nil => rfl
  | cons low rest => rw [decode, if_neg fun hpair => hunit hpair.1]

theorem decode_pair {high low : Nat} (hhigh : IsHighHalf high) (hlow : IsLowHalf low)
    (rest : List Nat) : decode (high :: low :: rest) = paired high low :: decode rest := by
  rw [decode, if_pos ⟨hhigh, hlow⟩]

theorem Straddles.cons {left right : List Nat} (hseam : Straddles left right) (unit : Nat) :
    Straddles (unit :: left) right := by
  obtain ⟨high, hlast, hhigh⟩ := hseam.high
  refine ⟨⟨high, ?_, hhigh⟩, hseam.low⟩
  rw [List.getLast?_cons, hlast]
  rfl

/-- A pair that lies across the seam cannot begin before the last code unit. -/
theorem Straddles.of_cons {unit : Nat} {left right : List Nat}
    (hseam : Straddles (unit :: left) right) (hne : left ≠ []) : Straddles left right := by
  obtain ⟨high, hlast, hhigh⟩ := hseam.high
  refine ⟨⟨high, ?_, hhigh⟩, hseam.low⟩
  rwa [List.getLast?_cons_of_ne_nil hne] at hlast

/-- Two sequences can be decoded one by one, unless a pair lies across their seam. -/
theorem decode_append {left right : List Nat} (hseam : ¬Straddles left right) :
    decode (left ++ right) = decode left ++ decode right := by
  fun_induction decode left with
  | case1 => rfl
  | case2 unit =>
    cases right with
    | nil => rfl
    | cons low right =>
      have hpair : ¬(IsHighHalf unit ∧ IsLowHalf low) := fun hpair =>
        hseam ⟨⟨unit, rfl, hpair.1⟩, ⟨low, rfl, hpair.2⟩⟩
      rw [List.singleton_append, decode, if_neg hpair]
      rfl
  | case3 high low rest hpair ih =>
    have hrest := ih fun hrest => hseam ((hrest.cons low).cons high)
    rw [List.cons_append, List.cons_append, decode_pair hpair.1 hpair.2, hrest, List.cons_append]
  | case4 high low rest hpair ih =>
    have hrest := ih fun hrest => hseam (hrest.cons high)
    rw [List.cons_append, List.cons_append, decode, if_neg hpair, ← List.cons_append, hrest,
      List.cons_append]

/-- To decode them one by one gives one more character where a pair lies across their seam. -/
theorem length_decode_append {left right : List Nat} (hseam : Straddles left right) :
    (decode left).length + (decode right).length = (decode (left ++ right)).length + 1 := by
  fun_induction decode left with
  | case1 =>
    obtain ⟨high, hlast, -⟩ := hseam.high
    cases hlast
  | case2 unit =>
    obtain ⟨⟨high, hlast, hhigh⟩, low, hfirst, hlow⟩ := hseam
    obtain ⟨rest, rfl⟩ := List.head?_eq_some_iff.mp hfirst
    obtain rfl : unit = high := Option.some.inj hlast
    rw [List.singleton_append, decode_pair hhigh hlow, decode_cons hlow.not_high]
    simp only [List.length_cons, List.length_nil]
    omega
  | case3 high low rest hpair ih =>
    have hlast := hseam.of_cons (List.cons_ne_nil low rest)
    -- The second half of a pair cannot begin another one.
    have hne : rest ≠ [] := by
      rintro rfl
      obtain ⟨unit, heq, hunit⟩ := hlast.high
      obtain rfl : low = unit := Option.some.inj heq
      exact hpair.2.not_high hunit
    have hrest := ih (hlast.of_cons hne)
    rw [List.cons_append, List.cons_append, decode_pair hpair.1 hpair.2, List.length_cons,
      List.length_cons]
    omega
  | case4 high low rest hpair ih =>
    have hrest := ih (hseam.of_cons (List.cons_ne_nil low rest))
    rw [List.cons_append, List.cons_append, decode, if_neg hpair, List.length_cons,
      List.length_cons, ← List.cons_append]
    omega

theorem decode_encode {codePoint : Nat} (hsmall : codePoint ≤ 0x10ffff) :
    decode (encode codePoint) = [character codePoint] := by
  unfold encode
  split
  · rfl
  · next hlarge =>
    have hsplit := Nat.div_add_mod (codePoint - 0x10000) 0x400
    have hmod := Nat.mod_lt (codePoint - 0x10000) (show 0 < 0x400 by decide)
    generalize (codePoint - 0x10000) / 0x400 = high at *
    generalize (codePoint - 0x10000) % 0x400 = low at *
    have hsum : 0x10000 + (0xd800 + high - 0xd800) * 0x400 + (0xdc00 + low - 0xdc00) =
        codePoint := by omega
    rw [decode_pair ⟨by omega, by omega⟩ ⟨by omega, by omega⟩, paired, hsum, character,
      if_neg (by omega), decode]

theorem character_toNat (c : Char) : character c.toNat = c := by
  have hvalid : c.toNat.isValidChar := c.valid
  rw [character, if_neg, Char.ofNat_toNat]
  simp only [Nat.isValidChar] at hvalid
  omega

theorem decode_encode_char (c : Char) : decode (encode c.toNat) = [c] := by
  have hvalid : c.toNat.isValidChar := c.valid
  simp only [Nat.isValidChar] at hvalid
  rw [decode_encode (by omega), character_toNat]

end Utf16

end EcmaLexer
