import EcmaLexer.Proofs.Text.Bytes
import EcmaLexer.Text.LineMap
import EcmaLexer.Text.Quoted

namespace EcmaLexer.Text

/-- Where a separator comes first tells both what stands before it and what after it. -/
theorem append_separator_inj {separator : Char} {left right rest other : List Char}
    (hleft : separator ∉ left) (hright : separator ∉ right)
    (heq : left ++ separator :: rest = right ++ separator :: other) :
    left = right ∧ rest = other := by
  induction left generalizing right with
  | nil =>
    cases right with
    | nil =>
      cases heq
      exact ⟨rfl, rfl⟩
    | cons c right =>
      cases heq
      exact absurd List.mem_cons_self hright
  | cons c left ih =>
    cases right with
    | nil =>
      cases heq
      exact absurd List.mem_cons_self hleft
    | cons d right =>
      obtain ⟨rfl, htail⟩ := List.cons.inj heq
      obtain ⟨rfl, hrest⟩ := ih (List.not_mem_of_not_mem_cons hleft)
        (List.not_mem_of_not_mem_cons hright) htail
      exact ⟨rfl, hrest⟩

/-- The digits of a number in a base up to 16. -/
def digitChars : List Char := "0123456789abcdef".toList

theorem digitChar_mem {digit : Nat} (hlt : digit < 16) : digit.digitChar ∈ digitChars := by
  revert hlt
  revert digit
  decide

theorem mem_toDigits {base number : Nat} (hbase : 1 < base) (hle : base ≤ 16) {c : Char}
    (hmem : c ∈ Nat.toDigits base number) : c ∈ digitChars := by
  induction number using Nat.base_induction base hbase with
  | single digit hdigit =>
    rw [Nat.toDigits_of_lt_base hdigit] at hmem
    rw [List.mem_singleton.mp hmem]
    exact digitChar_mem (Nat.lt_of_lt_of_le hdigit hle)
  | digit high low hlow hhigh ih =>
    rw [← Nat.toDigits_append_toDigits hbase hhigh hlow, Nat.toDigits_of_lt_base hlow] at hmem
    rcases List.mem_append.mp hmem with hmem | hmem
    · exact ih hmem
    · rw [List.mem_singleton.mp hmem]
      exact digitChar_mem (Nat.lt_of_lt_of_le hlow hle)

theorem toDigits_inj {base number other : Nat} (hbase : 1 < base) (hle : base ≤ 16)
    (heq : Nat.toDigits base number = Nat.toDigits base other) : number = other := by
  have hdigit : ∀ digit < 16, ∀ other < 16, digit.digitChar = other.digitChar → digit = other := by
    decide
  induction number using Nat.strongRecOn generalizing other with
  | ind number ih =>
    have hmod (number : Nat) : number % base < 16 :=
      Nat.lt_of_lt_of_le (Nat.mod_lt number (Nat.lt_trans Nat.one_pos hbase)) hle
    have hone {small large : Nat} (hlt : small < base) (hge : base ≤ large) :
        Nat.toDigits base small ≠ Nat.toDigits base large := by
      intro heq
      have hlength := congrArg List.length heq
      have hpos := Nat.length_toDigits_pos (b := base) (n := large / base)
      rw [Nat.toDigits_of_lt_base hlt, Nat.toDigits_of_base_le hbase hge, List.length_append,
        List.length_singleton, List.length_singleton] at hlength
      omega
    rcases Nat.lt_or_ge number base with hlt | hge <;>
      rcases Nat.lt_or_ge other base with hother | hother
    · rw [Nat.toDigits_of_lt_base hlt, Nat.toDigits_of_lt_base hother] at heq
      exact hdigit _ (by omega) _ (by omega) (List.cons.inj heq).1
    · exact absurd heq (hone hlt hother)
    · exact absurd heq.symm (hone hother hge)
    · rw [Nat.toDigits_of_base_le hbase hge, Nat.toDigits_of_base_le hbase hother] at heq
      obtain ⟨hhigh, hlow⟩ := List.append_inj' heq rfl
      have hdiv := ih _ (Nat.div_lt_self (by omega) hbase) hhigh
      have hrem := hdigit _ (hmod number) _ (hmod other) (List.cons.inj hlow).1
      rw [← Nat.div_add_mod number base, hdiv, hrem, Nat.div_add_mod]

/-- The short escapes: the characters and the letters that stand for them after a backslash. -/
def shortEscapes : List (Char × Char) :=
  [('\x00', '0'), ('\t', 't'), ('\n', 'n'), ('\r', 'r'), ('\\', '\\'), ('\x22', '\x22')]

/-- The three ways a character is written between double quotes. -/
inductive QuotedAs : Char → List Char → Prop where
  | short {c letter : Char} (hshort : (c, letter) ∈ shortEscapes) : QuotedAs c ['\\', letter]
  | code (c : Char) : QuotedAs c (codePointEscape c)
  | plain {c : Char} (hbackslash : c ≠ '\\') (hquote : c ≠ '\x22') (hprinted : 0x20 ≤ c.toNat) :
      QuotedAs c [c]

theorem quotedChar_quotedAs (c : Char) : QuotedAs c (quotedChar '\x22' c) := by
  fun_cases quotedChar '\x22' c with
  | case1 | case2 | case3 | case4 | case5 => exact .short (by decide)
  | case6 _ hquote =>
    rw [beq_iff_eq.mp hquote]
    exact .short (by decide)
  | case7 _ hquote hunprinted =>
    rw [if_neg hquote, if_pos hunprinted]
    exact .code c
  | case8 _ hquote hunprinted _ _ _ _ hbackslash =>
    rw [if_neg hquote, if_neg hunprinted]
    rw [Bool.or_eq_true, Bool.or_eq_true, decide_eq_true_iff] at hunprinted
    exact .plain hbackslash (by simpa using hquote) (by omega)

namespace QuotedAs

variable {c d : Char} {text other rest later : List Char}

theorem not_mem_brace (c : Char) : '\x7d' ∉ Nat.toDigits 16 c.toNat := fun hmem =>
  absurd (mem_toDigits (by decide) (by decide) hmem) (by decide)

/-- Where the next character begins can be told from any character. -/
theorem append_inj (hc : QuotedAs c text) (hd : QuotedAs d other)
    (heq : text ++ rest = other ++ later) : c = d ∧ rest = later := by
  have hletters : ∀ short ∈ shortEscapes, short.2 ≠ 'u' ∧
      ∀ other ∈ shortEscapes, short.2 = other.2 → short.1 = other.1 := by decide
  cases hc with
  | short hshort =>
    cases hd with
    | short hother =>
      obtain ⟨-, hrest⟩ := List.cons.inj heq
      obtain ⟨hletter, hlater⟩ := List.cons.inj hrest
      exact ⟨(hletters _ hshort).2 _ hother hletter, hlater⟩
    | code =>
      obtain ⟨-, hrest⟩ := List.cons.inj heq
      exact absurd (List.cons.inj hrest).1 (hletters _ hshort).1
    | plain hbackslash => exact absurd (List.cons.inj heq).1.symm hbackslash
  | code =>
    cases hd with
    | short hother =>
      obtain ⟨-, hrest⟩ := List.cons.inj heq
      exact absurd (List.cons.inj hrest).1.symm (hletters _ hother).1
    | code =>
      unfold codePointEscape at heq
      rw [List.append_assoc, List.append_assoc, List.append_assoc, List.append_assoc] at heq
      obtain ⟨hdigits, hrest⟩ := append_separator_inj (not_mem_brace c) (not_mem_brace d)
        (List.append_cancel_left heq)
      exact ⟨Char.toNat_inj.mp (toDigits_inj (by decide) (by decide) hdigits), hrest⟩
    | plain hbackslash => exact absurd (List.cons.inj heq).1.symm hbackslash
  | plain hbackslash =>
    cases hd with
    | short | code => exact absurd (List.cons.inj heq).1 hbackslash
    | plain => exact List.cons.inj heq

/-- The closing quote is told from every character. -/
theorem append_ne (hc : QuotedAs c text) : text ++ rest ≠ '\x22' :: later := by
  intro heq
  cases hc with
  | short | code => exact absurd (List.cons.inj heq).1 (by decide)
  | plain hbackslash hquote => exact hquote (List.cons.inj heq).1

/-- Neither a tab nor a line feed is left. -/
theorem printed (hc : QuotedAs c text) (hmem : d ∈ text) : 0x20 ≤ d.toNat := by
  cases hc with
  | short hshort =>
    have hletters : ∀ short ∈ shortEscapes, 0x20 ≤ short.2.toNat := by decide
    rcases List.mem_cons.mp hmem with rfl | hmem
    · decide
    · rw [List.mem_singleton.mp hmem]
      exact hletters _ hshort
  | code =>
    have hopening : ∀ d ∈ "\\u\x7b".toList, 0x20 ≤ d.toNat := forall_mem_of_all (by decide)
    have hdigits : ∀ d ∈ digitChars, 0x20 ≤ d.toNat := forall_mem_of_all (by decide)
    rcases List.mem_append.mp hmem with hmem | hmem
    · rcases List.mem_append.mp hmem with hmem | hmem
      · exact hopening d hmem
      · exact hdigits d (mem_toDigits (by decide) (by decide) hmem)
    · rw [List.mem_singleton.mp hmem]
      decide
  | plain hbackslash hquote hprinted =>
    rw [List.mem_singleton.mp hmem]
    exact hprinted

end QuotedAs

/-- A text can be read back from between its quotes. -/
theorem doubleQuoted_inj {text other : List Char} (heq : doubleQuoted text = doubleQuoted other) :
    text = other := by
  have hbody := (List.cons.inj heq).2
  induction text generalizing other with
  | nil =>
    cases other with
    | nil => rfl
    | cons d other =>
      rw [List.flatMap_cons, List.append_assoc] at hbody
      exact absurd hbody.symm (quotedChar_quotedAs d).append_ne
  | cons c text ih =>
    cases other with
    | nil =>
      rw [List.flatMap_cons, List.append_assoc] at hbody
      exact absurd hbody (quotedChar_quotedAs c).append_ne
    | cons d other =>
      rw [List.flatMap_cons, List.append_assoc, List.flatMap_cons, List.append_assoc] at hbody
      obtain ⟨rfl, hrest⟩ := (quotedChar_quotedAs c).append_inj (quotedChar_quotedAs d) hbody
      rw [ih (congrArg ('\x22' :: ·) hrest) hrest]

theorem doubleQuoted_printed {text : List Char} {c : Char} (hmem : c ∈ doubleQuoted text) :
    0x20 ≤ c.toNat := by
  rcases List.mem_cons.mp hmem with rfl | hmem
  · decide
  · rcases List.mem_append.mp hmem with hmem | hmem
    · obtain ⟨d, -, hmem⟩ := List.mem_flatMap.mp hmem
      exact (quotedChar_quotedAs d).printed hmem
    · rw [List.mem_singleton.mp hmem]
      decide

namespace Location

theorem toList_display (location : Location) : location.display.toList =
    Nat.toDigits 10 (location.line + 1) ++ ':' :: Nat.toDigits 10 (location.column + 1) := by
  simp [display]

theorem display_printed {location : Location} {c : Char} (hmem : c ∈ location.display.toList) :
    0x20 ≤ c.toNat := by
  have hdigits : ∀ d ∈ digitChars, 0x20 ≤ d.toNat := forall_mem_of_all (by decide)
  rw [toList_display] at hmem
  rcases List.mem_append.mp hmem with hmem | hmem
  · exact hdigits c (mem_toDigits (by decide) (by decide) hmem)
  · rcases List.mem_cons.mp hmem with rfl | hmem
    · decide
    · exact hdigits c (mem_toDigits (by decide) (by decide) hmem)

/-- The line and the column can be read back. -/
theorem display_inj {location other : Location} (heq : location.display = other.display) :
    location = other := by
  have hcolon (number : Nat) : ':' ∉ Nat.toDigits 10 number := fun hmem =>
    absurd (mem_toDigits (by decide) (by decide) hmem) (by decide)
  have hlist := congrArg String.toList heq
  rw [toList_display, toList_display] at hlist
  obtain ⟨hline, hcolumn⟩ := append_separator_inj (hcolon _) (hcolon _) hlist
  have hlines := toDigits_inj (by decide) (by decide) hline
  have hcolumns := toDigits_inj (by decide) (by decide) hcolumn
  cases location
  cases other
  simp_all

end Location

end EcmaLexer.Text
