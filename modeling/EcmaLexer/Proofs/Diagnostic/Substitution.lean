import EcmaLexer.Diagnostic.Format
import EcmaLexer.Proofs.Text.Display

namespace EcmaLexer.Diagnostic

/-- A text with the placeholders of all arguments replaced at once, from left to right. What does
    not begin the placeholder of an argument is kept as it is. -/
def substitute (args : List (List Char)) (text : List Char) : List Char :=
  match text with
  | [] => []
  | c :: rest =>
    match args.zipIdx.find? fun entry => (placeholder entry.2).isPrefixOf (c :: rest) with
    | some (arg, index) => arg ++ substitute args (rest.drop ((placeholder index).length - 1))
    | none => c :: substitute args rest
termination_by text.length
decreasing_by
  · simp only [List.length_drop, List.length_cons]
    omega
  · simp

/-- Decimal digits without leading zeros. -/
structure IsIndex (digits : List Char) : Prop where
  nonempty : digits ≠ []
  decimal : ∀ c ∈ digits, c.isDigit = true
  leading : digits.head? = some '0' → digits = ['0']

/-- An opening brace occurs in the template only where a placeholder begins. -/
def OpensPlaceholders (template : List Char) : Prop :=
  ∀ rest, '\x7b' :: rest <:+ template →
    ∃ digits after, IsIndex digits ∧ rest = digits ++ '\x7d' :: after

theorem OpensPlaceholders.of_suffix {template rest : List Char}
    (hopens : OpensPlaceholders template) (hsuffix : rest <:+ template) : OpensPlaceholders rest :=
  fun after hafter => hopens after (hafter.trans hsuffix)

theorem exists_digitChar {c : Char} (hdigit : c.isDigit = true) :
    ∃ digit < 10, c = Nat.digitChar digit := by
  obtain ⟨hlow, hhigh⟩ := Char.isDigit_iff_toNat.mp hdigit
  have hlow : 48 ≤ c.toNat := hlow
  have hhigh : c.toNat ≤ 57 := hhigh
  refine ⟨c.toNat - 48, by omega, Char.toNat_inj.mp ?_⟩
  rw [Nat.toNat_digitChar_of_lt_ten (by omega)]
  omega

/-- Digits after those of a number above zero make the digits of a number again. -/
theorem exists_toDigits_append {digits : List Char} (hdecimal : ∀ c ∈ digits, c.isDigit = true)
    {number : Nat} (hpositive : 0 < number) :
    ∃ other, Nat.toDigits 10 number ++ digits = Nat.toDigits 10 other := by
  induction digits generalizing number with
  | nil => exact ⟨number, List.append_nil _⟩
  | cons c digits ih =>
    obtain ⟨digit, hlt, rfl⟩ := exists_digitChar (hdecimal c List.mem_cons_self)
    have hnext := Nat.toDigits_append_toDigits (show 1 < 10 by decide) hpositive hlt
    obtain ⟨other, hother⟩ := ih (fun d hmem => hdecimal d (List.mem_cons_of_mem _ hmem))
      (show 0 < 10 * number + digit by omega)
    refine ⟨other, ?_⟩
    rw [← hother, ← hnext, Nat.toDigits_of_lt_base hlt, List.append_assoc, List.singleton_append]

/-- Only zero has a leading zero. -/
theorem toDigits_leading (index : Nat) (hhead : (Nat.toDigits 10 index).head? = some '0') :
    Nat.toDigits 10 index = ['0'] := by
  induction index using Nat.base_induction 10 (by decide) with
  | single digit hlt =>
    rw [Nat.toDigits_of_lt_base hlt] at hhead ⊢
    rw [Option.some.inj hhead]
  | digit high low hlow hhigh ih =>
    have hsame : (Nat.toDigits 10 (10 * high + low)).head? = (Nat.toDigits 10 high).head? := by
      obtain ⟨c, rest, hdigits⟩ :=
        List.exists_cons_of_ne_nil (Nat.toDigits_ne_nil (b := 10) (n := high))
      rw [← Nat.toDigits_append_toDigits (by decide) hhigh hlow, hdigits]
      rfl
    have hzero : high = 0 :=
      Text.toDigits_inj (by decide) (by decide) (ih (hsame.symm.trans hhead))
    omega

/-- The indices are the decimal digits of the numbers. -/
theorem isIndex_iff {digits : List Char} :
    IsIndex digits ↔ ∃ index, digits = Nat.toDigits 10 index := by
  constructor
  · rintro ⟨hne, hdecimal, hleading⟩
    obtain ⟨c, rest, rfl⟩ := List.exists_cons_of_ne_nil hne
    obtain ⟨digit, hlt, rfl⟩ := exists_digitChar (hdecimal c List.mem_cons_self)
    rcases Nat.eq_zero_or_pos digit with rfl | hpositive
    · exact ⟨0, hleading rfl⟩
    · obtain ⟨index, hdigits⟩ := exists_toDigits_append
        (fun d hmem => hdecimal d (List.mem_cons_of_mem _ hmem)) hpositive
      rw [Nat.toDigits_of_lt_base hlt] at hdigits
      exact ⟨index, hdigits⟩
  · rintro ⟨index, rfl⟩
    exact ⟨Nat.toDigits_ne_nil, fun c => Nat.isDigit_of_mem_toDigits (by decide) (by decide),
      toDigits_leading index⟩

theorem not_mem_toDigits {c : Char} (hc : c.isDigit = false) (index : Nat) :
    c ∉ Nat.toDigits 10 index := by
  intro hmem
  have hdigit := Nat.isDigit_of_mem_toDigits (by decide) (by decide) hmem
  cases hc.symm.trans hdigit

/-- Past its first character a placeholder has no opening brace. -/
theorem not_mem_closed (index : Nat) : '\x7b' ∉ Nat.toDigits 10 index ++ ['\x7d'] := by
  rw [List.mem_append, not_or]
  exact ⟨not_mem_toDigits (by decide) index, by decide⟩

theorem placeholder_append (index : Nat) (rest : List Char) :
    placeholder index ++ rest = '\x7b' :: (Nat.toDigits 10 index ++ '\x7d' :: rest) := by
  rw [placeholder, List.cons_append, List.append_assoc, List.singleton_append]

/-- The closing brace tells where the index ends, so no placeholder is the beginning of another. -/
theorem isPrefixOf_opened (index other : Nat) (rest : List Char) :
    (placeholder index).isPrefixOf ('\x7b' :: (Nat.toDigits 10 other ++ '\x7d' :: rest)) = true ↔
      index = other := by
  rw [List.isPrefixOf_iff_prefix]
  constructor
  · rintro ⟨after, heq⟩
    rw [placeholder_append] at heq
    obtain ⟨hdigits, -⟩ := Text.append_separator_inj (not_mem_toDigits (by decide) index)
      (not_mem_toDigits (by decide) other) (List.cons.inj heq).2
    exact Text.toDigits_inj (by decide) (by decide) hdigits
  · rintro rfl
    exact ⟨rest, placeholder_append index rest⟩

theorem isPrefixOf_plain (index : Nat) {c : Char} (hc : c ≠ '\x7b') (rest : List Char) :
    ¬(placeholder index).isPrefixOf (c :: rest) = true := by
  rw [placeholder, List.isPrefixOf_cons_cons, beq_false_of_ne hc.symm, Bool.false_and]
  exact Bool.false_ne_true

theorem drop_placeholder (index : Nat) (rest : List Char) :
    (Nat.toDigits 10 index ++ '\x7d' :: rest).drop ((placeholder index).length - 1) = rest := by
  have hlength : (placeholder index).length - 1 = (Nat.toDigits 10 index ++ ['\x7d']).length := rfl
  rw [List.append_cons, hlength, List.drop_left]

/-- A replacement goes through a text from left to right. It keeps every character that opens no
    placeholder, and puts the text that `lookup` gives in the place of a placeholder. -/
structure Rewrites (lookup : Nat → Option (List Char)) (rewrite : List Char → List Char) :
    Prop where
  nil : rewrite [] = []
  plain : ∀ {c : Char}, c ≠ '\x7b' → ∀ rest, rewrite (c :: rest) = c :: rewrite rest
  filled : ∀ {index : Nat} {arg : List Char}, lookup index = some arg →
    ∀ rest, rewrite (placeholder index ++ rest) = arg ++ rewrite rest
  opening : ∀ {index : Nat}, lookup index = none →
    ∀ rest, rewrite (placeholder index ++ rest) =
      '\x7b' :: rewrite (Nat.toDigits 10 index ++ '\x7d' :: rest)

theorem replaceAll_rewrites (index : Nat) (arg : List Char) :
    Rewrites (fun other => if other = index then some arg else none)
      (replaceAll (placeholder index) arg) where
  nil := by rw [replaceAll]
  plain hc rest := by rw [replaceAll, if_neg (isPrefixOf_plain index hc rest)]
  filled {other text} hlookup rest := by
    obtain ⟨rfl, rfl⟩ : other = index ∧ arg = text := by simpa using hlookup
    rw [placeholder_append, replaceAll, if_pos ((isPrefixOf_opened other other rest).mpr rfl),
      drop_placeholder]
  opening {other} hlookup rest := by
    have hne : other ≠ index := by simpa using hlookup
    rw [placeholder_append, replaceAll,
      if_neg fun hprefix => hne ((isPrefixOf_opened index other rest).mp hprefix).symm]

/-- At a placeholder the argument with its index is found, and no other one. -/
theorem find?_opened (args : List (List Char)) (index : Nat) (rest : List Char) :
    (args.zipIdx.find? fun entry => (placeholder entry.2).isPrefixOf
      ('\x7b' :: (Nat.toDigits 10 index ++ '\x7d' :: rest))) = args[index]?.map (·, index) := by
  cases hfind : args.zipIdx.find? fun entry => (placeholder entry.2).isPrefixOf
      ('\x7b' :: (Nat.toDigits 10 index ++ '\x7d' :: rest)) with
  | some entry =>
    obtain ⟨arg, other⟩ := entry
    have hprefix := List.find?_some hfind
    obtain rfl := (isPrefixOf_opened other index rest).mp hprefix
    have harg := List.mem_zipIdx_iff_getElem?.mp (List.mem_of_find?_eq_some hfind)
    rw [show args[other]? = some arg from harg]
    rfl
  | none =>
    cases harg : args[index]? with
    | none => rfl
    | some arg =>
      have hmem : (arg, index) ∈ args.zipIdx := List.mem_zipIdx_iff_getElem?.mpr harg
      exact absurd ((isPrefixOf_opened index index rest).mpr rfl)
        (List.find?_eq_none.mp hfind _ hmem)

theorem substitute_rewrites (args : List (List Char)) :
    Rewrites (fun index => args[index]?) (substitute args) where
  nil := by rw [substitute]
  plain {c} hc rest := by
    have hnone : (args.zipIdx.find? fun entry =>
        (placeholder entry.2).isPrefixOf (c :: rest)) = none :=
      List.find?_eq_none.mpr fun entry _ => isPrefixOf_plain entry.2 hc rest
    rw [substitute, hnone]
  filled {index arg} harg rest := by
    have hfind := find?_opened args index rest
    rw [harg] at hfind
    rw [placeholder_append, substitute, hfind]
    simp only [Option.map_some, drop_placeholder]
  opening {index} hnone rest := by
    have hfind := find?_opened args index rest
    rw [hnone] at hfind
    rw [placeholder_append, substitute, hfind]
    rfl

namespace Rewrites

variable {lookup : Nat → Option (List Char)} {rewrite : List Char → List Char}

theorem append (hrewrites : Rewrites lookup rewrite) {text : List Char} (hplain : '\x7b' ∉ text)
    (rest : List Char) : rewrite (text ++ rest) = text ++ rewrite rest := by
  induction text with
  | nil => rfl
  | cons c text ih =>
    rw [List.mem_cons, not_or] at hplain
    rw [List.cons_append, hrewrites.plain (Ne.symm hplain.1), ih hplain.2, List.cons_append]

theorem place (hrewrites : Rewrites lookup rewrite) (index : Nat) (rest : List Char) :
    rewrite (placeholder index ++ rest) =
      (lookup index).getD (placeholder index) ++ rewrite rest := by
  cases hlookup : lookup index with
  | some arg => exact hrewrites.filled hlookup rest
  | none =>
    rw [hrewrites.opening hlookup, List.append_cons, hrewrites.append (not_mem_closed index)]
    rfl

end Rewrites

/-- A piece of a template: a character that opens no placeholder, or a placeholder. -/
inductive Piece where
  | plain (c : Char) (hc : c ≠ '\x7b')
  | place (index : Nat)

/-- The text of a piece, with what `lookup` gives in the place of a placeholder. -/
def Piece.text (lookup : Nat → Option (List Char)) : Piece → List Char
  | plain c _ => [c]
  | place index => (lookup index).getD (placeholder index)

def assemble (lookup : Nat → Option (List Char)) (pieces : List Piece) : List Char :=
  pieces.flatMap (Piece.text lookup)

theorem assemble_cons (lookup : Nat → Option (List Char)) (piece : Piece) (pieces : List Piece) :
    assemble lookup (piece :: pieces) = piece.text lookup ++ assemble lookup pieces := rfl

/-- What was put in before has no opening brace, so a replacement only finds the placeholders that
    the template had. -/
theorem Rewrites.rewrite_assemble {lookup : Nat → Option (List Char)}
    {rewrite : List Char → List Char} (hrewrites : Rewrites lookup rewrite)
    {given : Nat → Option (List Char)}
    (hgiven : ∀ index arg, given index = some arg → '\x7b' ∉ arg) (pieces : List Piece) :
    rewrite (assemble given pieces) =
      assemble (fun index => (given index).or (lookup index)) pieces := by
  induction pieces with
  | nil => exact hrewrites.nil
  | cons piece pieces ih =>
    rw [assemble_cons, assemble_cons, ← ih]
    cases piece with
    | plain c hc => exact hrewrites.plain hc _
    | place index =>
      rw [Piece.text, Piece.text]
      cases harg : given index with
      | some arg => exact hrewrites.append (hgiven index arg harg) _
      | none => exact hrewrites.place index _

/-- Such a template is made of pieces. -/
theorem OpensPlaceholders.exists_pieces {template : List Char}
    (hopens : OpensPlaceholders template) :
    ∃ pieces, template = assemble (fun _ => none) pieces := by
  match template with
  | [] => exact ⟨[], rfl⟩
  | c :: rest =>
    by_cases hc : c = '\x7b'
    · subst hc
      obtain ⟨digits, after, hindex, rfl⟩ := hopens rest List.suffix_rfl
      obtain ⟨index, rfl⟩ := isIndex_iff.mp hindex
      have hsuffix : after <:+ '\x7b' :: (Nat.toDigits 10 index ++ '\x7d' :: after) :=
        ⟨placeholder index, placeholder_append index after⟩
      obtain ⟨pieces, rfl⟩ := (hopens.of_suffix hsuffix).exists_pieces
      exact ⟨.place index :: pieces, (placeholder_append index _).symm⟩
    · obtain ⟨pieces, rfl⟩ := (hopens.of_suffix (List.suffix_cons c rest)).exists_pieces
      exact ⟨.plain c hc :: pieces, rfl⟩
termination_by template.length

/-- What opens with a brace and ends the text begins after all that has no brace. -/
theorem suffix_of_plain {text rest after : List Char} (hplain : '\x7b' ∉ text)
    (hsuffix : '\x7b' :: after <:+ text ++ rest) : '\x7b' :: after <:+ rest := by
  induction text with
  | nil => exact hsuffix
  | cons c text ih =>
    rw [List.mem_cons, not_or] at hplain
    rcases List.suffix_cons_iff.mp hsuffix with heq | hlater
    · exact absurd (List.cons.inj heq).1 hplain.1
    · exact ih hplain.2 hlater

theorem assemble_opensPlaceholders (pieces : List Piece) :
    OpensPlaceholders (assemble (fun _ => none) pieces) := by
  intro after hsuffix
  induction pieces with
  | nil => cases List.suffix_nil.mp hsuffix
  | cons piece pieces ih =>
    rw [assemble_cons] at hsuffix
    cases piece with
    | plain c hc =>
      have hplain : '\x7b' ∉ [c] := fun hmem => hc (List.mem_singleton.mp hmem).symm
      exact ih (suffix_of_plain hplain hsuffix)
    | place index =>
      have hopened : '\x7b' :: after <:+
          placeholder index ++ assemble (fun _ => none) pieces := hsuffix
      rw [placeholder_append] at hopened
      rcases List.suffix_cons_iff.mp hopened with heq | hlater
      · exact ⟨_, _, isIndex_iff.mpr ⟨index, rfl⟩, (List.cons.inj heq).2⟩
      · rw [List.append_cons] at hlater
        exact ih (suffix_of_plain (not_mem_closed index) hlater)

/-- Each pass fills in the placeholders of one more argument. -/
theorem formatFrom_assemble (pieces : List Piece) (given more : List (List Char))
    (hplain : ∀ arg ∈ given ++ more, '\x7b' ∉ arg) :
    formatFrom given.length (assemble (fun index => given[index]?) pieces) more =
      assemble (fun index => (given ++ more)[index]?) pieces := by
  -- By induction on the arguments to come. Those given so far are in the text already, where the
  -- next pass must not take anything in them for a placeholder.
  induction more generalizing given with
  | nil => rw [formatFrom, List.append_nil]
  | cons arg more ih =>
    have hgiven (index : Nat) (text : List Char) (htext : given[index]? = some text) :
        '\x7b' ∉ text := hplain text (List.mem_append_left _ (List.mem_of_getElem? htext))
    have hnext : (fun index => given[index]?.or (if index = given.length then some arg else none)) =
        fun index => (given ++ [arg])[index]? := by
      funext index
      rcases Nat.lt_trichotomy index given.length with hlt | rfl | hgt
      · rw [List.getElem?_append_left hlt, List.getElem?_eq_getElem hlt, Option.some_or]
      · rw [List.getElem?_eq_none (Nat.le_refl _), if_pos rfl, List.getElem?_concat_length,
          Option.none_or]
      · rw [List.getElem?_eq_none (Nat.le_of_lt hgt), if_neg (Nat.ne_of_gt hgt), Option.none_or,
          List.getElem?_eq_none (by rw [List.length_append]; exact hgt)]
    rw [formatFrom, (replaceAll_rewrites given.length arg).rewrite_assemble hgiven, hnext]
    have hrest := ih (given ++ [arg]) (by rwa [List.append_assoc])
    rw [List.append_assoc, List.length_append] at hrest
    exact hrest

theorem substitute_assemble (pieces : List Piece) (args : List (List Char)) :
    substitute args (assemble (fun _ => none) pieces) =
      assemble (fun index => args[index]?) pieces := by
  refine (substitute_rewrites args).rewrite_assemble (fun index arg harg => ?_) pieces
  cases harg

/-- In a template whose opening braces only open placeholders, arguments without an opening brace
    are put in one after another as if all were put in at once: the template is made of pieces, and
    of these exactly the placeholders that have an argument give way to it. -/
theorem format_eq_substitute {template : List Char} {args : List (List Char)}
    (htemplate : OpensPlaceholders template) (hargs : ∀ arg ∈ args, '\x7b' ∉ arg) :
    format template args = substitute args template ∧
      ∃ pieces, template = assemble (fun _ => none) pieces ∧
        format template args = assemble (fun index => args[index]?) pieces := by
  obtain ⟨pieces, rfl⟩ := htemplate.exists_pieces
  have hformat : format (assemble (fun _ => none) pieces) args =
      assemble (fun index => args[index]?) pieces := formatFrom_assemble pieces [] args hargs
  exact ⟨hformat.trans (substitute_assemble pieces args).symm, pieces, rfl, hformat⟩

/-- An index of two digits that has no argument, one that is repeated, and arguments that end as
    placeholders do. -/
theorem format_eq_substitute_repeated :
    let template := "\x7b1\x7d \x7b0\x7d\x7b10\x7d\x7b1\x7d".toList
    let args := ["1\x7d".toList, "0\x7d".toList]
    OpensPlaceholders template ∧ (∀ arg ∈ args, '\x7b' ∉ arg) ∧
      format template args = substitute args template ∧
      substitute args template = "0\x7d 1\x7d\x7b10\x7d0\x7d".toList := by
  intro template args
  have htemplate : OpensPlaceholders template := assemble_opensPlaceholders
    [.place 1, .plain ' ' (by decide), .place 0, .place 10, .place 1]
  have hargs : ∀ arg ∈ args, '\x7b' ∉ arg := by decide
  exact ⟨htemplate, hargs, (format_eq_substitute htemplate hargs).1, by decide +kernel⟩

end EcmaLexer.Diagnostic
