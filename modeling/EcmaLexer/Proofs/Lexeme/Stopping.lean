import EcmaLexer.Proofs.Lexeme.Fits

namespace EcmaLexer

namespace Text

/-- The space, the two quotes and the line terminators. No name, number or punctuator and
    no escape has one of these in it, after its first character. -/
def stops : List Char := [' ', '\x22', '\x27', '\n', '\r', '\u2028', '\u2029']

/-- The text is empty or begins with a character that ends whatever comes before it. -/
def Stopped (text : List Char) : Prop := ∀ c, text.head? = some c → c ∈ stops

theorem Stopped.nil : Stopped [] := nofun

theorem Stopped.cons {c : Char} (hc : c ∈ stops) (rest : List Char) : Stopped (c :: rest) := by
  intro d hhead
  cases hhead
  exact hc

/-- No character of the text is a stop. -/
def StopFree (text : List Char) : Prop := ∀ c ∈ text, c ∉ stops

-- By the list, and not by every character there is.
instance (text : List Char) : Decidable (StopFree text) := List.decidableBAll _ text

theorem not_of_mem_stops (inClass : Char → Bool) (hnone : stops.any inClass = false) {c : Char}
    (hc : c ∈ stops) : inClass c = false := by
  simpa using List.any_eq_false.mp hnone c hc

namespace Stopped

variable {right : List Char} (hstopped : Stopped right)
include hstopped

theorem take (count : Nat) : Stopped (right.take count) := by
  intro c hhead
  cases count with
  | zero => cases hhead
  | succ count =>
    rw [List.head?_take, if_neg (Nat.succ_ne_zero count)] at hhead
    exact hstopped c hhead

theorem any_append {inClass : Char → Bool} (hnone : stops.any inClass = false)
    (left : List Char) : (left ++ right).head?.any inClass = left.head?.any inClass := by
  cases left with
  | cons c left => rfl
  | nil =>
    cases right with
    | nil => rfl
    | cons c right => exact not_of_mem_stops _ hnone (hstopped c rfl)

theorem head?_append_iff {c : Char} (hc : c ∉ stops) (left : List Char) :
    (left ++ right).head? = some c ↔ left.head? = some c := by
  cases left with
  | cons d left => rfl
  | nil =>
    constructor
    · intro hhead
      exact absurd (hstopped c hhead) hc
    · rintro ⟨⟩

theorem takeWhile_append {inClass : Char → Bool} (hnone : stops.any inClass = false)
    (left : List Char) : (left ++ right).takeWhile inClass = left.takeWhile inClass := by
  induction left with
  | nil =>
    cases right with
    | nil => rfl
    | cons c right => simp [not_of_mem_stops _ hnone (hstopped c rfl)]
  | cons c left ih => simp [List.takeWhile_cons, ih]

/-- A text without stops stands at the head of another one just if it stands there before
    the first stop. -/
theorem isPrefixOf_append {pattern : List Char} (hpattern : StopFree pattern)
    (left : List Char) : pattern.isPrefixOf (left ++ right) = pattern.isPrefixOf left := by
  induction pattern generalizing left with
  | nil => simp
  | cons c pattern ih =>
    cases left with
    | cons d left =>
      have hrest := ih (fun d hmem => hpattern d (List.mem_cons_of_mem c hmem)) left
      rw [List.cons_append, List.isPrefixOf_cons_cons, List.isPrefixOf_cons_cons, hrest]
    | nil =>
      cases right with
      | nil => rfl
      | cons d right =>
        have hne : (c == d) = false := by
          rw [beq_eq_false_iff_ne]
          rintro rfl
          exact hpattern c List.mem_cons_self (hstopped c rfl)
        rw [List.nil_append, List.isPrefixOf_cons_cons, hne]
        rfl

/-- What stands at the head of both texts together stands at the head of the first. -/
theorem prefix_left (pattern : List Char) (hpattern : StopFree pattern)
    {left rest : List Char} (htext : left ++ right = pattern ++ rest) :
    ∃ tail, left = pattern ++ tail := by
  have hstarts : pattern.isPrefixOf (left ++ right) = true := by
    rw [htext, List.isPrefixOf_iff_prefix]
    exact List.prefix_append pattern rest
  rw [hstopped.isPrefixOf_append hpattern, List.isPrefixOf_iff_prefix] at hstarts
  obtain ⟨tail, htail⟩ := hstarts
  exact ⟨tail, htail.symm⟩

end Stopped

end Text

namespace Escape

open Text (Stopped stops)

variable {right : List Char} (hstopped : Stopped right)
include hstopped

theorem hexDigits?_append (count value : Nat) (left : List Char) :
    hexDigits? count value (left ++ right) = hexDigits? count value left := by
  fun_induction hexDigits? count value left with
  | case1 value text => rw [hexDigits?]
  | case2 count value =>
    cases right with
    | nil => rfl
    | cons c right =>
      have hdigit : Character.isHexDigit c = false :=
        Text.not_of_mem_stops _ (by decide) (hstopped c rfl)
      have hnone : Character.hexValue? c = none := by simpa [Character.isHexDigit] using hdigit
      simp [hexDigits?, hnone]
  | case3 count value c text hdigit => simp [hexDigits?, hdigit]
  | case4 count value c text digit hdigit ih => simp [hexDigits?, hdigit, ih]

theorem lowSurrogate?_append (left : List Char) :
    lowSurrogate? (left ++ right) = lowSurrogate? left := by
  fun_cases lowSurrogate? left with
  | case1 text => rw [List.cons_append, List.cons_append, lowSurrogate?, hexDigits?_append hstopped]
  | case2 left hnone =>
    rw [lowSurrogate?.eq_2]
    intro text htext
    obtain ⟨tail, rfl⟩ := hstopped.prefix_left ['\\', 'u'] (by decide) htext
    exact hnone tail rfl

theorem fourDigits_append (left : List Char) : fourDigits (left ++ right) = fourDigits left := by
  unfold fourDigits
  rw [hexDigits?_append hstopped]
  cases hunit : hexDigits? 4 0 left with
  | none => rfl
  | some unit =>
    obtain ⟨hlength, -⟩ := hexDigits?_eq_some hunit
    rw [List.drop_append_of_le_length hlength, lowSurrogate?_append hstopped]

theorem bracedDigits_append (left : List Char) :
    bracedDigits (left ++ right) = bracedDigits left := by
  have hlength : (left.takeWhile Character.isHexDigit).length ≤ left.length :=
    (List.takeWhile_prefix Character.isHexDigit).length_le
  have hbrace : ((left.drop (left.takeWhile Character.isHexDigit).length ++ right).head? !=
      some '\x7d') = ((left.drop (left.takeWhile Character.isHexDigit).length).head? !=
        some '\x7d') := by
    rw [Bool.eq_iff_iff, bne_iff_ne, bne_iff_ne, Ne, hstopped.head?_append_iff (by decide)]
  have hdigits : stops.any Character.isHexDigit = false := by decide
  unfold bracedDigits
  simp only [hstopped.takeWhile_append hdigits, List.drop_append_of_le_length hlength, hbrace]

/-- A unicode escape does not look past a stop. -/
theorem unicode_append (left : List Char) : unicode (left ++ right) = unicode left := by
  fun_cases unicode left with
  | case1 left => rw [List.cons_append, unicode, bracedDigits_append hstopped]
  | case2 _ hbrace =>
    rw [unicode.eq_2]
    · exact fourDigits_append hstopped left
    · intro text htext
      obtain ⟨tail, rfl⟩ := hstopped.prefix_left ['\x7b'] (by decide) htext
      exact hbrace tail rfl

theorem octalDigits_append (first : Char) (left : List Char) :
    octalDigits first (left ++ right) = octalDigits first left := by
  unfold octalDigits
  rw [← List.cons_append, List.take_append]
  exact (hstopped.take _).takeWhile_append (by decide) _

theorem digit_append (site : Site) (strict : Bool) (first : Char) (left : List Char) :
    digit site strict first (left ++ right) = digit site strict first left := by
  unfold digit
  rw [hstopped.any_append (by decide), octalDigits_append hstopped]

/-- An escape does not look past a stop, unless it begins with a carriage return. -/
theorem read_append (site : Site) (strict : Bool) {first : Char} (hfirst : first ≠ '\r')
    (left : List Char) : read site strict first (left ++ right) = read site strict first left := by
  have hreturn (text : List Char) : (first = '\r' && text.head? = some '\n') = false := by
    simp [hfirst]
  unfold read
  simp only [hreturn, hexDigits?_append hstopped, unicode_append hstopped, digit_append hstopped]

end Escape

namespace Number

open Text (Stopped stops)

theorem isDigit_stops (radix : Radix) : stops.any (isDigit radix) = false := by
  cases radix <;> decide

variable {right : List Char} (hstopped : Stopped right)
include hstopped

theorem digits_append (radix : Radix) (started : Bool) (left : List Char) :
    digits radix started (left ++ right) = digits radix started left := by
  have hunderscore (rest : List Char) := hstopped.head?_append_iff (c := '_') (by decide) rest
  have hany (rest : List Char) := hstopped.any_append (isDigit_stops radix) rest
  induction left generalizing started with
  | cons c left ih => simp only [List.cons_append, digits, hunderscore, hany, ih]
  | nil =>
    cases right with
    | nil => rfl
    | cons c right =>
      have hc := hstopped c rfl
      have hunderscore : c ≠ '_' := by
        rintro rfl
        exact absurd hc (by decide)
      have hdigit := Text.not_of_mem_stops _ (isDigit_stops radix) hc
      simp [digits, hunderscore, hdigit]

theorem finish_append (token : Token) (left : List Char) :
    finish token (left ++ right) = finish token left := by
  cases left with
  | cons c left => rfl
  | nil =>
    cases right with
    | nil => rfl
    | cons c right =>
      have hend := Text.not_of_mem_stops
        (fun c => c == '_' || Character.isIdentifierStart c || c.isDigit) (by decide +kernel)
        (hstopped c rfl)
      simp only [Bool.or_eq_false_iff, beq_eq_false_iff_ne] at hend
      simp [finish, hend]

theorem suffix_append (integer : Bool) (left : List Char) :
    suffix integer (left ++ right) = suffix integer left := by
  have hletter := hstopped.head?_append_iff (c := 'n') (by decide) left
  have hdrop (hbig : left.head? = some 'n') : (left ++ right).drop 1 = left.drop 1 ++ right := by
    obtain ⟨rest, rfl⟩ := List.head?_eq_some_iff.mp hbig
    rfl
  by_cases hbig : left.head? = some 'n'
  · simp only [suffix, hletter, hbig, hdrop hbig, finish_append hstopped]
  · simp only [suffix, hletter, hbig, finish_append hstopped]
    simp

theorem withDigits_append {next : List Char → Lexeme}
    (hnext : ∀ left, next (left ++ right) = next left) (radix : Radix) (required : Bool)
    (left : List Char) :
    withDigits radix required (left ++ right) next = withDigits radix required left next := by
  have hwidth := (digits_inline radix false left).width_le
  simp only [withDigits, digits_append hstopped, List.drop_append_of_le_length hwidth, hnext]

theorem exponent_append (integer : Bool) (left : List Char) :
    exponent integer (left ++ right) = exponent integer left := by
  have hmarks : stops.any isExponentMark = false := by decide
  have hsigns : stops.any isSign = false := by decide
  have hmark := hstopped.any_append hmarks left
  cases hexponent : left.head?.any isExponentMark with
  | false =>
    rw [hexponent] at hmark
    rw [exponent, exponent, hmark, hexponent]
    exact suffix_append hstopped integer left
  | true =>
    obtain ⟨c, rest, rfl, hc⟩ := Text.exists_cons_of_head?_any hexponent
    have hhead (rest : List Char) : (c :: rest).head?.any isExponentMark = true := hc
    have hsign := hstopped.any_append hsigns rest
    have hdigits := withDigits_append hstopped (suffix_append hstopped false) .decimal true
    simp only [exponent, hhead, if_true, List.cons_append, List.drop_one, List.tail_cons, hsign]
    cases hfound : rest.head?.any isSign with
    | false => exact congrArg (Lexeme.after 1 [] { scientific := true }) (hdigits rest)
    | true =>
      obtain ⟨sign, tail, rfl, -⟩ := Text.exists_cons_of_head?_any hfound
      exact congrArg (Lexeme.after 2 [] { scientific := true }) (hdigits tail)

theorem afterInteger_append (left : List Char) :
    afterInteger (left ++ right) = afterInteger left := by
  have hpoint := hstopped.head?_append_iff (c := '.') (by decide) left
  by_cases hfraction : left.head? = some '.'
  · obtain ⟨rest, rfl⟩ := List.head?_eq_some_iff.mp hfraction
    exact congrArg (Lexeme.after 1 [] {})
      (withDigits_append hstopped (exponent_append hstopped false) .decimal false rest)
  · simp only [afterInteger, hpoint, hfraction, if_false]
    exact exponent_append hstopped true left

theorem prefixed_append {left : List Char} (hne : left ≠ []) (radix : Radix) (flags : Flags) :
    prefixed radix flags (left ++ right) = prefixed radix flags left := by
  cases left with
  | nil => exact absurd rfl hne
  | cons c left =>
    exact congrArg (Lexeme.after 2 [] flags)
      (withDigits_append hstopped (suffix_append hstopped true) radix true left)

theorem legacy_append (strict : Bool) (left : List Char) :
    legacy strict (left ++ right) = legacy strict left := by
  have hdigits : stops.any Char.isDigit = false := by decide
  have hlength : (left.takeWhile Char.isDigit).length ≤ left.length :=
    (List.takeWhile_prefix Char.isDigit).length_le
  simp only [legacy, hstopped.takeWhile_append hdigits, List.drop_append_of_le_length hlength,
    finish_append hstopped, afterInteger_append hstopped]

theorem leadingZero_append (strict : Bool) (left : List Char) :
    leadingZero strict (left ++ right) = leadingZero strict left := by
  cases left with
  | cons c left =>
    simp only [leadingZero, prefixed_append hstopped (List.cons_ne_nil c left),
      legacy_append hstopped, afterInteger_append hstopped]
    rfl
  | nil =>
    have hafter := congrArg (Lexeme.after 1 [] {}) (afterInteger_append hstopped [])
    cases right with
    | nil => rfl
    | cons c right =>
      have hclass := Text.not_of_mem_stops (fun c => (DigitClass.ofChar? c).any (· != .other))
        (by decide) (hstopped c rfl)
      rw [leadingZero]
      cases hfound : DigitClass.ofChar? c with
      | none =>
        simp only [List.nil_append, List.head?_cons, Option.bind_some, hfound]
        exact hafter
      | some found =>
        have hother : found = .other := by simpa [hfound] using hclass
        simp only [List.nil_append, List.head?_cons, Option.bind_some, hfound, hother]
        exact hafter

theorem shape_append (strict : Bool) (left : List Char) :
    shape strict (left ++ right) = shape strict left := by
  fun_cases shape strict left with
  | case1 rest => exact leadingZero_append hstopped strict rest
  | case2 rest => exact afterInteger_append hstopped ('.' :: rest)
  | case3 _ hzero hpoint =>
    rw [shape.eq_3]
    · exact withDigits_append hstopped (afterInteger_append hstopped) .decimal false left
    · intro rest htext
      obtain ⟨tail, rfl⟩ := hstopped.prefix_left ['0'] (by decide) htext
      exact hzero tail rfl
    · intro rest htext
      obtain ⟨tail, rfl⟩ := hstopped.prefix_left ['.'] (by decide) htext
      exact hpoint tail rfl

theorem read_append (strict : Bool) (left : List Char) :
    read strict (left ++ right) = read strict left := by
  have hwidth := (shape_inline strict left).width_le
  simp only [read, shape_append hstopped, List.take_append_of_le_length hwidth]

end Number

namespace Name

open Text (Stopped stops)

theorem allowed_stops (first : Bool) : stops.any (allowed first) = false := by
  cases first <;> decide +kernel

theorem elements_ordinary {c : Char} (hbackslash : c ≠ '\\') (first : Bool) (rest : List Char) :
    elements first (c :: rest) =
      if allowed first c then (elements false rest).after 1 [c] {} else .accept .identifier 0 := by
  rw [elements.eq_4]
  · exact fun _ hc => absurd hc hbackslash
  · exact fun hc => absurd hc hbackslash

variable {right : List Char} (hstopped : Stopped right)
include hstopped

theorem elements_append (first : Bool) (left : List Char) :
    elements first (left ++ right) = elements first left := by
  fun_induction elements first left with
  | case1 first =>
    rw [List.nil_append]
    cases right with
    | nil => rw [elements]
    | cons c right =>
      have hc := hstopped c rfl
      have hbackslash : c ≠ '\\' := by
        rintro rfl
        exact absurd hc (by decide)
      have hallowed := Text.not_of_mem_stops _ (allowed_stops first) hc
      rw [elements_ordinary hbackslash, hallowed]
      rfl
  | case2 first rest escape c hresult hallowed ih =>
    have hlength := (Escape.unicode_take rest).1
    have hread : (Escape.unicode rest).result = .ok c := hresult
    simp only [List.cons_append, elements, Escape.unicode_append hstopped, hread, hallowed, if_true,
      List.drop_append_of_le_length hlength]
    exact congrArg _ ih
  | case3 first rest escape c hresult hallowed =>
    have hread : (Escape.unicode rest).result = .ok c := hresult
    simp only [List.cons_append, elements, Escape.unicode_append hstopped, hread, hallowed]
    rfl
  | case4 first rest escape fault hresult =>
    have hread : (Escape.unicode rest).result = .error fault := hresult
    simp only [List.cons_append, elements, Escape.unicode_append hstopped, hread]
    rfl
  | case5 first rest hunicode =>
    rw [List.cons_append, elements.eq_3]
    intro tail htext
    obtain ⟨tail, rfl⟩ := hstopped.prefix_left ['u'] (by decide) htext
    exact hunicode tail rfl
  | case6 first c rest hunicode hbackslash hallowed ih =>
    rw [List.cons_append, elements_ordinary hbackslash, if_pos hallowed, ih]
  | case7 first c rest hunicode hbackslash hallowed =>
    rw [List.cons_append, elements_ordinary hbackslash, if_neg hallowed]

theorem identifier_append (keywordLetter : Bool) (left : List Char) :
    identifier keywordLetter (left ++ right) = identifier keywordLetter left := by
  simp only [identifier, elements_append hstopped]

theorem privateName_append (left : List Char) :
    privateName (left ++ right) = privateName left := by
  have hstart : stops.any (fun c => c == '\\' || Character.isIdentifierStart c) = false := by
    decide +kernel
  simp only [privateName, elements_append hstopped, hstopped.any_append hstart]

end Name

theorem Punctuator.fits_append {right : List Char} (hstopped : Text.Stopped right)
    (punctuator : Punctuator) (left : List Char) :
    punctuator.fits (left ++ right) = punctuator.fits left := by
  have hpattern : Text.StopFree punctuator.text.toList := by
    cases punctuator <;> decide
  have hdigits : Text.stops.any Char.isDigit = false := by decide
  rw [fits, fits, hstopped.isPrefixOf_append hpattern]
  cases hstarts : punctuator.text.toList.isPrefixOf left with
  | false => rfl
  | true =>
    -- Only `?.` looks further, and it is not shorter than how far it looks.
    by_cases hpunctuator : punctuator = .questionMarkPeriod
    · subst hpunctuator
      obtain ⟨rest, rfl⟩ := List.isPrefixOf_iff_prefix.mp hstarts
      have hdrop : ("?.".toList ++ rest ++ right).drop 2 = rest ++ right := rfl
      have hrest : ("?.".toList ++ rest).drop 2 = rest := rfl
      rw [text, hdrop, hrest, hstopped.any_append hdigits]
    · have hother : (punctuator != .questionMarkPeriod) = true := bne_iff_ne.mpr hpunctuator
      rw [hother]
      rfl

theorem Lexeme.ofPunctuator_append {right : List Char} (hstopped : Text.Stopped right)
    (first : Punctuator) (left : List Char) :
    ofPunctuator first (left ++ right) = ofPunctuator first left := by
  simp only [ofPunctuator, Punctuator.longest, Punctuator.fits_append hstopped]

/-- A name, number or punctuator does not depend on what comes after a stop. -/
theorem Lexeme.read_append {right : List Char} (hstopped : Text.Stopped right)
    {c : Char} (hquote : StartClass.ofChar? c ≠ some .quote) (hbacktick : c ≠ '\x60')
    (context : Context) (left : List Char) :
    read context c (left ++ right) = read context c left := by
  have hdigits : Text.stops.any Char.isDigit = false := by decide
  have hcons : c :: (left ++ right) = (c :: left) ++ right := rfl
  unfold read
  simp only [hcons, Number.read_append hstopped, Name.identifier_append hstopped,
    Lexeme.ofPunctuator_append hstopped, hstopped.any_append hdigits,
    Name.privateName_append hstopped]
  split
  · next hclass => exact absurd hclass hquote
  · next hclass => exact absurd (eq_backtick_of_class hclass) hbacktick
  all_goals rfl

end EcmaLexer
