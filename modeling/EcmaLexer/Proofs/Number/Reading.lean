import EcmaLexer.Proofs.Lexeme.Settling
import EcmaLexer.Proofs.Number.Grammar

namespace EcmaLexer

namespace Number

open Character (isIdentifierStart isOctalDigit)

/-- A reading of the longest word that a text begins with: it fails exactly if a character follows
    that may not stand there. -/
structure Reads (Word : List Char → Prop) (facts : List Char → Flags) (text : List Char)
    (lexeme : Lexeme) (found rest : List Char) : Prop where
  longest : Longest Word text found rest
  refused : blocked rest = true → lexeme.result.isOk = false
  accepted : blocked rest = false → lexeme.width = found.length ∧ lexeme.flags = facts found ∧
    lexeme.result = .ok (kindOf found)

theorem isOk_after (lexeme : Lexeme) (width : Nat) (value : List Char) (flags : Flags) :
    (lexeme.after width value flags).result.isOk = lexeme.result.isOk := by
  unfold Lexeme.after
  cases lexeme.result <;> rfl

theorem isOk_finish {rest : List Char} (hblocked : blocked rest = true) (token : Token) :
    (finish token rest).result.isOk = false := by
  fun_cases finish token rest with
  | case1 => cases hblocked
  | case2 | case3 => rfl
  | case4 c tail hunderscore hfree =>
    rw [Bool.or_comm] at hfree
    exact absurd hblocked hfree

theorem finish_eq_accept {rest : List Char} (hfree : blocked rest = false) (token : Token) :
    finish token rest = .accept token 0 := by
  fun_cases finish token rest with
  | case1 => rfl
  | case2 => cases hfree
  | case3 c tail hunderscore htaken =>
    rw [Bool.or_comm] at htaken
    exact absurd htaken (Bool.eq_false_iff.mp hfree)
  | case4 => rfl

/-- A part of a text is a part of its lead, or goes on after it. -/
theorem prefix_append_cases {other lead text : List Char} (hpart : other <+: lead ++ text) :
    other.length ≤ lead.length ∨ ∃ word, other = lead ++ word ∧ word <+: text := by
  rcases List.prefix_or_prefix_of_prefix hpart (List.prefix_append lead text) with
    hshort | ⟨word, rfl⟩
  · exact .inl hshort.length_le
  · exact .inr ⟨word, rfl, (List.prefix_append_right_inj lead).mp hpart⟩

namespace Reads

variable {Word Longer : List Char → Prop} {facts more : List Char → Flags} {flags : Flags}
  {text found rest lead : List Char} {lexeme : Lexeme}

/-- What is read after a leading part makes up a word together with it. -/
theorem after (hreads : Reads Word facts text lexeme found rest) (hword : Longer (lead ++ found))
    (hothers : ∀ word, Longer (lead ++ word) → word <+: text → word = [] ∨ Word word)
    (hfacts : more (lead ++ found) = flags.union (facts found))
    (hkind : kindOf (lead ++ found) = kindOf found) :
    Reads Longer more (lead ++ text) (lexeme.after lead.length [] flags) (lead ++ found) rest where
  longest := by
    refine ⟨?_, hword, fun other hother hpart => ?_⟩
    · rw [List.append_assoc, hreads.longest.split]
    · rw [List.length_append]
      rcases prefix_append_cases hpart with hshort | ⟨word, rfl, hword⟩
      · exact Nat.le_add_right_of_le hshort
      · rw [List.length_append]
        apply Nat.add_le_add_left
        rcases hothers word hother hword with rfl | hfound
        · exact Nat.zero_le _
        · exact hreads.longest.longest word hfound hword
  refused hblocked := by rw [isOk_after, hreads.refused hblocked]
  accepted hfree := by
    obtain ⟨hwidth, hflags, hresult⟩ := hreads.accepted hfree
    refine ⟨?_, ?_, ?_⟩
    · rw [Lexeme.after, hwidth, List.length_append]
    · rw [Lexeme.after, hflags, hfacts]
    · rw [Lexeme.after, hresult, hkind]

/-- Words that the text does not begin with do not matter. -/
theorem congr (hreads : Reads Word facts text lexeme found rest) (hword : Longer found)
    (hothers : ∀ other, Longer other → other <+: text → other = [] ∨ Word other)
    (hfacts : more found = facts found) : Reads Longer more text lexeme found rest where
  longest := by
    refine ⟨hreads.longest.split, hword, fun other hother hpart => ?_⟩
    rcases hothers other hother hpart with rfl | hother
    · exact Nat.zero_le _
    · exact hreads.longest.longest other hother hpart
  refused := hreads.refused
  accepted hfree := by
    obtain ⟨hwidth, hflags, hresult⟩ := hreads.accepted hfree
    exact ⟨hwidth, hflags.trans hfacts.symm, hresult⟩

/-- A reading that has failed falls back to a shorter word, and something follows that word which
    may not stand there. -/
theorem of_fault (hword : Word lead)
    (hothers : ∀ word, Word (lead ++ word) → word <+: text → word = [])
    (hblocked : blocked text = true) (hresult : lexeme.result.isOk = false) :
    Reads Word facts (lead ++ text) lexeme lead text where
  longest := by
    refine ⟨rfl, hword, fun other hother hpart => ?_⟩
    rcases prefix_append_cases hpart with hshort | ⟨word, rfl, hword⟩
    · exact hshort
    · exact Nat.le_of_eq (by rw [hothers word hother hword, List.append_nil])
  refused _ := hresult
  accepted hfree := absurd hblocked (Bool.eq_false_iff.mp hfree)

/-- A number ends where it may. -/
theorem of_finish (hlongest : Longest Word text found rest) (hfacts : facts found = flags) :
    Reads Word facts text ((finish (kindOf found) rest).after found.length [] flags) found
      rest where
  longest := hlongest
  refused hblocked := by rw [isOk_after, isOk_finish hblocked]
  accepted hfree := by
    rw [finish_eq_accept hfree, hfacts]
    exact ⟨rfl, flags.union_empty, rfl⟩

end Reads

/-- No more digits begin a text. -/
def Stops (radix : Radix) (rest : List Char) : Prop :=
  ∀ more, MoreDigits radix more → more <+: rest → more = []

/-- Neither a digit nor an underscore begins a word. -/
def Apart (radix : Radix) (word : List Char) : Prop :=
  ∀ c, word.head? = some c → isDigit radix c = false ∧ c ≠ '_'

theorem ne_underscore {radix : Radix} {c : Char} (hc : isDigit radix c = true) : c ≠ '_' := by
  rintro rfl
  cases hc

/-- All digits that there are belong to the number. -/
theorem MoreDigits.unique {radix : Radix} {more rest word other tail : List Char}
    (hmore : MoreDigits radix more) (hstops : Stops radix rest) (hword : word <+: rest)
    (hother : MoreDigits radix other) (htail : Apart radix tail)
    (heq : more ++ word = other ++ tail) : other = more ∧ tail = word := by
  induction hmore generalizing other with
  | nil =>
    have hpart : other <+: rest := .trans ⟨tail, heq.symm⟩ hword
    rw [hstops other hother hpart] at heq ⊢
    exact ⟨rfl, heq.symm⟩
  | @digit c more hc hmore ih =>
    cases hother with
    | nil =>
      have hhead := (htail c (by rw [← List.nil_append tail, ← heq]; rfl)).1
      cases hc.symm.trans hhead
    | digit hd hother =>
      obtain ⟨rfl, hrest⟩ := List.cons.inj heq
      obtain ⟨rfl, hsame⟩ := ih hother hrest
      exact ⟨rfl, hsame⟩
    | separated hd hother => exact absurd (List.cons.inj heq).1 (ne_underscore hc)
  | @separated c more hc hmore ih =>
    cases hother with
    | nil =>
      have hhead := (htail '_' (by rw [← List.nil_append tail, ← heq]; rfl)).2
      exact absurd rfl hhead
    | digit hd hother => exact absurd (List.cons.inj heq).1.symm (ne_underscore hd)
    | separated hd hother =>
      obtain ⟨rfl, hrest⟩ := List.cons.inj (List.cons.inj heq).2
      obtain ⟨rfl, hsame⟩ := ih hother hrest
      exact ⟨rfl, hsame⟩

/-- Where a run of digits stops, and what was found: an underscore may only come next if it is a
    fault. -/
structure Runs (radix : Radix) (run : DigitRun) (more rest : List Char) : Prop where
  digits : MoreDigits radix more
  stops : Stops radix rest
  misplaced : run.misplaced.isSome = true ↔ rest.head? = some '_'
  placed : run.misplaced = none → run = ⟨more.length, more.contains '_', none⟩

theorem Runs.cons {radix : Radix} {run : DigitRun} {more rest : List Char} {c : Char}
    {separator : Bool} (hruns : Runs radix run more rest) (hdigits : MoreDigits radix (c :: more))
    (hseparator : ('_' == c) = separator) :
    Runs radix (run.after separator) (c :: more) rest where
  digits := hdigits
  stops := hruns.stops
  misplaced := by rw [DigitRun.after, Option.isSome_map, hruns.misplaced]
  placed hnone := by
    rw [hruns.placed (Option.map_eq_none_iff.mp hnone), List.contains_cons, hseparator]
    rfl

theorem stops_of_head {radix : Radix} {text : List Char}
    (hdigit : ¬text.head?.any (isDigit radix) = true) (hunderscore : text.head? ≠ some '_') :
    Stops radix text := by
  intro more hmore hpart
  obtain ⟨rest, rfl⟩ := hpart
  cases hmore with
  | nil => rfl
  | digit hc => exact absurd hc hdigit
  | separated => exact absurd rfl hunderscore

theorem stops_underscore {radix : Radix} {text : List Char}
    (hdigit : ¬text.head?.any (isDigit radix) = true) : Stops radix ('_' :: text) := by
  intro more hmore hpart
  obtain ⟨rest, heq⟩ := hpart
  cases hmore with
  | nil => rfl
  | digit hc => exact absurd (List.cons.inj heq).1 (ne_underscore hc)
  | separated hc =>
    obtain rfl := (List.cons.inj heq).2
    exact absurd hc hdigit

/-- An underscore that may not stand where it does. -/
theorem runs_misplaced {radix : Radix} {text : List Char} {run : DigitRun}
    (hdigit : ¬text.head?.any (isDigit radix) = true) (hmisplaced : run.misplaced.isSome = true) :
    Runs radix run [] ('_' :: text) where
  digits := .nil
  stops := stops_underscore hdigit
  misplaced := iff_of_true hmisplaced rfl
  placed hnone := by
    rw [hnone] at hmisplaced
    cases hmisplaced

theorem digits_runs (radix : Radix) (text : List Char) :
    ∃ more rest, text = more ++ rest ∧ Runs radix (digits radix true text) more rest := by
  generalize hstarted : true = started
  fun_induction digits radix started text with
  | case1 started =>
    refine ⟨[], [], rfl, .nil, stops_of_head ?_ ?_, by simp, fun _ => rfl⟩
    · rintro ⟨⟩
    · rintro ⟨⟩
  | case2 started rest hfirst =>
    rw [← hstarted] at hfirst
    cases hfirst
  | case3 started rest hfirst hdouble =>
    exact ⟨[], '_' :: rest, rfl, runs_misplaced (by rw [hdouble]; exact Bool.false_ne_true) rfl⟩
  | case4 started rest hfirst hdouble hdigit ih =>
    obtain ⟨more, after, rfl, hruns⟩ := ih rfl
    refine ⟨'_' :: more, after, rfl, hruns.cons ?_ rfl⟩
    cases hruns.digits with
    | nil =>
      obtain ⟨c, tail, rfl, hc⟩ := Text.exists_cons_of_head?_any hdigit
      cases hruns.stops [c] (.digit hc .nil) ⟨tail, rfl⟩
    | digit hc hmore => exact .separated hc hmore
    | separated => exact absurd rfl hdouble
  | case5 started rest hfirst hdouble hdigit =>
    exact ⟨[], '_' :: rest, rfl, runs_misplaced hdigit rfl⟩
  | case6 started c rest hunderscore hdigit ih =>
    obtain ⟨more, after, rfl, hruns⟩ := ih rfl
    exact ⟨c :: more, after, rfl, hruns.cons (.digit hdigit hruns.digits)
      (beq_eq_false_iff_ne.mpr (Ne.symm hunderscore))⟩
  | case7 started c rest hunderscore hdigit =>
    have hhead : (c :: rest).head? ≠ some '_' := fun heq => hunderscore (Option.some.inj heq)
    exact ⟨[], c :: rest, rfl, .nil, stops_of_head hdigit hhead, by simp [hunderscore],
      fun _ => rfl⟩

theorem MoreDigits.mem {radix : Radix} {more : List Char} (hmore : MoreDigits radix more) {c : Char}
    (hmem : c ∈ more) : c = '_' ∨ isDigit radix c = true := by
  induction hmore with
  | nil => cases hmem
  | digit hd hmore ih =>
    rcases List.mem_cons.mp hmem with rfl | hmem
    · exact .inr hd
    · exact ih hmem
  | separated hd hmore ih =>
    rcases List.mem_cons.mp hmem with rfl | hmem
    · exact .inl rfl
    · rcases List.mem_cons.mp hmem with rfl | hmem
      · exact .inr hd
      · exact ih hmem

theorem Digits.mem {radix : Radix} {digits : List Char} (hdigits : Digits radix digits) {c : Char}
    (hmem : c ∈ digits) : c = '_' ∨ isDigit radix c = true := by
  cases hdigits with
  | intro hd hmore => exact (MoreDigits.digit hd hmore).mem hmem

theorem kindOf_append {lead : List Char} (hlast : 'n' ∉ lead) (word : List Char) :
    kindOf (lead ++ word) = kindOf word := by
  unfold kindOf
  rw [List.getLast?_append]
  cases word.getLast? with
  | none => rw [Option.none_or, if_neg fun hn => hlast (List.mem_of_getLast? hn), if_neg nofun]
  | some c => rw [Option.some_or]

/-- Digits do not make a number a big integer. -/
theorem kindOf_digits {radix : Radix} {digits : List Char} (hdigits : Digits radix digits)
    (word : List Char) : kindOf (digits ++ word) = kindOf word := by
  apply kindOf_append
  intro hn
  rcases hdigits.mem hn with hn | hn <;> cases hn

/-- A word of digits and then a word of another language. -/
inductive DigitsThen (radix : Radix) (Word : List Char → Prop) : List Char → Prop where
  | intro {digits word : List Char} (hdigits : Digits radix digits) (hword : Word word) :
      DigitsThen radix Word (digits ++ word)

/-- After all the digits that there are comes the other word. -/
theorem DigitsThen.word {radix : Radix} {Word : List Char → Prop} {digits word rest : List Char}
    (hthen : DigitsThen radix Word (digits ++ word)) (hdigits : Digits radix digits)
    (hstops : Stops radix rest) (hpart : word <+: rest)
    (hapart : ∀ word, Word word → Apart radix word) : Word word := by
  generalize htext : digits ++ word = text at hthen
  cases hthen with
  | @intro others tail hothers htail =>
    cases hdigits with
    | intro hc hmore =>
      cases hothers with
      | intro hd hother =>
        obtain ⟨-, hsame⟩ := (MoreDigits.digit hc hmore).unique hstops hpart (.digit hd hother)
          (hapart tail htail) htext
        rwa [← hsame]

section WithDigits

variable {radix : Radix} {Word : List Char → Prop} {facts more : List Char → Flags}
  {next : List Char → Lexeme} {text : List Char}

/-- Where digits come first, these are read and then what comes after them. -/
theorem withDigits_reads (hdigit : text.head?.any (isDigit radix) = true) (required : Bool)
    (hnext : ∀ rest, ∃ found tail, Reads Word facts rest (next rest) found tail)
    (hempty : Word []) (hapart : ∀ word, Word word → Apart radix word)
    (hfacts : ∀ digits word, Digits radix digits → Word word → more (digits ++ word) =
      Flags.union { containsSeparator := digits.contains '_' } (facts word)) :
    ∃ found tail, Reads (DigitsThen radix Word) more text
      (withDigits radix required text next) found tail := by
  obtain ⟨c, rest, rfl, hc⟩ := Text.exists_cons_of_head?_any hdigit
  obtain ⟨digits, after, rfl, hlater⟩ := digits_runs radix rest
  have hunderscore := ne_underscore hc
  have hrun : Number.digits radix false (c :: (digits ++ after)) =
      (Number.digits radix true (digits ++ after)).after false := by
    rw [Number.digits, if_neg hunderscore, if_pos hc]
  have hruns : Runs radix (Number.digits radix false (c :: (digits ++ after))) (c :: digits)
      after := by
    rw [hrun]
    exact hlater.cons (.digit hc hlater.digits) (beq_eq_false_iff_ne.mpr (Ne.symm hunderscore))
  have hdigits : Digits radix (c :: digits) := .intro hc hlater.digits
  have htext : c :: (digits ++ after) = (c :: digits) ++ after := rfl
  rw [withDigits]
  cases hmisplaced : (Number.digits radix false (c :: (digits ++ after))).misplaced with
  | some before =>
    obtain ⟨tail, rfl⟩ :=
      List.head?_eq_some_iff.mp (hruns.misplaced.mp (by rw [hmisplaced]; rfl))
    refine ⟨c :: digits, '_' :: tail, ?_⟩
    rw [htext]
    refine .of_fault ?_ (fun word hword hpart => ?_) rfl (isOk_after _ _ _ _)
    · rw [← List.append_nil (c :: digits)]
      exact .intro hdigits hempty
    · have happart := hapart word (hword.word hdigits hruns.stops hpart hapart)
      cases word with
      | nil => rfl
      | cons d word => exact absurd (List.cons_prefix_cons.mp hpart).1 (happart d rfl).2
  | none =>
    obtain ⟨found, tail, hreads⟩ := hnext after
    refine ⟨(c :: digits) ++ found, tail, ?_⟩
    have hwidth : ¬(required && (c :: digits).length = 0) = true := by simp
    simp only [hruns.placed hmisplaced]
    rw [if_neg hwidth, htext, List.drop_left]
    exact hreads.after (.intro hdigits hreads.longest.word)
      (fun word hword hpart => .inr (hword.word hdigits hruns.stops hpart hapart))
      (hfacts _ _ hdigits hreads.longest.word) (kindOf_digits hdigits found)

theorem digits_of_head (hdigit : ¬text.head?.any (isDigit radix) = true) :
    digits radix false text =
      if text.head? = some '_' then ⟨0, false, some 0⟩ else ⟨0, false, none⟩ := by
  cases text with
  | nil => rfl
  | cons c rest =>
    rw [digits, if_neg (show ¬isDigit radix c = true from hdigit)]
    simp

theorem withDigits_underscore (required : Bool) (hunderscore : text.head? = some '_') :
    (withDigits radix required text next).result.isOk = false := by
  have hdigit : ¬text.head?.any (isDigit radix) = true := by
    rw [hunderscore]
    exact Bool.false_ne_true
  rw [withDigits, digits_of_head hdigit, if_pos hunderscore]
  rfl

/-- Where no digits come first, but are required, nothing is read. -/
theorem withDigits_required (hdigit : ¬text.head?.any (isDigit radix) = true) :
    (withDigits radix true text next).result.isOk = false := by
  by_cases hunderscore : text.head? = some '_'
  · exact withDigits_underscore true hunderscore
  · rw [withDigits, digits_of_head hdigit, if_neg hunderscore]
    rfl

/-- Where no digits come first and none are required, the rest is read. -/
theorem withDigits_optional (hdigit : ¬text.head?.any (isDigit radix) = true)
    (hunderscore : text.head? ≠ some '_') :
    withDigits radix false text next = next text := by
  rw [withDigits, digits_of_head hdigit, if_neg hunderscore]
  exact (next text).after_zero

end WithDigits

/-- What `suffix` reads: the `n` of a big integer, or nothing. -/
inductive Suffix (integer : Bool) : List Char → Prop where
  | none : Suffix integer []
  | bigInt (hinteger : integer = true) : Suffix integer ['n']

theorem Suffix.apart {integer : Bool} {word : List Char} (hword : Suffix integer word)
    (radix : Radix) : Apart radix word := by
  intro c hhead
  cases hword with
  | none => cases hhead
  | bigInt hinteger =>
    cases hhead
    exact ⟨rfl, by decide⟩

theorem suffix_reads {facts : List Char → Flags} (hnone : facts [] = {}) (hbig : facts ['n'] = {})
    (integer : Bool) (text : List Char) :
    ∃ found rest, Reads (Suffix integer) facts text (suffix integer text) found rest := by
  fun_cases suffix integer text with
  | case1 hsuffix =>
    obtain ⟨hinteger, hhead⟩ := Bool.and_eq_true_iff.mp hsuffix
    obtain ⟨rest, rfl⟩ := List.head?_eq_some_iff.mp (of_decide_eq_true hhead)
    refine ⟨['n'], rest, .of_finish ⟨rfl, .bigInt hinteger, fun other hother _ => ?_⟩ hbig⟩
    cases hother with
    | none => exact Nat.zero_le _
    | bigInt => exact Nat.le_refl _
  | case2 hsuffix =>
    rw [← Lexeme.after_zero (finish .numericLiteral text)]
    refine ⟨[], text, .of_finish ⟨rfl, .none, fun other hother hpart => ?_⟩ hnone⟩
    cases hother with
    | none => exact Nat.le_refl _
    | bigInt hinteger =>
      obtain ⟨rest, rfl⟩ := hpart
      rw [hinteger] at hsuffix
      exact absurd rfl hsuffix

/-- What `exponent` reads. -/
inductive Ending (integer : Bool) : List Char → Prop where
  | bigInt (hinteger : integer = true) : Ending integer ['n']
  | exponent {exponent : List Char} (hexponent : Exponent exponent) : Ending integer exponent

/-- What is marked about a part of a decimal number. -/
def decimalFlags (text : List Char) : Flags where
  scientific := text.any isExponentMark
  containsSeparator := text.contains '_'

theorem decimalFlags_append (left right : List Char) :
    decimalFlags (left ++ right) = (decimalFlags left).union (decimalFlags right) := by
  simp [decimalFlags, Flags.union]

theorem eq_of_isExponentMark {c : Char} (hc : isExponentMark c = true) : c = 'e' ∨ c = 'E' := by
  simpa [isExponentMark] using hc

theorem eq_of_isSign {c : Char} (hc : isSign c = true) : c = '+' ∨ c = '-' := by
  simpa [isSign] using hc

theorem isExponentMark_digit {c : Char} (hc : isExponentMark c = true) :
    isDigit .decimal c = false ∧ c ≠ '_' := by
  rcases eq_of_isExponentMark hc with rfl | rfl <;> decide

theorem decimalFlags_digits {digits : List Char} (hdigits : Digits .decimal digits)
    (word : List Char) : decimalFlags (digits ++ word) =
      Flags.union { containsSeparator := digits.contains '_' } (decimalFlags word) := by
  have hmark : digits.any isExponentMark = false := by
    rw [List.any_eq_false]
    intro c hmem hc
    obtain ⟨hdigit, hunderscore⟩ := isExponentMark_digit hc
    rcases hdigits.mem hmem with hsame | hsame
    · exact hunderscore hsame
    · cases hdigit.symm.trans hsame
  rw [decimalFlags_append, decimalFlags, hmark]

theorem Exponent.head {exponent : List Char} (hexponent : Exponent exponent) {c : Char}
    (hhead : exponent.head? = some c) : isExponentMark c = true := by
  cases hexponent with
  | none => cases hhead
  | unsigned hmark => rwa [← Option.some.inj hhead]
  | signed hmark => rwa [← Option.some.inj hhead]

theorem Exponent.apart {exponent : List Char} (hexponent : Exponent exponent) :
    Apart .decimal exponent := fun _ hhead => isExponentMark_digit (hexponent.head hhead)

/-- A word of digits stands only where a digit does. -/
theorem Digits.digit_ahead {radix : Radix} {digits text : List Char}
    (hdigits : Digits radix digits) (hpart : digits <+: text) :
    text.head?.any (isDigit radix) = true := by
  obtain ⟨rest, rfl⟩ := hpart
  cases hdigits with
  | intro hc hmore => exact hc

theorem DigitsThen.digit_ahead {radix : Radix} {Word : List Char → Prop} {word text : List Char}
    (hthen : DigitsThen radix Word word) (hpart : word <+: text) :
    text.head?.any (isDigit radix) = true := by
  cases hthen with
  | intro hdigits hword =>
    exact hdigits.digit_ahead ((List.prefix_append _ _).trans hpart)

/-- The exponent after its mark and sign. Without digits it is none. -/
theorem marked_reads {integer : Bool} {text : List Char} (lead : List Char)
    (hmark : decimalFlags lead = { scientific := true }) (hlast : 'n' ∉ lead)
    (hblocked : blocked (lead ++ text) = true)
    (hword : ∀ digits, Digits .decimal digits → Exponent (lead ++ digits))
    (hothers : ∀ other, Ending integer other → other <+: lead ++ text →
      other = [] ∨ ∃ digits, other = lead ++ digits ∧ Digits .decimal digits) :
    ∃ found rest, Reads (Ending integer) decimalFlags (lead ++ text)
      ((withDigits .decimal true text (suffix false)).after lead.length []
        { scientific := true }) found rest := by
  have hne : lead ≠ [] := by
    rintro rfl
    cases hmark
  by_cases hdigit : text.head?.any (isDigit .decimal) = true
  · have hnext : ∀ rest, ∃ found tail,
        Reads (Suffix false) decimalFlags rest (suffix false rest) found tail :=
      suffix_reads rfl rfl false
    obtain ⟨found, rest, hreads⟩ := withDigits_reads hdigit true hnext .none
      (fun word hword => hword.apart _) fun digits word hdigits _ =>
        decimalFlags_digits hdigits word
    refine ⟨lead ++ found, rest, hreads.after ?_ (fun word hending hpart => ?_) ?_
      (kindOf_append hlast found)⟩
    · cases hreads.longest.word with
      | intro hdigits hnone =>
        cases hnone with
        | none =>
          rw [List.append_nil]
          exact .exponent (hword _ hdigits)
        | bigInt hinteger => cases hinteger
    · rcases hothers _ hending ((List.prefix_append_right_inj lead).mpr hpart) with
        hnil | ⟨digits, hsame, hdigits⟩
      · exact absurd (List.append_eq_nil_iff.mp hnil).1 hne
      · rw [List.append_cancel_left hsame, ← List.append_nil digits]
        exact .inr (.intro hdigits .none)
    · rw [decimalFlags_append, hmark]
  · refine ⟨[], lead ++ text, .of_fault (Ending.exponent .none)
      (fun word hending hpart => ?_) hblocked ?_⟩
    · rcases hothers word hending hpart with hnil | ⟨digits, rfl, hdigits⟩
      · exact hnil
      · exact absurd (hdigits.digit_ahead ((List.prefix_append_right_inj lead).mp hpart)) hdigit
    · rw [isOk_after]
      exact withDigits_required hdigit

/-- What an ending is where a mark of an exponent comes first. -/
theorem Ending.after_mark {integer : Bool} {mark : Char} {word rest : List Char}
    (hword : Ending integer word) (hmark : isExponentMark mark = true)
    (hpart : word <+: mark :: rest) :
    word = [] ∨
      (∃ digits, word = mark :: digits ∧ Digits .decimal digits ∧ digits <+: rest) ∨
      ∃ sign digits, word = mark :: sign :: digits ∧ isSign sign = true ∧
        Digits .decimal digits ∧ sign :: digits <+: rest := by
  cases hword with
  | bigInt =>
    obtain ⟨rfl, -⟩ := List.cons_prefix_cons.mp hpart
    cases hmark
  | exponent hexponent =>
    cases hexponent with
    | none => exact .inl rfl
    | unsigned hother hdigits =>
      obtain ⟨rfl, hrest⟩ := List.cons_prefix_cons.mp hpart
      exact .inr (.inl ⟨_, rfl, hdigits, hrest⟩)
    | signed hother hsign hdigits =>
      obtain ⟨rfl, hrest⟩ := List.cons_prefix_cons.mp hpart
      exact .inr (.inr ⟨_, _, rfl, hsign, hdigits, hrest⟩)

theorem exponent_reads (integer : Bool) (text : List Char) :
    ∃ found rest, Reads (Ending integer) decimalFlags text (exponent integer text) found rest := by
  fun_cases exponent integer text with
  | case1 hmark width =>
    obtain ⟨mark, rest, rfl, hmark⟩ := Text.exists_cons_of_head?_any hmark
    have hletter := eq_of_isExponentMark hmark
    have hblocked (text : List Char) : blocked (mark :: text) = true := by
      rcases hletter with rfl | rfl <;> rfl
    by_cases hsign : rest.head?.any isSign = true
    · have hwidth : width = 2 := if_pos hsign
      obtain ⟨sign, tail, rfl, hsign⟩ := Text.exists_cons_of_head?_any hsign
      have hsigns := eq_of_isSign hsign
      rw [hwidth]
      refine marked_reads [mark, sign] ?_ ?_ (hblocked _)
        (fun digits hdigits => .signed hmark hsign hdigits) fun other hother hpart => ?_
      · rcases hletter with rfl | rfl <;> rcases hsigns with rfl | rfl <;> rfl
      · rcases hletter with rfl | rfl <;> rcases hsigns with rfl | rfl <;> decide
      · rcases hother.after_mark hmark hpart with
          hnil | ⟨digits, -, hdigits, hrest⟩ | ⟨other, digits, rfl, -, hdigits, hrest⟩
        · exact .inl hnil
        · have hdigit := hdigits.digit_ahead hrest
          rcases hsigns with rfl | rfl <;> cases hdigit
        · obtain ⟨rfl, -⟩ := List.cons_prefix_cons.mp hrest
          exact .inr ⟨digits, rfl, hdigits⟩
    · have hwidth : width = 1 := if_neg hsign
      rw [hwidth]
      refine marked_reads [mark] ?_ ?_ (hblocked _)
        (fun digits hdigits => .unsigned hmark hdigits) fun other hother hpart => ?_
      · rcases hletter with rfl | rfl <;> rfl
      · rcases hletter with rfl | rfl <;> decide
      · rcases hother.after_mark hmark hpart with
          hnil | ⟨digits, rfl, hdigits, -⟩ | ⟨other, digits, -, hother, -, hrest⟩
        · exact .inl hnil
        · exact .inr ⟨digits, rfl, hdigits⟩
        · obtain ⟨tail, rfl⟩ := hrest
          exact absurd hother hsign
  | case2 hmark =>
    have hsuffix : ∃ found rest,
        Reads (Suffix integer) decimalFlags text (suffix integer text) found rest :=
      suffix_reads rfl rfl integer text
    obtain ⟨found, rest, hreads⟩ := hsuffix
    refine ⟨found, rest, hreads.congr ?_ (fun other hother hpart => ?_) rfl⟩
    · cases hreads.longest.word with
      | none => exact .exponent .none
      | bigInt hinteger => exact .bigInt hinteger
    · obtain ⟨tail, rfl⟩ := hpart
      cases hother with
      | bigInt hinteger => exact .inr (.bigInt hinteger)
      | exponent hexponent =>
        cases hexponent with
        | none => exact .inl rfl
        | unsigned hc | signed hc => exact absurd hc hmark

theorem Ending.apart {integer : Bool} {word : List Char} (hword : Ending integer word) :
    Apart .decimal word := by
  cases hword with
  | bigInt hinteger => exact (Suffix.bigInt hinteger).apart _
  | exponent hexponent => exact hexponent.apart

theorem Ending.exponent_of_false {word : List Char} (hword : Ending false word) :
    Exponent word := by
  cases hword with
  | bigInt hinteger => cases hinteger
  | exponent hexponent => exact hexponent

/-- What may follow a decimal point. -/
theorem AfterInteger.after_point {word : List Char} (hafter : AfterInteger ('.' :: word)) :
    Exponent word ∨ DigitsThen .decimal (Ending false) word := by
  generalize htext : '.' :: word = text at hafter
  cases hafter with
  | bigInt => cases htext
  | integer hexponent =>
    subst htext
    cases hexponent.head rfl
  | point hexponent =>
    cases htext
    exact .inl hexponent
  | fraction hdigits hexponent =>
    cases htext
    exact .inr (.intro hdigits (.exponent hexponent))

/-- A word that is apart from digits is empty where a digit stands. -/
theorem Apart.eq_nil {radix : Radix} {word text : List Char} (hapart : Apart radix word)
    (hpart : word <+: text)
    (htext : text.head?.any (isDigit radix) = true ∨ text.head? = some '_') : word = [] := by
  obtain ⟨rest, rfl⟩ := hpart
  cases word with
  | nil => rfl
  | cons c word =>
    obtain ⟨hdigit, hunderscore⟩ := hapart c rfl
    rcases htext with hc | hc
    · cases hdigit.symm.trans hc
    · exact absurd (Option.some.inj hc) hunderscore

/-- A decimal point, with digits or without, and an exponent. -/
theorem point_reads (text : List Char) :
    ∃ found rest, Reads AfterInteger decimalFlags ('.' :: text)
      ((withDigits .decimal false text (exponent false)).after 1 [] {}) found rest := by
  have hflags (word : List Char) :
      decimalFlags (['.'] ++ word) = Flags.union {} (decimalFlags word) :=
    decimalFlags_append ['.'] word
  have hkind (word : List Char) : kindOf (['.'] ++ word) = kindOf word :=
    kindOf_append (by decide) word
  by_cases hdigit : text.head?.any (isDigit .decimal) = true
  · obtain ⟨found, rest, hreads⟩ := withDigits_reads hdigit false (exponent_reads false)
      (.exponent .none) (fun word hword => hword.apart) fun digits word hdigits _ =>
        decimalFlags_digits hdigits word
    refine ⟨['.'] ++ found, rest, hreads.after ?_ (fun word hafter hpart => ?_)
      (hflags found) (hkind found)⟩
    · cases hreads.longest.word with
      | intro hdigits hending =>
        rw [List.singleton_append]
        exact .fraction hdigits hending.exponent_of_false
    · rcases hafter.after_point with hexponent | hthen
      · exact .inl (hexponent.apart.eq_nil hpart (.inl hdigit))
      · exact .inr hthen
  · by_cases hunderscore : text.head? = some '_'
    · have hblocked : blocked text = true := by
        obtain ⟨tail, rfl⟩ := List.head?_eq_some_iff.mp hunderscore
        rfl
      refine ⟨['.'], text, .of_fault (AfterInteger.point .none) (fun word hafter hpart => ?_)
        hblocked ?_⟩
      · rcases hafter.after_point with hexponent | hthen
        · exact hexponent.apart.eq_nil hpart (.inr hunderscore)
        · exact absurd (hthen.digit_ahead hpart) hdigit
      · rw [isOk_after]
        exact withDigits_underscore false hunderscore
    · obtain ⟨found, rest, hreads⟩ := exponent_reads false text
      rw [withDigits_optional hdigit hunderscore]
      refine ⟨['.'] ++ found, rest, hreads.after (.point hreads.longest.word.exponent_of_false)
        (fun word hafter hpart => ?_) (hflags found) (hkind found)⟩
      rcases hafter.after_point with hexponent | hthen
      · exact .inr (.exponent hexponent)
      · exact absurd (hthen.digit_ahead hpart) hdigit

theorem afterInteger_reads (text : List Char) :
    ∃ found rest, Reads AfterInteger decimalFlags text (afterInteger text) found rest := by
  fun_cases afterInteger text with
  | case1 hpoint =>
    obtain ⟨rest, rfl⟩ := List.head?_eq_some_iff.mp hpoint
    exact point_reads rest
  | case2 hpoint =>
    obtain ⟨found, rest, hreads⟩ := exponent_reads true text
    refine ⟨found, rest, hreads.congr ?_ (fun other hother hpart => ?_) rfl⟩
    · cases hreads.longest.word with
      | bigInt => exact .bigInt
      | exponent hexponent => exact .integer hexponent
    · obtain ⟨tail, rfl⟩ := hpart
      cases hother with
      | bigInt => exact .inr (.bigInt rfl)
      | integer hexponent => exact .inr (.exponent hexponent)
      | point | fraction => exact absurd rfl hpoint

end Number

end EcmaLexer
