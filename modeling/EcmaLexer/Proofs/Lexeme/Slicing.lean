import EcmaLexer.Proofs.Lexeme.Fits
import EcmaLexer.Proofs.Template.Slicing

namespace EcmaLexer

namespace Number

open Text (Narrow dropBytes? slice? stepBack?)

theorem toNat_lt_of_isDigit (c : Char) (hdigit : c.isDigit = true) : c.toNat < 0x80 := by
  simp only [Char.isDigit, Bool.and_eq_true, decide_eq_true_eq] at hdigit
  exact Nat.lt_of_le_of_lt hdigit.2 (by decide)

/-- The end of a run of digits at an offset. An underscore that no digit follows is one byte
    back. -/
def endRun? (offset : Nat) (afterSeparator separated : Bool) : Option DigitRun :=
  if afterSeparator then do
    let underscore ← stepBack? offset
    some ⟨offset, separated, some underscore⟩
  else some ⟨offset, separated, none⟩

/-- Reads on in a run of digits, at an offset. The offset where the run ends stands for its width,
    and a misplaced underscore is told by its offset too. -/
def digitLoop? (radix : Radix) (offset : Nat) (started afterSeparator separated : Bool) :
    List Char → Option DigitRun
  | [] => endRun? offset afterSeparator separated
  | c :: rest =>
    if c = '_' then
      if !started || afterSeparator then some ⟨offset, separated, some offset⟩
      else digitLoop? radix (offset + 1) started true true rest
    else if isDigit radix c then digitLoop? radix (offset + 1) true false separated rest
    else endRun? offset afterSeparator separated

/-- A run of digits at an offset, after what was read of it before. -/
def DigitRun.located (offset : Nat) (separated : Bool) (run : DigitRun) : DigitRun where
  width := offset + run.width
  separated := separated || run.separated
  misplaced := run.misplaced.map (offset + ·)

theorem DigitRun.located_after (offset : Nat) (separated separator : Bool) (run : DigitRun) :
    (run.after separator).located offset separated =
      run.located (offset + 1) (separated || separator) := by
  simp only [located, after, Option.map_map, DigitRun.mk.injEq, Bool.or_assoc, true_and]
  refine ⟨by omega, ?_⟩
  congr 1
  funext before
  simp only [Function.comp_apply]
  omega

/-- A run of digits goes on after an underscore as without it if a digit comes next. -/
theorem digitLoop?_digit {radix : Radix} {text : List Char} (hdouble : text.head? ≠ some '_')
    (hdigit : text.head?.any (isDigit radix) = true) (offset : Nat) (started separated : Bool) :
    digitLoop? radix offset started true separated text =
      digitLoop? radix offset started false separated text := by
  obtain ⟨c, rest, rfl, hc⟩ := Text.exists_cons_of_head?_any hdigit
  have hunderscore : c ≠ '_' := fun heq => hdouble (congrArg some heq)
  rw [digitLoop?, if_neg hunderscore, if_pos hc, digitLoop?, if_neg hunderscore, if_pos hc]

theorem digitLoop?_end {radix : Radix} {text : List Char} (hdouble : text.head? ≠ some '_')
    (hdigit : ¬text.head?.any (isDigit radix) = true) (offset : Nat)
    (started afterSeparator separated : Bool) :
    digitLoop? radix offset started afterSeparator separated text =
      endRun? offset afterSeparator separated := by
  cases text with
  | nil => rw [digitLoop?]
  | cons c rest =>
    have hunderscore : c ≠ '_' := fun heq => hdouble (congrArg some heq)
    have hother : ¬isDigit radix c = true := hdigit
    rw [digitLoop?, if_neg hunderscore, if_neg hother]

theorem digitLoop?_eq (radix : Radix) (offset : Nat) (started separated : Bool)
    (text : List Char) :
    digitLoop? radix offset started false separated text =
      some ((digits radix started text).located offset separated) := by
  have hunderscore {started : Bool} (hstarted : ¬(!started) = true) (offset : Nat)
      (separated : Bool) (rest : List Char) :
      digitLoop? radix offset started false separated ('_' :: rest) =
        digitLoop? radix (offset + 1) started true true rest := by
    rw [digitLoop?, if_pos rfl, if_neg (by rwa [Bool.or_false])]
  fun_induction digits radix started text generalizing offset separated with
  | case1 started =>
    rw [digitLoop?, endRun?, DigitRun.located, Bool.or_false]
    rfl
  | case2 started rest hstarted =>
    rw [digitLoop?, if_pos rfl, if_pos (by rw [hstarted, Bool.true_or]), DigitRun.located,
      Bool.or_false]
    rfl
  | case3 started rest hstarted hdouble =>
    obtain ⟨tail, rfl⟩ := List.head?_eq_some_iff.mp hdouble
    rw [hunderscore hstarted, digitLoop?, if_pos rfl, if_pos (Bool.or_true _), DigitRun.located,
      Bool.or_true]
    rfl
  | case4 started rest hstarted hdouble hdigit ih =>
    have htrue : started = true := by simpa using hstarted
    subst htrue
    rw [hunderscore hstarted, digitLoop?_digit hdouble hdigit, ih, DigitRun.located_after,
      Bool.or_true]
  | case5 started rest hstarted hdouble hdigit =>
    -- The offset has just been moved over the underscore, so there is one to step back to.
    rw [hunderscore hstarted, digitLoop?_end hdouble hdigit, DigitRun.located, Bool.or_true]
    rfl
  | case6 started c rest hother hdigit ih =>
    rw [digitLoop?, if_neg hother, if_pos hdigit, ih, DigitRun.located_after, Bool.or_false]
  | case7 started c rest hother hdigit =>
    rw [digitLoop?, if_neg hother, if_neg hdigit, endRun?, DigitRun.located, Bool.or_false]
    rfl

/-- Reads a run of digits at an offset, and then the rest of the number. -/
def withDigits? (radix : Radix) (required : Bool) (offset : Nat) (text : List Char)
    (next? : Nat → List Char → Option Lexeme) : Option Lexeme := do
  let run ← digitLoop? radix offset false false false text
  let width := run.width - offset
  let flags : Flags := { containsSeparator := run.separated }
  match run.misplaced with
  | some place =>
    some ((Lexeme.reject .invalidNumericSeparator width (place - offset)).after 0 [] flags)
  | none =>
    if required && width = 0 then some (.reject (.missingDigits radix) 0 0)
    else (next? run.width (text.drop width)).map (·.after width [] flags)

theorem withDigits?_eq {next? : Nat → List Char → Option Lexeme} {next : List Char → Lexeme}
    (hnext : ∀ offset rest, next? offset rest = some (next rest)) (radix : Radix)
    (required : Bool) (offset : Nat) (text : List Char) :
    withDigits? radix required offset text next? = some (withDigits radix required text next) := by
  rw [withDigits?, digitLoop?_eq]
  simp only [Option.bind_eq_bind, Option.bind_some, DigitRun.located, Nat.add_sub_cancel_left,
    Bool.false_or, hnext, Option.map_some]
  unfold withDigits
  simp only
  cases (digits radix false text).misplaced with
  | some before =>
    simp only [Option.map_some, Nat.add_sub_cancel_left]
  | none =>
    simp only [Option.map_none]
    split <;> rfl

/-- Reads an optional exponent at an offset, and then the end of the number. -/
def exponent? (integer : Bool) (offset : Nat) (text : List Char) : Option Lexeme :=
  if text.head?.any isExponentMark then
    let width := if (text.drop 1).head?.any isSign then 2 else 1
    (withDigits? .decimal true (offset + width) (text.drop width)
      fun _ rest => some (suffix false rest)).map (·.after width [] { scientific := true })
  else some (suffix integer text)

theorem exponent?_eq (integer : Bool) (offset : Nat) (text : List Char) :
    exponent? integer offset text = some (exponent integer text) := by
  unfold exponent? exponent
  simp only [withDigits?_eq fun _ rest => rfl, Option.map_some]
  split <;> rfl

def afterInteger? (offset : Nat) (text : List Char) : Option Lexeme :=
  if text.head? = some '.' then
    (withDigits? .decimal false (offset + 1) (text.drop 1) (exponent? false)).map (·.after 1 [] {})
  else exponent? true offset text

theorem afterInteger?_eq (offset : Nat) (text : List Char) :
    afterInteger? offset text = some (afterInteger text) := by
  unfold afterInteger? afterInteger
  simp only [withDigits?_eq (exponent?_eq false), exponent?_eq, Option.map_some]
  split <;> rfl

def prefixed? (radix : Radix) (flags : Flags) (offset : Nat) (text : List Char) : Option Lexeme :=
  (withDigits? radix true (offset + 1) (text.drop 1)
    fun _ rest => some (suffix true rest)).map (·.after 2 [] flags)

theorem prefixed?_eq (radix : Radix) (flags : Flags) (offset : Nat) (text : List Char) :
    prefixed? radix flags offset text = some (prefixed radix flags text) := by
  rw [prefixed?, withDigits?_eq fun _ rest => rfl, Option.map_some, prefixed]

/-- Reads a number of several digits that begins with zero. Its digits, which begin at the offset,
    are sliced out of the source to look at them once more. -/
def legacy? (strict : Bool) (source : List Char) (offset : Nat) (text : List Char) :
    Option Lexeme :=
  if strict then some (.reject .legacyOctalLiteral 1 0)
  else do
    let width := (text.takeWhile Char.isDigit).length
    let run ← slice? source offset (offset + width)
    if run.all Character.isOctalDigit then
      some ((finish .numericLiteral (text.drop width)).after (1 + width) [] { octal := true })
    else (afterInteger? (offset + width) (text.drop width)).map (·.after (1 + width) [] {})

theorem legacy?_eq {source text : List Char} {offset : Nat}
    (hdrop : dropBytes? offset source = some text) (strict : Bool) :
    legacy? strict source offset text = some (legacy strict text) := by
  have hrun : slice? source offset (offset + (text.takeWhile Char.isDigit).length) =
      some (text.takeWhile Char.isDigit) := by
    rw [(Narrow.length_takeWhile toNat_lt_of_isDigit text).slice?_eq hdrop,
      Escape.take_length_takeWhile]
  unfold legacy? legacy
  simp only [hrun, Option.bind_eq_bind, Option.bind_some, afterInteger?_eq, Option.map_some]
  split
  · rfl
  · split <;> rfl

/-- Reads a number that begins with zero; the text after the zero begins at the offset. -/
def leadingZero? (strict : Bool) (source : List Char) (offset : Nat) (text : List Char) :
    Option Lexeme :=
  match text.head?.bind DigitClass.ofChar? with
  | some .binary => prefixed? .binary { binarySpecifier := true } offset text
  | some .octal => prefixed? .octal { octalSpecifier := true } offset text
  | some .hex => prefixed? .hex { hexSpecifier := true } offset text
  | some .underscore => some (.reject .invalidNumericSeparator 1 1)
  | some .digit => legacy? strict source offset text
  | some .other | none => (afterInteger? offset text).map (·.after 1 [] {})

theorem leadingZero?_eq {source text : List Char} {offset : Nat}
    (hdrop : dropBytes? offset source = some text) (strict : Bool) :
    leadingZero? strict source offset text = some (leadingZero strict text) := by
  unfold leadingZero? leadingZero
  simp only [prefixed?_eq, legacy?_eq hdrop, afterInteger?_eq, Option.map_some]
  cases text.head?.bind DigitClass.ofChar? with
  | none => rfl
  | some found => cases found <;> rfl

def shape? (strict : Bool) (source : List Char) (offset : Nat) (text : List Char) :
    Option Lexeme :=
  match text with
  | '0' :: rest => leadingZero? strict source (offset + 1) rest
  | '.' :: _ => afterInteger? offset text
  | _ => withDigits? .decimal false offset text afterInteger?

theorem shape?_eq {source text : List Char} {offset : Nat}
    (hdrop : dropBytes? offset source = some text) (strict : Bool) :
    shape? strict source offset text = some (shape strict text) := by
  fun_cases shape? strict source offset text with
  | case1 rest =>
    exact leadingZero?_eq (Text.dropBytes?_add (show _ = some (['0'] ++ rest) from hdrop)) strict
  | case2 rest => exact afterInteger?_eq offset ('.' :: rest)
  | case3 text hzero hpoint =>
    rw [shape.eq_3 _ _ hzero hpoint]
    exact withDigits?_eq afterInteger?_eq .decimal false offset text

/-- Reads a number at an offset. Its value is sliced out of the source, one byte for each character
    that was consumed. -/
def read? (strict : Bool) (source : List Char) (offset : Nat) (text : List Char) :
    Option Lexeme := do
  let lexeme ← shape? strict source offset text
  match lexeme.result with
  | .ok _ =>
    let value ← slice? source offset (offset + lexeme.width)
    some { lexeme with value := some value }
  | .error _ => some { lexeme with value := some [] }

theorem toNat_lt_of_digit {radix : Radix} {c : Char} (hdigit : isDigit radix c = true) :
    c.toNat < 0x80 := by
  have hrange {first last : Char} (hc : (first ≤ c && c ≤ last) = true)
      (hlast : last.toNat < 0x80) : c.toNat < 0x80 := by
    simp only [Bool.and_eq_true, decide_eq_true_eq] at hc
    exact Nat.lt_of_le_of_lt hc.2 hlast
  unfold isDigit Character.hexValue? at hdigit
  split at hdigit
  · next hc => exact hrange hc (by decide)
  · split at hdigit
    · next hc => exact hrange hc (by decide)
    · split at hdigit
      · next hc => exact hrange hc (by decide)
      · cases hdigit

theorem digits_narrow (radix : Radix) (started : Bool) (text : List Char) :
    Narrow text (digits radix started text).width := by
  fun_induction digits radix started text with
  | case1 started => exact .zero []
  | case2 started rest hstarted => exact .zero _
  | case3 started rest hstarted hdouble => exact .cons (by decide) (.zero rest)
  | case4 started rest hstarted hdouble hdigit ih => exact .cons (by decide) ih
  | case5 started rest hstarted hdouble hdigit => exact .cons (by decide) (.zero rest)
  | case6 started c rest hunderscore hdigit ih => exact .cons (toNat_lt_of_digit hdigit) ih
  | case7 started c rest hunderscore hdigit => exact .zero _

theorem finish_narrow (token : Token) (text : List Char) :
    Narrow text (finish token text).width := by
  fun_cases finish token text <;> exact .zero _

theorem suffix_narrow (integer : Bool) (text : List Char) :
    Narrow text (suffix integer text).width := by
  fun_cases suffix integer text with
  | case1 hbig =>
    simp only [Bool.and_eq_true, decide_eq_true_eq] at hbig
    obtain ⟨rest, rfl⟩ := List.head?_eq_some_iff.mp hbig.2
    exact .add (.cons (by decide) (.zero rest)) (finish_narrow _ rest)
  | case2 => exact finish_narrow _ text

theorem withDigits_narrow {next : List Char → Lexeme}
    (hnext : ∀ rest, Narrow rest (next rest).width) (radix : Radix) (required : Bool)
    (text : List Char) : Narrow text (withDigits radix required text next).width := by
  have hrun := digits_narrow radix false text
  fun_cases withDigits radix required text next with
  | case1 run flags before hmisplaced => exact .add (.zero text) hrun
  | case2 run hmisplaced hmissing => exact .zero text
  | case3 run flags hmisplaced hmissing => exact hrun.add (hnext _)

theorem exponent_narrow (integer : Bool) (text : List Char) :
    Narrow text (exponent integer text).width := by
  fun_cases exponent integer text with
  | case1 hmark width =>
    obtain ⟨c, rest, rfl, hc⟩ := Text.exists_cons_of_head?_any hmark
    have hmark : Narrow (c :: rest) 1 := by
      simp only [isExponentMark, Bool.or_eq_true, beq_iff_eq] at hc
      rcases hc with rfl | rfl <;> exact .cons (by decide) (.zero rest)
    have hwidth : Narrow (c :: rest) width := by
      cases hsigned : rest.head?.any isSign with
      | false =>
        have hone : width = 1 := by simp [width, hsigned]
        rwa [hone]
      | true =>
        have htwo : width = 1 + 1 := by simp [width, hsigned]
        obtain ⟨sign, tail, rfl, hsign⟩ := Text.exists_cons_of_head?_any hsigned
        simp only [isSign, Bool.or_eq_true, beq_iff_eq] at hsign
        rw [htwo]
        rcases hsign with rfl | rfl <;> exact hmark.add (.cons (by decide) (.zero tail))
    exact hwidth.add (withDigits_narrow (suffix_narrow false) .decimal true _)
  | case2 => exact suffix_narrow integer text

theorem afterInteger_narrow (text : List Char) : Narrow text (afterInteger text).width := by
  fun_cases afterInteger text with
  | case1 hpoint =>
    obtain ⟨rest, rfl⟩ := List.head?_eq_some_iff.mp hpoint
    exact .add (.cons (by decide) (.zero rest))
      (withDigits_narrow (exponent_narrow false) .decimal false rest)
  | case2 => exact exponent_narrow true text

theorem legacy_narrow (strict : Bool) (text : List Char) :
    Narrow ('0' :: text) (legacy strict text).width := by
  have hrun : Narrow ('0' :: text) (1 + (text.takeWhile Char.isDigit).length) :=
    .add (.cons (by decide) (.zero text)) (.length_takeWhile toNat_lt_of_isDigit text)
  have hdrop : ('0' :: text).drop (1 + (text.takeWhile Char.isDigit).length) =
      text.drop (text.takeWhile Char.isDigit).length := by
    rw [Nat.add_comm, List.drop_succ_cons]
  fun_cases legacy strict text with
  | case1 => exact .cons (by decide) (.zero text)
  | case2 hstrict run rest hoctal => exact hrun.add (hdrop ▸ finish_narrow _ rest)
  | case3 hstrict run rest hoctal => exact hrun.add (hdrop ▸ afterInteger_narrow rest)

theorem leadingZero_narrow (strict : Bool) (text : List Char) :
    Narrow ('0' :: text) (leadingZero strict text).width := by
  have hzero {width : Nat} (hrest : Narrow text width) : Narrow ('0' :: text) (1 + width) :=
    .add (.cons (by decide) (.zero text)) hrest
  have hprefixed {found : DigitClass} (hclass : text.head?.bind DigitClass.ofChar? = some found)
      (radix : Radix) (flags : Flags) : Narrow ('0' :: text) (prefixed radix flags text).width := by
    obtain ⟨c, hhead, hc⟩ := Option.bind_eq_some_iff.mp hclass
    obtain ⟨rest, rfl⟩ := List.head?_eq_some_iff.mp hhead
    have hascii : c.toNat < 0x80 := by
      unfold DigitClass.ofChar? at hc
      split at hc
      · next hlt => exact hlt
      · cases hc
    have hopening : Narrow ('0' :: c :: rest) 2 := .cons (by decide) (.cons hascii (.zero rest))
    exact hopening.add (withDigits_narrow (suffix_narrow true) radix true rest)
  fun_cases leadingZero strict text with
  | case1 hclass => exact hprefixed hclass _ _
  | case2 hclass => exact hprefixed hclass _ _
  | case3 hclass => exact hprefixed hclass _ _
  | case4 hclass => exact hzero (.zero text)
  | case5 hclass => exact legacy_narrow strict text
  | case6 hclass => exact hzero (afterInteger_narrow text)
  | case7 hclass => exact hzero (afterInteger_narrow text)

theorem shape_narrow (strict : Bool) (text : List Char) :
    Narrow text (shape strict text).width := by
  fun_cases shape strict text with
  | case1 rest => exact leadingZero_narrow strict rest
  | case2 rest => exact afterInteger_narrow ('.' :: rest)
  | case3 => exact withDigits_narrow afterInteger_narrow .decimal false text

/-- A number that stands between two characters is sliced out there: it has only narrow ones. -/
theorem read?_eq {source text : List Char} {offset : Nat}
    (hdrop : dropBytes? offset source = some text) (strict : Bool) :
    read? strict source offset text = some (read strict text) := by
  have hvalue := (shape_narrow strict text).slice?_eq hdrop
  rw [read?, shape?_eq hdrop, read]
  simp only [Option.bind_eq_bind, Option.bind_some, hvalue]
  cases (shape strict text).result with
  | ok token => rfl
  | error misread => rfl

end Number

namespace Lexeme

/-- Reads the token at a mark, where `c` and then `rest` stand. Only numbers and templates slice the
    source. -/
def read? (context : Context) (source : List Char) (mark : Text.Mark) (c : Char)
    (rest : List Char) : Option Lexeme :=
  match StartClass.ofChar? c with
  | some .backtick =>
    (Template.segment? context source (mark.advance 1) rest).map (·.after 1 [] {})
  | some .zero | some .digit => Number.read? context.strict source mark.offset (c :: rest)
  | some (.punctuator first) =>
    if first = .period && rest.head?.any Char.isDigit then
      Number.read? context.strict source mark.offset (c :: rest)
    else some (ofPunctuator first (c :: rest))
  | _ => some (read context c rest)

theorem read?_eq {source rest : List Char} {mark : Text.Mark} {c : Char}
    (hdrop : Text.dropBytes? mark.offset source = some (c :: rest)) (context : Context) :
    read? context source mark c rest = some (read context c rest) := by
  have hnumber := Number.read?_eq hdrop context.strict
  fun_cases read? context source mark c rest with
  | case1 hclass =>
    obtain rfl := eq_backtick_of_class hclass
    have hnext : Text.dropBytes? (mark.advance 1).offset source = some rest :=
      Text.dropBytes?_add (show _ = some (['\x60'] ++ rest) from hdrop)
    rw [Template.segment?_eq context hnext]
    rfl
  | case2 hclass => rw [hnumber, read, hclass]
  | case3 hclass => rw [hnumber, read, hclass]
  | case4 first hclass hpoint => simp only [hnumber, read, hclass, if_pos hpoint]
  | case5 first hclass hpoint => simp only [read, hclass, if_neg hpoint]
  | case6 => rfl

end Lexeme

end EcmaLexer
