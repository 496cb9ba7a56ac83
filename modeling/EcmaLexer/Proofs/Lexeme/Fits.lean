import EcmaLexer.Proofs.Lexeme.Inline
import EcmaLexer.Proofs.Template.Cooking

namespace EcmaLexer

open Text (CleanCut isLineTerminator isLineTerminator_eq_false)

/-- A reading that fits into its text: what it consumes is there, does not end inside
    of a line terminator, and ends with the closing delimiter of its token; a fault
    is found on the line where the reading stops. -/
structure Lexeme.Fits (text : List Char) (lexeme : Lexeme) : Prop where
  width_le : lexeme.width ≤ text.length
  clean : CleanCut (text.take lexeme.width) (text.drop lexeme.width)
  closed : ∀ token, lexeme.result = .ok token → Template.closer token <:+ text.take lexeme.width
  fault : ∀ misread, lexeme.result = .error misread →
    misread.before ≤ lexeme.width ∧
      ∀ c ∈ (text.take lexeme.width).drop misread.before, isLineTerminator c = false

namespace Lexeme.Fits

theorem of_inline {text : List Char} {lexeme : Lexeme} (hinline : Inline text lexeme) :
    Fits text lexeme where
  width_le := hinline.width_le
  clean := .of_unbroken hinline.unbroken
  closed := by
    intro token hresult
    have hcloser : Template.closer token = [] := by
      have htoken := hinline.token token hresult
      cases token <;> first | rfl | cases htoken
    rw [hcloser]
    exact List.nil_suffix
  fault := by
    intro misread hresult
    refine ⟨hinline.before_le misread hresult, fun c hmem => ?_⟩
    exact hinline.unbroken c (List.mem_of_mem_drop hmem)

/-- A reading fits if it fits into the text after a clean cut. -/
theorem after {text : List Char} {width : Nat} {lexeme : Lexeme}
    (hrest : Fits (text.drop width) lexeme)
    (hwidth : width ≤ text.length) (hcut : CleanCut (text.take width) (text.drop width))
    (value : List Char) (flags : Flags) : Fits text (lexeme.after width value flags) where
  width_le := by
    have hle := hrest.width_le
    rw [List.length_drop] at hle
    simp only [Lexeme.after]
    omega
  clean := by
    have hdrop : text.drop (width + lexeme.width) = (text.drop width).drop lexeme.width := by
      rw [List.drop_drop]
    rw [Lexeme.after, List.take_add, hdrop]
    refine .append_left (fun hnil => ?_) hrest.clean
    have hsplit := List.take_append_drop lexeme.width (text.drop width)
    rw [hnil, List.nil_append] at hsplit
    rw [hsplit]
    exact hcut
  closed := by
    intro token hresult
    rw [Lexeme.after, List.take_add]
    exact (hrest.closed token (result_of_after_ok hresult)).trans (List.suffix_append _ _)
  fault := by
    intro misread hresult
    obtain ⟨found, hfound, hbefore⟩ := result_of_after_error hresult
    obtain ⟨hle, hunbroken⟩ := hrest.fault found hfound
    have hlength : (text.take width).length = width := List.length_take_of_le hwidth
    have hdrop : (text.take (width + lexeme.width)).drop (width + found.before) =
        ((text.drop width).take lexeme.width).drop found.before := by
      rw [List.take_add, List.drop_append, hlength, Nat.add_sub_cancel_left,
        List.drop_eq_nil_of_le (by omega), List.nil_append]
    rw [hbefore, Lexeme.after, hdrop]
    exact ⟨Nat.add_le_add_left hle width, hunbroken⟩

theorem after_cons {c : Char} {rest : List Char} {lexeme : Lexeme} (hrest : Fits rest lexeme)
    (hc : c ≠ '\r')
    (value : List Char) (flags : Flags) : Fits (c :: rest) (lexeme.after 1 value flags) := by
  have hdrop : Fits ((c :: rest).drop 1) lexeme := hrest
  refine hdrop.after (Nat.le_add_left 1 _) (fun hlast => ?_) value flags
  exact absurd (Option.some.inj hlast) hc

end Lexeme.Fits

namespace StringLiteral

open Lexeme (Fits)

/-- A string literal may go over several lines, but ends none of them halfway. -/
theorem body_fits {quote : Char} (hquote : isLineTerminator quote = false) (strict : Bool)
    (text : List Char) :
    Fits text (body strict quote text) := by
  have htake (width : Nat) (rest : List Char) :
      ('\\' :: rest).take (1 + width) = '\\' :: rest.take width := by
    rw [Nat.add_comm, List.take_succ_cons]
  have hdrop (width : Nat) (rest : List Char) :
      ('\\' :: rest).drop (1 + width) = rest.drop width := by
    rw [Nat.add_comm, List.drop_succ_cons]
  fun_induction body strict quote text with
  | case1 => exact .of_inline (.reject_zero [] _)
  | case2 rest => exact .of_inline (.accept (by simp) (by simpa using hquote) rfl)
  | case3 => exact .of_inline (.reject (by simp) (by simp; decide) (Nat.le_refl 1) _)
  | case4 first tail escape value hresult hc ih =>
    have hdivides : Escape.Divides (first :: tail) escape :=
      Escape.read_divides .stringLiteral strict first tail
    have hrest : Fits (('\\' :: first :: tail).drop (1 + escape.width))
        (body strict quote ((first :: tail).drop escape.width)) := by
      rw [hdrop]
      exact ih
    refine hrest.after ?_ ?_ value {}
    · have hle := hdivides.width_le
      rw [List.length_cons]
      omega
    · rw [htake, hdrop]
      have hbackslash : CleanCut ['\\'] ((first :: tail).drop escape.width) :=
        .of_unbroken (by simp; decide)
      exact .append_left (fun _ => hbackslash) hdivides.clean
  | case5 first tail escape fault hresult hc =>
    have hdivides : Escape.Divides (first :: tail) escape :=
      Escape.read_divides .stringLiteral strict first tail
    refine .of_inline (.reject ?_ ?_ (Nat.zero_le _) _)
    · have hle := hdivides.width_le
      rw [List.length_cons]
      omega
    · rw [htake]
      intro c hmem
      rcases List.mem_cons.mp hmem with rfl | hmem
      · decide
      · exact hdivides.unbroken fault hresult c hmem
  | case6 c rest hc hbackslash hbreak => exact .of_inline (.reject_zero _ _)
  | case7 c rest hc hbackslash hbreak ih =>
    refine ih.after_cons (fun hreturn => ?_) [c] {}
    simp [hreturn] at hbreak

theorem body_token {strict : Bool} {quote : Char} {text : List Char} {token : Token}
    (hresult : (body strict quote text).result = .ok token) : token = .stringLiteral := by
  fun_induction body strict quote text with
  | case1 => cases hresult
  | case2 rest =>
    cases hresult
    rfl
  | case3 => cases hresult
  | case4 first tail escape value hescape hc ih => exact ih (Lexeme.result_of_after_ok hresult)
  | case5 => cases hresult
  | case6 => cases hresult
  | case7 c rest hc hbackslash hbreak ih => exact ih (Lexeme.result_of_after_ok hresult)

end StringLiteral

namespace Template

open Lexeme (Fits)

/-- A closing delimiter does not end with half of a line terminator. -/
theorem cleanCut_closer {token : Token} (htoken : token = .templateTail ∨ token = .templateCont)
    (raw rest : List Char) : CleanCut (raw ++ closer token) rest := by
  refine .append_left (fun hnil => ?_) (.of_unbroken ?_)
  · rcases htoken with rfl | rfl <;> cases hnil
  · intro c hmem
    rcases htoken with rfl | rfl
    · rw [List.mem_singleton.mp hmem]
      rfl
    · rcases List.mem_cons.mp hmem with rfl | hmem
      · rfl
      · rw [List.mem_singleton.mp hmem]
        rfl

/-- A template segment fits into its text, whichever way it ends. -/
theorem segment_fits (context : Context) (text : List Char) : Fits text (segment context text) := by
  obtain hcloses | ⟨fault, before, body, rest, rfl, hwidth, hunbroken, hresult⟩ :=
    segment_closes_or_refuses context text
  · unfold Closes at hcloses
    cases hstop : (walk text).2 with
    | none =>
      rw [hstop] at hcloses
      obtain ⟨hresult, hwidth⟩ := hcloses
      have htake : text.take (segment context text).width = text := by rw [hwidth, List.take_length]
      have hdrop : text.drop (segment context text).width = [] := by rw [hwidth, List.drop_length]
      refine ⟨Nat.le_of_eq hwidth, ?_, fun token hok => ?_, fun misread herror => ?_⟩
      · rw [hdrop]
        exact .nil_right _
      · cases hresult.symm.trans hok
      · cases hresult.symm.trans herror
        rw [htake, List.drop_length, hwidth]
        exact ⟨Nat.le_refl _, nofun⟩
    | some token =>
      rw [hstop] at hcloses
      obtain ⟨hresult, hwidth⟩ := hcloses
      have htake : text.take (segment context text).width = (walk text).1 ++ closer token := by
        rw [hwidth]
        exact take_delimiter hstop
      obtain ⟨htoken, rest, htext⟩ := walk_delimiter hstop
      refine ⟨?_, ?_, fun found hok => ?_, fun misread herror => ?_⟩
      · have hlength := congrArg List.length htext
        simp only [List.length_append, length_closer] at hlength
        omega
      · rw [htake]
        exact cleanCut_closer htoken _ _
      · cases hresult.symm.trans hok
        rw [htake]
        exact List.suffix_append _ _
      · cases hresult.symm.trans herror
  · have hlength : (segment context (before ++ '\\' :: body ++ rest)).width =
        (before ++ '\\' :: body).length := by
      rw [hwidth, List.length_append, List.length_cons]
      omega
    have hline : ∀ c ∈ '\\' :: body, isLineTerminator c = false := by
      intro c hmem
      rcases List.mem_cons.mp hmem with rfl | hmem
      · decide
      · exact hunbroken c hmem
    refine ⟨?_, ?_, fun token hok => ?_, fun misread herror => ?_⟩
    · rw [hlength]
      simp
    · rw [hlength, List.take_left, List.drop_left]
      exact .append_left nofun (.of_unbroken hline)
    · cases hresult.symm.trans hok
    · cases hresult.symm.trans herror
      rw [hlength, List.take_left, List.drop_left]
      refine ⟨?_, hline⟩
      rw [List.length_append]
      exact Nat.le_add_right _ _

end Template

namespace Lexeme

/-- A class that none of the four line terminators is in. -/
theorem isLineTerminator_of_class {c : Char} {startClass : StartClass}
    (hclass : StartClass.ofChar? c = some startClass)
    (hnone : ['\n', '\r', '\u2028', '\u2029'].any (StartClass.ofChar? · == some startClass) = false) :
    isLineTerminator c = false :=
  isLineTerminator_eq_false (StartClass.ofChar? · == some startClass) (beq_iff_eq.mpr hclass) hnone

theorem ofAscii_of_class {c : Char} {startClass : StartClass}
    (hclass : StartClass.ofChar? c = some startClass) :
    StartClass.ofAscii c = startClass := by
  unfold StartClass.ofChar? at hclass
  split at hclass
  · exact Option.some.inj hclass
  · cases hclass

theorem ofChar?_of_class {c : Char} {punctuator : Punctuator}
    (hclass : StartClass.ofChar? c = some (.punctuator punctuator)) :
    Punctuator.ofChar? c = some punctuator := by
  have hascii := ofAscii_of_class hclass
  unfold StartClass.ofAscii at hascii
  split at hascii
  · next found hfound =>
    cases hascii
    exact hfound
  · repeat' split at hascii
    all_goals cases hascii

theorem eq_backtick_of_class {c : Char} (hclass : StartClass.ofChar? c = some .backtick) :
    c = '\x60' := by
  have hascii := ofAscii_of_class hclass
  unfold StartClass.ofAscii at hascii
  repeat' split at hascii
  all_goals first | rfl | cases hascii

/-- What begins with neither a quote nor a backtick stays on its line. -/
theorem read_inline {c : Char} (hquote : StartClass.ofChar? c ≠ some .quote)
    (hbacktick : c ≠ '\x60') (context : Context) (rest : List Char) :
    Inline (c :: rest) (read context c rest) := by
  fun_cases read context c rest with
  | case1 hclass => exact absurd hclass hquote
  | case2 hclass => exact absurd (eq_backtick_of_class hclass) hbacktick
  | case3 | case4 | case8 => exact Number.read_inline _ _
  | case5 | case6 | case7 | case15 => exact Name.identifier_inline _ _
  | case9 first hclass hpoint => exact ofPunctuator_inline (ofChar?_of_class hclass) rest
  | case10 hclass hsign =>
    subst hsign
    exact Name.privateName_inline rest
  | case11 | case12 | case13 | case14 | case16 => exact .reject_zero _ _

/-- Whatever a text begins with other than a backtick, what is read there fits into
    the text and is no template. -/
theorem read_fits {c : Char} (hbacktick : c ≠ '\x60') (context : Context) (rest : List Char) :
    Fits (c :: rest) (read context c rest) ∧
      ∀ token, (read context c rest).result = .ok token → token.isTemplate = false := by
  by_cases hclass : StartClass.ofChar? c = some .quote
  · have hquote := isLineTerminator_of_class hclass (by decide)
    have hread : read context c rest = StringLiteral.read context.strict c rest := by
      rw [read, hclass]
    rw [hread]
    refine ⟨(StringLiteral.body_fits hquote context.strict rest).after_cons ?_ [] {},
      fun token hresult => ?_⟩
    · rintro rfl
      cases hquote
    · rw [StringLiteral.body_token (result_of_after_ok hresult)]
      rfl
  · have hinline := read_inline hclass hbacktick context rest
    exact ⟨.of_inline hinline, hinline.token⟩

end Lexeme

end EcmaLexer
