import EcmaLexer.Proofs.Scanner.Tokens
import EcmaLexer.Proofs.Token.Punctuator

namespace EcmaLexer

open Text (isLineTerminator utf8Length)

namespace Punctuator

/-- A text that begins with the first character of a punctuator, but neither with a comment nor
    with a number, which may begin with a point. -/
structure Begins (text : List Char) : Prop where
  first : ∃ punctuator : Punctuator, text.head? = punctuator.text.toList.head?
  comment : ¬['/', '/'] <+: text ∧ ¬['/', '*'] <+: text
  number : text.head? = some '.' → (text.drop 1).head?.any Char.isDigit = false

/-- What is known of the characters that punctuators begin with. -/
theorem ofChar?_spec {c : Char} {first : Punctuator} (hchar : ofChar? c = some first) :
    c.toNat < 0x80 ∧ c ≠ '#' ∧ isLineTerminator c = false ∧ Character.isBlank c = false := by
  have hall : ∀ p ∈ all, p.text.toList.all (fun c => decide (c.toNat < 0x80 ∧ c ≠ '#' ∧
      isLineTerminator c = false ∧ Character.isBlank c = false)) = true := by
    decide +kernel
  refine Text.forall_mem_of_all (hall first first.mem_all) c ?_
  rw [text_of_ofChar? hchar]
  exact List.mem_singleton_self c

theorem Begins.exists_cons {text : List Char} (hbegins : Begins text) :
    ∃ c rest first, text = c :: rest ∧ ofChar? c = some first := by
  obtain ⟨punctuator, hhead⟩ := hbegins.first
  obtain ⟨c, tail, first, htext, hchar, -⟩ := punctuator.exists_first
  rw [htext, List.head?_cons] at hhead
  obtain ⟨rest, rfl⟩ := List.head?_eq_some_iff.mp hhead
  exact ⟨c, rest, first, rfl, hchar⟩

/-- Nothing is skipped before a punctuator. -/
theorem Begins.skip {text : List Char} (hbegins : Begins text) (hashbang : Bool) :
    Trivia.skip hashbang text = ⟨0, false, false⟩ := by
  obtain ⟨c, rest, first, rfl, hchar⟩ := hbegins.exists_cons
  obtain ⟨-, hsharp, hbreak, hblank⟩ := ofChar?_spec hchar
  have hline (tail : List Char) (hc : c = '/') (hrest : rest = '/' :: tail) : False :=
    hbegins.comment.1 ⟨tail, by rw [hc, hrest]; rfl⟩
  have hblock (tail : List Char) (hc : c = '/') (hrest : rest = '*' :: tail) : False :=
    hbegins.comment.2 ⟨tail, by rw [hc, hrest]; rfl⟩
  refine Trivia.skip_zero ?_ ?_ ?_ hashbang
  · rw [Trivia.opensComment_eq, Bool.eq_false_iff]
    exact fun hopens => hbegins.comment.2 (List.isPrefixOf_iff_prefix.mp hopens)
  · rw [Trivia.element?.eq_3 c rest hline hblock, hbreak, hblank]
    rfl
  · exact Bool.and_eq_false_imp.mpr fun heq => absurd (beq_iff_eq.mp heq).symm hsharp

theorem Begins.read {c : Char} {rest : List Char} {first : Punctuator}
    (hbegins : Begins (c :: rest)) (hchar : ofChar? c = some first) (context : Context) :
    Lexeme.read context c rest = Lexeme.ofPunctuator first (c :: rest) := by
  have hclass : StartClass.ofChar? c = some (.punctuator first) := by
    rw [StartClass.ofChar?, if_pos (ofChar?_spec hchar).1]
    simp only [StartClass.ofAscii, hchar]
  have hpoint : (first = .period && rest.head?.any Char.isDigit) = false := by
    by_cases hfirst : first = .period
    · have htext := text_of_ofChar? hchar
      rw [hfirst] at htext
      have hdigit := hbegins.number (congrArg List.head? htext.symm)
      rw [List.drop_succ_cons, List.drop_zero] at hdigit
      rw [hdigit, Bool.and_false]
    · rw [decide_eq_false hfirst, Bool.false_and]
  rw [Lexeme.read, hclass]
  simp only [hpoint, Bool.false_eq_true, if_false]

/-- A punctuator is the longest in its own text. -/
theorem isLongest_text (punctuator : Punctuator) :
    punctuator.IsLongest punctuator.text.toList where
  mayStand := by
    refine ⟨List.prefix_rfl, ?_⟩
    rintro rfl
    rfl
  longest := fun _ hstands => hstands.spelled.length_le

theorem begins_text (punctuator : Punctuator) : Begins punctuator.text.toList := by
  have hall : ∀ p ∈ all, (¬['/', '/'] <+: p.text.toList ∧ ¬['/', '*'] <+: p.text.toList) ∧
      (p.text.toList.head? = some '.' → (p.text.toList.drop 1).head?.any Char.isDigit = false) := by
    decide +kernel
  obtain ⟨hcomment, hnumber⟩ := hall punctuator punctuator.mem_all
  exact ⟨⟨punctuator, rfl⟩, hcomment, hnumber⟩

end Punctuator

namespace Scanner

theorem scan_of_punctuator {scanner : Scanner} (hbegins : Punctuator.Begins scanner.unread)
    (context : Context) :
    ∃ punctuator after, punctuator.IsLongest scanner.unread ∧
      scanner.scan context = (.ok (.punctuator punctuator), after) ∧
      after.state.token = .punctuator punctuator ∧ after.raw? = some punctuator.text.toList ∧
      after.state.value = some [] ∧ after.state.flags = {} ∧
      punctuator.text.toList ++ after.unread = scanner.unread ∧
      after.offset = scanner.offset + utf8Length punctuator.text.toList := by
  obtain ⟨c, rest, first, hunread, hchar⟩ := hbegins.exists_cons
  have hgap : scanner.gapAhead = ⟨0, false, false⟩ := hbegins.skip _
  have hahead : scanner.unread.drop scanner.gapAhead.width = c :: rest := by
    rw [hgap, List.drop_zero, hunread]
  have hstart : scanner.tokenMark.offset = scanner.offset := by
    rw [tokenMark_offset, hgap, List.take_zero]
    rfl
  rw [hunread] at hbegins ⊢
  have hlongest := Punctuator.longest_isLongest hchar rest
  obtain ⟨tail, htail⟩ := hlongest.mayStand.spelled
  have hwidth : (Lexeme.ofPunctuator first (c :: rest)).width =
      (first.longest (c :: rest)).text.toList.length := rfl
  have htake : (c :: rest).take (Lexeme.ofPunctuator first (c :: rest)).width =
      (first.longest (c :: rest)).text.toList := by
    rw [hwidth, ← List.prefix_iff_eq_take.mp hlongest.mayStand.spelled]
  obtain ⟨after, hcommit, htaken⟩ := commit_taken hahead (List.cons_ne_nil c rest)
    (show (Lexeme.ofPunctuator first (c :: rest)).result = _ from rfl)
  have hscan := scan_cons (by rw [hgap]) hahead context
  rw [hbegins.read hchar] at hscan
  refine ⟨_, after, hlongest, hscan.trans hcommit, (commit_token hcommit).2, ?_, htaken.value, ?_,
    ?_, ?_⟩
  · rw [htaken.raw rfl, htake]
  · rw [htaken.flags, hgap]
    rfl
  · rw [htaken.unread, ← htake, List.take_append_drop]
  · rw [htaken.offset, hstart, htake]

end Scanner

end EcmaLexer
