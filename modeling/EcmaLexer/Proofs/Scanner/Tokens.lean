import EcmaLexer.Proofs.Scanner.Gaps
import EcmaLexer.Proofs.Scanner.Names
import EcmaLexer.Proofs.Scanner.Numbers
import EcmaLexer.Proofs.Scanner.Strings

namespace EcmaLexer

open Character (isIdentifierStart)
open StringLiteral (IsQuote)
open Text (utf8Length)

theorem StartClass.isQuote_of_class {c : Char} (hclass : ofChar? c = some .quote) :
    IsQuote c := by
  have hascii := Lexeme.ofAscii_of_class hclass
  unfold ofAscii at hascii
  repeat' split at hascii
  all_goals first | exact .inl rfl | exact .inr rfl | cases hascii

namespace Token

def isNumber : Token → Bool
  | numericLiteral | bigIntLiteral => true
  | _ => false

/-- Whether a token is a name without a number sign. -/
def isName : Token → Bool
  | identifier | keyword _ => true
  | _ => false

end Token

theorem Name.IsKind.isName {value : List Char} {token : Token} (hkind : IsKind [] value token) :
    token.isName = true := by
  by_cases hkeyword : ∃ k : Keyword, value = k.text.toList
  · obtain ⟨k, hvalue⟩ := hkeyword
    rw [(hkind.keyword rfl k).mpr hvalue]
    rfl
  · rw [hkind.identifier rfl fun k hvalue => hkeyword ⟨k, hvalue⟩]
    rfl

theorem Number.isNumber_kindOf (text : List Char) : (kindOf text).isNumber = true := by
  unfold kindOf
  split <;> rfl

/-- A number that was read is the longest one, and nothing comes right after it that may not. -/
theorem Number.exists_longest_of_ok {strict : Bool} {text : List Char} {token : Token}
    (hbegins : begins text = true) (hresult : (read strict text).result = .ok token) :
    ∃ found rest, Longest (Literal strict) text found rest ∧ blocked rest = false ∧
      read strict text = ⟨found.length, some found, flagsOf found, .ok (kindOf found)⟩ := by
  obtain ⟨found, rest, hlongest, hrefused, haccepted⟩ := read_longest strict hbegins
  cases hblocked : blocked rest with
  | true =>
    have hfailed := hrefused hblocked
    rw [hresult] at hfailed
    cases hfailed
  | false => exact ⟨found, rest, hlongest, hblocked, haccepted hblocked⟩

namespace Lexeme

/-- What the kind of a token tells about the text that it was read off. -/
inductive ReadAs (c : Char) (rest : List Char) : Token → Prop where
  | string (hquote : IsQuote c) : ReadAs c rest .stringLiteral
  | template {token : Token} (hbacktick : c = '\x60') (htoken : token.isTemplate = true) :
      ReadAs c rest token
  | number {token : Token} (hbegins : Number.begins (c :: rest) = true)
      (htoken : token.isNumber = true) : ReadAs c rest token
  | name {token : Token} (hbegins : Name.begins (c :: rest) = true)
      (htoken : token.isName = true) : ReadAs c rest token
  | privateName (hsharp : c = '#') (hbegins : Name.begins rest = true) :
      ReadAs c rest .privateName
  | punctuator (punctuator : Punctuator) : ReadAs c rest (.punctuator punctuator)

theorem readAs_number {c : Char} {rest : List Char} (hbegins : Number.begins (c :: rest) = true)
    {strict : Bool} {token : Token}
    (hresult : (Number.read strict (c :: rest)).result = .ok token) : ReadAs c rest token := by
  obtain ⟨found, after, -, -, hread⟩ := Number.exists_longest_of_ok hbegins hresult
  rw [hread] at hresult
  cases hresult
  exact .number hbegins (Number.isNumber_kindOf found)

/-- Names with and without a number sign. -/
theorem readAs_name {context : Context} {sigil text : List Char}
    (hsigil : sigil = [] ∨ sigil = ['#']) (hbegins : Name.begins text = true) {c : Char}
    {rest : List Char} (htext : sigil ++ text = c :: rest) {token : Token}
    (hresult : (read context c rest).result = .ok token) : ReadAs c rest token := by
  obtain ⟨first, tail, name, after, value, hcons, -, hreads⟩ :=
    Name.exists_reads hsigil hbegins context
  obtain ⟨rfl, rfl⟩ := List.cons.inj (htext.symm.trans hcons)
  by_cases hbackslash : after.head? = some '\\'
  · obtain ⟨fault, -, herror⟩ := hreads.refused hbackslash
    cases hresult.symm.trans herror
  · obtain ⟨found, hkind, -, hlexeme⟩ := hreads.finished hbackslash
    rw [hlexeme] at hresult
    cases hresult
    rcases hsigil with rfl | rfl
    · rw [List.nil_append] at htext
      rw [htext] at hbegins
      exact .name hbegins hkind.isName
    · obtain ⟨rfl, rfl⟩ := List.cons.inj htext
      rw [hkind.privateName rfl]
      exact .privateName rfl hbegins

theorem read_readAs {context : Context} {c : Char} {rest : List Char} {token : Token}
    (hresult : (read context c rest).result = .ok token) : ReadAs c rest token := by
  have hname (hc : c = '\\' ∨ isIdentifierStart c = true) : ReadAs c rest token := by
    refine readAs_name (.inl rfl) ?_ rfl hresult
    simpa [Name.begins] using hc
  have hdigit (hc : c.isDigit = true) : Number.begins (c :: rest) = true := by
    rw [Number.begins, hc, Bool.true_or]
  revert hresult
  fun_cases read context c rest with
  | case1 hclass =>
    intro hresult
    rw [StringLiteral.body_token (result_of_after_ok hresult)]
    exact .string (StartClass.isQuote_of_class hclass)
  | case2 hclass =>
    intro hresult
    exact .template (eq_backtick_of_class hclass)
      (Template.segment_isTemplate (result_of_after_ok hresult))
  | case3 hclass =>
    rw [StartClass.eq_zero_of_class hclass] at hdigit ⊢
    exact readAs_number (hdigit rfl)
  | case4 hclass => exact readAs_number (hdigit (StartClass.isDigit_of_class hclass))
  | case5 hclass => exact fun _ => hname (.inr (StartClass.isIdentifierStart_of_class (.inr hclass)))
  | case6 hclass => exact fun _ => hname (.inr (StartClass.isIdentifierStart_of_class (.inl hclass)))
  | case7 hclass => exact fun _ => hname (.inl (StartClass.eq_backslash_of_class hclass))
  | case8 first hclass hpoint =>
    simp only [Bool.and_eq_true, decide_eq_true_eq] at hpoint
    have htext := Punctuator.text_of_ofChar? (ofChar?_of_class hclass)
    rw [hpoint.1] at htext
    refine readAs_number ?_
    rw [Number.begins, hpoint.2, ← (List.cons.inj htext).1]
    rfl
  | case9 first hclass hpoint =>
    rintro ⟨⟩
    exact .punctuator _
  | case10 hclass hsharp =>
    subst hsharp
    cases hbegins : Name.begins rest with
    | true => exact @readAs_name context _ _ (.inr rfl) hbegins _ _ rfl token
    | false =>
      unfold Name.begins at hbegins
      rw [Name.privateName, hbegins]
      rintro ⟨⟩
  | case11 | case12 | case13 | case14 => rintro ⟨⟩
  | case15 hclass hstart => exact fun _ => hname (.inr hstart)
  | case16 => rintro ⟨⟩

section Kind

variable {c : Char} {rest : List Char} {token : Token} (hread : ReadAs c rest token)
include hread

theorem ReadAs.number_begins (hnumber : token.isNumber = true) :
    Number.begins (c :: rest) = true := by
  cases hread with
  | number hbegins => exact hbegins
  | template _ htoken | name _ htoken => cases token <;> cases hnumber <;> cases htoken
  | _ => cases hnumber

theorem ReadAs.name_begins (hname : token.isName = true) : Name.begins (c :: rest) = true := by
  cases hread with
  | name hbegins => exact hbegins
  | template _ htoken | number _ htoken => cases token <;> cases hname <;> cases htoken
  | _ => cases hname

theorem ReadAs.string_quote (hstring : token = .stringLiteral) : IsQuote c := by
  subst hstring
  cases hread with
  | string hquote => exact hquote
  | template _ htoken | number _ htoken | name _ htoken => cases htoken

theorem ReadAs.template_backtick (htemplate : token.isTemplate = true) : c = '\x60' := by
  cases hread with
  | template hbacktick => exact hbacktick
  | number _ htoken | name _ htoken => cases token <;> cases htemplate <;> cases htoken
  | _ => cases htemplate

end Kind

end Lexeme

namespace Scanner

/-- What a scan leaves that gave a token: the token begins after the gap and was read off the text
    from there on, and the cursor is right after it. -/
structure Taken (scanner : Scanner) (text : List Char) (lexeme : Lexeme) (token : Token)
    (after : Scanner) : Prop where
  ahead : scanner.unread.drop scanner.gapAhead.width = text
  result : lexeme.result = .ok token
  value : after.state.value = lexeme.value
  flags : after.state.flags =
    { lexeme.flags with precedingLineBreak := scanner.gapAhead.breaksLine }
  start : after.state.tokenStart = scanner.tokenMark.offset
  offset : after.offset = scanner.tokenMark.offset + utf8Length (text.take lexeme.width)
  unread : after.unread = text.drop lexeme.width
  raw : token.isTemplate = false → after.raw? = some (text.take lexeme.width)

/-- The text after the gap is a part of the source, and the token begins where it does. -/
theorem source_eq_append_ahead {scanner : Scanner} {text : List Char}
    (hahead : scanner.unread.drop scanner.gapAhead.width = text) (hne : text ≠ []) :
    ∃ before, scanner.source = before ++ text ∧ utf8Length before = scanner.tokenMark.offset := by
  have hunread : scanner.unread ≠ [] := by
    intro hnil
    rw [hnil, List.drop_nil] at hahead
    exact hne hahead.symm
  obtain ⟨before, hsource, hbefore⟩ := source_eq_append_unread hunread
  refine ⟨before ++ scanner.unread.take scanner.gapAhead.width, ?_, ?_⟩
  · rw [← hahead, List.append_assoc, List.take_append_drop, hsource]
  · rw [Text.utf8Length_append, hbefore, tokenMark_offset]

theorem commit_taken {scanner : Scanner} {text : List Char} {lexeme : Lexeme} {token : Token}
    (hahead : scanner.unread.drop scanner.gapAhead.width = text) (hne : text ≠ [])
    (hresult : lexeme.result = .ok token) :
    ∃ after, commit scanner scanner.tokenMark.offset scanner.tokenMark scanner.gapAhead.breaksLine
        text lexeme = (.ok token, after) ∧
      Taken scanner text lexeme token after := by
  obtain ⟨before, hsource, hbefore⟩ := source_eq_append_ahead hahead hne
  rw [← List.take_append_drop lexeme.width text, ← List.append_assoc] at hsource
  have hoffset : (scanner.tokenMark.past (text.take lexeme.width)).offset =
      utf8Length before + utf8Length (text.take lexeme.width) := by
    rw [Text.Mark.offset_past, hbefore]
  refine ⟨_, commit_ok hresult _ _ _ _ _, hahead, hresult, rfl, rfl, rfl, Text.Mark.offset_past _ _,
    ?_, fun hbare => ?_⟩
  · simp only [Scanner.unread, Scanner.offset, hoffset, ← Text.utf8Length_append]
    exact textFrom_utf8Length hsource
  · have hdelimiters : token.openerLength = 0 ∧ token.closerLength = 0 := by
      cases token <;> first | exact ⟨rfl, rfl⟩ | cases hbare
    simp only [raw?, hoffset, hdelimiters, Nat.add_zero, Nat.sub_zero, hsource, ← hbefore]
    exact Text.slice?_append before _ _

/-- Every token but the end of the text is taken so. -/
theorem exists_taken {scanner after : Scanner} {context : Context} {token : Token}
    (hscan : scanner.scan context = (.ok token, after)) (htoken : token ≠ .endOfSource) :
    ∃ c tail, Taken scanner (c :: tail) (Lexeme.read (scanner.contextFor context) c tail) token
      after := by
  have hclosed := closed_of_scan_ok hscan
  cases hahead : scanner.unread.drop scanner.gapAhead.width with
  | nil =>
    rw [scan_nil hclosed hahead] at hscan
    cases hscan
    exact absurd rfl htoken
  | cons c tail =>
    rw [scan_cons hclosed hahead] at hscan
    obtain ⟨found, hcommit, htaken⟩ := commit_taken hahead (List.cons_ne_nil c tail)
      (commit_token hscan).1
    cases hcommit.symm.trans hscan
    exact ⟨c, tail, htaken⟩

end Scanner

end EcmaLexer
