import EcmaLexer.Proofs.Lexeme.Plain
import EcmaLexer.Proofs.Name.Elements
import EcmaLexer.Proofs.Scanner.Cursor
import EcmaLexer.Proofs.Token.Keyword
import EcmaLexer.Proofs.Trivia.Longest

namespace EcmaLexer

open Character (isBlank isIdentifierStart)
open Text (isLineTerminator utf8Length)

namespace Character

theorem isBlank_of_isIdentifierStart {c : Char} (hc : isIdentifierStart c = true) :
    isBlank c = false := by
  have hspaces : ∀ width ≤ 10, isIdentifierStart (Char.ofNat (0x2000 + width)) = false := by
    decide +kernel
  have hrange : ¬('\u2000' ≤ c ∧ c ≤ '\u200a') := by
    rintro ⟨hfirst, hlast⟩
    have hlow : 0x2000 ≤ c.toNat := hfirst
    have hhigh : c.toNat ≤ 0x200a := hlast
    have hspace := hspaces (c.toNat - 0x2000) (by omega)
    rw [Nat.add_sub_cancel' hlow, Char.ofNat_toNat, hc] at hspace
    cases hspace
  rw [Bool.eq_false_iff]
  intro hblank
  simp only [isBlank, Bool.or_eq_true, Bool.and_eq_true, beq_iff_eq, decide_eq_true_eq, hrange,
    or_false, or_assoc] at hblank
  rcases hblank with rfl | rfl | rfl | rfl | rfl | rfl | rfl | rfl | rfl | rfl
  all_goals exact absurd hc (by decide +kernel)

theorem class_of_isIdentifierStart {c : Char} (hc : isIdentifierStart c = true)
    (hascii : c.toNat < 0x80) :
    StartClass.ofChar? c = some .letter ∨ StartClass.ofChar? c = some .keywordLetter := by
  have hcodes : ∀ code < 0x80, isIdentifierStart (Char.ofNat code) = true →
      StartClass.ofAscii (Char.ofNat code) = .letter ∨
        StartClass.ofAscii (Char.ofNat code) = .keywordLetter := by
    decide +kernel
  rw [← Char.ofNat_toNat c] at hc
  have hclass := hcodes c.toNat hascii hc
  rw [Char.ofNat_toNat] at hclass
  rw [StartClass.ofChar?, if_pos hascii]
  exact hclass.imp (congrArg some) (congrArg some)

end Character

namespace Name

/-- Whether a text begins like a name. -/
def begins (text : List Char) : Bool := text.head?.any fun c => c == '\\' || isIdentifierStart c

theorem exists_cons_of_begins {text : List Char} (hbegins : begins text = true) :
    ∃ c rest, text = c :: rest ∧ (c = '\\' ∨ isIdentifierStart c = true) := by
  obtain ⟨c, rest, htext, hc⟩ := Text.exists_cons_of_head?_any hbegins
  rw [Bool.or_eq_true, beq_iff_eq] at hc
  exact ⟨c, rest, htext, hc⟩

/-- The kind of a name. Without a number sign before it a name that is spelled like a keyword is
    one, and only such a name. -/
structure IsKind (sigil value : List Char) (token : Token) : Prop where
  keyword : sigil = [] → ∀ k, token = .keyword k ↔ value = k.text.toList
  identifier : sigil = [] → (∀ k : Keyword, value ≠ k.text.toList) → token = .identifier
  privateName : sigil = ['#'] → token = .privateName

/-- What is read at a name, which a number sign may come before. -/
structure Reads (sigil name rest value : List Char) (lexeme : Lexeme) : Prop where
  refused : rest.head? = some '\\' → ∃ fault, Refused name.isEmpty rest fault ∧
    lexeme.result = .error ⟨fault, (sigil ++ name).length⟩
  finished : rest.head? ≠ some '\\' → ∃ token, IsKind sigil value token ∧
    (token.openerLength = 0 ∧ token.closerLength = 0) ∧
    lexeme = ⟨(sigil ++ name).length, some (sigil ++ value),
      { unicodeEscape := decide ('\\' ∈ name) }, .ok token⟩

variable {text name rest value : List Char}

/-- A lookup that is left out would not have found a keyword. -/
theorem identifier_reads (hlongest : LongestName text name rest value)
    (hstops : Stops name.isEmpty rest) {keywordLetter : Bool}
    (hletter : ∀ k : Keyword, value = k.text.toList → keywordLetter = true ∨ '\\' ∈ name) :
    Reads [] name rest value (identifier keywordLetter text) where
  refused := by
    intro hbackslash
    obtain ⟨fault, hrefused, hresult⟩ := hlongest.read_refused hstops hbackslash
    refine ⟨fault, hrefused, ?_⟩
    simp only [identifier, hresult]
    rfl
  finished := by
    intro hbackslash
    have hread := hlongest.read_finished hstops hbackslash
    simp only [identifier, hread, Option.bind_some]
    cases hkeyword : Keyword.ofText? value with
    | some k =>
      have hvalue := Keyword.ofText?_eq_some_iff.mp hkeyword
      have hlookup : (keywordLetter || decide ('\\' ∈ name)) = true := by
        simpa using hletter k hvalue
      refine ⟨.keyword k, ⟨fun _ other => ?_, fun _ hother => ?_, by rintro ⟨⟩⟩, ⟨rfl, rfl⟩, ?_⟩
      · rw [← Keyword.ofText?_eq_some_iff, hkeyword, Option.some.injEq, Token.keyword.injEq]
      · exact absurd hvalue (hother k)
      · rw [if_pos hlookup]
        rfl
    | none =>
      refine ⟨.identifier, ⟨fun _ k => ?_, fun _ _ => rfl, by rintro ⟨⟩⟩, ⟨rfl, rfl⟩, ?_⟩
      · rw [← Keyword.ofText?_eq_some_iff, hkeyword]
        exact iff_of_false (by rintro ⟨⟩) (by rintro ⟨⟩)
      · split <;> rfl

theorem privateName_reads (hlongest : LongestName text name rest value)
    (hstops : Stops name.isEmpty rest) (hbegins : begins text = true) :
    Reads ['#'] name rest value (privateName text) where
  refused := by
    intro hbackslash
    unfold begins at hbegins
    obtain ⟨fault, hrefused, hresult⟩ := hlongest.read_refused hstops hbackslash
    refine ⟨fault, hrefused, ?_⟩
    rw [privateName, if_pos hbegins]
    simp only [hresult, Lexeme.after, Except.error.injEq, Misread.mk.injEq, true_and]
    exact Nat.add_comm 1 _
  finished := by
    intro hbackslash
    unfold begins at hbegins
    have hread := hlongest.read_finished hstops hbackslash
    refine ⟨.privateName, ⟨by rintro ⟨⟩, by rintro ⟨⟩, fun _ => rfl⟩, ⟨rfl, rfl⟩, ?_⟩
    rw [privateName, if_pos hbegins]
    simp only [hread, Lexeme.after, Nat.add_comm 1]
    rfl

/-- The first letter of a name tells whether it is looked up among the keywords. -/
theorem read_eq_identifier {c : Char} (hc : c = '\\' ∨ isIdentifierStart c = true)
    (context : Context) (rest : List Char) :
    ∃ keywordLetter, Lexeme.read context c rest = identifier keywordLetter (c :: rest) ∧
      (StartClass.ofChar? c = some .keywordLetter → keywordLetter = true) := by
  rcases hc with rfl | hc
  · exact ⟨false, rfl, by rintro ⟨⟩⟩
  · by_cases hascii : c.toNat < 0x80
    · rcases Character.class_of_isIdentifierStart hc hascii with hclass | hclass
      · refine ⟨false, by rw [Lexeme.read, hclass], fun hother => ?_⟩
        cases hclass.symm.trans hother
      · exact ⟨true, by rw [Lexeme.read, hclass], fun _ => rfl⟩
    · have hclass : StartClass.ofChar? c = none := if_neg hascii
      refine ⟨false, by simp [Lexeme.read, hclass, hc], fun hother => ?_⟩
      cases hclass.symm.trans hother

/-- Any name, with or without a number sign, is read to its end. -/
theorem exists_reads {sigil text : List Char} (hsigil : sigil = [] ∨ sigil = ['#'])
    (hbegins : begins text = true) (context : Context) :
    ∃ c tail name rest value, sigil ++ text = c :: tail ∧ LongestName text name rest value ∧
      Reads sigil name rest value (Lexeme.read context c tail) := by
  obtain ⟨name, rest, value, hlongest, hstops⟩ := exists_longestName text
  obtain ⟨c, tail, htext, hc⟩ := exists_cons_of_begins hbegins
  rcases hsigil with rfl | rfl
  · obtain ⟨keywordLetter, hread, hclass⟩ := read_eq_identifier hc context tail
    refine ⟨c, tail, name, rest, value, htext, hlongest, ?_⟩
    rw [hread, ← htext]
    refine identifier_reads hlongest hstops fun k hvalue => ?_
    by_cases hescape : '\\' ∈ name
    · exact .inr hescape
    -- Without an escape the name begins with the first letter of the keyword.
    · obtain ⟨letter, more, hkeyword, hletter⟩ := k.exists_keywordLetter
      have hspelling := hlongest.split
      rw [hlongest.spelled.eq_of_plain hescape, hvalue, hkeyword, htext] at hspelling
      rw [(List.cons.inj hspelling).1] at hletter
      exact .inl (hclass hletter)
  · refine ⟨'#', text, name, rest, value, rfl, hlongest, ?_⟩
    exact privateName_reads hlongest hstops hbegins

theorem skip_of_begins {sigil text : List Char} (hsigil : sigil = [] ∨ sigil = ['#'])
    (hbegins : begins text = true) (hashbang : Bool) :
    Trivia.skip hashbang (sigil ++ text) = ⟨0, false, false⟩ := by
  obtain ⟨c, rest, rfl, hc⟩ := exists_cons_of_begins hbegins
  have hno {d : Char} (hbackslash : d ≠ '\\') (hd : isIdentifierStart d = false) : c ≠ d := by
    rintro rfl
    rcases hc with hc | hc
    · exact hbackslash hc
    · cases hd.symm.trans hc
  rcases hsigil with rfl | rfl
  · have hsharp : ('#' == c) = false := by
      rw [beq_eq_false_iff_ne]
      exact (hno (by decide) (by decide)).symm
    have hline : "#!".toList.isPrefixOf (c :: rest) = false :=
      Bool.and_eq_false_imp.mpr fun heq => by cases hsharp.symm.trans heq
    refine Trivia.skip_of_head (hno (by decide) (by decide)) ?_ ?_ hline hashbang
    · rcases hc with rfl | hc
      · decide
      · exact Text.isLineTerminator_eq_false isIdentifierStart hc (by decide +kernel)
    · rcases hc with rfl | hc
      · decide
      · exact Character.isBlank_of_isIdentifierStart hc
  · have hbang : ('!' == c) = false := by
      rw [beq_eq_false_iff_ne]
      exact (hno (by decide) (by decide)).symm
    have hline : "#!".toList.isPrefixOf ('#' :: c :: rest) = false := by
      simp [List.isPrefixOf, hbang]
    exact Trivia.skip_of_head (by decide) (by decide) (by decide) hline hashbang

end Name

namespace Scanner

/-- A scan at a name reads the longest sequence of characters that may stand in one, each by itself
    or by a unicode escape. Where a backslash comes next the scan fails there. Otherwise the value
    is the name without its escapes, and the value alone tells whether the name is a keyword. The
    same goes for a private name, from its number sign on; it is never a keyword. -/
theorem scan_longest_name (scanner : Scanner) (context : Context) {sigil text : List Char}
    (hsigil : sigil = [] ∨ sigil = ['#']) (hunread : scanner.unread = sigil ++ text)
    (hbegins : Name.begins text = true) :
    ∃ name rest value, Name.LongestName text name rest value ∧
      (rest.head? = some '\\' → ∃ fault location, Name.Refused name.isEmpty rest fault ∧
        (scanner.scan context).1 =
          .error ⟨fault, scanner.offset + utf8Length (sigil ++ name), location⟩) ∧
      (rest.head? ≠ some '\\' → ∃ token after, scanner.scan context = (.ok token, after) ∧
        Name.IsKind sigil value token ∧ after.state.token = token ∧
        after.raw? = some (sigil ++ name) ∧ after.state.value = some (sigil ++ value) ∧
        after.state.flags = { unicodeEscape := decide ('\\' ∈ name) } ∧ after.unread = rest) := by
  have hgap : scanner.gapAhead = ⟨0, false, false⟩ := by
    rw [gapAhead, hunread]
    exact Name.skip_of_begins hsigil hbegins _
  obtain ⟨c, tail, name, rest, value, hcons, hlongest, hreads⟩ :=
    Name.exists_reads hsigil hbegins (scanner.contextFor context)
  have hscan := scan_here hgap (hunread.trans hcons) context
  have hwhole : (sigil ++ name) ++ rest = scanner.unread := by
    rw [List.append_assoc, hlongest.split, hunread]
  refine ⟨name, rest, value, hlongest, fun hbackslash => ?_, fun hbackslash => ?_⟩
  · obtain ⟨fault, hrefused, hresult⟩ := hreads.refused hbackslash
    rw [hscan, commit_error hresult, ← hwhole, List.take_left]
    exact ⟨fault, _, hrefused, rfl⟩
  · obtain ⟨token, hkind, hdelimiters, hlexeme⟩ := hreads.finished hbackslash
    have hne : scanner.unread ≠ [] := by
      rw [hunread, hcons]
      exact List.cons_ne_nil c tail
    obtain ⟨after, hcommit, htoken, hraw, hvalue, hflags, hrest⟩ :=
      commit_bare hwhole hne (congrArg Lexeme.result hlexeme) (congrArg Lexeme.width hlexeme)
        hdelimiters
    rw [hlexeme] at hvalue hflags
    exact ⟨token, after, hscan.trans hcommit, hkind, htoken, hraw, hvalue, hflags, hrest⟩

/-- A keyword spelled with an escape is still one. -/
theorem scan_longest_name_escaped :
    (ofSource "\\u\x7b69\x7df(".toList {}).unread = [] ++ "\\u\x7b69\x7df(".toList ∧
      Name.begins "\\u\x7b69\x7df(".toList = true ∧
      ((ofSource "\\u\x7b69\x7df(".toList {}).scan {}).1 = .ok (.keyword .ifKw) ∧
      Name.LongestName "\\u\x7b69\x7df(".toList "\\u\x7b69\x7df".toList ['('] "if".toList := by
  have hunread : (ofSource "\\u\x7b69\x7df(".toList {}).unread =
      [] ++ "\\u\x7b69\x7df(".toList := rfl
  have hbegins : Name.begins "\\u\x7b69\x7df(".toList = true := by decide
  have htoken : ((ofSource "\\u\x7b69\x7df(".toList {}).scan {}).1 = .ok (.keyword .ifKw) := by
    with_unfolding_all rfl
  have hraw : ((ofSource "\\u\x7b69\x7df(".toList {}).scan {}).2.raw? =
      some "\\u\x7b69\x7df".toList := by
    decide +kernel
  obtain ⟨name, rest, value, hlongest, hrefused, hread⟩ :=
    scan_longest_name _ {} (.inl rfl) hunread hbegins
  refine ⟨hunread, hbegins, htoken, ?_⟩
  by_cases hbackslash : rest.head? = some '\\'
  · obtain ⟨fault, location, -, herror⟩ := hrefused hbackslash
    cases htoken.symm.trans herror
  · obtain ⟨token, after, hscan, hkind, -, hname, -⟩ := hread hbackslash
    rw [hscan] at htoken hraw
    cases htoken
    have hvalue : value = "if".toList := (hkind.keyword rfl .ifKw).mp rfl
    obtain rfl : "\\u\x7b69\x7df".toList = name := Option.some.inj (hraw.symm.trans hname)
    obtain rfl : rest = ['('] := List.append_cancel_left hlongest.split
    rwa [hvalue] at hlongest

end Scanner

end EcmaLexer
