import EcmaLexer.Proofs.Number.Literal
import EcmaLexer.Proofs.Scanner.Cursor
import EcmaLexer.Proofs.Trivia.Longest

namespace EcmaLexer

namespace Number

theorem mem_of_isDigit {c : Char} (hc : c.isDigit = true) : c ∈ "0123456789".toList := by
  have hdigits : ∀ code ≤ 57, 48 ≤ code → Char.ofNat code ∈ "0123456789".toList := by decide
  have hrange : 48 ≤ c.toNat ∧ c.toNat ≤ 57 := by
    simpa [Char.isDigit, UInt32.le_iff_toNat_le, ge_iff_le] using hc
  rw [← Char.ofNat_toNat c]
  exact hdigits c.toNat hrange.2 hrange.1

/-- Nothing is skipped before a number. -/
theorem skip_of_begins {text : List Char} (hbegins : begins text = true) (hashbang : Bool) :
    Trivia.skip hashbang text = ⟨0, false, false⟩ := by
  obtain ⟨c, rest, rfl, hc⟩ := exists_cons_of_begins hbegins
  have hfirst : c ∈ ".0123456789".toList := by
    rcases hc with hdigit | ⟨rfl, -⟩
    · exact List.mem_cons_of_mem _ (mem_of_isDigit hdigit)
    · exact List.mem_cons_self
  have hheads : ∀ c ∈ ".0123456789".toList, c ≠ '/' ∧ ('#' == c) = false ∧
      Text.isLineTerminator c = false ∧ Character.isBlank c = false :=
    Text.forall_mem_of_all (by decide)
  obtain ⟨hslash, hsharp, hbreak, hblank⟩ := hheads c hfirst
  refine Trivia.skip_of_head hslash hbreak hblank ?_ hashbang
  exact Bool.and_eq_false_imp.mpr fun heq => by cases hsharp.symm.trans heq

theorem read_of_begins {c : Char} {rest : List Char} (hbegins : begins (c :: rest) = true)
    (context : Context) :
    Lexeme.read context c rest = Number.read context.strict (c :: rest) := by
  obtain ⟨c, rest, hsame, hc⟩ := exists_cons_of_begins hbegins
  obtain ⟨rfl, rfl⟩ := List.cons.inj hsame
  rcases hc with hdigit | ⟨rfl, hdigit⟩
  · have hclasses : ∀ c ∈ "0123456789".toList,
        StartClass.ofChar? c = some .zero ∨ StartClass.ofChar? c = some .digit :=
      Text.forall_mem_of_all (by decide)
    rcases hclasses _ (mem_of_isDigit hdigit) with hclass | hclass <;> rw [Lexeme.read, hclass]
  · have hclass : StartClass.ofChar? '.' = some (.punctuator .period) := rfl
    simp [Lexeme.read, hclass, hdigit]

end Number

namespace Scanner

/-- The scan of a number: it is read where the cursor stands. -/
theorem scan_of_begins {scanner : Scanner} (hbegins : Number.begins scanner.unread = true)
    (context : Context) :
    scanner.scan context = commit scanner scanner.offset scanner.state.mark false scanner.unread
      (Number.read (scanner.contextFor context).strict scanner.unread) := by
  have hgap : scanner.gapAhead = ⟨0, false, false⟩ := Number.skip_of_begins hbegins _
  obtain ⟨c, rest, hunread, -⟩ := Number.exists_cons_of_begins hbegins
  rw [hunread] at hbegins
  rw [scan_here hgap hunread, Number.read_of_begins hbegins, hunread]

/-- A scan at a number succeeds exactly if no digit and no start of a name comes right after the
    longest number there. It is the token then: its text is the raw text and the value, and its
    kind and flags are told from its text. -/
theorem scan_longest_number (scanner : Scanner) (context : Context)
    (hbegins : Number.begins scanner.unread = true) :
    ∃ text rest,
      Number.Longest (Number.Literal (scanner.contextFor context).strict) scanner.unread text rest ∧
      ((scanner.scan context).1.isOk = true ↔ Number.blocked rest = false) ∧
      ∀ token after, scanner.scan context = (.ok token, after) →
        token = Number.kindOf text ∧ after.state.token = token ∧
        after.raw? = some text ∧ after.state.value = some text ∧
        after.state.flags = Number.flagsOf text ∧ after.unread = rest := by
  obtain ⟨text, rest, hlongest, hrefused, haccepted⟩ :=
    Number.read_longest (scanner.contextFor context).strict hbegins
  have hok : (scanner.scan context).1.isOk = true ↔ Number.blocked rest = false := by
    rw [scan_of_begins hbegins, isOk_commit]
    cases hblocked : Number.blocked rest with
    | true => simp [hrefused hblocked]
    | false => simp [haccepted hblocked, Except.isOk, Except.toBool]
  refine ⟨text, rest, hlongest, hok, fun token after hscan => ?_⟩
  rw [hscan] at hok
  have hread := haccepted (hok.mp rfl)
  have hne : scanner.unread ≠ [] := by
    intro hnil
    rw [hnil] at hbegins
    cases hbegins
  have hdelimiters : (Number.kindOf text).openerLength = 0 ∧
      (Number.kindOf text).closerLength = 0 := by
    unfold Number.kindOf
    split <;> exact ⟨rfl, rfl⟩
  obtain ⟨found, hcommit, htoken, hraw, hvalue, hflags, hunread⟩ :=
    commit_bare hlongest.split hne (congrArg Lexeme.result hread) (congrArg Lexeme.width hread)
      hdelimiters
  rw [scan_of_begins hbegins] at hscan
  cases hcommit.symm.trans hscan
  rw [hread] at hvalue hflags
  exact ⟨rfl, htoken, hraw, hvalue, hflags, hunread⟩

/-- Sloppy mode reads all of `078.5e1_0`, and so that is the longest number there. -/
theorem scan_longest_number_legacy :
    Number.begins (ofSource "078.5e1_0+".toList {}).unread = true ∧
      ((ofSource "078.5e1_0+".toList {}).scan {}).2.state.flags =
        { scientific := true, containsSeparator := true } ∧
      Number.Longest (Number.Literal false) "078.5e1_0+".toList "078.5e1_0".toList ['+'] := by
  have hbegins : Number.begins (ofSource "078.5e1_0+".toList {}).unread = true := by decide
  have heval := scan_of_begins hbegins {}
  obtain ⟨text, rest, hlongest, -, hscan⟩ := scan_longest_number _ {} hbegins
  obtain ⟨-, -, hraw, -, hflags, hunread⟩ := hscan .numericLiteral _ heval
  obtain rfl : "078.5e1_0".toList = text := Option.some.inj hraw
  obtain rfl : ['+'] = rest := hunread
  rw [heval]
  exact ⟨hbegins, hflags, hlongest⟩

end Scanner

end EcmaLexer
