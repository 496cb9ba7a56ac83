import EcmaLexer.Proofs.Scanner.Cursor
import EcmaLexer.Proofs.StringLiteral.Elements
import EcmaLexer.Proofs.Trivia.Longest

namespace EcmaLexer

open Text (utf8Length)

namespace StringLiteral

/-- A string literal that is closed: elements are read up to the first quote that no backslash
    comes before. -/
structure Closed (strict : Bool) (quote : Char) (text inner rest value : List Char) : Prop where
  split : inner ++ quote :: rest = text
  elements : Elements strict quote (quote :: rest) inner value

variable {strict : Bool} {quote : Char}

theorem Closed.read (hquote : IsQuote quote) {text inner rest value : List Char}
    (hclosed : Closed strict quote text inner rest value) :
    StringLiteral.read strict quote text =
      ⟨(quote :: inner ++ [quote]).length, some value, {}, .ok .stringLiteral⟩ := by
  rw [StringLiteral.read, ← hclosed.split, hclosed.elements.read hquote, body_quote,
    Lexeme.after_append]
  simp [Lexeme.after, Lexeme.accept, Flags.union]
  omega

theorem Problem.read_literal (hquote : IsQuote quote) {inner rest value : List Char} {fault : Fault}
    {before : Nat} (helements : Elements strict quote rest inner value)
    (hproblem : Problem strict rest fault before) :
    (StringLiteral.read strict quote (inner ++ rest)).result =
      .error ⟨fault, (quote :: inner).length + before⟩ := by
  obtain ⟨width, hbody⟩ := hproblem.read hquote
  rw [StringLiteral.read, helements.read hquote, hbody, Lexeme.after_append, Nat.add_comm 1]
  rfl

theorem skip_of_quote (hquote : IsQuote quote) (hashbang : Bool) (text : List Char) :
    Trivia.skip hashbang (quote :: text) = ⟨0, false, false⟩ := by
  rcases hquote with rfl | rfl
  · exact Trivia.skip_of_head (by decide) (by decide) (by decide) rfl hashbang
  · exact Trivia.skip_of_head (by decide) (by decide) (by decide) rfl hashbang

theorem read_of_quote (hquote : IsQuote quote) (context : Context) (text : List Char) :
    Lexeme.read context quote text = StringLiteral.read context.strict quote text := by
  rcases hquote with rfl | rfl <;> rfl

end StringLiteral

namespace Scanner

open StringLiteral (Closed Elements IsQuote Problem)

theorem scan_of_quote {scanner : Scanner} {quote : Char} {text : List Char}
    (hquote : IsQuote quote) (hunread : scanner.unread = quote :: text) (context : Context) :
    scanner.scan context = commit scanner scanner.offset scanner.state.mark false scanner.unread
      (StringLiteral.read (scanner.contextFor context).strict quote text) := by
  have hgap : scanner.gapAhead = ⟨0, false, false⟩ := by
    rw [gapAhead, hunread]
    exact StringLiteral.skip_of_quote hquote _ text
  rw [scan_here hgap hunread, StringLiteral.read_of_quote hquote]

theorem scan_closed_string {scanner : Scanner} {context : Context} {quote : Char}
    {text inner rest value : List Char} (hquote : IsQuote quote)
    (hunread : scanner.unread = quote :: text)
    (hclosed : Closed (scanner.contextFor context).strict quote text inner rest value) :
    ∃ after, scanner.scan context = (.ok .stringLiteral, after) ∧
      after.state.token = .stringLiteral ∧ after.raw? = some (quote :: inner ++ [quote]) ∧
      after.state.value = some value ∧ after.state.flags = {} ∧ after.unread = rest := by
  have hread := hclosed.read hquote
  have hwhole : (quote :: inner ++ [quote]) ++ rest = scanner.unread := by
    rw [hunread, ← hclosed.split]
    simp
  have hne : scanner.unread ≠ [] := by
    rw [hunread]
    exact List.cons_ne_nil quote text
  obtain ⟨after, hcommit, htoken, hraw, hvalue, hflags, hrest⟩ :=
    commit_bare hwhole hne (congrArg Lexeme.result hread) (congrArg Lexeme.width hread) ⟨rfl, rfl⟩
  rw [hread] at hvalue hflags
  exact ⟨after, (scan_of_quote hquote hunread context).trans hcommit, htoken, hraw, hvalue, hflags,
    hrest⟩

theorem scan_string_problem {scanner : Scanner} {context : Context} {quote : Char}
    {inner rest value : List Char} {fault : Fault} {before : Nat} (hquote : IsQuote quote)
    (hunread : scanner.unread = quote :: (inner ++ rest))
    (helements : Elements (scanner.contextFor context).strict quote rest inner value)
    (hproblem : Problem (scanner.contextFor context).strict rest fault before) :
    ∃ location, (scanner.scan context).1 = .error
      ⟨fault, scanner.offset + utf8Length (quote :: inner ++ rest.take before), location⟩ := by
  have htake : scanner.unread.take ((quote :: inner).length + before) =
      quote :: inner ++ rest.take before := by
    rw [hunread, ← List.cons_append, List.take_length_add_append]
  rw [scan_of_quote hquote hunread,
    commit_error (hproblem.read_literal hquote helements), htake]
  exact ⟨_, rfl⟩

/-- A scan at a quote succeeds exactly if elements can be read up to another one. The literal goes
    up to that quote then, and its value is put together from the values of the elements. Otherwise
    the first place where no element can be read tells what is wrong. -/
theorem scan_string_literal (scanner : Scanner) (context : Context) {quote : Char}
    {text : List Char} (hquote : IsQuote quote) (hunread : scanner.unread = quote :: text) :
    ((scanner.scan context).1 = .ok .stringLiteral ↔
      ∃ inner rest value,
        Closed (scanner.contextFor context).strict quote text inner rest value) ∧
    (∀ inner rest value,
      Closed (scanner.contextFor context).strict quote text inner rest value →
      ∃ after, scanner.scan context = (.ok .stringLiteral, after) ∧
        after.state.token = .stringLiteral ∧ after.raw? = some (quote :: inner ++ [quote]) ∧
        after.state.value = some value ∧ after.state.flags = {} ∧ after.unread = rest) ∧
    ((scanner.scan context).1 ≠ .ok .stringLiteral →
      ∃ inner rest value fault before location, inner ++ rest = text ∧
        Elements (scanner.contextFor context).strict quote rest inner value ∧
        Problem (scanner.contextFor context).strict rest fault before ∧
        (scanner.scan context).1 = .error
          ⟨fault, scanner.offset + utf8Length (quote :: inner ++ rest.take before), location⟩) := by
  have hclosed (inner rest value : List Char)
      (hclosed : Closed (scanner.contextFor context).strict quote text inner rest value) :=
    scan_closed_string hquote hunread hclosed
  obtain ⟨inner, rest, value, rfl, helements, hstop⟩ :=
    StringLiteral.exists_elements (scanner.contextFor context).strict quote text
  rcases hstop with hhead | ⟨fault, before, hproblem⟩
  · obtain ⟨rest, rfl⟩ := List.head?_eq_some_iff.mp hhead
    obtain ⟨after, hscan, -⟩ := hclosed inner rest value ⟨rfl, helements⟩
    have hok : (scanner.scan context).1 = .ok .stringLiteral := by rw [hscan]
    exact ⟨iff_of_true hok ⟨inner, rest, value, rfl, helements⟩, hclosed, absurd hok⟩
  · obtain ⟨location, herror⟩ := scan_string_problem hquote hunread helements hproblem
    refine ⟨iff_of_false ?_ ?_, hclosed, fun _ => ?_⟩
    · rw [herror]
      rintro ⟨⟩
    · rintro ⟨inner, rest, value, hother⟩
      obtain ⟨after, hscan, -⟩ := hclosed inner rest value hother
      rw [hscan] at herror
      cases herror
    · exact ⟨inner, rest, value, fault, before, location, rfl, helements, hproblem, herror⟩

/-- An octal escape ends before its number would pass 255, and `\0` before what is no digit. -/
theorem scan_string_literal_octal :
    IsQuote '"' ∧
      (ofSource "\"\\400\\0a\"+".toList {}).unread = '"' :: "\\400\\0a\"+".toList ∧
      Closed false '"' "\\400\\0a\"+".toList "\\400\\0a".toList ['+'] " 0\x00a".toList := by
  have hquote : IsQuote '"' := .inl rfl
  have hunread : (ofSource "\"\\400\\0a\"+".toList {}).unread =
      '"' :: "\\400\\0a\"+".toList := rfl
  have hok : ((ofSource "\"\\400\\0a\"+".toList {}).scan {}).1 = .ok .stringLiteral := by
    with_unfolding_all rfl
  have hraw : ((ofSource "\"\\400\\0a\"+".toList {}).scan {}).2.raw? =
      some "\"\\400\\0a\"".toList := by
    decide +kernel
  have hvalue : ((ofSource "\"\\400\\0a\"+".toList {}).scan {}).2.state.value =
      some " 0\x00a".toList := by
    decide +kernel
  obtain ⟨hiff, hread, -⟩ := scan_string_literal _ {} hquote hunread
  obtain ⟨inner, rest, value, hclosed⟩ := hiff.mp hok
  obtain ⟨after, hscan, -, htext, hcooked, -⟩ := hread inner rest value hclosed
  rw [hscan] at hraw hvalue
  refine ⟨hquote, hunread, ?_⟩
  obtain rfl : " 0\x00a".toList = value := Option.some.inj (hvalue.symm.trans hcooked)
  obtain rfl : "\\400\\0a".toList = inner := by
    have hsame := (List.cons.inj (Option.some.inj (hraw.symm.trans htext))).2
    exact List.append_cancel_right (show "\\400\\0a".toList ++ ['"'] = inner ++ ['"'] from hsame)
  obtain rfl : rest = ['+'] := (List.cons.inj (List.append_cancel_left hclosed.split)).2
  exact hclosed

end Scanner

end EcmaLexer
