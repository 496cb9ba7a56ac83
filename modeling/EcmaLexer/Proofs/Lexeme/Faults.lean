import EcmaLexer.Proofs.Lexeme.Fits

namespace EcmaLexer

/-- A fault of the token itself, and not of a comment before it. -/
def Lexeme.OwnFault (lexeme : Lexeme) : Prop :=
  ∀ misread, lexeme.result = .error misread → misread.fault ≠ .unterminatedComment

namespace Lexeme.OwnFault

theorem of_ok {lexeme : Lexeme} {token : Token} (hresult : lexeme.result = .ok token) :
    OwnFault lexeme := by
  intro misread herror
  rw [hresult] at herror
  cases herror

theorem accept (token : Token) (width : Nat) : OwnFault (.accept token width) := of_ok rfl

theorem reject {fault : Fault} (hfault : fault ≠ .unterminatedComment) (width before : Nat) :
    OwnFault (.reject fault width before) := by
  intro misread herror
  cases herror
  exact hfault

theorem after {lexeme : Lexeme} (hrest : OwnFault lexeme) (width : Nat) (value : List Char)
    (flags : Flags) : OwnFault (lexeme.after width value flags) := by
  intro misread herror
  unfold Lexeme.after at herror
  cases hresult : lexeme.result with
  | ok token => simp [hresult] at herror
  | error found =>
    simp only [hresult, Except.error.injEq] at herror
    rw [← herror]
    exact hrest found hresult

/-- Neither the value nor the facts of a reading matter. -/
theorem congr {lexeme other : Lexeme} (hown : OwnFault lexeme)
    (herror : ∀ misread, other.result = .error misread → lexeme.result = .error misread) :
    OwnFault other :=
  fun misread hresult => hown misread (herror misread hresult)

end Lexeme.OwnFault

open Lexeme (OwnFault)

namespace Number

theorem finish_ownFault (token : Token) (text : List Char) : OwnFault (finish token text) := by
  unfold finish
  split
  · exact .accept _ _
  · split
    · exact .reject (by rintro ⟨⟩) _ _
    · split
      · exact .reject (by rintro ⟨⟩) _ _
      · exact .accept _ _

theorem suffix_ownFault (integer : Bool) (text : List Char) : OwnFault (suffix integer text) := by
  unfold suffix
  split
  · exact (finish_ownFault _ _).after _ _ _
  · exact finish_ownFault _ _

theorem withDigits_ownFault {next : List Char → Lexeme} (hnext : ∀ rest, OwnFault (next rest))
    (radix : Radix) (required : Bool) (text : List Char) :
    OwnFault (withDigits radix required text next) := by
  unfold withDigits
  simp only
  split
  · exact (OwnFault.reject (by rintro ⟨⟩) _ _).after _ _ _
  · split
    · exact .reject (by rintro ⟨⟩) _ _
    · exact (hnext _).after _ _ _

theorem exponent_ownFault (integer : Bool) (text : List Char) :
    OwnFault (exponent integer text) := by
  unfold exponent
  split
  · exact (withDigits_ownFault (suffix_ownFault false) _ _ _).after _ _ _
  · exact suffix_ownFault _ _

theorem afterInteger_ownFault (text : List Char) : OwnFault (afterInteger text) := by
  unfold afterInteger
  split
  · exact (withDigits_ownFault (exponent_ownFault false) _ _ _).after _ _ _
  · exact exponent_ownFault _ _

theorem leadingZero_ownFault (strict : Bool) (text : List Char) :
    OwnFault (leadingZero strict text) := by
  have hprefixed (radix : Radix) (flags : Flags) : OwnFault (prefixed radix flags text) :=
    (withDigits_ownFault (suffix_ownFault true) _ _ _).after _ _ _
  have hlegacy : OwnFault (legacy strict text) := by
    unfold legacy
    split
    · exact .reject (by rintro ⟨⟩) _ _
    · simp only
      split
      · exact (finish_ownFault _ _).after _ _ _
      · exact (afterInteger_ownFault _).after _ _ _
  unfold leadingZero
  split
  · exact hprefixed _ _
  · exact hprefixed _ _
  · exact hprefixed _ _
  · exact .reject (by rintro ⟨⟩) _ _
  · exact hlegacy
  · exact (afterInteger_ownFault _).after _ _ _
  · exact (afterInteger_ownFault _).after _ _ _

theorem read_ownFault (strict : Bool) (text : List Char) : OwnFault (read strict text) := by
  have hshape : OwnFault (shape strict text) := by
    unfold shape
    split
    · exact leadingZero_ownFault _ _
    · exact afterInteger_ownFault _
    · exact withDigits_ownFault afterInteger_ownFault _ _ _
  refine hshape.congr fun misread herror => ?_
  unfold read at herror
  cases hresult : (shape strict text).result with
  | ok token => simp [hresult] at herror
  | error found => simpa [hresult] using herror

end Number

theorem StringLiteral.read_ownFault (strict : Bool) (quote : Char) (rest : List Char) :
    OwnFault (read strict quote rest) := by
  have hbody (text : List Char) : OwnFault (body strict quote text) := by
    fun_induction body strict quote text with
    | case1 | case3 | case5 | case6 => exact .reject (by rintro ⟨⟩) _ _
    | case2 => exact .accept _ _
    | case4 first tail escape value hresult hc ih => exact ih.after _ _ _
    | case7 c rest hc hbackslash hbreak ih => exact ih.after _ _ _
  exact (hbody rest).after _ _ _

theorem Template.segment_ownFault (context : Context) (text : List Char) :
    OwnFault (segment context text) := by
  intro misread herror
  obtain hcloses | ⟨fault, before, body, rest, rfl, -, -, hresult⟩ :=
    segment_closes_or_refuses context text
  · unfold Closes at hcloses
    cases hstop : (walk text).2 with
    | none =>
      rw [hstop] at hcloses
      cases hcloses.1.symm.trans herror
      rintro ⟨⟩
    | some token =>
      rw [hstop] at hcloses
      cases hcloses.1.symm.trans herror
  · cases hresult.symm.trans herror
    rintro ⟨⟩

namespace Name

theorem elements_ownFault (first : Bool) (text : List Char) :
    OwnFault (settle (elements first text)) := by
  have helements : OwnFault (elements first text) := by
    fun_induction elements first text with
    | case1 | case7 => exact .accept _ _
    | case2 first rest escape c hresult hallowed ih => exact ih.after _ _ _
    | case3 | case4 | case5 => exact .reject (by rintro ⟨⟩) _ _
    | case6 first c rest hunicode hbackslash hallowed ih => exact ih.after _ _ _
  fun_cases settle (elements first text) with
  | case1 => exact helements
  | case2 => exact helements.congr fun _ herror => herror

theorem identifier_ownFault (keywordLetter : Bool) (text : List Char) :
    OwnFault (identifier keywordLetter text) := by
  fun_cases identifier keywordLetter text with
  | case1 => exact .of_ok rfl
  | case2 | case3 | case4 => exact elements_ownFault true text

theorem privateName_ownFault (rest : List Char) : OwnFault (privateName rest) := by
  fun_cases privateName rest with
  | case1 hstart lexeme =>
    refine .after ?_ _ _ _
    split
    · exact .of_ok rfl
    · exact elements_ownFault true rest
  | case2 => exact .reject (by rintro ⟨⟩) _ _

end Name

/-- No reading of a token has the fault of a comment. -/
theorem Lexeme.read_ownFault (context : Context) (c : Char) (rest : List Char) :
    OwnFault (read context c rest) := by
  unfold read
  split
  · exact StringLiteral.read_ownFault _ _ _
  · exact (Template.segment_ownFault _ _).after _ _ _
  · exact Number.read_ownFault _ _
  · exact Number.read_ownFault _ _
  · exact Name.identifier_ownFault _ _
  · exact Name.identifier_ownFault _ _
  · exact Name.identifier_ownFault _ _
  · split
    · exact Number.read_ownFault _ _
    · exact .accept _ _
  · split
    · exact Name.privateName_ownFault _
    · exact .reject (by rintro ⟨⟩) _ _
  · exact .reject (by rintro ⟨⟩) _ _
  · exact .reject (by rintro ⟨⟩) _ _
  · exact .reject (by rintro ⟨⟩) _ _
  · split
    · exact Name.identifier_ownFault _ _
    · exact .reject (by rintro ⟨⟩) _ _

end EcmaLexer
