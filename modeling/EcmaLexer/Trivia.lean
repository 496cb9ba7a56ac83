import EcmaLexer.Character
import EcmaLexer.Text.LineBreak

namespace EcmaLexer.Trivia

/-- Number of characters up to the end of the line. -/
def lineWidth (text : List Char) : Nat := (text.takeWhile (!Text.isLineTerminator ·)).length

/-- Number of characters before the first `*/`. -/
def commentWidth? : List Char → Option Nat
  | [] => none
  | '*' :: '/' :: _ => some 0
  | _ :: rest => (commentWidth? rest).map (· + 1)

/-- A stretch of text between tokens, and whether it ends a line. -/
structure Element where
  width : Nat
  breaksLine : Bool
deriving DecidableEq

/-- The blank, line terminator or closed comment at the head of a text. A line
    comment leaves out the terminator that ends it. -/
def element? : List Char → Option Element
  | '/' :: '/' :: rest => some ⟨2 + lineWidth rest, false⟩
  | '/' :: '*' :: rest =>
    (commentWidth? rest).map fun width =>
      ⟨2 + width + 2, (rest.take width).any Text.isLineTerminator⟩
  | c :: _ =>
    if Text.isLineTerminator c then some ⟨1, true⟩
    else if Character.isBlank c then some ⟨1, false⟩
    else none
  | [] => none

theorem element?_width_pos {text : List Char} {element : Element}
    (helement : element? text = some element) : 0 < element.width := by
  unfold element? at helement
  split at helement
  · simp only [Option.some.injEq] at helement
    subst helement
    simp only
    omega
  · simp only [Option.map_eq_some_iff] at helement
    obtain ⟨width, -, rfl⟩ := helement
    simp only
    omega
  · split at helement
    · simp only [Option.some.injEq] at helement
      subst helement
      simp
    · split at helement
      · simp only [Option.some.injEq] at helement
        subst helement
        simp
      · simp at helement
  · simp at helement

/-- Whether the text begins with the opening of a block comment. -/
def opensComment : List Char → Bool
  | '/' :: '*' :: _ => true
  | _ => false

/-- Everything before the next token. When `unclosed`, a block comment that never
    ends comes after it. -/
structure Gap where
  width : Nat
  breaksLine : Bool
  unclosed : Bool
deriving DecidableEq

def Gap.after (element : Element) (gap : Gap) : Gap where
  width := element.width + gap.width
  breaksLine := element.breaksLine || gap.breaksLine
  unclosed := gap.unclosed

set_option linter.unusedVariables false in
/-- The longest run of blanks, line terminators and comments at the head of a
    text. -/
def run (text : List Char) : Gap :=
  match helement : element? text with
  | some element => (run (text.drop element.width)).after element
  | none => ⟨0, false, opensComment text⟩
termination_by text.length
decreasing_by
  have hpos := element?_width_pos helement
  have hne : 0 < text.length := by
    cases text with
    | nil => simp [element?] at helement
    | cons c rest => simp
  simp only [List.length_drop]
  omega

/-- The gap before the next token. Where a hashbang may stand, a first line that
    begins with `#!` is skipped like a comment. -/
def skip (hashbang : Bool) (text : List Char) : Gap :=
  if hashbang && "#!".toList.isPrefixOf text then
    let width := lineWidth text
    (run (text.drop width)).after ⟨width, false⟩
  else run text

end EcmaLexer.Trivia
