import EcmaLexer.Lexeme.Basic
import EcmaLexer.Lexeme.Escape

namespace EcmaLexer.Name

/-- Whether a character may stand at the start of a name, or further on in it. -/
def allowed (first : Bool) (c : Char) : Bool :=
  if first then Character.isIdentifierStart c else Character.isIdentifierPart c

/-- Reads the longest name at the head of a text. A character may be spelled by a
    unicode escape; a backslash can only begin one. -/
def elements (first : Bool) (text : List Char) : Lexeme :=
  match text with
  | [] => .accept .identifier 0
  | '\\' :: 'u' :: rest =>
    let escape := Escape.unicode rest
    match escape.result with
    | .ok c =>
      if allowed first c then
        (elements false (rest.drop escape.width)).after (2 + escape.width) [c]
          { unicodeEscape := true }
      else .reject (.invalidCharacter c) (2 + escape.width) 0
    | .error fault => .reject (.invalidEscapeSequence fault) (2 + escape.width) 0
  | '\\' :: _ => .reject (.invalidCharacter '\\') 1 0
  | c :: rest =>
    if allowed first c then (elements false rest).after 1 [c] {} else .accept .identifier 0
termination_by text.length
decreasing_by
  all_goals simp only [List.length_drop, List.length_cons]
  all_goals omega

/-- A name that could not be read to its end keeps no facts. -/
def settle (lexeme : Lexeme) : Lexeme :=
  match lexeme.result with
  | .ok _ => lexeme
  | .error _ => { lexeme with flags := {} }

/-- Reads an identifier or keyword. Only a name whose first letter begins some
    keyword, or that is spelled with an escape, is looked up among the keywords. -/
def identifier (keywordLetter : Bool) (text : List Char) : Lexeme :=
  let lexeme := settle (elements true text)
  match lexeme.result with
  | .ok _ =>
    if keywordLetter || lexeme.flags.unicodeEscape then
      match lexeme.value.bind Keyword.ofText? with
      | some k => { lexeme with result := .ok (.keyword k) }
      | none => lexeme
    else lexeme
  | .error _ => lexeme

/-- Reads a private name after its number sign, which is part of its value. -/
def privateName (rest : List Char) : Lexeme :=
  if rest.head?.any (fun c => c == '\\' || Character.isIdentifierStart c) then
    let lexeme := settle (elements true rest)
    (match lexeme.result with
      | .ok _ => { lexeme with result := .ok .privateName }
      | .error _ => lexeme).after 1 ['#'] {}
  else .reject (.invalidCharacter '#') 1 0

end EcmaLexer.Name
