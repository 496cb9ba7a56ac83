import EcmaLexer.Lexeme.Template
import EcmaLexer.Proofs.Lexeme.Escape

namespace EcmaLexer.Template

/-- The naive search for the end of a segment: the text up to the first backtick,
    or dollar sign before a brace, where a backslash hides the character after it,
    and the token that the delimiter makes of the segment. -/
def walk : List Char → List Char × Option Token
  | [] => ([], none)
  | '\x60' :: _ => ([], some .templateTail)
  | '$' :: '\x7b' :: _ => ([], some .templateCont)
  | '\\' :: c :: rest => ('\\' :: c :: (walk rest).1, (walk rest).2)
  | c :: rest => (c :: (walk rest).1, (walk rest).2)

/-- The search goes on after `passed` as if it began there. -/
def PassesTo (passed rest : List Char) : Prop :=
  walk (passed ++ rest) = (passed ++ (walk rest).1, (walk rest).2)

theorem PassesTo.append {first second rest : List Char} (hfirst : PassesTo first (second ++ rest))
    (hsecond : PassesTo second rest) : PassesTo (first ++ second) rest := by
  unfold PassesTo at *
  rw [List.append_assoc, hfirst, hsecond, List.append_assoc]

theorem passesTo_char {c : Char} {rest : List Char} (hbacktick : c ≠ '\x60') (hbackslash : c ≠ '\\')
    (hdollar : c = '$' → rest.head? ≠ some '\x7b') : PassesTo [c] rest := by
  unfold PassesTo
  rw [List.cons_append, List.nil_append, walk.eq_5]
  · rfl
  · exact hbacktick
  · intro tail hc hrest
    exact hdollar hc (by rw [hrest]; rfl)
  · intro next tail hc
    exact absurd hc hbackslash

/-- The same of a character for which none of the patterns of a segment is meant. -/
theorem passesTo_ordinary {c : Char} {rest : List Char} (hbacktick : c = '\x60' → False)
    (hdollar : ∀ tail, c = '$' → rest = '\x7b' :: tail → False)
    (hend : c = '\\' → rest = [] → False)
    (hescape : ∀ next tail, c = '\\' → rest = next :: tail → False) : PassesTo [c] rest := by
  apply passesTo_char hbacktick
  · intro hc
    cases rest with
    | nil => exact hend hc rfl
    | cons next tail => exact hescape next tail hc rfl
  · intro hc hbrace
    obtain ⟨tail, hrest⟩ := List.head?_eq_some_iff.mp hbrace
    exact hdollar tail hc hrest

theorem passesTo_escape (c : Char) (rest : List Char) : PassesTo ['\\', c] rest := by
  unfold PassesTo
  rw [List.cons_append, List.cons_append, List.nil_append, walk]
  rfl

/-- A character that can neither begin a delimiter nor hide one. -/
def Inert (c : Char) : Prop := c ≠ '\x60' ∧ c ≠ '\\' ∧ c ≠ '$'

theorem passesTo_of_inert {passed : List Char} (hinert : ∀ c ∈ passed, Inert c) (rest : List Char) :
    PassesTo passed rest := by
  induction passed with
  | nil => rfl
  | cons c passed ih =>
    obtain ⟨hbacktick, hbackslash, hdollar⟩ := hinert c List.mem_cons_self
    have hfirst : PassesTo [c] (passed ++ rest) :=
      passesTo_char hbacktick hbackslash (fun h => absurd h hdollar)
    exact hfirst.append (ih (fun c hmem => hinert c (List.mem_cons_of_mem _ hmem)))

theorem inert_of_class (inClass : Char → Bool) {c : Char} (hmem : inClass c = true)
    (hnone : ['\x60', '\\', '$'].any inClass = false) : Inert c := by
  simp only [List.any_cons, List.any_nil, Bool.or_eq_false_iff] at hnone
  refine ⟨?_, ?_, ?_⟩ <;> rintro rfl <;> simp_all

theorem inert_of_isHexDigit {c : Char} (hdigit : Character.isHexDigit c = true) : Inert c :=
  inert_of_class Character.isHexDigit hdigit (by decide)

theorem passesTo_unicodeBody {body : List Char} (hbody : Escape.UnicodeBody body)
    (rest : List Char) :
    PassesTo body rest := by
  cases hbody with
  | run body hrun =>
    apply passesTo_of_inert
    intro c hmem
    rcases hrun c hmem with hdigit | rfl | rfl
    · exact inert_of_isHexDigit hdigit
    · exact ⟨by decide, by decide, by decide⟩
    · exact ⟨by decide, by decide, by decide⟩
  | pair high low hhigh hlow =>
    have hlast := passesTo_of_inert (fun c hmem => inert_of_isHexDigit (hlow c hmem)) rest
    have hpair : PassesTo ('\\' :: 'u' :: low) rest :=
      (passesTo_escape 'u' (low ++ rest)).append hlast
    exact (passesTo_of_inert (fun c hmem => inert_of_isHexDigit (hhigh c hmem)) _).append hpair

/-- What the decoder consumes of an escape holds no delimiter that the search would
    stop at, and hides none that comes after it. -/
theorem passesTo_body {body : List Char} (hbody : Escape.Body body) (hne : body ≠ [])
    (rest : List Char) :
    PassesTo ('\\' :: body) rest := by
  cases hbody with
  | nothing => exact absurd rfl hne
  | single c => exact passesTo_escape c rest
  | returnFeed =>
    exact (passesTo_escape '\r' ('\n' :: rest)).append (passesTo_char (by decide) (by decide) (by simp))
  | hex high low hhigh hlow =>
    have hdigits : PassesTo [high, low] rest := by
      apply passesTo_of_inert
      simp only [List.mem_cons, List.not_mem_nil, or_false]
      rintro c (rfl | rfl)
      · exact inert_of_isHexDigit hhigh
      · exact inert_of_isHexDigit hlow
    exact (passesTo_escape 'x' (high :: low :: rest)).append hdigits
  | octal _ hdigits =>
    cases body with
    | nil => exact absurd rfl hne
    | cons first more =>
      have hmore : PassesTo more rest := by
        apply passesTo_of_inert
        intro c hmem
        exact inert_of_class Character.isOctalDigit (hdigits c (List.mem_cons_of_mem _ hmem)) (by decide)
      exact (passesTo_escape first (more ++ rest)).append hmore
  | unicode body hbody =>
    exact (passesTo_escape 'u' (body ++ rest)).append (passesTo_unicodeBody hbody rest)

/-- The search passes an escape to where the decoder leaves it, also where a
    malformed escape left its digit behind. -/
theorem passesTo_reading {first : Char} {tail : List Char} {reading : Escape.Reading (List Char)}
    (hdivides : Escape.Divides (first :: tail) reading) :
    PassesTo ('\\' :: (first :: tail).take reading.width) ((first :: tail).drop reading.width) := by
  by_cases hzero : reading.width = 0
  · have hdigit := hdivides.digit hzero
    obtain ⟨hbacktick, hbackslash, hdollar⟩ : Inert first :=
      inert_of_class Char.isDigit (by simpa using hdigit) (by decide)
    have hsingle : walk (first :: tail) = (first :: (walk tail).1, (walk tail).2) :=
      passesTo_char hbacktick hbackslash (fun h => absurd h hdollar)
    have hescape : walk ('\\' :: first :: tail) = ('\\' :: first :: (walk tail).1, (walk tail).2) :=
      passesTo_escape first tail
    rw [hzero, PassesTo, List.take_zero, List.drop_zero, List.cons_append, List.nil_append, hescape,
      hsingle]
    rfl
  · apply passesTo_body hdivides.body
    intro hnil
    rw [List.take_eq_nil_iff] at hnil
    exact hnil.elim hzero (by simp)

/-- The delimiter that makes a token of a segment. -/
def closer : Token → List Char
  | .templateTail => ['\x60']
  | .templateCont => ['$', '\x7b']
  | _ => []

@[simp] theorem length_closer (token : Token) : (closer token).length = token.closerLength := by
  cases token <;> rfl

@[simp] theorem utf8Length_closer (token : Token) :
    Text.utf8Length (closer token) = token.closerLength := by
  cases token <;> rfl

/-- The delimiter that the search stops at comes right after the text it passes. -/
theorem walk_delimiter {text : List Char} {token : Token} (hstop : (walk text).2 = some token) :
    (token = .templateTail ∨ token = .templateCont) ∧
      ∃ rest, text = (walk text).1 ++ (closer token ++ rest) := by
  fun_induction walk text with
  | case1 => cases hstop
  | case2 rest =>
    cases hstop
    exact ⟨.inl rfl, rest, rfl⟩
  | case3 rest =>
    cases hstop
    exact ⟨.inr rfl, rest, rfl⟩
  | case4 c rest ih =>
    obtain ⟨htoken, after, hrest⟩ := ih hstop
    exact ⟨htoken, after, congrArg ('\\' :: c :: ·) hrest⟩
  | case5 c rest _ _ _ ih =>
    obtain ⟨htoken, after, hrest⟩ := ih hstop
    exact ⟨htoken, after, congrArg (c :: ·) hrest⟩

theorem take_delimiter {text : List Char} {token : Token} (hstop : (walk text).2 = some token) :
    text.take ((walk text).1.length + token.closerLength) = (walk text).1 ++ closer token := by
  obtain ⟨-, rest, htext⟩ := walk_delimiter hstop
  generalize (walk text).1 = passed at *
  rw [htext, List.take_length_add_append, ← length_closer, List.take_left]

/-- A reading that goes on to the delimiter the search finds, and fails at the end
    of the text when there is none. -/
def Closes (text : List Char) (lexeme : Lexeme) : Prop :=
  match (walk text).2 with
  | some token => lexeme.result = .ok token ∧ lexeme.width = (walk text).1.length + token.closerLength
  | none => lexeme.result = .error ⟨.unexpectedEndOfInput, text.length⟩ ∧ lexeme.width = text.length

theorem Closes.after {passed rest : List Char} {lexeme : Lexeme} (hcloses : Closes rest lexeme)
    (hpasses : PassesTo passed rest) (value : List Char) (flags : Flags) :
    Closes (passed ++ rest) (lexeme.after passed.length value flags) := by
  unfold Closes at *
  rw [hpasses]
  cases hstop : (walk rest).2 with
  | none =>
    rw [hstop] at hcloses
    obtain ⟨hresult, hwidth⟩ := hcloses
    simp [Lexeme.after, hresult, hwidth]
  | some token =>
    rw [hstop] at hcloses
    obtain ⟨hresult, hwidth⟩ := hcloses
    simp [Lexeme.after, hresult, hwidth, Nat.add_assoc]

/-- A reading that gives a token has found the delimiter of that token. -/
theorem Closes.stop {text : List Char} {lexeme : Lexeme} {token : Token}
    (hcloses : Closes text lexeme)
    (hresult : lexeme.result = .ok token) : (walk text).2 = some token := by
  unfold Closes at hcloses
  cases hstop : (walk text).2 with
  | none =>
    rw [hstop] at hcloses
    cases hresult.symm.trans hcloses.1
  | some found =>
    rw [hstop] at hcloses
    cases hresult.symm.trans hcloses.1
    rfl

/-- Reading on without a cooked value is the search. -/
theorem uncooked_closes (text : List Char) : Closes text (uncooked text) := by
  fun_induction uncooked text with
  | case1 => exact ⟨rfl, rfl⟩
  | case2 => exact ⟨rfl, rfl⟩
  | case3 => exact ⟨rfl, rfl⟩
  | case4 => exact ⟨rfl, rfl⟩
  | case5 c rest ih => exact ih.after (passesTo_escape c rest) [] {}
  | case6 c rest hbacktick hdollar hend hbackslash ih =>
    exact ih.after (passesTo_ordinary hbacktick hdollar hend hbackslash) [] {}

end EcmaLexer.Template
