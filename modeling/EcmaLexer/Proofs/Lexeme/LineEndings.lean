import EcmaLexer.Proofs.Lexeme.Stopping
import EcmaLexer.Proofs.Text.LineEndings
import EcmaLexer.Proofs.Trivia.Filler

namespace EcmaLexer

open Text (CleanCut Stopped isLineTerminator normLines normLines_append normLines_cons
  normLines_cons_of_cleanCut)

/-- A cut of a text is one of the normalized text too. -/
theorem Text.split_normLines {text : List Char} {width : Nat}
    (hcut : CleanCut (text.take width) (text.drop width)) :
    (normLines text).take (normLines (text.take width)).length = normLines (text.take width) ∧
      (normLines text).drop (normLines (text.take width)).length = normLines (text.drop width) := by
  have hsplit := normLines_append hcut
  rw [List.take_append_drop] at hsplit
  rw [hsplit]
  exact ⟨List.take_left, List.drop_left⟩

theorem Text.mem_stops_of_isLineTerminator {c : Char} (hbreak : isLineTerminator c = true) :
    c ∈ stops := by
  rcases eq_of_isLineTerminator hbreak with rfl | rfl | rfl | rfl <;> decide

/-- Both texts are the same up to the end of their first line. -/
theorem Text.exists_line (text : List Char) :
    ∃ line right, text = line ++ right ∧ normLines text = line ++ normLines right ∧
      Stopped right ∧ Stopped (normLines right) := by
  obtain ⟨hunbroken, hstops⟩ := Trivia.isLine_takeWhile text
  have hsplit := (List.takeWhile_append_dropWhile (p := (!isLineTerminator ·)) (l := text)).symm
  refine ⟨_, _, hsplit, ?_, fun c hhead => mem_stops_of_isLineTerminator (hstops c hhead), ?_⟩
  · rw [← normLines_append_of_unbroken hunbroken, ← hsplit]
  · intro d hhead
    rw [head?_normLines, Option.map_eq_some_iff] at hhead
    obtain ⟨c, hc, rfl⟩ := hhead
    split
    · decide
    · exact mem_stops_of_isLineTerminator (hstops c hc)

namespace Lexeme

/-- The same reading of the normalized text. -/
def normalized (text : List Char) (lexeme : Lexeme) : Lexeme :=
  { lexeme with
    width := (normLines (text.take lexeme.width)).length
    result := match lexeme.result with
      | .ok token => .ok token
      | .error misread =>
        .error ⟨misread.fault, (normLines (text.take misread.before)).length⟩ }

theorem normalized_after {text : List Char} {width : Nat}
    (hcut : CleanCut (text.take width) (text.drop width)) (lexeme : Lexeme) (value : List Char)
    (flags : Flags) :
    (lexeme.after width value flags).normalized text =
      (lexeme.normalized (text.drop width)).after (normLines (text.take width)).length value
        flags := by
  have hlength (more : Nat) : (normLines (text.take (width + more))).length =
      (normLines (text.take width)).length +
        (normLines ((text.drop width).take more)).length := by
    rw [List.take_add, normLines_append (hcut.take more), List.length_append]
  cases hresult : lexeme.result with
  | ok token => simp [normalized, after, hresult, hlength]
  | error misread => simp [normalized, after, hresult, hlength]

theorem normalized_after_one {c : Char} {rest : List Char} (hcut : CleanCut [c] rest)
    (lexeme : Lexeme) (value : List Char) (flags : Flags) :
    (lexeme.after 1 value flags).normalized (c :: rest) =
      (lexeme.normalized rest).after 1 value flags := by
  have hwidth : CleanCut ((c :: rest).take 1) ((c :: rest).drop 1) := hcut
  have hlength : (normLines [c]).length = 1 := by
    rw [normLines_cons_of_cleanCut (.nil_right _)]
    rfl
  rw [normalized_after hwidth, List.take_succ_cons, List.take_zero, hlength, List.drop_succ_cons,
    List.drop_zero]

theorem after_after (lexeme : Lexeme) (width more : Nat) (value : List Char) :
    (lexeme.after more [] {}).after width value {} = lexeme.after (width + more) value {} := by
  rcases lexeme with ⟨_, _, _, _ | _⟩ <;> simp [after, Flags.union, Nat.add_assoc]

/-- A reading that stays on its line is the same in both texts. -/
theorem Inline.normalized_eq {text : List Char} {lexeme : Lexeme} (hinline : Inline text lexeme) :
    lexeme.normalized text = lexeme := by
  have hlength {width : Nat} (hwidth : width ≤ lexeme.width) :
      (normLines (text.take width)).length = width := by
    have htake : (text.take lexeme.width).take width = text.take width := by
      rw [List.take_take, Nat.min_eq_left hwidth]
    rw [Text.normLines_of_unbroken, List.length_take_of_le (Nat.le_trans hwidth hinline.width_le)]
    intro c hmem
    rw [← htake] at hmem
    exact hinline.unbroken c (List.mem_of_mem_take hmem)
  have hresult : (lexeme.normalized text).result = lexeme.result := by
    cases hresult : lexeme.result with
    | ok token => simp only [normalized, hresult]
    | error misread =>
      simp only [normalized, hresult, hlength (hinline.before_le misread hresult)]
  have hwidth : (lexeme.normalized text).width = lexeme.width := hlength (Nat.le_refl _)
  calc lexeme.normalized text
      = { lexeme with
          width := (lexeme.normalized text).width
          result := (lexeme.normalized text).result } := rfl
    _ = lexeme := by rw [hresult, hwidth]

/-- What begins with neither a quote nor a backtick is read alike in both texts. -/
theorem read_normLines_inline {c : Char} (hquote : StartClass.ofChar? c ≠ some .quote)
    (hbacktick : c ≠ '\x60') (context : Context) (rest : List Char) :
    read context c (normLines rest) = (read context c rest).normalized (c :: rest) := by
  obtain ⟨line, right, rfl, hline, hright, hnormalized⟩ := Text.exists_line rest
  rw [(read_inline hquote hbacktick context _).normalized_eq, hline,
    read_append hnormalized hquote hbacktick, read_append hright hquote hbacktick]

end Lexeme

namespace Escape

/-- Only a pair of carriage return and line feed, or a carriage return alone, has one. -/
theorem Body.ne_return {body : List Char} (hbody : Body body) (hhead : body.head? ≠ some '\r') :
    ∀ c ∈ body, c ≠ '\r' := by
  have hunbroken {c : Char} (hc : isLineTerminator c = false) : c ≠ '\r' := by
    rintro rfl
    cases hc
  cases hbody with
  | nothing => rintro _ ⟨⟩
  | single c =>
    intro d hmem
    rw [List.mem_singleton.mp hmem]
    exact fun hreturn => hhead (by rw [hreturn]; rfl)
  | returnFeed => exact absurd rfl hhead
  | hex high low hhigh hlow =>
    intro c hmem
    simp only [List.mem_cons, List.not_mem_nil, or_false] at hmem
    rcases hmem with rfl | rfl | rfl
    · decide
    · exact hunbroken (isLineTerminator_of_isHexDigit hhigh)
    · exact hunbroken (isLineTerminator_of_isHexDigit hlow)
  | octal _ hdigits =>
    intro c hmem
    exact hunbroken (Text.isLineTerminator_eq_false Character.isOctalDigit (hdigits c hmem)
      (by decide))
  | unicode body hbody =>
    intro c hmem
    rcases List.mem_cons.mp hmem with rfl | hmem
    · decide
    · exact hunbroken (hbody.unbroken c hmem)

theorem read_spelled (site : Site) (strict : Bool) (first : Char) (tail : List Char) :
    ∃ found rest, normLines (first :: tail) = found :: rest ∧
      read site strict found rest =
        ⟨(normLines ((first :: tail).take (read site strict first tail).width)).length,
          (read site strict first tail).result⟩ := by
  by_cases hreturn : first = '\r'
  · subst hreturn
    by_cases hfeed : tail.head? = some '\n'
    · obtain ⟨rest, rfl⟩ := List.head?_eq_some_iff.mp hfeed
      exact ⟨'\n', normLines rest, by rw [normLines], rfl⟩
    · have hread : read site strict '\r' tail = ⟨1, .ok []⟩ := by
        have hpair : ('\r' = '\r' && tail.head? = some '\n') = false := by simp [hfeed]
        rw [read, hpair]
        rfl
      refine ⟨'\n', normLines tail, ?_, by rw [hread]; rfl⟩
      rw [normLines.eq_3]
      exact fun rest hrest => hfeed (by rw [hrest]; rfl)
  · refine ⟨first, normLines tail, normLines_cons hreturn tail, ?_⟩
    have hdivides := read_divides site strict first tail
    have htake : ∀ c ∈ (first :: tail).take (read site strict first tail).width, c ≠ '\r' := by
      apply hdivides.body.ne_return
      rw [List.head?_take]
      split
      · rintro ⟨⟩
      · exact fun hhead => hreturn (Option.some.inj hhead)
    rw [Text.normLines_eq_self htake, List.length_take_of_le hdivides.width_le]
    obtain ⟨line, right, rfl, hline, hright, hnormalized⟩ := Text.exists_line tail
    rw [hline, read_append hnormalized site strict hreturn, read_append hright site strict hreturn]

/-- An escape is read alike in both texts, and the same comes after it. -/
theorem read_normLines (site : Site) (strict : Bool) (first : Char) (tail : List Char) :
    ∃ found rest, normLines (first :: tail) = found :: rest ∧
      read site strict found rest =
        ⟨(normLines ((first :: tail).take (read site strict first tail).width)).length,
          (read site strict first tail).result⟩ ∧
      (found :: rest).drop
          (normLines ((first :: tail).take (read site strict first tail).width)).length =
        normLines ((first :: tail).drop (read site strict first tail).width) := by
  obtain ⟨found, rest, hnormal, hread⟩ := read_spelled site strict first tail
  have hdivides := read_divides site strict first tail
  refine ⟨found, rest, hnormal, hread, ?_⟩
  rw [← hnormal]
  exact (Text.split_normLines hdivides.clean).2

end Escape

/-- What comes after an escape, with the backslash before it. -/
theorem Lexeme.normalized_escape {text : List Char} {reading : Escape.Reading (List Char)}
    (hdivides : Escape.Divides text reading) (lexeme : Lexeme) (value : List Char) (flags : Flags) :
    (lexeme.after (1 + reading.width) value flags).normalized ('\\' :: text) =
      (lexeme.normalized (text.drop reading.width)).after
        (1 + (normLines (text.take reading.width)).length) value flags := by
  have htake : ('\\' :: text).take (1 + reading.width) = '\\' :: text.take reading.width := by
    rw [Nat.add_comm, List.take_succ_cons]
  have hdrop : ('\\' :: text).drop (1 + reading.width) = text.drop reading.width := by
    rw [Nat.add_comm, List.drop_succ_cons]
  have hbackslash : CleanCut ['\\'] (text.drop reading.width) := .of_unbroken (by simp; decide)
  have hcut : CleanCut (('\\' :: text).take (1 + reading.width))
      (('\\' :: text).drop (1 + reading.width)) := by
    rw [htake, hdrop]
    exact .append_left (fun _ => hbackslash) hdivides.clean
  rw [normalized_after hcut, htake, hdrop, normLines_cons (by decide), List.length_cons,
    Nat.add_comm 1]

/-- A malformed escape, with the backslash before it. -/
theorem Lexeme.normalized_reject_escape {text : List Char} {reading : Escape.Reading (List Char)}
    (hdivides : Escape.Divides text reading) {escapeFault : EscapeFault}
    (hresult : reading.result = .error escapeFault) (fault : Fault) :
    (Lexeme.reject fault (1 + reading.width) 0).normalized ('\\' :: text) =
      .reject fault (1 + (normLines (text.take reading.width)).length) 0 := by
  have hunbroken := hdivides.unbroken escapeFault hresult
  have htake : ('\\' :: text).take (1 + reading.width) = '\\' :: text.take reading.width := by
    rw [Nat.add_comm, List.take_succ_cons]
  have hlength : (normLines (text.take reading.width)).length = reading.width := by
    rw [Text.normLines_of_unbroken hunbroken, List.length_take_of_le hdivides.width_le]
  rw [hlength]
  apply Inline.normalized_eq
  refine .reject ?_ ?_ (Nat.zero_le _) _
  · have hle := hdivides.width_le
    rw [List.length_cons]
    omega
  · rw [htake]
    intro c hmem
    rcases List.mem_cons.mp hmem with rfl | hmem
    · decide
    · exact hunbroken c hmem

namespace StringLiteral

/-- A string literal is read alike in both texts. -/
theorem body_normLines {quote : Char} (hquote : isLineTerminator quote = false) (strict : Bool)
    (text : List Char) :
    body strict quote (normLines text) = (body strict quote text).normalized text := by
  have hreturn : quote ≠ '\r' := by
    rintro rfl
    cases hquote
  fun_induction body strict quote text with
  | case1 => rw [normLines, body, (Lexeme.Inline.reject_zero [] _).normalized_eq]
  | case2 rest =>
    rw [normLines_cons hreturn, body.eq_def, Lexeme.Inline.normalized_eq]
    · exact if_pos rfl
    · exact .accept (by simp) (by simpa using hquote) rfl
  | case3 hc =>
    rw [normLines_cons (by decide), normLines, body.eq_def]
    simp only [hc, if_false, if_true]
    rfl
  | case4 first tail escape value hresult hc ih =>
    obtain ⟨found, rest, hnormal, hread, hdrop⟩ :=
      Escape.read_normLines .stringLiteral strict first tail
    have hdivides := Escape.read_divides .stringLiteral strict first tail
    have hescape : (Escape.read .stringLiteral strict first tail).result = .ok value := hresult
    rw [normLines_cons (by decide), hnormal, body.eq_def]
    simp only [hc, if_false, if_true, hread, hescape, hdrop]
    rw [ih, Lexeme.normalized_escape hdivides]
  | case5 first tail escape fault hresult hc =>
    obtain ⟨found, rest, hnormal, hread, -⟩ :=
      Escape.read_normLines .stringLiteral strict first tail
    have hdivides := Escape.read_divides .stringLiteral strict first tail
    have hescape : (Escape.read .stringLiteral strict first tail).result = .error fault := hresult
    rw [normLines_cons (by decide), hnormal, body.eq_def]
    simp only [hc, if_false, if_true, hread, hescape]
    rw [Lexeme.normalized_reject_escape hdivides hescape]
  | case6 c rest hc hbackslash hbreak =>
    obtain ⟨tail, hfeed⟩ : ∃ tail, normLines (c :: rest) = '\n' :: tail := by
      rw [← List.head?_eq_some_iff, Text.head?_normLines]
      simp only [Bool.or_eq_true, decide_eq_true_eq] at hbreak
      rcases hbreak with rfl | rfl <;> rfl
    have hne : '\n' ≠ quote := by
      rintro rfl
      cases hquote
    rw [hfeed, body.eq_def, (Lexeme.Inline.reject_zero _ _).normalized_eq]
    simp [hne]
  | case7 c rest hc hbackslash hbreak ih =>
    have hne : c ≠ '\r' := by
      rintro rfl
      exact hbreak rfl
    rw [normLines_cons hne, body.eq_def, Lexeme.normalized_after_one (.of_ne hne rest)]
    simp only [hc, hbackslash, hbreak, if_false]
    rw [ih]
    rfl

end StringLiteral

namespace Template

theorem uncooked_ordinary {c : Char} {rest : List Char} (hbacktick : c ≠ '\x60')
    (hbackslash : c ≠ '\\') (hdollar : c = '$' → rest.head? ≠ some '\x7b') :
    uncooked (c :: rest) = (uncooked rest).after 1 [] {} := by
  rw [uncooked.eq_6]
  · exact hbacktick
  · exact fun tail hc hrest => hdollar hc (by rw [hrest]; rfl)
  · exact fun hc => absurd hc hbackslash
  · exact fun _ _ hc => absurd hc hbackslash

theorem segment_ordinary (context : Context) {c : Char} {rest : List Char} (hbacktick : c ≠ '\x60')
    (hbackslash : c ≠ '\\') (hreturn : c ≠ '\r')
    (hdollar : c = '$' → rest.head? ≠ some '\x7b') :
    segment context (c :: rest) = (segment context rest).after 1 [c] {} := by
  rw [segment.eq_8]
  · exact hbacktick
  · exact fun tail hc hrest => hdollar hc (by rw [hrest]; rfl)
  · exact fun hc => absurd hc hbackslash
  · exact fun _ _ hc => absurd hc hbackslash
  · exact fun _ hc => absurd hc hreturn
  · exact fun hc => absurd hc hreturn

/-- A dollar sign opens a substitution in both texts or in none. -/
theorem head?_normLines_ne_brace {rest : List Char}
    (hbrace : ∀ tail, rest = '\x7b' :: tail → False) :
    (normLines rest).head? ≠ some '\x7b' := by
  intro hhead
  obtain ⟨_, hnormal⟩ := List.head?_eq_some_iff.mp hhead
  obtain ⟨tail, hrest⟩ := Text.eq_cons_of_normLines (by decide) hnormal
  exact hbrace tail hrest

theorem ne_backslash {c : Char} {rest : List Char} (hend : c = '\\' → rest = [] → False)
    (hescape : ∀ next tail, c = '\\' → rest = next :: tail → False) : c ≠ '\\' := by
  intro hc
  cases rest with
  | nil => exact hend hc rfl
  | cons next tail => exact hescape next tail hc rfl

/-- Where no value is cooked, an escaped pair is passed as an escaped return and a feed. -/
theorem uncooked_normLines (text : List Char) :
    uncooked (normLines text) = (uncooked text).normalized text := by
  have hfeed (rest : List Char) : uncooked ('\n' :: rest) = (uncooked rest).after 1 [] {} :=
    uncooked_ordinary (by decide) (by decide) (fun hc => absurd hc (by decide))
  have hpair {rest : List Char} (hrest : uncooked (normLines ('\n' :: rest)) =
      (uncooked ('\n' :: rest)).normalized ('\n' :: rest)) :
      (uncooked (normLines rest)).after 1 [] {} =
        ((uncooked rest).normalized rest).after 1 [] {} := by
    rw [normLines_cons (by decide), hfeed, hfeed,
      Lexeme.normalized_after_one (.of_ne (by decide) rest)] at hrest
    exact hrest
  fun_induction uncooked text with
  | case1 => rfl
  | case2 rest =>
    rw [normLines_cons (by decide), uncooked]
    rfl
  | case3 rest =>
    rw [normLines_cons (by decide), normLines_cons (by decide), uncooked]
    rfl
  | case4 => rfl
  | case5 c rest ih =>
    by_cases hcut : CleanCut [c] rest
    · have htake : CleanCut (('\\' :: c :: rest).take 2) (('\\' :: c :: rest).drop 2) := hcut
      have hlength : (normLines ['\\', c]).length = 2 := by
        rw [normLines_cons (by decide), normLines_cons_of_cleanCut (.nil_right _)]
        rfl
      rw [normLines_cons (by decide), normLines_cons_of_cleanCut hcut, uncooked, ih,
        Lexeme.normalized_after htake]
      simp only [List.take_succ_cons, List.take_zero, hlength, List.drop_succ_cons, List.drop_zero]
    · obtain ⟨rfl, tail, rfl⟩ : c = '\r' ∧ ∃ tail, rest = '\n' :: tail :=
        Text.eq_pair_of_not_cleanCut hcut
      have htake : CleanCut (('\\' :: '\r' :: '\n' :: tail).take 3)
          (('\\' :: '\r' :: '\n' :: tail).drop 3) := .of_last_ne (by decide) ['\\', '\r'] tail
      have hafter := congrArg (Lexeme.after 1 [] {}) (hpair ih)
      rw [Lexeme.after_after, Lexeme.after_after] at hafter
      rw [normLines_cons (by decide), normLines, uncooked, hfeed, Lexeme.after_after,
        Lexeme.normalized_after htake]
      exact hafter
  | case6 c rest hbacktick hdollar hend hescape ih =>
    by_cases hcut : CleanCut [c] rest
    · rw [normLines_cons_of_cleanCut hcut, Lexeme.normalized_after_one hcut, ← ih]
      split
      · exact hfeed _
      · exact uncooked_ordinary hbacktick (ne_backslash hend hescape)
          fun hc => head?_normLines_ne_brace fun tail => hdollar tail hc
    · obtain ⟨rfl, tail, rfl⟩ : c = '\r' ∧ ∃ tail, rest = '\n' :: tail :=
        Text.eq_pair_of_not_cleanCut hcut
      have htake : CleanCut (('\r' :: '\n' :: tail).take 2)
          (('\r' :: '\n' :: tail).drop 2) := .of_last_ne (by decide) ['\r'] tail
      rw [normLines, hfeed, hpair ih, hfeed, Lexeme.after_after, Lexeme.normalized_after htake]
      rfl

theorem normalized_abandon (text : List Char) (lexeme : Lexeme) :
    (abandon lexeme).normalized text = abandon (lexeme.normalized text) := rfl

/-- A segment is read alike in both texts. -/
theorem segment_normLines (context : Context) (text : List Char) :
    segment context (normLines text) = (segment context text).normalized text := by
  fun_induction segment context text with
  | case1 => rw [normLines, segment, (Lexeme.Inline.reject_zero [] _).normalized_eq]
  | case2 rest =>
    rw [normLines_cons (by decide), segment]
    rfl
  | case3 rest =>
    rw [normLines_cons (by decide), normLines_cons (by decide), segment]
    rfl
  | case4 =>
    rw [normLines_cons (by decide), normLines, segment]
    rfl
  | case5 first tail escape left value hresult ih =>
    obtain ⟨found, rest, hnormal, hread, hdrop⟩ :=
      Escape.read_normLines .template context.strict first tail
    have hdivides := Escape.read_divides .template context.strict first tail
    have hescape : (Escape.read .template context.strict first tail).result = .ok value := hresult
    rw [normLines_cons (by decide), hnormal, segment]
    simp only [hread, hescape, hdrop]
    rw [ih, Lexeme.normalized_escape hdivides]
  | case6 first tail escape left fault hresult htagged =>
    obtain ⟨found, rest, hnormal, hread, hdrop⟩ :=
      Escape.read_normLines .template context.strict first tail
    have hdivides := Escape.read_divides .template context.strict first tail
    have hescape : (Escape.read .template context.strict first tail).result = .error fault :=
      hresult
    rw [normLines_cons (by decide), hnormal, segment]
    simp only [hread, hescape, hdrop, htagged, if_true]
    rw [normalized_abandon, Lexeme.normalized_escape hdivides, uncooked_normLines]
  | case7 first tail escape fault hresult htagged =>
    obtain ⟨found, rest, hnormal, hread, -⟩ :=
      Escape.read_normLines .template context.strict first tail
    have hdivides := Escape.read_divides .template context.strict first tail
    have hescape : (Escape.read .template context.strict first tail).result = .error fault :=
      hresult
    rw [normLines_cons (by decide), hnormal, segment]
    simp only [hread, hescape, htagged]
    exact (Lexeme.normalized_reject_escape hdivides hescape _).symm
  | case8 rest ih =>
    have htake : CleanCut (('\r' :: '\n' :: rest).take 2) (('\r' :: '\n' :: rest).drop 2) :=
      .of_last_ne (by decide) ['\r'] rest
    rw [normLines, segment_ordinary context (by decide) (by decide) (by decide) (by simp), ih,
      Lexeme.normalized_after htake]
    rfl
  | case9 rest hpair ih =>
    have hcut : CleanCut ['\r'] rest := by
      intro _ hhead
      obtain ⟨tail, hrest⟩ := List.head?_eq_some_iff.mp hhead
      exact hpair tail hrest
    rw [normLines_cons_of_cleanCut hcut, if_pos rfl,
      segment_ordinary context (by decide) (by decide) (by decide) (by simp), ih,
      Lexeme.normalized_after_one hcut]
  | case10 c rest hbacktick hdollar hend hescape hpair hreturn ih =>
    rw [normLines_cons hreturn, Lexeme.normalized_after_one (.of_ne hreturn rest), ← ih]
    exact segment_ordinary context hbacktick (ne_backslash hend hescape) hreturn
      fun hc => head?_normLines_ne_brace fun tail => hdollar tail hc

end Template

/-- Every token is read alike in both texts. -/
theorem Lexeme.read_normLines {c : Char} (hreturn : c ≠ '\r') (context : Context)
    (rest : List Char) :
    read context c (normLines rest) = (read context c rest).normalized (c :: rest) := by
  by_cases hbacktick : c = '\x60'
  · have hread (rest : List Char) :
        read context c rest = (Template.segment context rest).after 1 [] {} := by
      rw [hbacktick]
      rfl
    rw [hread, hread, normalized_after_one (.of_ne hreturn rest), Template.segment_normLines]
  by_cases hclass : StartClass.ofChar? c = some .quote
  · have hquote := isLineTerminator_of_class hclass (by decide)
    have hread (rest : List Char) :
        read context c rest = (StringLiteral.body context.strict c rest).after 1 [] {} := by
      rw [read, hclass]
      rfl
    rw [hread, hread, normalized_after_one (.of_ne hreturn rest),
      StringLiteral.body_normLines hquote]
  · exact read_normLines_inline hclass hbacktick context rest

end EcmaLexer
