import EcmaLexer.Proofs.Escape.Unicode
import EcmaLexer.Proofs.Lexeme.Stopping

namespace EcmaLexer.Name

open Escape (UnicodeRead)

/-- One character of a name before `rest`: it stands for itself, or is spelled by a unicode
    escape. -/
inductive Element (first : Bool) : List Char → List Char → Char → Prop where
  | plain {c : Char} (rest : List Char) (hc : allowed first c = true) : Element first [c] rest c
  | escaped {digits rest : List Char} {c : Char}
      (hread : UnicodeRead (digits ++ rest) ⟨digits.length, .ok c⟩)
      (hc : allowed first c = true) : Element first ('\\' :: 'u' :: digits) rest c

/-- A sequence of such characters before `rest`, and the name that they make up. -/
inductive Elements (rest : List Char) : Bool → List Char → List Char → Prop where
  | nil (first : Bool) : Elements rest first [] []
  | cons {first : Bool} {spelling more value : List Char} {c : Char}
      (hfirst : Element first spelling (more ++ rest) c) (hmore : Elements rest false more value) :
      Elements rest first (spelling ++ more) (c :: value)

/-- The longest name at the head of a text, which `rest` follows. -/
structure LongestName (text name rest value : List Char) : Prop where
  split : name ++ rest = text
  spelled : Elements rest true name value
  longest : ∀ other after found, other ++ after = text → Elements after true other found →
    other.length ≤ name.length

/-- Why a name cannot go on at a backslash. -/
inductive Refused (first : Bool) : List Char → Fault → Prop where
  | misplaced {text : List Char} {width : Nat} {c : Char}
      (hread : UnicodeRead text ⟨width, .ok c⟩) (hc : allowed first c = false) :
      Refused first ('\\' :: 'u' :: text) (.invalidCharacter c)
  | malformed {text : List Char} {width : Nat} {fault : EscapeFault}
      (hread : UnicodeRead text ⟨width, .error fault⟩) :
      Refused first ('\\' :: 'u' :: text) (.invalidEscapeSequence fault)
  | other {text : List Char} (hunicode : text.head? ≠ some 'u') :
      Refused first ('\\' :: text) (.invalidCharacter '\\')

/-- How a name ends: at a backslash that cannot be read on, or at what is no part of a name. -/
inductive Stops (first : Bool) : List Char → Prop where
  | refused {text : List Char} {fault : Fault} (hrefused : Refused first text fault) :
      Stops first text
  | finished {text : List Char} (hbackslash : text.head? ≠ some '\\')
      (hhead : text.head?.any (allowed first) = false) : Stops first text

theorem allowed_backslash (first : Bool) : allowed first '\\' = false := by
  cases first <;> decide +kernel

theorem Element.ne_nil {first : Bool} {spelling rest : List Char} {c : Char}
    (helement : Element first spelling rest c) : spelling ≠ [] := by
  cases helement <;> exact List.cons_ne_nil _ _

/-- A text leaves only one way to read the character that it begins with. -/
theorem Element.unique {first : Bool} {spelling rest other after : List Char} {c d : Char}
    (helement : Element first spelling rest c) (hother : Element first other after d)
    (htext : spelling ++ rest = other ++ after) : spelling = other ∧ c = d := by
  cases helement with
  | plain rest hc =>
    cases hother with
    | plain after hd =>
      obtain ⟨rfl, -⟩ := List.cons.inj htext
      exact ⟨rfl, rfl⟩
    | escaped hread hd =>
      rw [(List.cons.inj htext).1, allowed_backslash] at hc
      cases hc
  | @escaped digits _ _ hread hc =>
    cases hother with
    | plain after hd =>
      rw [← (List.cons.inj htext).1, allowed_backslash] at hd
      cases hd
    | @escaped more _ _ hmore hd =>
      have hrest : digits ++ rest = more ++ after := (List.cons.inj (List.cons.inj htext).2).2
      rw [hrest] at hread
      have hsame := hread.eq.symm.trans hmore.eq
      simp only [Escape.Reading.mk.injEq, Except.ok.injEq] at hsame
      rw [(List.append_inj hrest hsame.1).1]
      exact ⟨rfl, hsame.2⟩

theorem isEmpty_append {first : Bool} {spelling rest : List Char} {c : Char}
    (helement : Element first spelling rest c) (more : List Char) :
    (spelling ++ more).isEmpty = false :=
  List.isEmpty_eq_false_iff.mpr (List.append_ne_nil_of_left_ne_nil helement.ne_nil more)

/-- Where a name ends, no character of it begins. -/
theorem Stops.not_element {first : Bool} {spelling rest : List Char} {c : Char}
    (hstops : Stops first (spelling ++ rest)) : ¬Element first spelling rest c := by
  intro helement
  cases helement with
  | plain rest hc =>
    cases hstops with
    | refused hrefused =>
      cases hrefused <;> (rw [allowed_backslash] at hc; cases hc)
    | finished hbackslash hhead =>
      rw [List.singleton_append, List.head?_cons, Option.any_some, hc] at hhead
      cases hhead
  | @escaped digits _ _ hread hc =>
    cases hstops with
    | refused hrefused =>
      cases hrefused with
      | misplaced hother hd =>
        cases hread.eq.symm.trans hother.eq
        rw [hc] at hd
        cases hd
      | malformed hother => cases hread.eq.symm.trans hother.eq
      | other hunicode => exact hunicode rfl
    | finished hbackslash hhead => exact hbackslash rfl

/-- A sequence that cannot go on is the longest one. -/
theorem Elements.length_le {first : Bool} {name rest value other after found : List Char}
    (helements : Elements rest first name value)
    (hstops : Stops (first && name.isEmpty) rest) (hother : Elements after first other found)
    (htext : other ++ after = name ++ rest) : other.length ≤ name.length := by
  induction hother generalizing name value with
  | nil => exact Nat.zero_le _
  | @cons first spelling more found c hfirst hmore ih =>
    cases helements with
    | nil =>
      rw [List.isEmpty_nil, Bool.and_true, ← List.nil_append rest, ← htext,
        List.append_assoc] at hstops
      exact absurd hfirst hstops.not_element
    | @cons _ piece tail value d hpiece htail =>
      rw [List.append_assoc, List.append_assoc] at htext
      obtain ⟨rfl, -⟩ := hfirst.unique hpiece htext
      have hlater : Stops (false && tail.isEmpty) rest := by
        rwa [isEmpty_append hpiece, Bool.and_false] at hstops
      have hle := ih htail hlater (List.append_cancel_left htext)
      rw [List.length_append, List.length_append]
      omega

theorem Element.read {first : Bool} {spelling rest : List Char} {c : Char}
    (helement : Element first spelling rest c) :
    elements first (spelling ++ rest) =
      (elements false rest).after spelling.length [c]
        { unicodeEscape := decide ('\\' ∈ spelling) } := by
  cases helement with
  | plain rest hc =>
    have hbackslash : c ≠ '\\' := by
      rintro rfl
      rw [allowed_backslash] at hc
      cases hc
    have hescape : decide ('\\' ∈ [c]) = false := by simpa using Ne.symm hbackslash
    rw [List.singleton_append, elements_ordinary hbackslash, if_pos hc, hescape]
    rfl
  | @escaped digits _ _ hread hc =>
    have hunicode := hread.eq
    have hescape : decide ('\\' ∈ '\\' :: 'u' :: digits) = true := by simp
    rw [List.cons_append, List.cons_append, elements.eq_2, hescape]
    simp only [hunicode, hc, if_true, List.drop_left, List.length_cons]
    rw [Nat.add_comm 2]

/-- What the reader does with a sequence of characters: it takes all of them, and goes on after
    them. -/
theorem Elements.read {first : Bool} {name rest value : List Char}
    (helements : Elements rest first name value) :
    elements first (name ++ rest) =
      (elements (first && name.isEmpty) rest).after name.length value
        { unicodeEscape := decide ('\\' ∈ name) } := by
  induction helements with
  | nil first =>
    rw [List.nil_append, List.isEmpty_nil, Bool.and_true]
    exact (Lexeme.after_zero _).symm
  | @cons first spelling more value c hfirst hmore ih =>
    rw [List.append_assoc, hfirst.read, ih, Lexeme.after_append, isEmpty_append hfirst,
      List.length_append]
    simp [Flags.union]

/-- At the head of any text there is a sequence of characters that cannot go on. -/
theorem exists_elements (first : Bool) (text : List Char) :
    ∃ name rest value, name ++ rest = text ∧ Elements rest first name value ∧
      Stops (first && name.isEmpty) rest := by
  have hnone {first : Bool} {text : List Char} (hstops : Stops first text) :
      ∃ name rest value, name ++ rest = text ∧ Elements rest first name value ∧
        Stops (first && name.isEmpty) rest :=
    ⟨[], text, [], rfl, .nil first, by rwa [List.isEmpty_nil, Bool.and_true]⟩
  have hstep {first : Bool} {spelling rest : List Char} {c : Char}
      (helement : Element first spelling rest c)
      (hrest : ∃ name after value, name ++ after = rest ∧ Elements after false name value ∧
        Stops (false && name.isEmpty) after) :
      ∃ name after value, name ++ after = spelling ++ rest ∧ Elements after first name value ∧
        Stops (first && name.isEmpty) after := by
    obtain ⟨name, after, value, rfl, helements, hstops⟩ := hrest
    refine ⟨spelling ++ name, after, c :: value, List.append_assoc _ _ _,
      .cons helement helements, ?_⟩
    rwa [isEmpty_append helement, Bool.and_false]
  fun_induction elements first text with
  | case1 first => exact hnone (.finished (by rintro ⟨⟩) rfl)
  | case2 first rest escape c hresult hallowed ih =>
    have hread := Escape.unicodeRead_take rest
    have hescape : (Escape.unicode rest).result = .ok c := hresult
    rw [hescape] at hread
    have hfound := hstep (.escaped hread hallowed) ih
    rwa [List.cons_append, List.cons_append, List.take_append_drop] at hfound
  | case3 first rest escape c hresult hallowed =>
    have hescape : (Escape.unicode rest).result = .ok c := hresult
    have hread : UnicodeRead rest ⟨(Escape.unicode rest).width, .ok c⟩ := by
      rw [← hescape]
      exact Escape.unicode_read rest
    exact hnone (.refused (.misplaced hread (Bool.eq_false_iff.mpr hallowed)))
  | case4 first rest escape fault hresult =>
    have hescape : (Escape.unicode rest).result = .error fault := hresult
    have hread : UnicodeRead rest ⟨(Escape.unicode rest).width, .error fault⟩ := by
      rw [← hescape]
      exact Escape.unicode_read rest
    exact hnone (.refused (.malformed hread))
  | case5 first rest hunicode =>
    refine hnone (.refused (.other fun hhead => ?_))
    obtain ⟨tail, rfl⟩ := List.head?_eq_some_iff.mp hhead
    exact hunicode tail rfl
  | case6 first c rest hunicode hbackslash hallowed ih =>
    exact hstep (.plain rest hallowed) ih
  | case7 first c rest hunicode hbackslash hallowed =>
    refine hnone (.finished (fun hhead => ?_) (Bool.eq_false_iff.mpr hallowed))
    exact hbackslash (Option.some.inj hhead)

/-- Where a name ends nothing is read, or a backslash is refused. -/
theorem Stops.read {first : Bool} {text : List Char} (hstops : Stops first text) :
    (text.head? ≠ some '\\' ∧ elements first text = .accept .identifier 0) ∨
      ∃ fault width, text.head? = some '\\' ∧ Refused first text fault ∧
        elements first text = .reject fault width 0 := by
  cases hstops with
  | refused hrefused =>
    cases hrefused with
    | @misplaced rest width c hread hc =>
      refine .inr ⟨_, 2 + width, rfl, .misplaced hread hc, ?_⟩
      rw [elements.eq_2]
      simp only [hread.eq, hc, Bool.false_eq_true, if_false]
    | @malformed rest width fault hread =>
      refine .inr ⟨_, 2 + width, rfl, .malformed hread, ?_⟩
      rw [elements.eq_2]
      simp only [hread.eq]
    | @other rest hunicode =>
      refine .inr ⟨_, 1, rfl, .other hunicode, ?_⟩
      rw [elements.eq_3]
      rintro tail rfl
      exact hunicode rfl
  | finished hbackslash hhead =>
    refine .inl ⟨hbackslash, ?_⟩
    cases text with
    | nil => rw [elements.eq_1]
    | cons c rest =>
      have hc : allowed first c = false := hhead
      rw [elements_ordinary fun hc => hbackslash (congrArg some hc), hc]
      rfl

/-- The longest name is read off any text. -/
theorem exists_longestName (text : List Char) :
    ∃ name rest value, LongestName text name rest value ∧ Stops name.isEmpty rest := by
  obtain ⟨name, rest, value, rfl, helements, hstops⟩ := exists_elements true text
  refine ⟨name, rest, value, ⟨rfl, helements, fun other after found htext hother => ?_⟩, ?_⟩
  · exact helements.length_le hstops hother htext
  · rwa [Bool.true_and] at hstops

/-- Without an escape a name is its own spelling. -/
theorem Elements.eq_of_plain {first : Bool} {name rest value : List Char}
    (helements : Elements rest first name value) (hplain : '\\' ∉ name) : name = value := by
  induction helements with
  | nil => rfl
  | @cons first spelling more value c hfirst hmore ih =>
    rw [List.mem_append, not_or] at hplain
    cases hfirst with
    | plain => rw [ih hplain.2, List.singleton_append]
    | escaped => exact absurd List.mem_cons_self hplain.1

namespace LongestName

variable {text name rest value : List Char}

theorem read_finished (hlongest : LongestName text name rest value)
    (hstops : Stops name.isEmpty rest) (hbackslash : rest.head? ≠ some '\\') :
    settle (elements true text) =
      ⟨name.length, some value, { unicodeEscape := decide ('\\' ∈ name) }, .ok .identifier⟩ := by
  have hread : elements true text = ⟨name.length, some value,
      { unicodeEscape := decide ('\\' ∈ name) }, .ok .identifier⟩ := by
    rcases hstops.read with ⟨-, hrest⟩ | ⟨fault, width, hhead, -⟩
    · rw [← hlongest.split, hlongest.spelled.read, Bool.true_and, hrest]
      simp [Lexeme.after, Lexeme.accept, Flags.union]
    · exact absurd hhead hbackslash
  rw [hread]
  rfl

theorem read_refused (hlongest : LongestName text name rest value)
    (hstops : Stops name.isEmpty rest) (hbackslash : rest.head? = some '\\') :
    ∃ fault, Refused name.isEmpty rest fault ∧
      (settle (elements true text)).result = .error ⟨fault, name.length⟩ := by
  rcases hstops.read with ⟨hhead, -⟩ | ⟨fault, width, -, hrefused, hrest⟩
  · exact absurd hbackslash hhead
  · refine ⟨fault, hrefused, ?_⟩
    rw [← hlongest.split, hlongest.spelled.read, Bool.true_and, hrest]
    rfl

end LongestName

end EcmaLexer.Name
