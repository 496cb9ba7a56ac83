import EcmaLexer.Proofs.Template.Grammar

namespace EcmaLexer.Template

/-- Where a segment may end: at the end of the text or before a delimiter. -/
def Stops (closing : List Char) : Prop := ∀ c, closing.head? = some c → c = '\x60' ∨ c = '$'

theorem Stops.any_eq_false {closing : List Char} (hstops : Stops closing) (inClass : Char → Bool)
    (hnone : ['\x60', '$'].any inClass = false) : closing.head?.any inClass = false := by
  simp only [List.any_cons, List.any_nil, Bool.or_eq_false_iff] at hnone
  cases hhead : closing.head? with
  | none => rfl
  | some c => rcases hstops c hhead with rfl | rfl <;> simp_all

theorem Stops.any_append {closing : List Char} (hstops : Stops closing) (inClass : Char → Bool)
    (hnone : ['\x60', '$'].any inClass = false) (text : List Char) :
    (text ++ closing).head?.any inClass = text.head?.any inClass := by
  cases text with
  | nil => simpa using hstops.any_eq_false inClass hnone
  | cons c text => rfl

theorem Stops.takeWhile_append {closing : List Char} (hstops : Stops closing) (text : List Char) :
    (text ++ closing).takeWhile Character.isHexDigit = text.takeWhile Character.isHexDigit ∧
      (text ++ closing).dropWhile Character.isHexDigit = text.dropWhile Character.isHexDigit ++ closing := by
  induction text with
  | nil =>
    cases closing with
    | nil => exact ⟨rfl, rfl⟩
    | cons c closing =>
      have hdigit : Character.isHexDigit c = false :=
        hstops.any_eq_false Character.isHexDigit (by decide)
      simp [hdigit]
  | cons c text ih =>
    cases hdigit : Character.isHexDigit c with
    | false => simp [hdigit]
    | true => simp [hdigit, ih]

/-- A result with the text after it continued. -/
def continued {α : Type} (closing : List Char) (found : α × List Char) : α × List Char :=
  (found.1, found.2 ++ closing)

theorem leadingHex?_append {closing : List Char} (hstops : Stops closing) (count : Nat)
    (text : List Char) :
    leadingHex? count (text ++ closing) = (leadingHex? count text).map (continued closing) := by
  unfold leadingHex?
  by_cases hlength : count ≤ text.length
  · rw [List.take_append_of_le_length hlength, List.drop_append_of_le_length hlength,
      List.length_append]
    simp only [hlength, Nat.le_add_right_of_le hlength, true_and]
    split <;> rfl
  · rw [if_neg, if_neg (fun h => hlength h.1)]
    · rfl
    · rintro ⟨hlonger, hdigits⟩
      cases closing with
      | nil => exact hlength (by simpa using hlonger)
      | cons c closing =>
        have hmem : c ∈ (text ++ c :: closing).take count := by
          obtain ⟨more, hmore⟩ : ∃ more, count - text.length = more + 1 := ⟨count - text.length - 1, by omega⟩
          rw [List.take_append, hmore, List.take_succ_cons]
          exact List.mem_append_right _ List.mem_cons_self
        have hdigit := List.all_eq_true.mp hdigits c hmem
        have hnone : Character.isHexDigit c = false :=
          hstops.any_eq_false Character.isHexDigit (by decide)
        rw [hnone] at hdigit
        cases hdigit

theorem pairedWith?_append {closing : List Char} (hstops : Stops closing) (unit : Nat)
    (text : List Char) :
    pairedWith? unit (text ++ closing) = (pairedWith? unit text).map (continued closing) := by
  fun_cases pairedWith? unit text with
  | case1 text hunit =>
    rw [List.cons_append, List.cons_append, pairedWith?, if_pos hunit, leadingHex?_append hstops]
    cases leadingHex? 4 text with
    | none => rfl
    | some found =>
      simp only [Option.map_some, continued, Option.filter_some]
      split <;> rfl
  | case2 text hunit =>
    rw [List.cons_append, List.cons_append, pairedWith?, if_neg hunit]
    rfl
  | case3 text hnone =>
    rw [pairedWith?.eq_2]
    · rfl
    · intro tail htext
      cases text with
      | nil =>
        rw [List.nil_append] at htext
        rcases hstops '\\' (by rw [htext]; rfl) with heq | heq <;> cases heq
      | cons first rest =>
        rw [List.cons_append, List.cons.injEq] at htext
        cases rest with
        | nil =>
          rcases hstops 'u' (by rw [← List.nil_append closing, htext.2]; rfl) with heq | heq <;> cases heq
        | cons second rest =>
          rw [List.cons_append, List.cons.injEq] at htext
          exact hnone rest (by rw [htext.1, htext.2.1])

theorem decodeBraced_append {closing : List Char} (hstops : Stops closing) (text : List Char) :
    decodeBraced (text ++ closing) = (decodeBraced text).map (continued closing) := by
  obtain ⟨htake, hdrop⟩ := hstops.takeWhile_append text
  unfold decodeBraced
  rw [htake, hdrop]
  cases text.takeWhile Character.isHexDigit with
  | nil => rfl
  | cons digit digits =>
    cases text.dropWhile Character.isHexDigit with
    | nil =>
      cases closing with
      | nil => rfl
      | cons c closing =>
        have hbrace : c ≠ '\x7d' := by
          rintro rfl
          rcases hstops '\x7d' rfl with heq | heq <;> cases heq
        simp [hbrace, Except.map]
    | cons c rest =>
      by_cases hbrace : c = '\x7d'
      · subst hbrace
        simp only [List.cons_append]
        split <;> rfl
      · simp [hbrace, Except.map]

theorem decodeUnit_append {closing : List Char} (hstops : Stops closing) (text : List Char) :
    decodeUnit (text ++ closing) = (decodeUnit text).map (continued closing) := by
  unfold decodeUnit
  rw [leadingHex?_append hstops]
  cases leadingHex? 4 text with
  | none => rfl
  | some found =>
    simp only [Option.map_some, continued, pairedWith?_append hstops]
    cases pairedWith? found.1 found.2 <;> rfl

theorem decodeUnicode_append {closing : List Char} (hstops : Stops closing) (text : List Char) :
    decodeUnicode (text ++ closing) = (decodeUnicode text).map (continued closing) := by
  fun_cases decodeUnicode text with
  | case1 text => exact decodeBraced_append hstops text
  | case2 _ hbrace =>
    rw [decodeUnicode.eq_2]
    · exact decodeUnit_append hstops text
    · intro tail htext
      cases text with
      | nil =>
        rw [List.nil_append] at htext
        rcases hstops '\x7b' (by rw [htext]; rfl) with heq | heq <;> cases heq
      | cons first rest =>
        rw [List.cons_append, List.cons.injEq] at htext
        exact hbrace rest (by rw [htext.1])

/-- An escape does not look past the end of its segment: a delimiter after it
    changes neither its value nor its fault. -/
theorem decode_append {closing : List Char} (hstops : Stops closing) (first : Char)
    (text : List Char) :
    decode (first :: text ++ closing) = (decode (first :: text)).map (continued closing) := by
  rw [List.cons_append, decode, decode]
  cases letters.lookup first with
  | some meaning => rfl
  | none =>
    simp only
    split
    · cases text with
      | cons second rest =>
        simp only [List.cons_append, List.head?_cons, List.drop_one, List.tail_cons]
        split <;> rfl
      | nil =>
        have hfeed : closing.head? ≠ some '\n' := by
          intro hhead
          rcases hstops '\n' hhead with heq | heq <;> cases heq
        simp [hfeed, Except.map, continued]
    · split
      · rw [leadingHex?_append hstops]
        cases leadingHex? 2 text <;> rfl
      · split
        · exact decodeUnicode_append hstops text
        · rw [hstops.any_append Char.isDigit (by decide)]
          split
          · rfl
          · split
            · rfl
            · split <;> rfl

end EcmaLexer.Template
