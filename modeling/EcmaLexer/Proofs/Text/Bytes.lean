import EcmaLexer.Text.Utf8

namespace EcmaLexer.Text

/-- What is checked of all characters of a text holds of each. -/
theorem forall_mem_of_all {P : Char → Prop} [DecidablePred P] {text : List Char}
    (hall : text.all (fun c => decide (P c)) = true) : ∀ c ∈ text, P c :=
  fun c hmem => of_decide_eq_true (List.all_eq_true.mp hall c hmem)

theorem utf8Length_pos {text : List Char} (hne : text ≠ []) : 0 < utf8Length text := by
  cases text with
  | nil => exact absurd rfl hne
  | cons c rest => exact Nat.lt_of_lt_of_le c.utf8Size_pos (Nat.le_add_right _ _)

/-- What is left after some bytes comes after characters of exactly that many
    bytes. -/
theorem dropBytes?_eq_some {count : Nat} {text rest : List Char}
    (hdrop : dropBytes? count text = some rest) :
    ∃ before, text = before ++ rest ∧ utf8Length before = count := by
  fun_induction dropBytes? count text with
  | case1 text =>
    cases hdrop
    exact ⟨[], rfl, rfl⟩
  | case2 count => cases hdrop
  | case3 count c text hfits ih =>
    obtain ⟨before, htext, hlength⟩ := ih hdrop
    refine ⟨c :: before, by rw [htext, List.cons_append], ?_⟩
    rw [utf8Length_cons]
    omega
  | case4 count c text hfits => cases hdrop

/-- The bytes from the end of one part of a text to the end of the next are that
    next part. -/
theorem slice?_append (before middle rest : List Char) :
    slice? (before ++ middle ++ rest) (utf8Length before) (utf8Length before + utf8Length middle) = some middle := by
  rw [slice?, if_pos (Nat.le_add_right _ _), List.append_assoc, dropBytes?_utf8Length_append,
    Option.bind_some, Nat.add_sub_cancel_left, takeBytes?_utf8Length_append]

end EcmaLexer.Text
