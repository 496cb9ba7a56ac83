import EcmaLexer.Proofs.Text.Lines

namespace EcmaLexer.Text

/-- A part of a text, with what comes before it and after it. -/
structure Passage where
  before : List Char
  part : List Char
  after : List Char

namespace Passage

def whole (passage : Passage) : List Char := passage.before ++ passage.part ++ passage.after

/-- The offset just past the part. -/
def stop (passage : Passage) : Nat := utf8Length (passage.before ++ passage.part)

/-- The part is one line terminator. A carriage return and the line feed after it are one. -/
inductive EndsLine : Passage → Prop where
  | lineFeed {before : List Char} (after : List Char) (hbefore : before.getLast? ≠ some '\r') :
      EndsLine ⟨before, ['\n'], after⟩
  | carriageReturn (before : List Char) {after : List Char} (hafter : after.head? ≠ some '\n') :
      EndsLine ⟨before, ['\r'], after⟩
  | pair (before after : List Char) : EndsLine ⟨before, ['\r', '\n'], after⟩
  | lineSeparator (before after : List Char) : EndsLine ⟨before, ['\u2028'], after⟩
  | paragraphSeparator (before after : List Char) : EndsLine ⟨before, ['\u2029'], after⟩

/-- The passage is a line terminator, and begins where the text `rest` comes after `before`. -/
def EndsLineAt (before rest : List Char) (passage : Passage) : Prop :=
  passage.EndsLine ∧ passage.before = before ∧ passage.part ++ passage.after = rest

/-- The passage is a line terminator, and begins there or later. -/
def EndsLineFrom (before rest : List Char) (passage : Passage) : Prop :=
  ∃ passed unread, rest = passed ++ unread ∧ passage.EndsLineAt (before ++ passed) unread

theorem endsLineFrom_nil {before : List Char} {passage : Passage} :
    ¬passage.EndsLineFrom before [] := by
  rintro ⟨passed, unread, hrest, hends, -, hunread⟩
  obtain ⟨-, rfl⟩ := List.append_eq_nil_iff.mp hrest.symm
  have hpart := (List.append_eq_nil_iff.mp hunread).1
  cases hends <;> cases hpart

/-- A terminator begins with the first character, or after it. -/
theorem endsLineFrom_cons {before text : List Char} {c : Char} {passage : Passage} :
    passage.EndsLineFrom before (c :: text) ↔
      passage.EndsLineAt before (c :: text) ∨ passage.EndsLineFrom (before ++ [c]) text := by
  constructor
  · rintro ⟨passed, unread, hrest, hends⟩
    cases passed with
    | nil =>
      rw [List.append_nil] at hends
      rw [hrest]
      exact .inl hends
    | cons d passed =>
      obtain ⟨rfl, htext⟩ := List.cons.inj hrest
      rw [← List.singleton_append, ← List.append_assoc] at hends
      exact .inr ⟨passed, unread, htext, hends⟩
  · rintro (hends | ⟨passed, unread, htext, hends⟩)
    · exact ⟨[], c :: text, rfl, by rwa [List.append_nil]⟩
    · refine ⟨c :: passed, unread, by rw [htext, List.cons_append], ?_⟩
      rwa [← List.singleton_append, ← List.append_assoc]

theorem endsLineFrom_whole {text : List Char} {passage : Passage} :
    passage.EndsLineFrom [] text ↔ passage.whole = text ∧ passage.EndsLine := by
  constructor
  · rintro ⟨passed, unread, rfl, hends, hbefore, rfl⟩
    refine ⟨?_, hends⟩
    rw [whole, hbefore, List.nil_append, List.append_assoc]
  · rintro ⟨rfl, hends⟩
    exact ⟨passage.before, _, List.append_assoc .., hends, rfl, rfl⟩

theorem endsLineAt_pair {before text : List Char} {passage : Passage} :
    passage.EndsLineAt before ('\r' :: '\n' :: text) ↔ passage = ⟨before, ['\r', '\n'], text⟩ := by
  constructor
  · rintro ⟨hends, rfl, hrest⟩
    cases hends with
    | pair =>
      cases hrest
      rfl
    | carriageReturn _ hafter =>
      cases hrest
      exact absurd rfl hafter
    | lineFeed | lineSeparator | paragraphSeparator => cases hrest
  · rintro rfl
    exact ⟨.pair _ _, rfl, rfl⟩

/-- A character that is not the first of a pair is a terminator by itself, unless it is the second
    of a pair. -/
theorem endsLineAt_cons {before text : List Char} {c : Char} (hcut : CleanCut [c] text)
    {passage : Passage} :
    passage.EndsLineAt before (c :: text) ↔
      (isLineTerminator c = true ∧ CleanCut before (c :: text)) ∧
        passage = ⟨before, [c], text⟩ := by
  constructor
  · rintro ⟨hends, rfl, hrest⟩
    cases hends with
    | lineFeed _ hbefore =>
      cases hrest
      exact ⟨⟨rfl, fun hlast => absurd hlast hbefore⟩, rfl⟩
    | pair =>
      cases hrest
      exact absurd rfl (hcut rfl)
    | carriageReturn | lineSeparator | paragraphSeparator =>
      cases hrest
      exact ⟨⟨rfl, .of_head_ne (by simp)⟩, rfl⟩
  · rintro ⟨⟨hbreak, hbefore⟩, rfl⟩
    refine ⟨?_, rfl, rfl⟩
    rcases eq_of_isLineTerminator hbreak with rfl | rfl | rfl | rfl
    · exact .lineFeed _ fun hlast => hbefore hlast rfl
    · exact .carriageReturn _ (hcut rfl)
    · exact .lineSeparator _ _
    · exact .paragraphSeparator _ _

end Passage

/-- The ends that a line map counts are those of the terminators, one for each of them. The text may
    come after another one, but not so that the two halves of a pair are apart. -/
theorem terminatorEnds_eq_map (offset : Nat) (text : List Char) :
    ∀ before, offset = utf8Length before → CleanCut before text →
      ∃ passages : List Passage, terminatorEnds offset text = passages.map Passage.stop ∧
        ∀ passage, passage ∈ passages ↔ passage.EndsLineFrom before text := by
  fun_induction terminatorEnds offset text with
  | case1 offset =>
    intro before hoffset hcut
    exact ⟨[], rfl, fun passage => by simpa using Passage.endsLineFrom_nil⟩
  | case2 offset text ih =>
    intro before hoffset hcut
    have hnext : offset + 2 = utf8Length (before ++ ['\r', '\n']) := by
      rw [utf8Length_append, hoffset]
      rfl
    have hseparate : CleanCut (before ++ ['\r', '\n']) text := by
      have hcut := CleanCut.of_last_ne (show '\n' ≠ '\r' by decide) (before ++ ['\r']) text
      rwa [List.append_assoc] at hcut
    obtain ⟨passages, hends, hmem⟩ := ih _ hnext hseparate
    -- The line feed of the pair is no terminator of its own.
    have hhalf : ¬CleanCut (before ++ ['\r']) ('\n' :: text) := by
      simp [CleanCut]
    refine ⟨⟨before, ['\r', '\n'], text⟩ :: passages, ?_, fun passage => ?_⟩
    · rw [List.map_cons, ← hends, hnext]
      rfl
    · rw [List.mem_cons, hmem, Passage.endsLineFrom_cons, Passage.endsLineAt_pair,
        Passage.endsLineFrom_cons, Passage.endsLineAt_cons (.of_ne (by decide) text)]
      simp [hhalf]
  | case3 offset c text hpair next hbreak ih =>
    intro before hoffset hcut
    have hfirst := CleanCut.of_not_pair hpair
    have hnext : next = utf8Length (before ++ [c]) := by
      rw [utf8Length_append, ← hoffset]
      rfl
    obtain ⟨passages, hends, hmem⟩ := ih _ hnext (hfirst.concat before)
    refine ⟨⟨before, [c], text⟩ :: passages, ?_, fun passage => ?_⟩
    · rw [List.map_cons, ← hends, hnext]
      rfl
    · rw [List.mem_cons, hmem, Passage.endsLineFrom_cons, Passage.endsLineAt_cons hfirst,
        and_iff_right ⟨hbreak, hcut⟩]
  | case4 offset c text hpair next hbreak ih =>
    intro before hoffset hcut
    have hfirst := CleanCut.of_not_pair hpair
    have hnext : next = utf8Length (before ++ [c]) := by
      rw [utf8Length_append, ← hoffset]
      rfl
    obtain ⟨passages, hends, hmem⟩ := ih _ hnext (hfirst.concat before)
    refine ⟨passages, hends, fun passage => ?_⟩
    rw [hmem, Passage.endsLineFrom_cons, Passage.endsLineAt_cons hfirst]
    simp [hbreak]

/-- No two terminators end at the same place, and later ones end later. -/
theorem terminatorEnds_increase (offset : Nat) (text : List Char) :
    (terminatorEnds offset text).Pairwise (· < ·) := by
  fun_induction terminatorEnds offset text with
  | case1 offset => exact .nil
  | case2 offset text ih => exact .cons (fun _ hmem => (mem_terminatorEnds hmem).1) ih
  | case3 offset c text _ next _ ih => exact .cons (fun _ hmem => (mem_terminatorEnds hmem).1) ih
  | case4 offset c text _ next _ ih => exact ih

end EcmaLexer.Text
