import EcmaLexer.Token.Keyword
import EcmaLexer.Token.Start

namespace EcmaLexer.Keyword

theorem mem_all (keyword : Keyword) : keyword ∈ all := by
  cases keyword <;> decide

/-- A keyword is found by its text. -/
theorem ofText?_text (keyword : Keyword) : ofText? keyword.text.toList = some keyword := by
  have hall : ∀ k ∈ all, ofText? k.text.toList = some k := by decide +kernel
  exact hall keyword keyword.mem_all

theorem ofText?_eq_some_iff {text : List Char} {keyword : Keyword} :
    ofText? text = some keyword ↔ text = keyword.text.toList := by
  constructor
  · intro hfound
    have hsame := List.find?_some (p := fun k : Keyword => k.text.toList == text) hfound
    exact (beq_iff_eq.mp hsame).symm
  · rintro rfl
    exact keyword.ofText?_text

theorem text_inj {keyword other : Keyword} (heq : keyword.text = other.text) :
    keyword = other := by
  have hfound := keyword.ofText?_text
  rw [heq, ofText?_text] at hfound
  exact (Option.some.inj hfound).symm

/-- The letters that begin keywords are in a class of their own. -/
theorem exists_keywordLetter (keyword : Keyword) :
    ∃ c rest, keyword.text.toList = c :: rest ∧ StartClass.ofChar? c = some .keywordLetter := by
  have hall : ∀ k ∈ all,
      k.text.toList.head?.bind StartClass.ofChar? = some .keywordLetter := by
    decide +kernel
  obtain ⟨c, hhead, hclass⟩ := Option.bind_eq_some_iff.mp (hall keyword keyword.mem_all)
  obtain ⟨rest, htext⟩ := List.head?_eq_some_iff.mp hhead
  exact ⟨c, rest, htext, hclass⟩

end EcmaLexer.Keyword
