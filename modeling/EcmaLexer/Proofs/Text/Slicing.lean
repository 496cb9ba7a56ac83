import EcmaLexer.Proofs.Text.Bytes
import EcmaLexer.Proofs.Text.Cut

namespace EcmaLexer.Text

/-- The bytes of a text in UTF-8. -/
def bytes (text : List Char) : List UInt8 := text.flatMap String.utf8EncodeChar

@[simp] theorem bytes_nil : bytes [] = [] := rfl

@[simp] theorem bytes_cons (c : Char) (text : List Char) :
    bytes (c :: text) = String.utf8EncodeChar c ++ bytes text := List.flatMap_cons

@[simp] theorem length_bytes (text : List Char) : (bytes text).length = utf8Length text := by
  induction text with
  | nil => rfl
  | cons c text ih =>
    rw [bytes_cons, List.length_append, String.length_utf8EncodeChar, ih, utf8Length_cons]

/-- The first byte of a character. -/
def leadByte (c : Char) : UInt8 := (String.utf8EncodeChar c).headD 0

/-- A byte that stands in a character, but never first. -/
def isTrailByte (byte : UInt8) : Bool := 128 ≤ byte.toNat && byte.toNat < 192

/-- No character begins with a byte that stands inside of another. -/
theorem utf8EncodeChar_eq_cons (c : Char) :
    ∃ trail, String.utf8EncodeChar c = leadByte c :: trail ∧
      ∀ byte ∈ trail, isTrailByte byte = true := by
  have htrail (value : Nat) : isTrailByte (UInt8.ofNat (value % 64 + 128)) = true := by
    have hvalue : (UInt8.ofNat (value % 64 + 128)).toNat = value % 64 + 128 :=
      UInt8.toNat_ofNat_of_lt' (by simp only [UInt8.size]; omega)
    simp only [isTrailByte, hvalue, Bool.and_eq_true, decide_eq_true_eq]
    omega
  have hcons {value : Nat} {rest : List UInt8} (hrest : ∀ byte ∈ rest, isTrailByte byte = true) :
      ∀ byte ∈ UInt8.ofNat (value % 64 + 128) :: rest, isTrailByte byte = true :=
    List.forall_mem_cons.mpr ⟨htrail value, hrest⟩
  have hnil : ∀ byte ∈ ([] : List UInt8), isTrailByte byte = true := by simp
  unfold leadByte String.utf8EncodeChar
  simp only
  split
  · exact ⟨[], rfl, hnil⟩
  · split
    · exact ⟨_, rfl, hcons hnil⟩
    · split
      · exact ⟨_, rfl, hcons (hcons hnil)⟩
      · exact ⟨_, rfl, hcons (hcons (hcons hnil))⟩

theorem head?_bytes_cons (c : Char) (text : List Char) :
    (bytes (c :: text)).head? = some (leadByte c) := by
  obtain ⟨trail, hencode, -⟩ := utf8EncodeChar_eq_cons c
  rw [bytes_cons, hencode, List.cons_append, List.head?_cons]

/-- Only the characters of ASCII begin with a byte of ASCII. -/
theorem toNat_leadByte {c : Char} (hascii : (leadByte c).toNat < 128) :
    (leadByte c).toNat = c.toNat := by
  have hlead (value base : Nat) (hbase : 192 ≤ base) (hlt : value + base < 256) :
      (UInt8.ofNat (value + base)).toNat < 128 → False := by
    rw [UInt8.toNat_ofNat_of_lt' hlt]
    omega
  revert hascii
  unfold leadByte String.utf8EncodeChar
  simp only
  split
  · intro _
    exact UInt8.toNat_ofNat_of_lt' (by simp only [UInt8.size]; omega)
  · intro hascii
    exfalso
    revert hascii
    split
    · exact hlead _ _ (by omega) (by omega)
    · split
      · exact hlead _ _ (by omega) (by omega)
      · exact hlead _ _ (by omega) (by omega)

theorem eq_of_leadByte {c other : Char} (hascii : (leadByte other).toNat < 128)
    (hlead : leadByte c = leadByte other) : c = other := by
  have hc : (leadByte c).toNat < 128 := by rwa [hlead]
  have hnat := toNat_leadByte hc
  rw [hlead, toNat_leadByte hascii] at hnat
  exact Char.ext (UInt32.toNat_inj.mp hnat.symm)

/-- To search the bytes of a text for one that begins characters is to search its characters: the
    byte that is found begins one. -/
theorem findIdx?_bytes {sought : UInt8 → Bool}
    (hsought : ∀ byte, isTrailByte byte = true → sought byte = false) (text : List Char) :
    ((bytes text).findIdx? sought = none ∧ ∀ c ∈ text, sought (leadByte c) = false) ∨
    ∃ before c rest, text = before ++ c :: rest ∧
      (∀ d ∈ before, sought (leadByte d) = false) ∧ sought (leadByte c) = true ∧
      (bytes text).findIdx? sought = some (utf8Length before) ∧
      (bytes text)[utf8Length before]? = some (leadByte c) := by
  induction text with
  | nil => exact .inl ⟨rfl, by simp⟩
  | cons c text ih =>
    obtain ⟨trail, hencode, htrail⟩ := utf8EncodeChar_eq_cons c
    have hbytes : bytes (c :: text) = leadByte c :: (trail ++ bytes text) := by
      rw [bytes_cons, hencode, List.cons_append]
    have hlength : trail.length + 1 = c.utf8Size := by
      rw [← String.length_utf8EncodeChar, hencode, List.length_cons]
    cases hlead : sought (leadByte c) with
    | true =>
      refine .inr ⟨[], c, text, rfl, by simp, hlead, ?_, ?_⟩
      · rw [hbytes, List.findIdx?_cons, if_pos hlead]
        rfl
      · rw [hbytes]
        rfl
    | false =>
      have hskip : (bytes (c :: text)).findIdx? sought =
          ((bytes text).findIdx? sought).map (· + c.utf8Size) := by
        have hnone : trail.findIdx? sought = none :=
          List.findIdx?_eq_none_iff.mpr fun byte hmem => hsought byte (htrail byte hmem)
        rw [hbytes, List.findIdx?_cons, if_neg (by simp [hlead]), List.findIdx?_append, hnone,
          Option.none_or, Option.map_map, ← hlength]
        rfl
      rcases ih with ⟨hnone, hall⟩ | ⟨before, d, rest, rfl, hbefore, hd, hfound, hbyte⟩
      · refine .inl ⟨by rw [hskip, hnone]; rfl, fun d hmem => ?_⟩
        rcases List.mem_cons.mp hmem with rfl | hmem
        · exact hlead
        · exact hall d hmem
      · refine .inr ⟨c :: before, d, rest, rfl, fun e hmem => ?_, hd, ?_, ?_⟩
        · rcases List.mem_cons.mp hmem with rfl | hmem
          · exact hlead
          · exact hbefore e hmem
        · rw [hskip, hfound, utf8Length_cons, Nat.add_comm]
          rfl
        · rw [utf8Length_cons, bytes_cons, List.getElem?_append_right (by simp),
            String.length_utf8EncodeChar, Nat.add_sub_cancel_left, hbyte]

/-- What stands at an offset. Unlike a slice, to look there is allowed at any offset: nothing is
    seen past the end of the text and inside of a character. -/
def ahead (source : List Char) (offset : Nat) : List Char := (dropBytes? offset source).getD []

theorem dropBytes?_of_ahead {source text : List Char} {offset : Nat}
    (hahead : ahead source offset = text) (hne : text ≠ []) :
    dropBytes? offset source = some text := by
  cases hdrop : dropBytes? offset source with
  | none =>
    rw [ahead, hdrop] at hahead
    exact absurd hahead.symm hne
  | some rest =>
    rw [ahead, hdrop] at hahead
    exact congrArg some hahead

theorem ahead_of_dropBytes? {source text : List Char} {offset : Nat}
    (hdrop : dropBytes? offset source = some text) : ahead source offset = text := by
  rw [ahead, hdrop, Option.getD_some]

/-- From between two characters a slice goes on to between any two later ones. -/
theorem dropBytes?_add {source left right : List Char} {offset : Nat}
    (hdrop : dropBytes? offset source = some (left ++ right)) :
    dropBytes? (offset + utf8Length left) source = some right := by
  obtain ⟨before, hsource, hlength⟩ := dropBytes?_eq_some hdrop
  rw [hsource, ← List.append_assoc, ← hlength, ← utf8Length_append]
  exact dropBytes?_utf8Length_append _ _

theorem dropBytes?_length {source text : List Char} {offset : Nat}
    (hdrop : dropBytes? offset source = some text) :
    offset + utf8Length text = utf8Length source := by
  obtain ⟨before, hsource, hlength⟩ := dropBytes?_eq_some hdrop
  rw [hsource, utf8Length_append, hlength]

/-- From between two characters any text there can be sliced off. -/
theorem slice?_of_dropBytes? {source left right : List Char} {offset : Nat}
    (hdrop : dropBytes? offset source = some (left ++ right)) :
    slice? source offset (offset + utf8Length left) = some left := by
  obtain ⟨before, hsource, hlength⟩ := dropBytes?_eq_some hdrop
  rw [hsource, ← List.append_assoc, ← hlength]
  exact slice?_append before left right

/-- A mark that has passed over a text stands between two characters again. -/
theorem Mark.dropBytes?_past {source left right : List Char} {mark : Mark}
    (hdrop : dropBytes? mark.offset source = some (left ++ right)) :
    dropBytes? (mark.past left).offset source = some right := by
  rw [Mark.offset_past]
  exact dropBytes?_add hdrop

theorem Mark.slice?_past {source left right : List Char} {mark : Mark}
    (hdrop : dropBytes? mark.offset source = some (left ++ right)) :
    slice? source mark.offset (mark.past left).offset = some left := by
  rw [Mark.offset_past]
  exact slice?_of_dropBytes? hdrop

/-- To pass over something gets a mark on, and not out of the source. -/
theorem Mark.past_inside {source left right : List Char} {mark : Mark}
    (hdrop : dropBytes? mark.offset source = some (left ++ right)) (hne : left ≠ []) :
    mark.offset < (mark.past left).offset ∧ (mark.past left).offset ≤ utf8Length source := by
  have hpos := utf8Length_pos hne
  have hlength := dropBytes?_length (Mark.dropBytes?_past hdrop)
  rw [Mark.offset_past] at *
  omega

/-- Between two characters stands the first byte of the one after. -/
theorem getElem?_bytes {source text : List Char} {offset : Nat}
    (hdrop : dropBytes? offset source = some text) :
    (bytes source)[offset]? = text.head?.map leadByte := by
  obtain ⟨before, rfl, rfl⟩ := dropBytes?_eq_some hdrop
  have hsplit : bytes (before ++ text) = bytes before ++ bytes text := List.flatMap_append
  rw [hsplit, List.getElem?_append_right (Nat.le_of_eq (length_bytes before)), length_bytes,
    Nat.sub_self, ← List.head?_eq_getElem?]
  cases text with
  | nil => rfl
  | cons c text => exact head?_bytes_cons c text

theorem getElem?_bytes_eq_some {source text : List Char} {offset : Nat} {c : Char}
    (hascii : (leadByte c).toNat < 128) (hdrop : dropBytes? offset source = some text) :
    (bytes source)[offset]? = some (leadByte c) ↔ text.head? = some c := by
  rw [getElem?_bytes hdrop, Option.map_eq_some_iff]
  constructor
  · rintro ⟨first, hfirst, hlead⟩
    rw [hfirst, eq_of_leadByte hascii hlead]
  · intro hhead
    exact ⟨c, hhead, rfl⟩

/-- Moves a mark on character by character until it has reached `stop`. A carriage return is passed
    together with its line feed, so the mark may come to stand behind `stop`. -/
def bumpTo (source : List Char) (stop : Nat) (mark : Mark) : Mark :=
  if mark.offset < stop then
    match ahead source mark.offset with
    | [] => mark
    | '\r' :: '\n' :: _ => bumpTo source stop (mark.breakLine 2)
    | c :: _ =>
      if isLineTerminator c then bumpTo source stop (mark.breakLine c.utf8Size)
      else bumpTo source stop (mark.advance c.utf8Size)
  else mark
termination_by stop - mark.offset
decreasing_by
  · simp only [Mark.breakLine]
    omega
  all_goals
    have hpos := c.utf8Size_pos
    simp only [Mark.breakLine, Mark.advance]
    omega

theorem utf8Length_pair (text : List Char) :
    utf8Length ('\r' :: '\n' :: text) = 2 + utf8Length text := by
  rw [utf8Length_cons, utf8Length_cons, ← Nat.add_assoc]
  rfl

theorem Mark.past_singleton (mark : Mark) (c : Char) :
    mark.past [c] =
      if isLineTerminator c then mark.breakLine c.utf8Size else mark.advance c.utf8Size := by
  rw [past.eq_3 _ _ _ (by simp)]
  rfl

theorem bumpTo_cons {source rest : List Char} {c : Char} {mark : Mark} {stop : Nat}
    (hahead : ahead source mark.offset = c :: rest) (hcut : CleanCut [c] rest)
    (hlt : mark.offset < stop) :
    bumpTo source stop mark = bumpTo source stop (mark.past [c]) := by
  rw [bumpTo, if_pos hlt, hahead, Mark.past_singleton]
  split
  · contradiction
  · next tail hpair =>
    cases hpair
    exact absurd rfl (hcut rfl)
  · next d tail hother hcons =>
    cases hcons
    split <;> rfl

/-- The mark stops where it should, unless a line terminator would be cut there. -/
theorem bumpTo_eq {source passed rest : List Char} {mark : Mark} {stop : Nat}
    (hdrop : dropBytes? mark.offset source = some (passed ++ rest))
    (hstop : stop = mark.offset + utf8Length passed) (hclean : CleanCut passed rest) :
    bumpTo source stop mark = mark.past passed := by
  have hchar {c : Char} {mark : Mark} {passed : List Char}
      (hdrop : dropBytes? mark.offset source = some (c :: passed ++ rest))
      (hstop : stop = mark.offset + utf8Length (c :: passed))
      (hcut : CleanCut [c] (passed ++ rest)) :
      bumpTo source stop mark = bumpTo source stop (mark.past [c]) ∧
        dropBytes? (mark.past [c]).offset source = some (passed ++ rest) ∧
        stop = (mark.past [c]).offset + utf8Length passed := by
    have hpos := c.utf8Size_pos
    have hoffset : (mark.past [c]).offset = mark.offset + utf8Length [c] := Mark.offset_past _ _
    refine ⟨bumpTo_cons (ahead_of_dropBytes? hdrop) hcut ?_, Mark.dropBytes?_past hdrop, ?_⟩
    · rw [hstop, utf8Length_cons]
      omega
    · rw [hstop, hoffset, utf8Length_cons, utf8Length_cons, utf8Length_nil]
      omega
  fun_induction Mark.past mark passed with
  | case1 mark => rw [bumpTo, if_neg (by simp [hstop])]
  | case2 mark passed ih =>
    have hpair : dropBytes? mark.offset source = some (['\r', '\n'] ++ (passed ++ rest)) := hdrop
    rw [utf8Length_pair] at hstop
    rw [bumpTo, if_pos (by omega), ahead_of_dropBytes? hdrop]
    refine ih (dropBytes?_add hpair) ?_ hclean.of_cons.of_cons
    rw [hstop, Mark.breakLine, Nat.add_assoc]
  | case3 mark c passed hpair hbreak ih =>
    obtain ⟨hbump, hnext, hlength⟩ := hchar hdrop hstop (hclean.first_append hpair)
    rw [Mark.past_singleton, if_pos hbreak] at hbump hnext hlength
    rw [hbump, ih hnext hlength hclean.of_cons]
  | case4 mark c passed hpair hbreak ih =>
    obtain ⟨hbump, hnext, hlength⟩ := hchar hdrop hstop (hclean.first_append hpair)
    rw [Mark.past_singleton, if_neg hbreak] at hbump hnext hlength
    rw [hbump, ih hnext hlength hclean.of_cons]

/-- The offset one byte back, if there is one. -/
def stepBack? : Nat → Option Nat
  | 0 => none
  | offset + 1 => some offset

theorem stepBack?_eq {offset : Nat} (hpos : 0 < offset) :
    stepBack? offset = some (offset - 1) := by
  cases offset with
  | zero => exact absurd hpos (Nat.lt_irrefl 0)
  | succ offset => rfl

/-- The first `width` characters of a text are as many bytes. -/
def Narrow (text : List Char) (width : Nat) : Prop := utf8Length (text.take width) = width

namespace Narrow

theorem zero (text : List Char) : Narrow text 0 := rfl

theorem cons {c : Char} {rest : List Char} {width : Nat} (hc : c.toNat < 0x80)
    (hrest : Narrow rest width) : Narrow (c :: rest) (width + 1) := by
  have hsize : c.utf8Size = 1 := by
    have hle : c.val ≤ 0x7f := UInt32.le_iff_toNat_le.mpr (Nat.le_of_lt_succ hc)
    exact if_pos hle
  unfold Narrow at *
  rw [List.take_succ_cons, utf8Length_cons, hsize, hrest, Nat.add_comm]

theorem add {text : List Char} {width more : Nat} (hfirst : Narrow text width)
    (hrest : Narrow (text.drop width) more) : Narrow text (width + more) := by
  unfold Narrow at *
  rw [List.take_add, utf8Length_append, hfirst, hrest]

theorem length_takeWhile {inClass : Char → Bool}
    (hascii : ∀ c, inClass c = true → c.toNat < 0x80) (text : List Char) :
    Narrow text (text.takeWhile inClass).length := by
  induction text with
  | nil => exact zero []
  | cons c text ih =>
    rw [List.takeWhile_cons]
    split
    · next hc => exact ih.cons (hascii c hc)
    · exact zero _

/-- From between two characters narrow ones are sliced off by their number. -/
theorem slice?_eq {source text : List Char} {offset width : Nat} (hnarrow : Narrow text width)
    (hdrop : dropBytes? offset source = some text) :
    slice? source offset (offset + width) = some (text.take width) := by
  rw [← List.take_append_drop width text] at hdrop
  have hslice := slice?_of_dropBytes? hdrop
  rwa [hnarrow] at hslice

end Narrow

end EcmaLexer.Text
