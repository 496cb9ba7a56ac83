import EcmaLexer.Proofs.Text.Terminators
import Mathlib.Order.Bounds.Basic

namespace EcmaLexer.Text

/-- In numbers that increase, those up to a bound come first. -/
theorem lt_length_takeWhile_iff {numbers : List Nat} (hnumbers : numbers.Pairwise (· < ·))
    {index number bound : Nat} (hnumber : numbers[index]? = some number) :
    index < (numbers.takeWhile (· ≤ bound)).length ↔ number ≤ bound := by
  induction numbers generalizing index with
  | nil => cases hnumber
  | cons first rest ih =>
    obtain ⟨hfirst, hrest⟩ := List.pairwise_cons.mp hnumbers
    by_cases hle : first ≤ bound
    · rw [List.takeWhile_cons_of_pos (by simpa using hle), List.length_cons]
      cases index with
      | zero =>
        obtain rfl : first = number := Option.some.inj hnumber
        exact iff_of_true (Nat.zero_lt_succ _) hle
      | succ index =>
        rw [Nat.succ_lt_succ_iff]
        exact ih hrest hnumber
    · -- The first one is above the bound, and all the others are above the first one.
      rw [List.takeWhile_cons_of_neg (by simpa using hle), List.length_nil]
      refine iff_of_false (Nat.not_lt_zero index) fun hbound => hle ?_
      rcases List.mem_cons.mp (List.mem_of_getElem? hnumber) with rfl | hmem
      · exact hbound
      · exact Nat.le_trans (Nat.le_of_lt (hfirst number hmem)) hbound

/-- A search among words of 32 bits: the index where a word stands, or else the index where it would
    be put in. -/
abbrev Search := List UInt32 → UInt32 → Except Nat Nat

/-- What a search in sorted words may answer. -/
inductive Answers (words : List UInt32) (word : UInt32) : Except Nat Nat → Prop where
  | found {index : Nat} (hindex : words[index]? = some word) : Answers words word (.ok index)
  | missing {index : Nat} (hlength : index ≤ words.length)
      (hbefore : ∀ (place : Nat) other, place < index → words[place]? = some other → other < word)
      (hafter : ∀ (place : Nat) other, index ≤ place → words[place]? = some other → word < other) :
      Answers words word (.error index)

/-- The search keeps its promise for all words that do not decrease. -/
def Search.Reliable (search : Search) : Prop :=
  ∀ words word, words.Pairwise (· ≤ ·) → Answers words word (search words word)

/-- Searches between two indices, by halves. -/
def searchBetween (words : List UInt32) (word : UInt32) (first stop : Nat) : Except Nat Nat :=
  if first < stop then
    match words[(first + stop) / 2]? with
    | none => .error first
    | some other =>
      if other < word then searchBetween words word ((first + stop) / 2 + 1) stop
      else if word < other then searchBetween words word first ((first + stop) / 2)
      else .ok ((first + stop) / 2)
  else .error first
termination_by stop - first

def binarySearch : Search := fun words word => searchBetween words word 0 words.length

theorem le_of_sorted {words : List UInt32} (hsorted : words.Pairwise (· ≤ ·)) {place later : Nat}
    {word other : UInt32} (hword : words[place]? = some word) (hother : words[later]? = some other)
    (hle : place ≤ later) : word ≤ other := by
  obtain ⟨hplace, rfl⟩ := List.getElem?_eq_some_iff.mp hword
  obtain ⟨hlater, rfl⟩ := List.getElem?_eq_some_iff.mp hother
  rcases Nat.lt_or_eq_of_le hle with hlt | rfl
  · exact List.pairwise_iff_getElem.mp hsorted place later hplace hlater hlt
  · exact UInt32.le_refl _

/-- What is before the two indices is below the word, and what is after them is above it; each half
    that is left out adds to that. -/
theorem searchBetween_answers {words : List UInt32} (hsorted : words.Pairwise (· ≤ ·))
    {word : UInt32} {first stop : Nat} (hle : first ≤ stop) (hstop : stop ≤ words.length)
    (hbefore : ∀ (place : Nat) other, place < first → words[place]? = some other → other < word)
    (hafter : ∀ (place : Nat) other, stop ≤ place → words[place]? = some other → word < other) :
    Answers words word (searchBetween words word first stop) := by
  fun_induction searchBetween words word first stop with
  | case1 first stop hlt hnone =>
    have hlength := List.getElem?_eq_none_iff.mp hnone
    omega
  | case2 first stop hlt other hother hbelow ih =>
    refine ih (by omega) hstop (fun place value hplace hvalue => ?_) hafter
    have hmiddle := le_of_sorted hsorted hvalue hother (Nat.le_of_lt_succ hplace)
    exact UInt32.lt_of_le_of_lt hmiddle hbelow
  | case3 first stop hlt other hother hbelow habove ih =>
    refine ih (by omega) (by omega) hbefore fun place value hplace hvalue => ?_
    exact UInt32.lt_of_lt_of_le habove (le_of_sorted hsorted hother hvalue hplace)
  | case4 first stop hlt other hother hbelow habove =>
    have heq : other = word :=
      UInt32.le_antisymm (UInt32.not_lt.mp habove) (UInt32.not_lt.mp hbelow)
    exact .found (heq ▸ hother)
  | case5 first stop hlt =>
    obtain rfl : first = stop := by omega
    exact .missing hstop hbefore hafter

theorem binarySearch_reliable : binarySearch.Reliable := by
  intro words word hsorted
  refine searchBetween_answers hsorted (Nat.zero_le _) (Nat.le_refl _) ?_ ?_
  · intro place other hplace
    exact absurd hplace (Nat.not_lt_zero place)
  · intro place other hplace hother
    rw [List.getElem?_eq_none hplace] at hother
    cases hother

namespace LineMap

variable {map : LineMap}

/-- The starts of the lines in the words that they are stored in. -/
def words (map : LineMap) : List UInt32 := map.starts.map UInt32.ofNat

/-- The line of a position by a search among the stored starts. A position that is no start itself
    is on the line before the index where it would be put in; there is none before the first. -/
def searchLine? (map : LineMap) (search : Search) (position : UInt32) : Option UInt32 :=
  match search map.words position with
  | .ok line => some (UInt32.ofNat line)
  | .error 0 => none
  | .error (line + 1) => some (UInt32.ofNat line)

/-- The line and the column that such a search gives, if the line is stored and does not start after
    the position. -/
def searchLocation? (map : LineMap) (search : Search) (position : UInt32) :
    Option (UInt32 × UInt32) := do
  let line ← map.searchLine? search position
  let start ← map.words[line.toNat]?
  if start ≤ position then some (line, position - start) else none

/-- The lines of the map start one after the other, at offsets that 32 bits hold. -/
structure Ordered (map : LineMap) : Prop where
  increasing : map.starts.Pairwise (· < ·)
  fits : ∀ start ∈ map.starts, start < 4294967296

theorem lineOf_lt_lineCount (map : LineMap) (position : Nat) :
    map.lineOf position < map.lineCount :=
  Nat.lt_succ_of_le (List.takeWhile_prefix _).length_le

theorem exists_lineStart {line : Nat} (hlt : line < map.lineCount) :
    ∃ start, map.lineStart? line = some start :=
  ⟨map.starts[line], List.getElem?_eq_getElem hlt⟩

namespace Ordered

variable {line start position : Nat} (hmap : map.Ordered)

include hmap

/-- Exactly the lines up to that of a position start at or before it. -/
theorem lineStart_le_iff (hstart : map.lineStart? line = some start) :
    start ≤ position ↔ line ≤ map.lineOf position := by
  cases line with
  | zero =>
    obtain rfl : 0 = start := Option.some.inj hstart
    exact iff_of_true (Nat.zero_le _) (Nat.zero_le _)
  | succ line =>
    exact (lt_length_takeWhile_iff (List.pairwise_cons.mp hmap.increasing).2 hstart).symm

theorem lineStart_lt {other stop : Nat} (hstart : map.lineStart? line = some start)
    (hstop : map.lineStart? other = some stop) (hlt : line < other) : start < stop := by
  obtain ⟨hbound, rfl⟩ := List.getElem?_eq_some_iff.mp hstart
  obtain ⟨hlength, rfl⟩ := List.getElem?_eq_some_iff.mp hstop
  exact List.pairwise_iff_getElem.mp hmap.increasing line other hbound hlength hlt

/-- A line starts after at least one byte for each line before it. -/
theorem le_lineStart (hstart : map.lineStart? line = some start) : line ≤ start := by
  induction line generalizing start with
  | zero => exact Nat.zero_le start
  | succ line ih =>
    have hbound : line + 1 < map.lineCount := (List.getElem?_eq_some_iff.mp hstart).1
    obtain ⟨before, hbefore⟩ := exists_lineStart (Nat.lt_of_succ_lt hbound)
    exact Nat.lt_of_le_of_lt (ih hbefore) (hmap.lineStart_lt hbefore hstart (Nat.lt_succ_self line))

/-- The line of a position is the last one that starts at or before it. -/
theorem lineOf_isGreatest (position : Nat) :
    IsGreatest {line | ∃ start, map.lineStart? line = some start ∧ start ≤ position}
      (map.lineOf position) := by
  constructor
  · obtain ⟨start, hstart⟩ := exists_lineStart (map.lineOf_lt_lineCount position)
    exact ⟨start, hstart, (hmap.lineStart_le_iff hstart).mpr (Nat.le_refl _)⟩
  · rintro line ⟨start, hstart, hle⟩
    exact (hmap.lineStart_le_iff hstart).mp hle

theorem lineOf_lineStart (hstart : map.lineStart? line = some start) : map.lineOf start = line := by
  refine (hmap.lineOf_isGreatest start).unique ⟨⟨start, hstart, Nat.le_refl start⟩, ?_⟩
  rintro other ⟨stop, hstop, hle⟩
  by_contra hlt
  exact absurd (hmap.lineStart_lt hstart hstop (Nat.lt_of_not_le hlt)) (Nat.not_lt.mpr hle)

/-- The column counts on from the start of the line. -/
theorem exists_locationOf (position : Nat) :
    ∃ start, map.lineStart? (map.locationOf position).line = some start ∧
      start + (map.locationOf position).column = position := by
  obtain ⟨start, hstart, hle⟩ := (hmap.lineOf_isGreatest position).1
  refine ⟨start, hstart, ?_⟩
  rw [locationOf, hstart]
  exact Nat.add_sub_of_le hle

theorem locationOf_injective : Function.Injective map.locationOf := by
  intro position other hsame
  obtain ⟨start, hstart, hposition⟩ := hmap.exists_locationOf position
  obtain ⟨stop, hstop, hother⟩ := hmap.exists_locationOf other
  rw [hsame] at hstart hposition
  obtain rfl : start = stop := Option.some.inj (hstart.symm.trans hstop)
  exact hposition.symm.trans hother

/-- Of two positions the later one is on a later line, or further on in the same line. -/
theorem locationOf_lt {other : Nat} (hlt : position < other) :
    (map.locationOf position).line < (map.locationOf other).line ∨
      (map.locationOf position).line = (map.locationOf other).line ∧
        (map.locationOf position).column < (map.locationOf other).column := by
  obtain ⟨start, hstart, hposition⟩ := hmap.exists_locationOf position
  obtain ⟨stop, hstop, hother⟩ := hmap.exists_locationOf other
  have hle : (map.locationOf position).line ≤ (map.locationOf other).line :=
    (hmap.lineStart_le_iff hstart).mp (by omega)
  rcases Nat.lt_or_eq_of_le hle with hline | hline
  · exact .inl hline
  · rw [hline, hstop] at hstart
    cases hstart
    exact .inr ⟨hline, by omega⟩

theorem lineStart_fits (hstart : map.lineStart? line = some start) : start < 4294967296 :=
  hmap.fits start (List.mem_of_getElem? hstart)

theorem lineStart_of_words {word : UInt32} (hword : map.words[line]? = some word) :
    map.lineStart? line = some word.toNat := by
  rw [words, List.getElem?_map, Option.map_eq_some_iff] at hword
  obtain ⟨start, hstart, rfl⟩ := hword
  rw [UInt32.toNat_ofNat_of_lt' (hmap.lineStart_fits hstart)]
  exact hstart

theorem words_of_lineStart (hstart : map.lineStart? line = some start) :
    ∃ word, map.words[line]? = some word ∧ word.toNat = start := by
  refine ⟨UInt32.ofNat start, ?_, UInt32.toNat_ofNat_of_lt' (hmap.lineStart_fits hstart)⟩
  rw [words, List.getElem?_map, show map.starts[line]? = some start from hstart]
  rfl

theorem words_sorted : map.words.Pairwise (· ≤ ·) := by
  rw [words, List.pairwise_map]
  refine hmap.increasing.imp_of_mem fun {start stop} hstart hstop hlt => ?_
  rw [UInt32.le_iff_toNat_le, UInt32.toNat_ofNat_of_lt' (hmap.fits start hstart),
    UInt32.toNat_ofNat_of_lt' (hmap.fits stop hstop)]
  exact Nat.le_of_lt hlt

/-- Where a position would be put in among the starts is right after the start of its line. -/
theorem index_of_missing {position : UInt32} {index : Nat}
    (hanswer : Answers map.words position (.error index)) :
    index = map.lineOf position.toNat + 1 := by
  cases hanswer with
  | missing hlength hbefore hafter =>
    obtain ⟨start, hstart, hle⟩ := (hmap.lineOf_isGreatest position.toNat).1
    obtain ⟨word, hword, rfl⟩ := hmap.words_of_lineStart hstart
    have hlt : map.lineOf position.toNat < index := by
      by_contra hnot
      have habove := UInt32.lt_iff_toNat_lt.mp (hafter _ _ (Nat.le_of_not_lt hnot) hword)
      omega
    rw [words, List.length_map] at hlength
    obtain ⟨last, hlast⟩ := exists_lineStart (show index - 1 < map.lineCount from
      Nat.lt_of_lt_of_le (by omega) hlength)
    obtain ⟨lastWord, hlastWord, rfl⟩ := hmap.words_of_lineStart hlast
    have hbelow := UInt32.lt_iff_toNat_lt.mp (hbefore _ _ (by omega) hlastWord)
    have hline := (hmap.lineStart_le_iff hlast).mp (Nat.le_of_lt hbelow)
    omega

theorem searchLine?_eq {search : Search} (hsearch : search.Reliable) (position : UInt32) :
    map.searchLine? search position = some (UInt32.ofNat (map.lineOf position.toNat)) := by
  have hanswer := hsearch map.words position hmap.words_sorted
  rw [searchLine?]
  generalize search map.words position = answer at hanswer
  cases answer with
  | ok line =>
    cases hanswer with
    | found hindex => rw [hmap.lineOf_lineStart (hmap.lineStart_of_words hindex)]
  | error index =>
    obtain rfl := hmap.index_of_missing hanswer
    rfl

/-- With any reliable search the words of 32 bits never fail, and they give the line and the column
    of the position. -/
theorem searchLocation?_eq {search : Search} (hsearch : search.Reliable) (position : UInt32) :
    ∃ line column, map.searchLine? search position = some line ∧
      map.searchLocation? search position = some (line, column) ∧
      map.locationOf position.toNat = ⟨line.toNat, column.toNat⟩ := by
  have hfound := hmap.searchLine?_eq hsearch position
  obtain ⟨start, hstart, hposition⟩ := hmap.exists_locationOf position.toNat
  -- There are not more lines before this one than bytes, so the word holds its number.
  have hline : (UInt32.ofNat (map.lineOf position.toNat)).toNat = map.lineOf position.toNat :=
    UInt32.toNat_ofNat_of_lt'
      (Nat.lt_of_le_of_lt (hmap.le_lineStart hstart) (hmap.lineStart_fits hstart))
  obtain ⟨word, hword, rfl⟩ := hmap.words_of_lineStart hstart
  have hle : word ≤ position := UInt32.le_iff_toNat_le.mpr (by omega)
  refine ⟨_, position - word, hfound, ?_, ?_⟩
  · rw [searchLocation?, hfound]
    simp only [Option.bind_eq_bind, Option.bind_some, hline]
    rw [show map.words[map.lineOf position.toNat]? = some word from hword, Option.bind_some,
      if_pos hle]
  · have hcolumn : (position - word).toNat = (map.locationOf position.toNat).column := by
      rw [UInt32.toNat_sub_of_le position word hle]
      omega
    rw [hline, hcolumn]
    rfl

end Ordered

/-- What a line map tells of a text, and that a search among its stored starts tells the same. -/
structure Charts (map : LineMap) (text : List Char) (search : Search) : Prop where
  first : map.starts.head? = some 0
  increasing : map.starts.Pairwise (· < ·)
  /-- The other lines start just past the line terminators of the text, one line for each. -/
  terminators : ∃ passages : List Passage, passages.Nodup ∧
    (∀ passage, passage ∈ passages ↔ passage.whole = text ∧ passage.EndsLine) ∧
    map.starts = 0 :: passages.map Passage.stop
  /-- A position may be anywhere, also inside of a terminator or past the end. -/
  greatest : ∀ position,
    IsGreatest {line | ∃ start, map.lineStart? line = some start ∧ start ≤ position}
      (map.lineOf position)
  searched : ∀ position : UInt32, ∃ line column,
    map.searchLine? search position = some line ∧
    map.searchLocation? search position = some (line, column) ∧
    map.locationOf position.toNat = ⟨line.toNat, column.toNat⟩
  column : ∀ position, ∃ start, map.lineStart? (map.locationOf position).line = some start ∧
    start + (map.locationOf position).column = position
  injective : Function.Injective map.locationOf
  monotone : ∀ position other, position < other →
    (map.locationOf position).line < (map.locationOf other).line ∨
      (map.locationOf position).line = (map.locationOf other).line ∧
        (map.locationOf position).column < (map.locationOf other).column
  lineOf_start : ∀ line < map.lineCount, ∃ start, map.lineStart? line = some start ∧
    map.lineOf start = line

theorem ofText_ordered {text : List Char} (hlength : utf8Length text < 4294967296) :
    (ofText text).Ordered := by
  constructor
  · rw [starts, laterStarts_ofText hlength]
    exact .cons (fun _ hmem => (mem_terminatorEnds hmem).1) (terminatorEnds_increase 0 text)
  · intro start hmem
    rw [starts, laterStarts_ofText hlength] at hmem
    rcases List.mem_cons.mp hmem with rfl | hmem
    · decide
    · have hbounds := mem_terminatorEnds hmem
      omega

/-- After the first line there is one for each terminator of the text, which it starts just past. -/
theorem ofText_terminators {text : List Char} (hlength : utf8Length text < 4294967296) :
    ∃ passages : List Passage, passages.Nodup ∧
      (∀ passage, passage ∈ passages ↔ passage.whole = text ∧ passage.EndsLine) ∧
      (ofText text).starts = 0 :: passages.map Passage.stop := by
  obtain ⟨passages, hends, hmem⟩ := terminatorEnds_eq_map 0 text [] rfl (.nil_left text)
  have hincreasing := hends ▸ terminatorEnds_increase 0 text
  have hdistinct : passages.Pairwise (· ≠ ·) := by
    refine (List.pairwise_map.mp hincreasing).imp fun hlt hsame => ?_
    rw [hsame] at hlt
    exact Nat.lt_irrefl _ hlt
  refine ⟨passages, hdistinct, fun passage => (hmem passage).trans Passage.endsLineFrom_whole, ?_⟩
  rw [starts, laterStarts_ofText hlength, hends]

/-- The map of a text shorter than 2^32 bytes has one line and one more for each line terminator. It
    gives every position a line and a column, in the order of the positions, and so does any search
    that is reliable on sorted words: the words of 32 bits that it computes with never fail. -/
theorem ofText_charts {text : List Char} {search : Search} (hsearch : search.Reliable)
    (hlength : utf8Length text < 4294967296) : (ofText text).Charts text search := by
  have hmap := ofText_ordered hlength
  refine ⟨rfl, hmap.increasing, ofText_terminators hlength, hmap.lineOf_isGreatest,
    hmap.searchLocation?_eq hsearch, hmap.exists_locationOf, hmap.locationOf_injective,
    fun _ _ => hmap.locationOf_lt, fun line hline => ?_⟩
  obtain ⟨start, hstart⟩ := exists_lineStart hline
  exact ⟨start, hstart, hmap.lineOf_lineStart hstart⟩

/-- A pair, a separator and a carriage return at the end, with a look inside of the pair and one
    past the end. -/
theorem ofText_charts_pair :
    let map := ofText "a\r\n\u2028b\r".toList
    binarySearch.Reliable ∧ utf8Length "a\r\n\u2028b\r".toList < 4294967296 ∧
      map.Charts "a\r\n\u2028b\r".toList binarySearch ∧ map.starts = [0, 3, 6, 8] ∧
      map.searchLocation? binarySearch 2 = some (0, 2) ∧
      map.searchLocation? binarySearch 4294967295 = some (3, 4294967287) :=
  ⟨binarySearch_reliable, by decide, ofText_charts binarySearch_reliable (by decide), by decide,
    by decide +kernel, by decide +kernel⟩

end LineMap

end EcmaLexer.Text
