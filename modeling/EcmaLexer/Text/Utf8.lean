namespace EcmaLexer.Text

/-- Number of bytes of a text in UTF-8. All positions of the library count in
    these bytes. -/
def utf8Length : List Char → Nat
  | [] => 0
  | c :: text => c.utf8Size + utf8Length text

/-- What is left of a text after its first `count` bytes. There is no such rest
    past the end of the text or inside a character. -/
def dropBytes? : Nat → List Char → Option (List Char)
  | 0, text => some text
  | _ + 1, [] => none
  | count + 1, c :: text =>
    if c.utf8Size ≤ count + 1 then dropBytes? (count + 1 - c.utf8Size) text else none

/-- The first `count` bytes of a text, when they are whole characters of it. -/
def takeBytes? : Nat → List Char → Option (List Char)
  | 0, _ => some []
  | _ + 1, [] => none
  | count + 1, c :: text =>
    if c.utf8Size ≤ count + 1 then
      (takeBytes? (count + 1 - c.utf8Size) text).map (c :: ·)
    else none

/-- The text between two byte offsets, when both lie between characters. -/
def slice? (text : List Char) (first stop : Nat) : Option (List Char) :=
  if first ≤ stop then (dropBytes? first text).bind (takeBytes? (stop - first)) else none

@[simp] theorem utf8Length_nil : utf8Length [] = 0 := rfl

@[simp] theorem utf8Length_cons (c : Char) (text : List Char) :
    utf8Length (c :: text) = c.utf8Size + utf8Length text := rfl

@[simp] theorem utf8Length_append (left right : List Char) :
    utf8Length (left ++ right) = utf8Length left + utf8Length right := by
  induction left with
  | nil => simp
  | cons c left ih => simp [ih, Nat.add_assoc]

@[simp] theorem dropBytes?_zero (text : List Char) : dropBytes? 0 text = some text := by
  unfold dropBytes?
  rfl

@[simp] theorem takeBytes?_zero (text : List Char) : takeBytes? 0 text = some [] := by
  unfold takeBytes?
  rfl

/-- Dropping the bytes of a leading part leaves exactly the other part. -/
theorem dropBytes?_utf8Length_append (left right : List Char) :
    dropBytes? (utf8Length left) (left ++ right) = some right := by
  induction left with
  | nil => simp
  | cons c left ih =>
    have hpos := c.utf8Size_pos
    obtain ⟨count, hcount⟩ : ∃ count, c.utf8Size + utf8Length left = count + 1 :=
      ⟨c.utf8Size + utf8Length left - 1, by omega⟩
    have hrest : count + 1 - c.utf8Size = utf8Length left := by omega
    rw [List.cons_append, utf8Length_cons, hcount, dropBytes?, if_pos (by omega), hrest, ih]

/-- Taking the bytes of a leading part gives exactly that part. -/
theorem takeBytes?_utf8Length_append (left right : List Char) :
    takeBytes? (utf8Length left) (left ++ right) = some left := by
  induction left with
  | nil => simp
  | cons c left ih =>
    have hpos := c.utf8Size_pos
    obtain ⟨count, hcount⟩ : ∃ count, c.utf8Size + utf8Length left = count + 1 :=
      ⟨c.utf8Size + utf8Length left - 1, by omega⟩
    have hrest : count + 1 - c.utf8Size = utf8Length left := by omega
    rw [List.cons_append, utf8Length_cons, hcount, takeBytes?, if_pos (by omega), hrest, ih]
    rfl

end EcmaLexer.Text
