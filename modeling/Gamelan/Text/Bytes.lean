namespace Gamelan.Text

/-!
# Text measured in bytes

Positions in a source text are offsets into its UTF-8 form.  A text is a list of characters; its
measure and its cuts are taken in bytes here, without leaving the list.

* `byteLength` — the number of bytes of a text.
* `takeBytes?`, `dropBytes?` — a text cut after a number of bytes, if that is between two characters.
* `slice?` — the part of a text between two offsets.
* `slice?_append` — the part between the ends of two prefixes is what stands between them.
-/

/-- The number of bytes of a text. -/
def byteLength : List Char → Nat
  | [] => 0
  | c :: rest => c.utf8Size + byteLength rest

@[simp] theorem byteLength_nil : byteLength [] = 0 := rfl

@[simp] theorem byteLength_cons (c : Char) (rest : List Char) :
    byteLength (c :: rest) = c.utf8Size + byteLength rest := rfl

/-- The bytes of two texts add up. -/
@[simp] theorem byteLength_append (a b : List Char) :
    byteLength (a ++ b) = byteLength a + byteLength b := by
  induction a with
  | nil => simp
  | cons c a ih => simp [ih, Nat.add_assoc]

/-- Each character has a byte at least. -/
theorem length_le_byteLength (text : List Char) : text.length ≤ byteLength text := by
  induction text with
  | nil => simp
  | cons c rest ih =>
    have := Char.utf8Size_pos c
    simp only [List.length_cons, byteLength_cons]
    omega

/-- A text with a character has a byte. -/
theorem byteLength_pos {text : List Char} (h : text ≠ []) : 0 < byteLength text :=
  Nat.lt_of_lt_of_le (List.length_pos_iff.2 h) (length_le_byteLength text)

/-! ### Cutting -/

/-- What follows the first `n` bytes, if they end between two characters. -/
def dropBytes? : Nat → List Char → Option (List Char)
  | 0, text => some text
  | _ + 1, [] => none
  | n + 1, c :: rest => if c.utf8Size ≤ n + 1 then dropBytes? (n + 1 - c.utf8Size) rest else none

/-- The first `n` bytes, if they end between two characters. -/
def takeBytes? : Nat → List Char → Option (List Char)
  | 0, _ => some []
  | _ + 1, [] => none
  | n + 1, c :: rest =>
    if c.utf8Size ≤ n + 1 then (takeBytes? (n + 1 - c.utf8Size) rest).map (c :: ·) else none

/-- Without the bytes of its first part, a text is its second part. -/
@[simp] theorem dropBytes?_append (a b : List Char) : dropBytes? (byteLength a) (a ++ b) = some b := by
  induction a with
  | nil => simp [dropBytes?]
  | cons c a ih =>
    obtain ⟨n, hn⟩ : ∃ n, byteLength (c :: a) = n + 1 :=
      ⟨byteLength (c :: a) - 1, by have := Char.utf8Size_pos c; simp only [byteLength_cons]; omega⟩
    have hc : c.utf8Size ≤ n + 1 := by simp only [byteLength_cons] at hn; omega
    have ha : n + 1 - c.utf8Size = byteLength a := by simp only [byteLength_cons] at hn; omega
    rw [hn, List.cons_append, dropBytes?, if_pos hc, ha, ih]

/-- The bytes of its first part are its first part. -/
@[simp] theorem takeBytes?_append (a b : List Char) : takeBytes? (byteLength a) (a ++ b) = some a := by
  induction a with
  | nil => simp [takeBytes?]
  | cons c a ih =>
    obtain ⟨n, hn⟩ : ∃ n, byteLength (c :: a) = n + 1 :=
      ⟨byteLength (c :: a) - 1, by have := Char.utf8Size_pos c; simp only [byteLength_cons]; omega⟩
    have hc : c.utf8Size ≤ n + 1 := by simp only [byteLength_cons] at hn; omega
    have ha : n + 1 - c.utf8Size = byteLength a := by simp only [byteLength_cons] at hn; omega
    rw [hn, List.cons_append, takeBytes?, if_pos hc, ha, ih]
    rfl

/-- The part of a text from offset `start` to offset `stop`, if both stand between two characters
and in this order. -/
def slice? (text : List Char) (start stop : Nat) : Option (List Char) :=
  if start ≤ stop then (dropBytes? start text).bind (takeBytes? (stop - start)) else none

/-- The part between the ends of two prefixes of a text is what stands between them. -/
theorem slice?_append (a b c : List Char) :
    slice? (a ++ b ++ c) (byteLength a) (byteLength (a ++ b)) = some b := by
  simp [slice?]

end Gamelan.Text
