/-!
Places in a text, and two measures of a text held as a list of characters: UTF-8 bytes, in which
offsets count, and UTF-16 units, in which columns count. A span is half open; a position has a line
counted from one and a column counted from zero. Cutting at a byte offset is exact when the offset
falls between two characters.
-/

namespace EcmaSyntax.Text

structure Span where
  start : Nat
  stop : Nat
deriving DecidableEq, Repr, Inhabited

namespace Span

def empty (offset : Nat) : Span := ⟨offset, offset⟩

def length (s : Span) : Nat := s.stop - s.start

def isEmpty (s : Span) : Bool := s.start == s.stop

def contains (s : Span) (offset : Nat) : Bool := s.start ≤ offset && offset < s.stop

/-- The least span that holds both. -/
def cover (s t : Span) : Span := ⟨min s.start t.start, max s.stop t.stop⟩

/-- Interval notation, as in `[2, 5)`. -/
def render (s : Span) : String := "[" ++ toString s.start ++ ", " ++ toString s.stop ++ ")"

/-- Range notation, as in `2..5`. -/
def renderRange (s : Span) : String := toString s.start ++ ".." ++ toString s.stop

end Span

structure Position where
  line : Nat
  column : Nat
deriving DecidableEq, Repr, Inhabited

/-- Written as `line:column`. -/
def Position.render (p : Position) : String := toString p.line ++ ":" ++ toString p.column

/-- Bytes of the UTF-8 form. -/
def byteLength : List Char → Nat
  | [] => 0
  | c :: rest => c.utf8Size + byteLength rest

def unitSize (c : Char) : Nat := if c.toNat < 0x10000 then 1 else 2

/-- Units of the UTF-16 form. -/
def unitLength : List Char → Nat
  | [] => 0
  | c :: rest => unitSize c + unitLength rest

/-- The text after the first `n` bytes. A character that holds the cut is
dropped whole. -/
def dropBytes : Nat → List Char → List Char
  | 0, text => text
  | _, [] => []
  | n + 1, c :: rest => dropBytes (n + 1 - c.utf8Size) rest

/-- The characters of the first `n` bytes. A character that holds the cut is
kept whole. -/
def takeBytes : Nat → List Char → List Char
  | 0, _ => []
  | _, [] => []
  | n + 1, c :: rest => c :: takeBytes (n + 1 - c.utf8Size) rest

/-- The first `n` bytes, or nothing when they end inside a character or
beyond the text. -/
def takeBytes? : Nat → List Char → Option (List Char)
  | 0, _ => some []
  | _ + 1, [] => none
  | n + 1, c :: rest =>
    if c.utf8Size ≤ n + 1 then (takeBytes? (n + 1 - c.utf8Size) rest).map (c :: ·) else none

/-- The text between two offsets, which have to be boundaries in their order. -/
def slice? (text : List Char) (start stop : Nat) : Option (List Char) :=
  if start ≤ stop then
    (takeBytes? start text).bind fun before => takeBytes? (stop - start) (text.drop before.length)
  else none

theorem byteLength_append (a b : List Char) :
    byteLength (a ++ b) = byteLength a + byteLength b := by
  induction a with
  | nil => simp [byteLength]
  | cons c rest ih => simp [byteLength, ih, Nat.add_assoc]

theorem dropBytes_append (a b : List Char) : dropBytes (byteLength a) (a ++ b) = b := by
  induction a with
  | nil => simp [byteLength, dropBytes]
  | cons c rest ih =>
    have hc : 0 < c.utf8Size := c.utf8Size_pos
    obtain ⟨n, hn⟩ : ∃ n, byteLength (c :: rest) = n + 1 :=
      ⟨c.utf8Size + byteLength rest - 1, by simp only [byteLength]; omega⟩
    have hrest : n + 1 - c.utf8Size = byteLength rest := by
      rw [← hn]; simp [byteLength]
    rw [hn, List.cons_append, dropBytes, hrest, ih]

theorem takeBytes?_append (a b : List Char) : takeBytes? (byteLength a) (a ++ b) = some a := by
  induction a with
  | nil => simp [byteLength, takeBytes?]
  | cons c rest ih =>
    have hc : 0 < c.utf8Size := c.utf8Size_pos
    obtain ⟨n, hn⟩ : ∃ n, byteLength (c :: rest) = n + 1 :=
      ⟨c.utf8Size + byteLength rest - 1, by simp only [byteLength]; omega⟩
    have hle : c.utf8Size ≤ n + 1 := by rw [← hn]; simp [byteLength]
    have hrest : n + 1 - c.utf8Size = byteLength rest := by
      rw [← hn]; simp [byteLength]
    simp [hn, takeBytes?, hle, hrest, ih]

end EcmaSyntax.Text
