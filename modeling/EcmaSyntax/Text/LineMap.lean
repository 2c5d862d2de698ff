import EcmaSyntax.Text.Measure
import EcmaSyntax.Unicode.Identifier

/-!
Lines of a text. A line ends at a line feed, a carriage return, the two
together, or one of the two Unicode separators. The starts of the lines are
listed in order, and an offset lies on the last line that starts at or before
it.
-/

namespace EcmaSyntax.Text

open EcmaSyntax.Unicode

/-- Offsets just after each line terminator, for text that starts at `offset`. -/
def lineStartsFrom (offset : Nat) : List Char → List Nat
  | [] => []
  | '\r' :: '\n' :: rest => (offset + 2) :: lineStartsFrom (offset + 2) rest
  | c :: rest =>
    if isLineTerminator c then
      (offset + c.utf8Size) :: lineStartsFrom (offset + c.utf8Size) rest
    else lineStartsFrom (offset + c.utf8Size) rest

structure LineMap where
  text : List Char
  starts : List Nat

namespace LineMap

def ofText (text : List Char) : LineMap := ⟨text, 0 :: lineStartsFrom 0 text⟩

def lineCount (m : LineMap) : Nat := m.starts.length

/-- The line of an offset, counted from zero. -/
def lineIndex (m : LineMap) (offset : Nat) : Nat :=
  (m.starts.takeWhile (· ≤ offset)).length - 1

/-- Column of an offset: UTF-16 units from the line start, or bytes when the
offset is inside a character. Offsets beyond the text count as its end. -/
def column (m : LineMap) (lineStart offset : Nat) : Nat :=
  let width := min offset (byteLength m.text) - lineStart
  match takeBytes? width (dropBytes lineStart m.text) with
  | some slice => unitLength slice
  | none => width

def position (m : LineMap) (offset : Nat) : Position :=
  let index := m.lineIndex offset
  ⟨index + 1, m.column (m.starts.getD index 0) offset⟩

end LineMap

end EcmaSyntax.Text
