/-!
Places in a source text. Offsets and columns count UTF-8 bytes, lines and columns start at one, and
only a line feed ends a line.
-/

namespace SwitchLint

/-- Source range of a piece of syntax: the byte range `start ≤ i < stop`, and where it starts. -/
structure Span where
  start : Nat
  stop : Nat
  line : Nat
  column : Nat
  deriving DecidableEq, Repr, Inhabited

namespace Span

/-- Bytes covered; a range that ends before it starts covers none. -/
def len (s : Span) : Nat := s.stop - s.start

def isEmpty (s : Span) : Bool := s.len == 0

/-- The range of nothing, at no line. -/
def zero : Span := ⟨0, 0, 0, 0⟩

end Span

/-- A point between two characters. -/
structure Position where
  offset : Nat
  line : Nat
  column : Nat
  deriving DecidableEq, Repr, Inhabited

namespace Position

/-- The beginning of a text. -/
def origin : Position := ⟨0, 1, 1⟩

/-- The point after one more character. -/
def advance (p : Position) (c : Char) : Position :=
  if c = '\n' then ⟨p.offset + 1, p.line + 1, 1⟩
  else ⟨p.offset + c.utf8Size, p.line, p.column + c.utf8Size⟩

/-- The point after a run of characters. -/
def after (p : Position) (cs : List Char) : Position := cs.foldl advance p

/-- The range from this point up to an offset. -/
def upTo (p : Position) (stop : Nat) : Span := ⟨p.offset, stop, p.line, p.column⟩

end Position

end SwitchLint
