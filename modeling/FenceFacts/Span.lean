/-!
# FenceFacts — spans

A span is a range of byte offsets.  Lexemes, lines and blocks carry spans;
lines and columns are worked out from them on demand.
-/

namespace FenceFacts

/-- The bytes from `start` up to, and without, `stop`. -/
structure Span where
  start : Nat
  stop : Nat
  deriving DecidableEq, Repr

namespace Span

/-- Number of bytes; none when the span runs backwards. -/
def length (s : Span) : Nat := s.stop - s.start

def isEmpty (s : Span) : Bool := s.length == 0

/-- The smallest span that reaches over both. -/
def cover (s t : Span) : Span := ⟨min s.start t.start, max s.stop t.stop⟩

/-- The same span, further on by `n` bytes. -/
def shift (n : Nat) (s : Span) : Span := ⟨s.start + n, s.stop + n⟩

end Span

end FenceFacts
