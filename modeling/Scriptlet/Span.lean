/-!
# Spans

A span is a range of characters of a source text, from `start` up to but not including `stop`.
Characters are Unicode scalar values and are counted from 0. A span need not lie inside a text:
the place just after the last character has a span of its own.
-/
namespace Scriptlet

structure Span where
  start : Nat
  stop : Nat
  deriving DecidableEq, Repr, Inhabited

namespace Span

/-- The one character at `offset`. -/
def single (offset : Nat) : Span := ⟨offset, offset + 1⟩

/-- The place before the character at `offset`. -/
def empty (offset : Nat) : Span := ⟨offset, offset⟩

/-- The smallest span that covers both. -/
def cover (a b : Span) : Span := ⟨min a.start b.start, max a.stop b.stop⟩

/-- The same characters after `amount` more characters were put in front of the text. -/
def shift (amount : Nat) (s : Span) : Span := ⟨s.start + amount, s.stop + amount⟩

theorem shift_cover (amount : Nat) (a b : Span) :
    (a.cover b).shift amount = (a.shift amount).cover (b.shift amount) := by
  simp only [cover, shift, mk.injEq]
  omega

end Span

/-- A cause of failure together with the characters it is about. -/
structure Located (α : Type) where
  cause : α
  span : Span
  deriving DecidableEq, Repr

end Scriptlet
