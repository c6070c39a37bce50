import Scriptlet.Span

/-!
# Diagnostics

What a user is told when a stage of the pipeline fails: which stage, where in the source, what
went wrong and, for most causes, how to mend it.
-/
namespace Scriptlet

/-- The stage of the pipeline that failed. -/
inductive Stage where
  | lexical | parsing | runtime
  deriving DecidableEq, Repr

namespace Stage

def label : Stage → String
  | lexical => "Lexical Error"
  | parsing => "Parse Error"
  | runtime => "Runtime Error"

end Stage

structure Diagnostic where
  stage : Stage
  span : Span
  message : String
  help : Option String := none
  deriving DecidableEq, Repr

namespace Diagnostic

/-- The same diagnostic about other characters. -/
def moveTo (d : Diagnostic) (span : Span) : Diagnostic := { d with span }

/-- The part of a text of `size` characters that is pointed at. A span may reach past the end of
the text; what lies outside is cut off, so that the result is always a range of the text. -/
def visible (span : Span) (size : Nat) : Span :=
  let stop := min span.stop size
  ⟨min span.start stop, stop⟩

/-- Nothing outside the text is pointed at. -/
theorem visible_bounds (span : Span) (size : Nat) :
    (visible span size).start ≤ (visible span size).stop ∧
      (visible span size).stop ≤ size := by
  simp only [visible]
  omega

/-- Nothing inside the text is cut off. -/
theorem visible_of_inside {span : Span} {size : Nat} (ordered : span.start ≤ span.stop)
    (inside : span.stop ≤ size) : visible span size = span := by
  simp only [visible]
  rw [Nat.min_eq_left inside, Nat.min_eq_left ordered]

end Diagnostic

end Scriptlet
