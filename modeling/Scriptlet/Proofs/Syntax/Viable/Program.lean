import Mathlib.Data.List.TakeWhile
import Scriptlet.Proofs.Syntax.Correctness
import Scriptlet.Proofs.Syntax.Viable.Statement
import Scriptlet.Proofs.Interpreter.Stages

/-!
# Programs that are cut off

The tokens of a program may be cut off anywhere. What is left is a program, or the parser says that
the input ended too early. Read the other way: where the parser finds any other fault, no token that
comes behind can mend it.
-/
namespace Scriptlet

open Token (beforeEnd)

variable {tokens cut : List Token} {full : Program}

theorem Token.beforeEnd_mono (first : cut <+: tokens) : beforeEnd cut <+: beforeEnd tokens := by
  obtain ⟨more, rfl⟩ := first
  unfold beforeEnd
  rw [List.takeWhile_append]
  split
  · exact (List.takeWhile_prefix _).trans (List.prefix_append _ _)
  · exact List.prefix_rfl

namespace Syntax

/-- A message that says that the input ended too early. -/
def SaysEnd (message : String) : Prop :=
  message = "Unexpected end of input" ∨
    (∃ operator, message = "Expected expression after" ++ operator) ∨
    ∃ expected, message = expected ++ ", found end of input"

theorem Fault.AtEnd.saysEnd {fault : Fault} (at_end : fault.AtEnd) : SaysEnd fault.message := by
  cases fault with
  | missing expected found =>
    cases found with
    | none => exact .inr (.inr ⟨expected.message, String.append_assoc ..⟩)
    | some text => exact at_end.elim
  | unexpectedEnd => exact .inl rfl
  | missingOperand operator =>
    exact .inr (.inl ⟨" " ++ quoted operator, (String.append_assoc ..).symm⟩)
  | constantWithoutValue | parameterNotName | emptyCondition | emptyBlock | emptyParentheses
  | unexpectedToken | unknownOperator | invalidNumber | unfinished => exact at_end.elim

/-- The cursors before all the tokens and before the first of them. -/
theorem extended_ofTokens (first : beforeEnd cut <+: beforeEnd tokens) :
    ∃ more, (Cursor.ofTokens cut).Extended more (Cursor.ofTokens tokens) := by
  obtain ⟨more, spelled⟩ := first
  refine ⟨more, rfl, ?_⟩
  rw [rest_ofTokens, rest_ofTokens, spelled]

theorem parse_atEnd (parsed : parse tokens = .ok full)
    (first : beforeEnd cut <+: beforeEnd tokens) :
    (∃ program, parse cut = .ok program) ∨
      ∃ fault, parse cut = .error fault ∧ fault.cause.AtEnd := by
  obtain ⟨d, run⟩ := parse_ok.mp parsed
  obtain ⟨more, extended⟩ := extended_ofTokens first
  rcases Parse.viable_program.ok (Nat.le_refl _) extended run with ⟨c, done, -⟩ | ended
  · exact .inl ⟨full, parse_ok.mpr ⟨c, done⟩⟩
  · cases outcome : Parse.program (Cursor.ofTokens cut) with
    | ok result => exact .inl ⟨result.1, parse_ok.mpr ⟨result.2, outcome⟩⟩
    | error fault =>
      rw [outcome] at ended
      cases ended with
      | fault at_end => exact .inr ⟨fault, by rw [parse, StateT.run, outcome]; rfl, at_end⟩

/-- Nothing that is typed behind some tokens mends a fault that is not about the end of the input. -/
theorem parse_not_mended {fault : Located Fault} (failed : parse cut = .error fault)
    (other : ¬ fault.cause.AtEnd) (first : beforeEnd cut <+: beforeEnd tokens) :
    parse tokens ≠ .ok full := by
  intro parsed
  rcases parse_atEnd parsed first with ⟨program, run⟩ | ⟨fault', run, at_end⟩
  · cases failed.symm.trans run
  · cases failed.symm.trans run
    exact other at_end

/-- Where the tokens before the end marker are the first ones of a program, be there a text that
has these tokens or not, the parser succeeds or says that the input ended too early. -/
theorem parse_cut_off (parsed : parse tokens = .ok full)
    (first : beforeEnd cut <+: beforeEnd tokens) :
    (∃ program, parse cut = .ok program) ∨
      ∃ fault, parse cut = .error fault ∧ SaysEnd (Fault.diagnostic fault).message :=
  (parse_atEnd parsed first).imp_right fun ⟨fault, failed, at_end⟩ =>
    ⟨fault, failed, at_end.saysEnd⟩

theorem parse_cut_off_anywhere :
    ∃ tokens full, Token.scan "if (a) \x7b f(a.b, !c) \x7d else \x7b c \x7d" = .ok tokens ∧
      parse tokens = .ok full ∧ ∀ size, beforeEnd (tokens.take size) <+: beforeEnd tokens ∧
        ((∃ program, parse (tokens.take size) = .ok program) ∨
          ∃ fault, parse (tokens.take size) = .error fault ∧
            SaysEnd (Fault.diagnostic fault).message) := by
  have one : (parseSource "if (a) \x7b f(a.b, !c) \x7d else \x7b c \x7d").map List.length = .ok 1 := by
    decide +kernel
  obtain ⟨full, whole, -⟩ := exists_of_map_ok one
  obtain ⟨tokens, scanned, parsed⟩ := parseSource_ok.mp whole
  refine ⟨tokens, full, scanned, parsed, fun size => ?_⟩
  have first := Token.beforeEnd_mono (tokens.take_prefix size)
  exact ⟨first, parse_cut_off parsed first⟩

end Syntax

end Scriptlet
