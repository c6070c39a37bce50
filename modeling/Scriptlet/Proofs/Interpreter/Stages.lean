import Scriptlet.Interpreter

/-!
# The stages of the interpreter

A source is scanned, parsed and evaluated. What each stage passes on, and that only the last one
fails at run time.
-/
namespace Scriptlet

variable {source : String} {tokens : List Token} {program : Program} {d : Diagnostic}

theorem exists_of_map_ok {ε α β : Type} {x : Except ε α} {f : α → β} {b : β}
    (h : x.map f = .ok b) : ∃ a, x = .ok a ∧ f a = b := by
  cases x with
  | error e => cases h
  | ok a => exact ⟨a, rfl, Except.ok.inj h⟩

theorem parseSource_of_scan (scanned : Token.scan source = .ok tokens) :
    parseSource source = (Syntax.parse tokens).mapError Syntax.Fault.diagnostic := by
  rw [parseSource, scanned]
  rfl

theorem parseSource_ok : parseSource source = .ok program ↔
    ∃ tokens, Token.scan source = .ok tokens ∧ Syntax.parse tokens = .ok program := by
  constructor
  · intro parsed
    cases scanned : Token.scan source with
    | error e =>
      rw [parseSource, scanned] at parsed
      cases parsed
    | ok tokens =>
      rw [parseSource_of_scan scanned] at parsed
      cases read : Syntax.parse tokens with
      | error e =>
        rw [read] at parsed
        cases parsed
      | ok program' =>
        rw [read] at parsed
        cases parsed
        exact ⟨tokens, rfl, read⟩
  · rintro ⟨tokens, scanned, parsed⟩
    rw [parseSource_of_scan scanned, parsed]
    rfl

/-- What is no program fails before it runs. -/
theorem parseSource_stage (failed : parseSource source = .error d) : d.stage ≠ .runtime := by
  cases scanned : Token.scan source with
  | error e =>
    rw [parseSource, scanned] at failed
    cases failed
    exact nofun
  | ok tokens =>
    rw [parseSource_of_scan scanned] at failed
    cases read : Syntax.parse tokens with
    | error e =>
      rw [read] at failed
      cases failed
      exact nofun
    | ok program =>
      rw [read] at failed
      cases failed

theorem Setup.evalSource_of_parse (setup : Setup) (parsed : parseSource source = .ok program)
    (scope : ScopeId) (machine : Machine) :
    setup.evalSource scope source machine = setup.evalProgram scope program machine := by
  unfold evalSource
  rw [parsed]

end Scriptlet
