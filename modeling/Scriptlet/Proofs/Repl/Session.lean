import Mathlib.Data.List.TakeWhile
import Scriptlet.Proofs.Eval.Appending
import Scriptlet.Proofs.Eval.ConstantLaw
import Scriptlet.Proofs.Repl.Lines

/-!
# A session at the prompt

A session is told line by line without the prompt: each line is a source that is evaluated where the
one before it left the machine (`exchanges`). The prompt adds its own texts to what the programs
print, and nothing else: it leaves the machine that the sources leave, shows the exchanges in their
order and reports their failures (`run_exchanges`).
-/
namespace Scriptlet

namespace Repl

/-- A line without the blanks around it. -/
def entry (line : List Char) : String := String.ofList (Text.trim line)

def entries (text : String) : List String := (Text.lines text.toList).map entry

/-- The entries before the first one that asks for the end. -/
def consumed (text : String) : List String := (entries text).takeWhile (!isExit ·)

/-- Some entry asks for the end. -/
def exits (text : String) : Bool := (entries text).any isExit

/-- The output at the end, behind the last prompt. -/
def ending (text : String) : String := if exits text then farewell else "\n"

/-- What becomes of a line. -/
structure Exchange where
  line : String
  /-- How the evaluation ends, if there is anything to evaluate. -/
  outcome? : Option (Outcome Diagnostic Value)
  /-- What the evaluation prints. -/
  printed : String

namespace Exchange

/-- The evaluation was not cut short. -/
def finished : Exchange → Bool
  | ⟨_, some .unfinished, _⟩ => false
  | _ => true

/-- The value as it is shown, if the line has one. -/
def answer : Exchange → String
  | ⟨_, some (.value value), _⟩ => value.render ++ "\n"
  | _ => ""

/-- The output from one prompt to the next. -/
def shown (exchange : Exchange) : String := prompt ++ exchange.printed ++ exchange.answer

/-- What is told about a failure. -/
def report? : Exchange → Option Notice
  | ⟨line, some (.failure diagnostic), _⟩ => some (.report (diagnostic.report line none))
  | _ => none

end Exchange

/-- The exchange about a line in some state, and the state that it leads to. -/
def exchange (setup : Setup) (scope : ScopeId) (line : String) (machine : Machine) :
    Exchange × Machine :=
  if line.isEmpty then (⟨line, none, ""⟩, machine)
  else
    let (outcome, next) := setup.evalSource scope line machine
    (⟨line, some outcome, machine.printedSince next⟩, next)

/-- The exchanges about some lines, each in the state that the one before it led to. -/
def exchanges (setup : Setup) (scope : ScopeId) : List String → Machine → List Exchange
  | [], _ => []
  | line :: rest, machine =>
    let (first, next) := exchange setup scope line machine
    first :: exchanges setup scope rest next

/-- The lines that are sources, to be evaluated in a scope. -/
def sources (scope : ScopeId) (lines : List String) : List (ScopeId × String) :=
  (lines.filter (!·.isEmpty)).map (scope, ·)

variable {setup : Setup} {scope : ScopeId} {m : Machine}

/-- Only sources change the state. -/
theorem afterSession_sources_cons (line : String) (rest : List String) :
    setup.afterSession (sources scope (line :: rest)) m =
      setup.afterSession (sources scope rest) (exchange setup scope line m).2 := by
  cases empty : line.isEmpty <;> simp [sources, exchange, empty, Setup.afterSession]

/-- A source that is evaluated at the prompt leaves what it leaves anywhere, and the answer behind
what it printed. -/
theorem evaluate_showing (appends : setup.host.Appends) (unlimited : m.sink.room = none)
    {source : String} {outcome : Outcome Diagnostic Value} {next : Machine}
    (run : setup.evalSource scope source m = (outcome, next)) (written : String) :
    let held : Exchange := ⟨source, some outcome, m.printedSince next⟩
    next.sink.room = none ∧ (held.finished = true →
      evaluate setup scope source (m.showing written) =
        ⟨held.report?.toList, next.showing (written ++ held.printed ++ held.answer), false⟩) := by
  intro held
  obtain ⟨still, same⟩ := (setup.evalSource_appends appends scope source).apply unlimited
  rw [run] at still same
  refine ⟨still, fun finished => ?_⟩
  simp only [evaluate, Script.runIn, same]
  cases outcome with
  | value value => rfl
  | failure diagnostic =>
    simp only [held, Exchange.answer, String.append_empty]
    rfl
  | unfinished => cases finished

/-- A line that does not ask for the end is dealt with as its exchange tells. -/
theorem turn_showing (appends : setup.host.Appends) (unlimited : m.sink.room = none)
    {line : List Char} (stays : isExit (entry line) = false) {held : Exchange} {next : Machine}
    (led : exchange setup scope (entry line) m = (held, next)) (finished : held.finished = true)
    (written : String) :
    next.sink.room = none ∧ turn setup scope (Text.bytes line) (m.showing written) =
      ⟨held.report?.toList, next.showing (written ++ held.printed ++ held.answer), false⟩ := by
  rw [turn, decode_bytes, ← entry]
  generalize entry line = source at stays led
  cases empty : source.isEmpty with
  | true =>
    rw [exchange, if_pos empty] at led
    cases led
    simp [empty, Exchange.report?, Exchange.answer, unlimited]
  | false =>
    cases ran : setup.evalSource scope source m with
    | mk outcome after =>
      simp only [exchange, empty, ran, Bool.false_eq_true, if_false] at led
      cases led
      obtain ⟨still, evaluated⟩ := evaluate_showing appends unlimited ran written
      refine ⟨still, ?_⟩
      simp only [empty, stays, Bool.false_eq_true, if_false]
      exact evaluated finished

/-- The loop over lines of which none asks for the end. It goes on behind them in the state that the
sources lead to, and has shown the exchanges. -/
theorem loop_append (appends : setup.host.Appends) (front : List (List Char))
    (back : List (List UInt8)) (unlimited : m.sink.room = none)
    (stay : ∀ line ∈ front.map entry, isExit line = false)
    (finished : ∀ held ∈ exchanges setup scope (front.map entry) m, held.finished = true)
    (written : String) :
    loop setup scope (front.map Text.bytes ++ back) (m.showing written) =
      let held := exchanges setup scope (front.map entry) m
      let after := setup.afterSession (sources scope (front.map entry)) m
      let (later, last) := loop setup scope back
        (after.showing (written ++ String.join (held.map Exchange.shown)))
      (held.filterMap Exchange.report? ++ later, last) := by
  induction front generalizing m written with
  | nil => simp [sources, exchanges, Setup.afterSession]
  | cons line rest ih =>
    simp only [List.map_cons, exchanges] at stay finished ⊢
    rw [afterSession_sources_cons]
    obtain ⟨stays, stay⟩ := List.forall_mem_cons.mp stay
    cases led : exchange setup scope (entry line) m with
    | mk now next =>
      rw [led] at finished
      obtain ⟨done, finished⟩ := List.forall_mem_cons.mp finished
      obtain ⟨unlimited, turned⟩ :=
        turn_showing appends unlimited stays led done (written ++ prompt)
      have prompted : (m.showing written).say prompt = m.showing (written ++ prompt) := rfl
      have behind := ih unlimited stay finished (written ++ now.shown)
      rw [Exchange.shown, ← String.append_assoc, ← String.append_assoc] at behind
      simp only [List.cons_append, loop, prompted, turned, Bool.false_eq_true, if_false, behind]
      cases report : now.report? <;>
        simp [report, Exchange.shown, String.append_assoc]

theorem loop_exit {line : List Char} (leaves : isExit (entry line) = true)
    (later : List (List UInt8)) (written : String) :
    loop setup scope (Text.bytes line :: later) (m.showing written) =
      ([], m.showing (written ++ prompt ++ farewell)) := by
  have some_text : (entry line).isEmpty = false := by
    cases empty : (entry line).isEmpty with
    | false => rfl
    | true =>
      rw [String.isEmpty_iff.mp empty] at leaves
      cases leaves
  rw [loop, turn, decode_bytes, ← entry]
  simp only [some_text, leaves, Bool.false_eq_true, if_false, if_true]
  rfl

/-- The lines of a text are those before the end is asked for, and those from there on if it is. -/
theorem lines_split (text : String) :
    ∃ front back, Text.lines text.toList = front ++ back ∧ front.map entry = consumed text ∧
      ((exits text = false ∧ back = []) ∨
        (exits text = true ∧ ∃ line rest, back = line :: rest ∧ isExit (entry line) = true)) := by
  let stays (line : List Char) : Bool := !isExit (entry line)
  refine ⟨(Text.lines text.toList).takeWhile stays, (Text.lines text.toList).dropWhile stays,
    List.takeWhile_append_dropWhile.symm, ?_, ?_⟩
  · rw [consumed, entries, List.takeWhile_map]
    rfl
  · cases behind : (Text.lines text.toList).dropWhile stays with
    | nil =>
      refine .inl ⟨?_, rfl⟩
      simpa [exits, entries, stays, List.dropWhile_eq_nil_iff] using behind
    | cons line rest =>
      have leaves : stays line = false := by
        have := List.head?_dropWhile_not stays (Text.lines text.toList)
        simpa [behind] using this
      have member : line ∈ Text.lines text.toList := by
        apply (List.dropWhile_suffix stays).mem
        rw [behind]
        exact List.mem_cons_self
      have leaves : isExit (entry line) = true := by simpa [stays] using leaves
      refine .inr ⟨?_, line, rest, rfl, leaves⟩
      rw [exits, entries, List.any_map, List.any_eq_true]
      exact ⟨line, member, leaves⟩

/-- The loop over all lines of a text. Nothing counts that stands behind a line that asks for the
end. -/
theorem loop_lines (appends : setup.host.Appends) (unlimited : m.sink.room = none) {text : String}
    (finished : ∀ held ∈ exchanges setup scope (consumed text) m, held.finished = true)
    {later : List (List UInt8)} (closed : exits text = true ∨ later = []) (written : String) :
    loop setup scope ((Text.lines text.toList).map Text.bytes ++ later) (m.showing written) =
      let held := exchanges setup scope (consumed text) m
      let after := setup.afterSession (sources scope (consumed text)) m
      (held.filterMap Exchange.report?, after.showing
        (written ++ String.join (held.map Exchange.shown) ++ prompt ++ ending text)) := by
  obtain ⟨front, back, lines, read, last⟩ := lines_split text
  have stay : ∀ line ∈ front.map entry, isExit line = false := by
    rw [read]
    intro line member
    simpa using List.mem_takeWhile_imp member
  rw [← read] at finished ⊢
  rw [lines, List.map_append, List.append_assoc,
    loop_append appends front _ unlimited stay finished]
  rcases last with ⟨never, rfl⟩ | ⟨leaves, line, rest, rfl, exit⟩
  · obtain rfl : later = [] := closed.resolve_left (by simp [never])
    simp [loop, ending, never, Machine.say_showing]
  · simp [loop_exit exit, ending, leaves]

/-- **The prompt tells a session.** Whatever lines a text has and however their evaluations end, the
prompt leaves the state that its sources leave when they are evaluated one after the other. Its
output is the banner, the exchanges and an ending, each with a prompt in front; it reports the
failures, in their order. When a line asks for the end, it does not matter which bytes come
later. -/
theorem run_exchanges (setup : Setup) (appends : setup.host.Appends) (scope : ScopeId)
    (machine : Machine) (unlimited : machine.sink.room = none) (text : String)
    (finished : ∀ held ∈ exchanges setup scope (consumed text) machine, held.finished = true) :
    let held := exchanges setup scope (consumed text) machine
    let after := setup.afterSession (sources scope (consumed text)) machine
    let input := text.toUTF8.data.toList
    let result := run setup scope input machine
    (result.2.store = after.store ∧ result.2.nextIdentity = after.nextIdentity) ∧
      result.2.sink.written = machine.sink.written ++ banner ++
        String.join (held.map Exchange.shown) ++ prompt ++ ending text ∧
      result.1 = held.filterMap Exchange.report? ∧
      (exits text = true →
        ∀ more : List UInt8, run setup scope (input ++ 10 :: more) machine = result) := by
  intro held after input result
  have greeted : machine.say banner = machine.showing (machine.sink.written ++ banner) := by
    rw [← Machine.say_showing, Machine.showing_self unlimited]
  have read : lines input = (Text.lines text.toList).map Text.bytes := by
    rw [← Text.lines_bytes, Text.bytes_toList]
  -- The end of the input and a line that asks for the end are the two ways to the same result.
  have told {bytes : List UInt8} {later : List (List UInt8)}
      (cut : lines bytes = lines input ++ later) (closed : exits text = true ∨ later = []) :
      run setup scope bytes machine = (held.filterMap Exchange.report?, after.showing
        (machine.sink.written ++ banner ++ String.join (held.map Exchange.shown) ++ prompt ++
          ending text)) := by
    rw [run, cut, read, greeted]
    exact loop_lines appends unlimited finished closed _
  have alone : result = _ := told (List.append_nil _).symm (.inr rfl)
  rw [alone]
  refine ⟨⟨Machine.store_showing .., Machine.nextIdentity_showing ..⟩,
    Machine.written_showing .., rfl, fun leaves more => ?_⟩
  obtain ⟨later, cut⟩ := lines_feed_append input more
  exact told cut (.inl leaves)

/-- A value, an empty line, output without a value, a fault that keeps what came before it, and two
lines that are not read. -/
theorem run_exchanges_quit :
    let machine := Machine.initial.newGlobalScope.2
    let text := "let x = 1\n\nprint(x)\n  x = 2 y\r\nx\n quit \nx = 3\nx"
    Setup.standard.host.Appends ∧ machine.sink.room = none ∧
      (∀ held ∈ exchanges .standard 0 (consumed text) machine, held.finished = true) ∧
      exits text = true ∧
      (run .standard 0 text.toUTF8.data.toList machine).2.sink.written =
        banner ++ "> 1\n> > 1\nnull\n> > 2\n> Goodbye!\n" ∧
      (run .standard 0 text.toUTF8.data.toList machine).1.length = 1 := by
  intro machine text
  have finished :
      ∀ held ∈ exchanges .standard 0 (consumed text) machine, held.finished = true := by
    decide +kernel
  have appends : Setup.standard.host.Appends := Eval.Host.onlyPrints_standard.appends
  have law := run_exchanges .standard appends 0 machine rfl text finished
  refine ⟨appends, rfl, finished, by decide +kernel, ?_, ?_⟩
  · rw [law.2.1]
    decide +kernel
  · rw [law.2.2.1]
    decide +kernel

end Repl

end Scriptlet
