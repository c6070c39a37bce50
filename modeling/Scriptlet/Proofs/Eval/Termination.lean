import Scriptlet.Proofs.Eval.Acquaintance
import Scriptlet.Proofs.Eval.Bounded

/-!
# Programs without functions end

Only calls of declared functions can nest evaluation deeper than the syntax tree is. A program that
declares no function, in a scope from which none can be reached, meets none, whatever values it
passes around and calls. So it ends with a value or a fault, no matter how deep calls may be nested,
and an evaluator that gives up beyond the height of the program does not give up
(`functionless_ends`).
-/
namespace Scriptlet

theorem Outcome.mapError_eq_unfinished {ε ε' α : Type} {f : ε → ε'} {x : Outcome ε α} :
    x.mapError f = .unfinished ↔ x = .unfinished := by
  cases x <;> simp [mapError]

/-- A declaration of a function. -/
def Node.DeclaresFunction : Node → Prop
  | .stmt (.function ..) => True
  | _ => False

/-- A program in which no declaration of a function stands. -/
def Program.Functionless (program : Program) : Prop :=
  ∀ node, program.HasNode node → ¬node.DeclaresFunction

/-- What stands in an expression is no declaration. -/
theorem Node.not_declaresFunction {e : Expr} {node : Node} (holds : (Node.expr e).Holds node) :
    ¬node.DeclaresFunction := by
  have inside : ∃ e', node = .expr e' := by
    induction holds with
    | refl => exact ⟨e, rfl⟩
    | tail _ child ih =>
      obtain ⟨e', rfl⟩ := ih
      cases child <;> exact ⟨_, rfl⟩
  obtain ⟨e', rfl⟩ := inside
  exact id

namespace Eval

variable {α β : Type}

/-! Operations on the machine are not cut short. -/

namespace Run

/-- A computation that is not cut short, wherever it starts. -/
def Ends (run : Run α) : Prop := ∀ m, (run m).1 ≠ .unfinished

theorem ends_pure (a : α) : Ends (pure a : Run α) := fun _ => nofun

theorem ends_fail (cause : Fault) (span : Span) : Ends (fail cause span : Run α) := fun _ => nofun

theorem Ends.bind {first : Run α} {second : α → Run β} (ends : first.Ends)
    (next : ∀ a, (second a).Ends) : (first >>= second).Ends := by
  intro m
  rw [bind_apply]
  cases run : first m with
  | mk outcome n =>
    cases outcome with
    | value a => exact next a n
    | failure e => exact nofun
    | unfinished => exact absurd (congrArg Prod.fst run) (ends m)

theorem ends_newScope (parent : ScopeId) : Ends (newScope parent) := by rintro m ⟨⟩

theorem ends_newIdentity : Ends newIdentity := by rintro m ⟨⟩

theorem ends_ofExcept (span : Span) (x : Except Fault α) : Ends (ofExcept span x) := by
  cases x with
  | ok a => exact ends_pure a
  | error cause => exact ends_fail cause span

theorem ends_get (scope : ScopeId) (name : String) (span : Span) : Ends (get scope name span) := by
  intro m
  unfold get
  split <;> rintro ⟨⟩

theorem ends_updateStore (span : Span) (fault? : Store → Option ScopeFault)
    (change : Store → Store) : Ends (updateStore span fault? change) := by
  rintro ⟨store, nextIdentity, sink⟩
  unfold updateStore
  dsimp only
  split <;> rintro ⟨⟩

theorem ends_declaration (scope : ScopeId) (name : String) (v : Value) (constant : Bool)
    (span : Span) (a : α) : Ends (declare scope name v constant span >>= fun _ => pure a) :=
  (ends_updateStore _ _ _).bind fun _ => ends_pure a

end Run

theorem ends_memberOf (object : Expr) (property : String) (span : Span) (v : Value) :
    (memberOf object property span v).Ends := by
  unfold memberOf
  split
  · split
    · exact Run.ends_pure _
    · exact Run.ends_fail _ _
  · exact Run.ends_fail _ _

theorem ends_callNative (host : Host) (name : String) (args : List Value) (site : ScopeId)
    (span : Span) : (callNative host name args site span).Ends := by
  intro m
  unfold callNative
  split
  · exact nofun
  · split <;> exact nofun

namespace Contract

variable {host : Host} {C : Contract host} {good : Machine → α → Prop} {m : Machine}

/-- From `m` on, two computations are the same, and are not cut short. -/
def Settles (C : Contract host) (m : Machine) (x y : Run α) : Prop :=
  C.Holds m → x m = y m ∧ (x m).1 ≠ .unfinished

theorem settles_of_ends {run : Run α} (ends : run.Ends) : C.Settles m run run :=
  fun _ => ⟨rfl, ends m⟩

/-- The second computations start where the first ones ended, in a state that keeps the contract. -/
theorem Settles.bind {first first' : Run α} {second second' : α → Run β}
    (h : C.Settles m first first') (keeps : C.Keeps good m first)
    (next : ∀ n a, C.Future m n → good n a → C.Settles n (second a) (second' a)) :
    C.Settles m (first >>= second) (first' >>= second') := by
  intro holds
  obtain ⟨same, ends⟩ := h holds
  have kept := keeps holds
  rw [Run.bind_apply, Run.bind_apply, ← same]
  cases run : first m with
  | mk outcome n =>
    rw [run] at kept ends
    cases outcome with
    | value a => exact next n a kept.future (kept.value a rfl) kept.holds
    | failure e => exact ⟨rfl, nofun⟩
    | unfinished => exact absurd rfl ends

end Contract

open Contract

/-- A caller that finds nothing to do but what an evaluator that is given its parts does. -/
def Caller.Settles {host : Host} (caller : Caller) (C : Contract host) : Prop :=
  ∀ {inner : Evaluator} {m f args site span}, C.Has m f →
    C.Settles m (caller f args site span) (inner.call host f args site span)

variable {host : Host} {C : Contract host} {caller : Caller}

/-! One node of room is used up by a node, and its parts need less than it does. -/

mutual

theorem evalExpr_settles (calls : caller.Keeps C) (settles : caller.Settles C) (scope : ScopeId) :
    ∀ (e : Expr) (room : Nat) {m : Machine}, e.height ≤ room → C.Code (.expr e) →
      C.Sees m scope →
        C.Settles m (evalExpr caller scope e) ((Evaluator.within host room).expr scope e)
  | e, 0, _, fits, _, _ => absurd e.height_pos (Nat.not_lt.mpr fits)
  | .number _ _, room + 1, _, _, _, _ => settles_of_ends (Run.ends_pure _)
  | .text _ _, room + 1, _, _, _, _ => settles_of_ends (Run.ends_pure _)
  | .name name span, room + 1, _, _, _, _ => settles_of_ends (Run.ends_get scope name span)
  | .binary op left right span, room + 1, m, fits, code, sees => by
    rw [Expr.height] at fits
    have first := evalExpr_keeps calls scope left (C.part code .left) sees
    rw [evalExpr]
    apply (evalExpr_settles calls settles scope left room (by omega) (C.part code .left)
      sees).bind first
    intro n a future _
    have sees' := C.sees_later future sees
    have second := evalExpr_keeps calls scope right (C.part code .right) sees'
    apply (evalExpr_settles calls settles scope right room (by omega) (C.part code .right)
      sees').bind second
    intro _ b _ _
    exact settles_of_ends (Run.ends_ofExcept _ _)
  | .not operand _, room + 1, m, fits, code, sees => by
    rw [Expr.height] at fits
    have first := evalExpr_keeps calls scope operand (C.part code .operand) sees
    rw [evalExpr]
    apply (evalExpr_settles calls settles scope operand room (by omega) (C.part code .operand)
      sees).bind first
    intro _ _ _ _
    exact settles_of_ends (Run.ends_pure _)
  | .assign target value span, room + 1, m, fits, code, sees => by
    rw [Expr.height] at fits
    cases target with
    | name name place =>
      have first := evalExpr_keeps calls scope value (C.part code .assigned) sees
      rw [evalExpr]
      apply (evalExpr_settles calls settles scope value room (by omega) (C.part code .assigned)
        sees).bind first
      intro _ _ _ _
      exact settles_of_ends ((Run.ends_updateStore _ _ _).bind fun _ => Run.ends_pure _)
    | _ => exact settles_of_ends (Run.ends_fail _ _)
  | .object properties _, room + 1, m, fits, code, sees => by
    rw [Expr.height] at fits
    have parts : ∀ p ∈ properties, C.Code (.expr p.value) :=
      fun p member => C.part code (.property member)
    have none_yet : ∀ entry ∈ ([] : Entries), C.Has m entry.2 :=
      fun _ member => absurd member List.not_mem_nil
    have first := evalProperties_keeps calls scope properties parts sees none_yet
    rw [evalExpr]
    apply (evalProperties_settles calls settles scope properties room (by omega) parts sees
      none_yet).bind first
    intro _ _ _ _
    exact settles_of_ends (Run.ends_newIdentity.bind fun _ => Run.ends_pure _)
  | .member object property span, room + 1, m, fits, code, sees => by
    rw [Expr.height] at fits
    have first := evalExpr_keeps calls scope object (C.part code .object) sees
    rw [evalExpr]
    apply (evalExpr_settles calls settles scope object room (by omega) (C.part code .object)
      sees).bind first
    intro _ _ _ _
    exact settles_of_ends (ends_memberOf _ _ _ _)
  | .call callee args span, room + 1, m, fits, code, sees => by
    rw [Expr.height] at fits
    have parts : ∀ e ∈ args, C.Code (.expr e) := fun e member => C.part code (.arg member)
    have first := evalArgs_keeps calls scope args parts sees
    rw [evalExpr]
    apply (evalArgs_settles calls settles scope args room (by omega) parts sees).bind first
    intro n values future _
    have sees' := C.sees_later future sees
    have second := evalExpr_keeps calls scope callee (C.part code .callee) sees'
    apply (evalExpr_settles calls settles scope callee room (by omega) (C.part code .callee)
      sees').bind second
    intro _ f _ found
    exact settles found

theorem evalArgs_settles (calls : caller.Keeps C) (settles : caller.Settles C) (scope : ScopeId) :
    ∀ (args : List Expr) (room : Nat) {m : Machine}, exprsHeight args ≤ room →
      (∀ e ∈ args, C.Code (.expr e)) → C.Sees m scope →
        C.Settles m (evalArgs caller scope args) ((Evaluator.within host room).args scope args)
  | [], _, _, _, _, _ => settles_of_ends (Run.ends_pure _)
  | arg :: rest, room, m, fits, code, sees => by
    rw [exprsHeight] at fits
    rw [List.forall_mem_cons] at code
    have first := evalExpr_keeps calls scope arg code.1 sees
    rw [evalArgs, Evaluator.args]
    apply (evalExpr_settles calls settles scope arg room (by omega) code.1 sees).bind first
    intro n a future _
    have sees' := C.sees_later future sees
    have others := evalArgs_keeps calls scope rest code.2 sees'
    apply (evalArgs_settles calls settles scope rest room (by omega) code.2 sees').bind others
    intro _ _ _ _
    exact settles_of_ends (Run.ends_pure _)

theorem evalProperties_settles (calls : caller.Keeps C) (settles : caller.Settles C)
    (scope : ScopeId) :
    ∀ (properties : List Property) (room : Nat) {entries : Entries} {m : Machine},
      propertiesHeight properties ≤ room → (∀ p ∈ properties, C.Code (.expr p.value)) →
        C.Sees m scope → (∀ entry ∈ entries, C.Has m entry.2) →
          C.Settles m (evalProperties caller scope entries properties)
            ((Evaluator.within host room).properties scope entries properties)
  | [], _, _, _, _, _, _, _ => settles_of_ends (Run.ends_pure _)
  | .mk key value _ :: rest, room, entries, m, fits, code, sees, has => by
    rw [propertiesHeight] at fits
    rw [List.forall_mem_cons] at code
    have first := evalExpr_keeps calls scope value code.1 sees
    rw [evalProperties, Evaluator.properties]
    apply (evalExpr_settles calls settles scope value room (by omega) code.1 sees).bind first
    intro n a future made
    refine evalProperties_settles calls settles scope rest room (by omega) code.2
      (C.sees_later future sees) ?_
    intro entry member
    rcases Entries.mem_insert member with old | new
    · exact C.has_later future (has entry old)
    · rw [new]
      exact made

end

mutual

theorem evalStmt_settles (calls : caller.Keeps C) (settles : caller.Settles C) (scope : ScopeId) :
    ∀ (s : Stmt) (room : Nat) {m : Machine}, s.height ≤ room → C.Code (.stmt s) → C.Owns m scope →
      C.Settles m (evalStmt caller scope s) ((Evaluator.within host room).stmt scope s)
  | s, 0, _, fits, _, _ => absurd s.height_pos (Nat.not_lt.mpr fits)
  | .expr value _, room + 1, m, fits, code, owns => by
    rw [Stmt.height] at fits
    exact evalExpr_settles calls settles scope value room (by omega) (C.part code .value)
      (C.sees_of_owns owns)
  | .declare name constant (some value) span, room + 1, m, fits, code, owns => by
    rw [Stmt.height] at fits
    have sees := C.sees_of_owns owns
    have first := evalExpr_keeps calls scope value (C.part code .initializer) sees
    rw [evalStmt]
    apply (evalExpr_settles calls settles scope value room (by omega) (C.part code .initializer)
      sees).bind first
    intro _ _ _ _
    exact settles_of_ends (Run.ends_declaration _ _ _ _ _ _)
  | .declare name constant none span, room + 1, m, _, _, _ => by
    rw [evalStmt]
    exact settles_of_ends ((Run.ends_pure _).bind fun _ => Run.ends_declaration _ _ _ _ _ _)
  | .function name params body span, room + 1, m, _, _, _ => by
    rw [evalStmt]
    exact settles_of_ends (Run.ends_newIdentity.bind fun _ => Run.ends_declaration _ _ _ _ _ _)
  | .branch condition body alternatives otherwise _, room + 1, m, fits, code, owns => by
    rw [Stmt.height_branch] at fits
    have sees := C.sees_of_owns owns
    have first := evalExpr_keeps calls scope condition (C.part code .condition) sees
    rw [evalStmt.eq_def]
    apply (evalExpr_settles calls settles scope condition room (by omega) (C.part code .condition)
      sees).bind first
    intro n guard future _
    have sees' := C.sees_later future sees
    split
    · exact evalBlock_settles calls settles scope body room (by omega)
        (fun s member => C.part code (.branch member)) sees'
    · have parts := code_alternatives code
      have others := evalAlternatives_keeps calls scope alternatives parts.1 parts.2 sees'
      apply (evalAlternatives_settles calls settles scope alternatives room (by omega) parts.1
        parts.2 sees').bind others
      intro _ taken further _
      cases taken with
      | some value => exact settles_of_ends (Run.ends_pure _)
      | none =>
        cases otherwise with
        | none => exact settles_of_ends (Run.ends_pure _)
        | some block =>
          have room_left : stmtsHeight block ≤ room := by
            rw [Option.elim] at fits
            omega
          exact evalBlock_settles calls settles scope block room room_left
            (fun s member => C.part code (.otherwise member)) (C.sees_later further sees')

theorem evalBlock_settles (calls : caller.Keeps C) (settles : caller.Settles C) (parent : ScopeId)
    (body : List Stmt) (room : Nat) {m : Machine} (fits : stmtsHeight body ≤ room)
    (code : ∀ s ∈ body, C.Code (.stmt s)) (sees : C.Sees m parent) :
    C.Settles m (Run.newScope parent >>= fun inner => evalSequence caller inner .null body)
      (Run.newScope parent >>= fun inner =>
        (Evaluator.within host room).sequence inner .null body) := by
  apply (settles_of_ends (Run.ends_newScope parent)).bind (keeps_newScope sees)
  intro n inner _ made
  exact evalSequence_settles calls settles inner body room fits code made.1

theorem evalAlternatives_settles (calls : caller.Keeps C) (settles : caller.Settles C)
    (scope : ScopeId) :
    ∀ (alternatives : List Alternative) (room : Nat) {m : Machine},
      alternativesHeight alternatives ≤ room → (∀ a ∈ alternatives, C.Code (.expr a.condition)) →
        (∀ a ∈ alternatives, ∀ s ∈ a.body, C.Code (.stmt s)) → C.Sees m scope →
          C.Settles m (evalAlternatives caller scope alternatives)
            ((Evaluator.within host room).alternatives scope alternatives)
  | [], _, _, _, _, _, _ => settles_of_ends (Run.ends_pure _)
  | .mk condition body :: rest, room, m, fits, guards, bodies, sees => by
    rw [alternativesHeight] at fits
    rw [List.forall_mem_cons] at guards bodies
    have first := evalExpr_keeps calls scope condition guards.1 sees
    rw [evalAlternatives, Evaluator.alternatives]
    apply (evalExpr_settles calls settles scope condition room (by omega) guards.1 sees).bind first
    intro n guard future _
    have sees' := C.sees_later future sees
    split
    · have kept := evalBlock_keeps calls scope body bodies.1 sees'
      rw [← bind_assoc, ← bind_assoc]
      apply (evalBlock_settles calls settles scope body room (by omega) bodies.1 sees').bind kept
      intro _ _ _ _
      exact settles_of_ends (Run.ends_pure _)
    · exact evalAlternatives_settles calls settles scope rest room (by omega) guards.2 bodies.2
        sees'

theorem evalSequence_settles (calls : caller.Keeps C) (settles : caller.Settles C)
    (scope : ScopeId) :
    ∀ (statements : List Stmt) (room : Nat) {last : Value} {m : Machine},
      stmtsHeight statements ≤ room → (∀ s ∈ statements, C.Code (.stmt s)) → C.Owns m scope →
        C.Settles m (evalSequence caller scope last statements)
          ((Evaluator.within host room).sequence scope last statements)
  | [], _, _, _, _, _, _ => settles_of_ends (Run.ends_pure _)
  | statement :: rest, room, last, m, fits, code, owns => by
    rw [stmtsHeight] at fits
    rw [List.forall_mem_cons] at code
    have first := evalStmt_keeps calls scope statement code.1 (C.sees_of_owns owns) fun _ => owns
    rw [evalSequence, Evaluator.sequence]
    apply (evalStmt_settles calls settles scope statement room (by omega) code.1 owns).bind first
    intro n value future _
    exact evalSequence_settles calls settles scope rest room (by omega) code.2
      (C.owns_later future owns)

end

/-- Where no function is at hand, a call does not go on with statements of any body. -/
theorem invoke_settles (functionless : ∀ closure, ¬C.Knows closure) (depth : Nat) :
    Caller.Settles (invoke host depth) C := by
  intro inner m f args site span found
  cases f with
  | native id name =>
    unfold invoke Evaluator.call
    exact settles_of_ends (ends_callNative _ _ _ _ _)
  | function id closure => exact absurd (C.function found).2 (functionless closure)
  | _ =>
    unfold invoke Evaluator.call
    exact settles_of_ends (Run.ends_fail _ _)

/-- No function can be called where none can be found. -/
def functionless : Circle fun node => ¬node.DeclaresFunction where
  Knows _ := False
  body := False.elim
  declared _ code := code _ .refl trivial

/-- A run of a program without functions from a scope that leads to none. -/
theorem evalProgram_functionless {host : Host} (brings : host.BringsOnly fun _ => False)
    (depth : Nat) {env : ScopeId} {program : Program} {machine : Machine}
    (free : program.Functionless)
    (nowhere : machine.store.Familiar (fun _ => False) (.scope env)) :
    let run := evalProgram host depth env program machine
    run.1 ≠ .unfinished ∧
      (∀ room, program.height ≤ room → evalWithin host room env program machine = run) ∧
      run.2.store.Familiar (fun _ => False) (.scope env) ∧
      ∀ v, run.1 = .value v → run.2.store.Familiar (fun _ => False) (.value v) := by
  intro run
  let C := acquaintance functionless brings (Frame.trivial host _)
  have code : ∀ s ∈ program, C.Code (.stmt s) :=
    fun s member part holds => free part ⟨s, member, holds⟩
  have kept : C.Kept C.Has machine run :=
    evalProgram_acquainted functionless brings (Frame.trivial host _) depth code nowhere
  have settles : ∀ room, program.height ≤ room →
      C.Settles machine (evalProgram host depth env program) (evalWithin host room env program) :=
    fun room fits => evalSequence_settles (invoke_keeps C depth) (invoke_settles (fun _ => id) depth)
      env program room fits code nowhere
  exact ⟨(settles _ (Nat.le_refl _) trivial).2, fun room fits => (settles room fits trivial).1.symm,
    kept.future.1 _ nowhere, kept.value⟩

end Eval

namespace Setup

open Eval

/-- The machine after some programs were evaluated in a scope, one after the other. What a program
leaves behind is kept also when it fails. -/
def afterPrograms (setup : Setup) (env : ScopeId) : List Program → Machine → Machine
  | [], machine => machine
  | program :: rest, machine =>
    setup.afterPrograms env rest (setup.evalProgram env program machine).2

theorem afterPrograms_functionless {setup : Setup}
    (brings : setup.host.BringsOnly fun _ => False) {env : ScopeId} {programs : List Program}
    (free : ∀ p ∈ programs, p.Functionless) {machine : Machine}
    (nowhere : machine.store.Familiar (fun _ => False) (.scope env)) :
    (setup.afterPrograms env programs machine).store.Familiar (fun _ => False) (.scope env) := by
  induction programs generalizing machine with
  | nil => exact nowhere
  | cons program rest ih =>
    rw [List.forall_mem_cons] at free
    have law := evalProgram_functionless brings setup.depth free.1 nowhere
    exact ih free.2 law.2.2.1

/-- **Programs without functions end.** In a scope from which no declared function can be reached, a
program that declares none ends with a value or a fault, also after others of its kind, and however
deep calls may be nested. An evaluator that gives up beyond the height of the program does the same.
Afterwards no declared function can be reached from the scope or the result. -/
theorem functionless_ends (setup : Setup) (brings : setup.host.BringsOnly fun _ => False)
    (env : ScopeId) (machine : Machine)
    (nowhere : ∀ id closure,
      ¬machine.store.Reachable (· = .scope env) (.value (.function id closure)))
    (earlier : List Program) (program : Program)
    (free : ∀ p ∈ program :: earlier, p.Functionless) :
    let before := setup.afterPrograms env earlier machine
    let run := setup.evalProgram env program before
    run.1 ≠ .unfinished ∧
      (∀ room, program.height ≤ room →
        conclude (evalWithin setup.host room env program) before = run) ∧
      ∀ id closure, ¬run.2.store.Reachable
        (fun o => o = .scope env ∨ ∃ v, run.1 = .value v ∧ o = .value v)
        (.value (.function id closure)) := by
  intro before run
  rw [List.forall_mem_cons] at free
  have still : before.store.Familiar (fun _ => False) (.scope env) :=
    afterPrograms_functionless brings free.2 nowhere
  obtain ⟨ends, bounded, scope, result⟩ :=
    evalProgram_functionless brings setup.depth free.1 still
  refine ⟨?_, fun room fits => ?_, fun id closure reached => ?_⟩
  · exact fun cut => ends (Outcome.mapError_eq_unfinished.mp cut)
  · simp only [run, evalProgram, conclude, bounded room fits]
  · obtain ⟨o, rfl | ⟨v, given, rfl⟩, further⟩ := reached.exists_root
    · exact scope id closure further
    · exact result v (Outcome.mapError_eq_value.mp given) id closure further

/-- A session that puts `print` into an object and calls it from there. -/
theorem functionless_ends_member :
    (Setup.standard.host.BringsOnly fun _ => False) ∧
      let machine := Machine.initial.newGlobalScope.2
      let earlier : Program :=
        [.declare "out" false
          (some (.object [.mk "line" (.name "print" ⟨18, 23⟩) ⟨12, 23⟩] ⟨10, 25⟩)) ⟨0, 25⟩]
      let program : Program :=
        [.expr (.call (.member (.name "out" ⟨0, 3⟩) "line" ⟨0, 8⟩) [.text "hi" ⟨9, 13⟩] ⟨0, 14⟩)
          ⟨0, 14⟩]
      let before := Setup.standard.afterPrograms 0 [earlier] machine
      program.height = 4 ∧
        conclude (evalWithin Setup.standard.host 4 0 program) before =
          Setup.standard.evalProgram 0 program before ∧
        (Setup.standard.evalProgram 0 program before).2.sink.written = "hi\n" := by
  have brings := Host.onlyPrints_standard.bringsOnly fun _ => False
  refine ⟨brings, ?_⟩
  intro machine earlier program before
  have nowhere : machine.store.Familiar (fun _ => False) (.scope 0) :=
    familiar_newGlobalScope Machine.initial
  have single : ∀ s : Stmt, ¬(Node.stmt s).DeclaresFunction →
      (∀ part, (Node.stmt s).Child part → ∃ e, part = .expr e) → Program.Functionless [s] := by
    rintro s own parts node ⟨_, member, holds⟩
    obtain rfl := List.mem_singleton.mp member
    rcases holds.cases_head with rfl | ⟨part, child, inside⟩
    · exact own
    · obtain ⟨e, rfl⟩ := parts part child
      exact Node.not_declaresFunction inside
  have declares : earlier.Functionless := single _ id (by rintro _ ⟨⟩; exact ⟨_, rfl⟩)
  have calls : program.Functionless := single _ id (by rintro _ ⟨⟩; exact ⟨_, rfl⟩)
  have free : ∀ p ∈ [program, earlier], p.Functionless :=
    List.forall_mem_cons.mpr ⟨calls, List.forall_mem_singleton.mpr declares⟩
  have law := functionless_ends Setup.standard brings 0 machine nowhere [earlier] program free
  exact ⟨by decide, law.2.1 4 (by decide), by decide +kernel⟩

end Setup

end Scriptlet
