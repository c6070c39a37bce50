import Scriptlet.Eval.Basic
import Scriptlet.Proofs.Eval.Nodes
import Scriptlet.Proofs.Scope.Reachability

/-!
# Contracts of evaluation

A contract says what holds of the machine between two operations of a program, which changes of the
machine are allowed, and what scopes, values and code may be at hand. It has to be shown for the
operations on the machine only: what is made of them keeps it (`evalSequence_keeps`,
`invoke_keeps`). So an invariant of all runs, however calls are nested and however they end, is an
instance of `Contract`, and needs no induction on programs of its own. Every contract also says that
a fault is explained by a node of the code at hand, or was raised by a native function.
-/
namespace Scriptlet

namespace Eval

namespace Native

/-- Where a native function may start from: the scope of the call and the arguments. -/
def Starts (args : List Value) (site : ScopeId) (r : Referent) : Prop :=
  r = .scope site ∨ ∃ a ∈ args, r = .value a

theorem identity?_print {args : List Value} {site : ScopeId} {m : Machine} {v : Value}
    (printed : (print args site m).1 = .ok v) : v.identity? = none := by
  simp only [print] at printed
  split at printed <;> cases printed
  rfl

end Native

/-- What runs on a host keep. -/
structure Contract (host : Host) where
  /-- What holds of the machine between two operations. -/
  Holds : Machine → Prop
  /-- What may become of a machine. -/
  Future : Machine → Machine → Prop
  /-- The scopes in which expressions may be evaluated. -/
  Sees : Machine → ScopeId → Prop
  /-- The scopes in which names may be declared. -/
  Owns : Machine → ScopeId → Prop
  /-- The values that may be at hand. -/
  Has : Machine → Value → Prop
  /-- The functions that may be called. -/
  Knows : Closure → Prop
  /-- The code that may be evaluated. -/
  Code : Node → Prop
  /-- The faults that native functions may raise. -/
  Raised : Fault → Prop
  refl : ∀ m, Future m m
  trans : ∀ {m n o}, Future m n → Future n o → Future m o
  sees_later : ∀ {m n id}, Future m n → Sees m id → Sees n id
  owns_later : ∀ {m n id}, Future m n → Owns m id → Owns n id
  has_later : ∀ {m n v}, Future m n → Has m v → Has n v
  sees_of_owns : ∀ {m id}, Owns m id → Sees m id
  plain : ∀ {m v}, v.identity? = none → Has m v
  bound : ∀ {m scope name binding}, Holds m → Sees m scope →
    m.store.lookup? scope name = some binding → Has m binding.value
  member : ∀ {m id entries key v}, Has m (.object id entries) → (key, v) ∈ entries → Has m v
  function : ∀ {m id closure}, Has m (.function id closure) →
    Sees m closure.scope ∧ Knows closure
  body : ∀ {closure}, Knows closure → ∀ s ∈ closure.body, Code (.stmt s)
  part : ∀ {whole part}, Code whole → whole.Child part → Code part
  newScope : ∀ {m parent}, Holds m → Sees m parent →
    Holds (m.newScope (some parent)).2 ∧ Future m (m.newScope (some parent)).2 ∧
      Owns (m.newScope (some parent)).2 (m.newScope (some parent)).1
  newObject : ∀ {m entries}, Holds m → (∀ entry ∈ entries, Has m entry.2) →
    Holds m.newIdentity.2 ∧ Future m m.newIdentity.2 ∧
      Has m.newIdentity.2 (.object m.newIdentity.1 entries)
  newFunction : ∀ {m scope name params body span}, Holds m → Owns m scope →
    Code (.stmt (.function name params body span)) →
      Holds m.newIdentity.2 ∧ Future m m.newIdentity.2 ∧
        Has m.newIdentity.2 (.function m.newIdentity.1 ⟨name, params, body, scope⟩)
  declare : ∀ {m scope name v} constant, Holds m → Owns m scope → Has m v →
    m.store.declareFault? scope name = none →
      let next := { m with store := m.store.bind scope name v constant }
      Holds next ∧ Future m next
  assign : ∀ {m scope name place value span v}, Holds m → Sees m scope → Has m v →
    Code (.expr (.assign (.name name place) value span)) →
      m.store.assignFault? scope name = none →
        let next := { m with store := m.store.set scope name v }
        Holds next ∧ Future m next
  native : ∀ {name native args site m}, host name = some native → Holds m → Sees m site →
    (∀ a ∈ args, Has m a) →
      Holds (native args site m).2 ∧ Future m (native args site m).2 ∧
        (∀ v, (native args site m).1 = .ok v → Has (native args site m).2 v) ∧
        ∀ cause, (native args site m).1 = .error cause → Raised cause

namespace Contract

variable {host : Host} {α β : Type}

/-- A fault of a native function that a call in the code at hand has called, or one that a node of
this code explains. -/
def Allows (C : Contract host) (e : Located Fault) : Prop :=
  (C.Raised e.cause ∧ ∃ callee args, C.Code (.expr (.call callee args e.span))) ∨
    ∃ node, C.Code node ∧ node.Explains C.Knows e.span e.cause.message

/-- A run from `m` that ended as the contract wants, with a good result if it has one. -/
structure Kept (C : Contract host) (good : Machine → α → Prop) (m : Machine)
    (x : Outcome (Located Fault) α × Machine) : Prop where
  holds : C.Holds x.2
  future : C.Future m x.2
  value : ∀ a, x.1 = .value a → good x.2 a
  failure : ∀ e, x.1 = .failure e → C.Allows e

/-- From `m` a run ends as the contract wants. -/
def Keeps (C : Contract host) (good : Machine → α → Prop) (m : Machine) (run : Run α) : Prop :=
  C.Holds m → C.Kept good m (run m)

variable {C : Contract host} {good : Machine → α → Prop} {later : Machine → β → Prop} {m : Machine}

theorem keeps_pure {a : α} (is_good : good m a) : C.Keeps good m (pure a) := by
  intro holds
  refine ⟨holds, C.refl m, ?_, ?_⟩
  · rintro _ ⟨⟩
    exact is_good
  · rintro _ ⟨⟩

theorem keeps_fail {cause : Fault} {span : Span} (allowed : C.Allows ⟨cause, span⟩) :
    C.Keeps good m (Run.fail cause span) := by
  intro holds
  refine ⟨holds, C.refl m, ?_, ?_⟩
  · rintro _ ⟨⟩
  · rintro _ ⟨⟩
    exact allowed

theorem keeps_unfinished : C.Keeps good m Run.unfinished := by
  intro holds
  refine ⟨holds, C.refl m, ?_, ?_⟩ <;> rintro _ ⟨⟩

/-- The second run starts where the first one ended. -/
theorem Keeps.bind {first : Run α} {second : α → Run β} (h : C.Keeps good m first)
    (next : ∀ n a, C.Future m n → good n a → C.Keeps later n (second a)) :
    C.Keeps later m (first >>= second) := by
  intro holds
  have begun := h holds
  rw [Run.bind_apply]
  cases run : first m with
  | mk outcome n =>
    rw [run] at begun
    cases outcome with
    | value a =>
      have ended := next n a begun.future (begun.value a rfl) begun.holds
      exact ⟨ended.holds, C.trans begun.future ended.future, ended.value, ended.failure⟩
    | failure e =>
      refine ⟨begun.holds, begun.future, ?_, ?_⟩
      · rintro _ ⟨⟩
      · rintro _ ⟨⟩
        exact begun.failure e rfl
    | unfinished =>
      refine ⟨begun.holds, begun.future, ?_, ?_⟩ <;> rintro _ ⟨⟩

theorem Keeps.imp {better : Machine → α → Prop} {run : Run α} (h : C.Keeps good m run)
    (implies : ∀ n a, good n a → better n a) : C.Keeps better m run := by
  intro holds
  have kept := h holds
  exact ⟨kept.holds, kept.future, fun a value => implies _ a (kept.value a value), kept.failure⟩

/-! The operations of the evaluator on the machine. -/

theorem keeps_get {scope : ScopeId} {name : String} {span : Span} (sees : C.Sees m scope)
    (code : C.Code (.expr (.name name span))) : C.Keeps C.Has m (Run.get scope name span) := by
  intro holds
  unfold Run.get Store.get
  cases found : m.store.lookup? scope name with
  | none => exact keeps_fail (.inr ⟨_, code, .undefinedName⟩) holds
  | some binding => exact keeps_pure (C.bound holds sees found) holds

/-- A scope that was made just now is the program's own, and binds no name yet. -/
theorem keeps_newScope {parent : ScopeId} (sees : C.Sees m parent) :
    C.Keeps (fun n id => C.Owns n id ∧ n.store.scope id = ⟨[], some parent⟩) m
      (Run.newScope parent) := by
  intro holds
  obtain ⟨still, future, owns⟩ := C.newScope holds sees
  refine ⟨still, future, ?_, ?_⟩
  · rintro _ ⟨⟩
    exact ⟨owns, (Store.scope_create m.store (some parent) _).trans (if_pos rfl)⟩
  · rintro _ ⟨⟩

theorem keeps_newObject {entries : Entries} (has : ∀ entry ∈ entries, C.Has m entry.2) :
    C.Keeps (fun n id => C.Has n (.object id entries)) m Run.newIdentity := by
  intro holds
  obtain ⟨still, future, made⟩ := C.newObject holds has
  refine ⟨still, future, ?_, ?_⟩
  · rintro _ ⟨⟩
    exact made
  · rintro _ ⟨⟩

theorem keeps_newFunction {scope : ScopeId} {name : String} {params : List String}
    {body : List Stmt} {span : Span} (owns : C.Owns m scope)
    (code : C.Code (.stmt (.function name params body span))) :
    C.Keeps (fun n id => C.Has n (.function id ⟨name, params, body, scope⟩)) m
      Run.newIdentity := by
  intro holds
  obtain ⟨still, future, made⟩ := C.newFunction holds owns code
  refine ⟨still, future, ?_, ?_⟩
  · rintro _ ⟨⟩
    exact made
  · rintro _ ⟨⟩

theorem keeps_updateStore {span : Span} {fault? : Store → Option ScopeFault}
    (change : Store → Store)
    (changed : C.Holds m → fault? m.store = none →
      C.Holds { m with store := change m.store } ∧
        C.Future m { m with store := change m.store })
    (allowed : ∀ fault, fault? m.store = some fault → C.Allows ⟨.scope fault, span⟩) :
    C.Keeps (fun n _ => n.store = change m.store) m (Run.updateStore span fault? change) := by
  intro holds
  simp only [Run.updateStore]
  cases fault : fault? m.store with
  | some cause => exact keeps_fail (allowed cause fault) holds
  | none =>
    obtain ⟨still, future⟩ := changed holds fault
    refine ⟨still, future, ?_, ?_⟩
    · rintro _ ⟨⟩
      rfl
    · rintro _ ⟨⟩

theorem keeps_declare {scope : ScopeId} {name : String} {v : Value} {constant : Bool} {span : Span}
    (owns : C.Owns m scope) (has : C.Has m v)
    (allowed : (m.store.scope scope).binds name →
      C.Allows ⟨.scope (.redeclaration name), span⟩) :
    C.Keeps (fun n _ => n.store = m.store.bind scope name v constant) m
      (Run.declare scope name v constant span) := by
  refine keeps_updateStore (·.bind scope name v constant)
    (fun holds free => C.declare constant holds owns has free) ?_
  intro fault found
  unfold Store.declareFault? at found
  split at found
  · next bound =>
    cases found
    exact allowed bound
  · cases found

theorem keeps_assign {scope : ScopeId} {name : String} {v : Value} {place span : Span}
    {value : Expr} (sees : C.Sees m scope) (has : C.Has m v)
    (code : C.Code (.expr (.assign (.name name place) value span))) :
    C.Keeps (fun n _ => n.store = m.store.set scope name v) m (Run.assign scope name v span) := by
  refine keeps_updateStore (·.set scope name v)
    (fun holds free => C.assign holds sees has code free) ?_
  intro fault found
  unfold Store.assignFault? at found
  split at found
  · cases found
    exact .inr ⟨_, code, .undefinedTarget⟩
  · split at found
    · cases found
      exact .inr ⟨_, code, .constant⟩
    · cases found

/-- What a declaration does with the value that it has at last, whatever it gives in the end. -/
theorem keeps_declaration {scope : ScopeId} {name : String} {constant : Bool} {span : Span}
    {first : Run α} {value result : α → Value} (owns : C.Owns m scope)
    (made : C.Keeps (fun n a => C.Has n (value a) ∧ C.Has n (result a)) m first)
    (allowed : C.Allows ⟨.scope (.redeclaration name), span⟩) :
    C.Keeps C.Has m (first >>= fun a =>
      Run.declare scope name (value a) constant span >>= fun _ => pure (result a)) := by
  apply made.bind
  intro n a future has
  apply (keeps_declare (C.owns_later future owns) has.1 fun _ => allowed).bind
  intro _ _ further _
  exact keeps_pure (C.has_later further has.2)

/-- What an operator gives has no identity. -/
theorem keeps_apply {op : Operator} {a b : Value} {left right : Expr} {span : Span}
    (code : C.Code (.expr (.binary op left right span))) :
    C.Keeps C.Has m (Run.ofExcept span (op.apply a b)) := by
  cases op with
  | connective op => exact keeps_pure (C.plain rfl)
  | comparison op => exact keeps_pure (C.plain rfl)
  | arithmetic op =>
    simp only [Operator.apply, Arithmetic.apply]
    split
    · next x y =>
      rcases op.onNumbers_cases x y with ⟨failed, divides⟩ | ⟨z, done⟩
      · rw [failed]
        exact keeps_fail (.inr ⟨_, code, .divisionByZero divides⟩)
      · rw [done]
        exact keeps_pure (C.plain rfl)
    · refine keeps_pure (C.plain ?_)
      split <;> rfl
    · exact keeps_pure (C.plain rfl)

theorem keeps_memberOf {object : Expr} {property : String} {span : Span} {v : Value}
    (has : C.Has m v) (code : C.Code (.expr (.member object property span))) :
    C.Keeps C.Has m (memberOf object property span v) := by
  unfold memberOf
  split
  · next id entries =>
    split
    · next found =>
      obtain ⟨front, back, rfl, -⟩ := List.lookup_eq_some_iff.mp found
      exact keeps_pure (C.member has (List.mem_append_right _ List.mem_cons_self))
    · exact keeps_fail (.inr ⟨_, code, .memberNotFound⟩)
  · next other => exact keeps_fail (.inr ⟨_, code, .memberOfNonObject other⟩)

/-- The alternatives of a conditional are part of its code. -/
theorem code_alternatives {condition : Expr} {body : List Stmt} {alternatives : List Alternative}
    {last : Option (List Stmt)} {span : Span}
    (code : C.Code (.stmt (.branch condition body alternatives last span))) :
    (∀ a ∈ alternatives, C.Code (.expr a.condition)) ∧
      ∀ a ∈ alternatives, ∀ s ∈ a.body, C.Code (.stmt s) :=
  ⟨fun _ other => C.part code (.guard other),
    fun _ other _ member => C.part code (.alternative other member)⟩

end Contract

/-- A caller that keeps a contract: the values are at hand, and the span is that of a call. -/
def Caller.Keeps {host : Host} (caller : Caller) (C : Contract host) : Prop :=
  ∀ {m f args site span}, C.Has m f → (∀ a ∈ args, C.Has m a) → C.Sees m site →
    (∃ callee argExprs, C.Code (.expr (.call callee argExprs span))) →
      C.Keeps C.Has m (caller f args site span)

open Contract

variable {host : Host} {C : Contract host} {caller : Caller}

mutual

theorem evalExpr_keeps (calls : caller.Keeps C) (scope : ScopeId) :
    ∀ (e : Expr) {m : Machine}, C.Code (.expr e) → C.Sees m scope →
      C.Keeps C.Has m (evalExpr caller scope e)
  | .number n _, _, _, _ => keeps_pure (C.plain rfl)
  | .text s _, _, _, _ => keeps_pure (C.plain rfl)
  | .name name span, m, code, sees => keeps_get sees code
  | .binary op left right span, m, code, sees => by
    rw [evalExpr]
    apply (evalExpr_keeps calls scope left (C.part code .left) sees).bind
    intro n a future _
    apply (evalExpr_keeps calls scope right (C.part code .right) (C.sees_later future sees)).bind
    intro _ b _ _
    exact keeps_apply code
  | .not operand _, m, code, sees => by
    rw [evalExpr]
    apply (evalExpr_keeps calls scope operand (C.part code .operand) sees).bind
    intro _ _ _ _
    exact keeps_pure (C.plain rfl)
  | .assign target value span, m, code, sees => by
    cases target with
    | name name place =>
      rw [evalExpr]
      apply (evalExpr_keeps calls scope value (C.part code .assigned) sees).bind
      intro n a future has
      apply (keeps_assign (C.sees_later future sees) has code).bind
      intro _ _ further _
      exact keeps_pure (C.has_later further has)
    | _ => exact keeps_fail (.inr ⟨_, code, .invalidTarget nofun⟩)
  | .object properties _, m, code, sees => by
    rw [evalExpr]
    have parts : ∀ p ∈ properties, C.Code (.expr p.value) :=
      fun p member => C.part code (.property member)
    have none_yet : ∀ entry ∈ ([] : Entries), C.Has m entry.2 :=
      fun _ member => absurd member List.not_mem_nil
    apply (evalProperties_keeps calls scope properties parts sees none_yet).bind
    intro n entries _ has
    apply (keeps_newObject has).bind
    intro _ _ _ made
    exact keeps_pure made
  | .member object property span, m, code, sees => by
    rw [evalExpr]
    apply (evalExpr_keeps calls scope object (C.part code .object) sees).bind
    intro _ _ _ has
    exact keeps_memberOf has code
  | .call callee args span, m, code, sees => by
    rw [evalExpr]
    have parts : ∀ e ∈ args, C.Code (.expr e) := fun e member => C.part code (.arg member)
    apply (evalArgs_keeps calls scope args parts sees).bind
    intro n values future has
    have sees' := C.sees_later future sees
    apply (evalExpr_keeps calls scope callee (C.part code .callee) sees').bind
    intro _ f further found
    exact calls found (fun a member => C.has_later further (has a member))
      (C.sees_later further sees') ⟨callee, args, code⟩

theorem evalArgs_keeps (calls : caller.Keeps C) (scope : ScopeId) :
    ∀ (args : List Expr) {m : Machine}, (∀ e ∈ args, C.Code (.expr e)) → C.Sees m scope →
      C.Keeps (fun n values => ∀ a ∈ values, C.Has n a) m (evalArgs caller scope args)
  | [], _, _, _ => keeps_pure nofun
  | arg :: rest, m, code, sees => by
    rw [evalArgs]
    rw [List.forall_mem_cons] at code
    apply (evalExpr_keeps calls scope arg code.1 sees).bind
    intro n a future has
    apply (evalArgs_keeps calls scope rest code.2 (C.sees_later future sees)).bind
    intro _ values further all
    exact keeps_pure (List.forall_mem_cons.mpr ⟨C.has_later further has, all⟩)

theorem evalProperties_keeps (calls : caller.Keeps C) (scope : ScopeId) :
    ∀ (properties : List Property) {entries : Entries} {m : Machine},
      (∀ p ∈ properties, C.Code (.expr p.value)) → C.Sees m scope →
        (∀ entry ∈ entries, C.Has m entry.2) →
          C.Keeps (fun n entries => ∀ entry ∈ entries, C.Has n entry.2) m
            (evalProperties caller scope entries properties)
  | [], _, _, _, _, has => keeps_pure has
  | .mk key value _ :: rest, entries, m, code, sees, has => by
    rw [evalProperties]
    rw [List.forall_mem_cons] at code
    apply (evalExpr_keeps calls scope value code.1 sees).bind
    intro n a future made
    refine evalProperties_keeps calls scope rest code.2 (C.sees_later future sees) ?_
    intro entry member
    rcases Entries.mem_insert member with old | new
    · exact C.has_later future (has entry old)
    · rw [new]
      exact made

end

mutual

/-- Only a statement that declares a name has to stand in a scope of the program's own. -/
theorem evalStmt_keeps (calls : caller.Keeps C) (scope : ScopeId) :
    ∀ (s : Stmt) {m : Machine}, C.Code (.stmt s) → C.Sees m scope →
      (s.declared?.isSome → C.Owns m scope) → C.Keeps C.Has m (evalStmt caller scope s)
  | .expr value _, m, code, sees, _ => evalExpr_keeps calls scope value (C.part code .value) sees
  | .declare name constant (some value) span, m, code, sees, owns => by
    rw [evalStmt]
    have initial := evalExpr_keeps calls scope value (C.part code .initializer) sees
    exact keeps_declaration (owns rfl) (initial.imp fun _ _ has => ⟨has, has⟩)
      (.inr ⟨_, code, .redeclared⟩)
  | .declare name constant none span, m, code, sees, owns => by
    rw [evalStmt]
    exact keeps_declaration (owns rfl) (keeps_pure ⟨C.plain rfl, C.plain rfl⟩)
      (.inr ⟨_, code, .redeclared⟩)
  | .function name params body span, m, code, sees, owns => by
    rw [evalStmt]
    have made := keeps_newFunction (owns rfl) code
    exact keeps_declaration (owns rfl) (made.imp fun _ _ has => ⟨has, C.plain rfl⟩)
      (.inr ⟨_, code, .redeclaredFunction⟩)
  | .branch condition body alternatives (some block) _, m, code, sees, _ => by
    rw [evalStmt]
    apply (evalExpr_keeps calls scope condition (C.part code .condition) sees).bind
    intro n guard future _
    have sees' := C.sees_later future sees
    split
    · exact evalBlock_keeps calls scope body (fun s member => C.part code (.branch member)) sees'
    · have parts := code_alternatives code
      apply (evalAlternatives_keeps calls scope alternatives parts.1 parts.2 sees').bind
      intro _ taken further has
      cases taken with
      | some value => exact keeps_pure (has value rfl)
      | none =>
        exact evalBlock_keeps calls scope block (fun s member => C.part code (.otherwise member))
          (C.sees_later further sees')
  | .branch condition body alternatives none _, m, code, sees, _ => by
    rw [evalStmt]
    apply (evalExpr_keeps calls scope condition (C.part code .condition) sees).bind
    intro n guard future _
    have sees' := C.sees_later future sees
    split
    · exact evalBlock_keeps calls scope body (fun s member => C.part code (.branch member)) sees'
    · have parts := code_alternatives code
      apply (evalAlternatives_keeps calls scope alternatives parts.1 parts.2 sees').bind
      intro _ taken _ has
      cases taken with
      | some value => exact keeps_pure (has value rfl)
      | none => exact keeps_pure (C.plain rfl)

theorem evalBlock_keeps (calls : caller.Keeps C) (parent : ScopeId) (body : List Stmt)
    {m : Machine} (code : ∀ s ∈ body, C.Code (.stmt s)) (sees : C.Sees m parent) :
    C.Keeps C.Has m (Run.newScope parent >>= fun inner => evalSequence caller inner .null body) := by
  apply (keeps_newScope sees).bind
  intro n inner _ made
  exact evalSequence_keeps calls inner body code made.1 (C.plain rfl)

theorem evalAlternatives_keeps (calls : caller.Keeps C) (scope : ScopeId) :
    ∀ (alternatives : List Alternative) {m : Machine},
      (∀ a ∈ alternatives, C.Code (.expr a.condition)) →
      (∀ a ∈ alternatives, ∀ s ∈ a.body, C.Code (.stmt s)) → C.Sees m scope →
        C.Keeps (fun n taken => ∀ value, taken = some value → C.Has n value) m
          (evalAlternatives caller scope alternatives)
  | [], _, _, _, _ => keeps_pure nofun
  | .mk condition body :: rest, m, guards, bodies, sees => by
    rw [evalAlternatives]
    rw [List.forall_mem_cons] at guards bodies
    apply (evalExpr_keeps calls scope condition guards.1 sees).bind
    intro n guard future _
    have sees' := C.sees_later future sees
    split
    · have block := evalBlock_keeps calls scope body bodies.1 sees'
      rw [← bind_assoc]
      apply block.bind
      intro _ value _ has
      refine keeps_pure ?_
      rintro _ ⟨⟩
      exact has
    · exact evalAlternatives_keeps calls scope rest guards.2 bodies.2 sees'

theorem evalSequence_keeps (calls : caller.Keeps C) (scope : ScopeId) :
    ∀ (statements : List Stmt) {last : Value} {m : Machine},
      (∀ s ∈ statements, C.Code (.stmt s)) → C.Owns m scope → C.Has m last →
        C.Keeps C.Has m (evalSequence caller scope last statements)
  | [], _, _, _, _, has => keeps_pure has
  | statement :: rest, last, m, code, owns, _ => by
    rw [evalSequence]
    rw [List.forall_mem_cons] at code
    apply (evalStmt_keeps calls scope statement code.1 (C.sees_of_owns owns) fun _ => owns).bind
    intro n value future has
    exact evalSequence_keeps calls scope rest code.2 (C.owns_later future owns) has

end

/-- A function is called in a scope without names, so that only a parameter that is there twice can
be at fault. -/
theorem bindParams_keeps {closure : Closure} {span : Span} {callee : Expr} {argExprs : List Expr}
    (code : C.Code (.expr (.call callee argExprs span))) (knows : C.Knows closure)
    (scope : ScopeId) (before params : List String) (split : closure.params = before ++ params)
    {args : List Value} {m : Machine} (owns : C.Owns m scope) (has : ∀ a ∈ args, C.Has m a)
    (bound : ∀ x, (m.store.scope scope).binds x → x ∈ before) :
    C.Keeps (fun _ _ => True) m (bindParams scope span params args) := by
  induction params generalizing before args m with
  | nil => exact keeps_pure trivial
  | cons param params ih =>
    have head : C.Has m (args.headD .null) := by
      cases args with
      | nil => exact C.plain rfl
      | cons first _ => exact has first List.mem_cons_self
    rw [bindParams]
    refine (keeps_declare owns head ?_).bind ?_
    · intro again
      have repeated : 2 ≤ closure.params.count param := by
        have earlier := List.count_pos_iff.mpr (bound param again)
        rw [split, List.count_append, List.count_cons_self]
        omega
      exact .inr ⟨_, code, .repeatedParameter knows repeated⟩
    · intro n _ future changed
      refine ih (before ++ [param]) (by simp [split]) (C.owns_later future owns) ?_ ?_
      · intro a member
        exact C.has_later future (has a (List.mem_of_mem_tail member))
      · intro x binds
        rw [changed] at binds
        rcases Store.binds_of_binds_bind binds with old | ⟨-, rfl⟩
        · exact List.mem_append_left _ (bound x old)
        · exact List.mem_append_right _ List.mem_cons_self

theorem callClosure_keeps (calls : caller.Keeps C) {closure : Closure} {args : List Value}
    {span : Span} {callee : Expr} {argExprs : List Expr} {m : Machine}
    (code : C.Code (.expr (.call callee argExprs span))) (sees : C.Sees m closure.scope)
    (knows : C.Knows closure) (has : ∀ a ∈ args, C.Has m a) :
    C.Keeps C.Has m (callClosure caller closure args span) := by
  unfold callClosure
  apply (keeps_newScope sees).bind
  intro n scope future made
  have none_bound : ∀ x, (n.store.scope scope).binds x → x ∈ ([] : List String) := by
    intro x binds
    rw [made.2] at binds
    cases binds
  apply (bindParams_keeps code knows scope [] closure.params rfl made.1
    (fun a member => C.has_later future (has a member)) none_bound).bind
  intro o _ further _
  exact evalSequence_keeps calls scope closure.body (C.body knows) (C.owns_later further made.1)
    (C.plain rfl)

theorem callNative_keeps (id : Identity) {name : String} {args : List Value} {site : ScopeId}
    {span : Span} {callee : Expr} {argExprs : List Expr} {m : Machine}
    (code : C.Code (.expr (.call callee argExprs span))) (sees : C.Sees m site)
    (has : ∀ a ∈ args, C.Has m a) : C.Keeps C.Has m (callNative host name args site span) := by
  intro holds
  unfold callNative
  cases known : host name with
  | none => exact keeps_fail (.inr ⟨_, code, .notCallable (v := .native id name) nofun⟩) holds
  | some native =>
    obtain ⟨still, future, result, raised⟩ := C.native known holds sees has
    dsimp only
    cases called : native args site m with
    | mk answer next =>
      rw [called] at still future result raised
      cases answer with
      | ok value =>
        refine ⟨still, future, ?_, ?_⟩
        · rintro _ ⟨⟩
          exact result value rfl
        · rintro _ ⟨⟩
      | error cause =>
        refine ⟨still, future, ?_, ?_⟩
        · rintro _ ⟨⟩
        · rintro _ ⟨⟩
          exact .inl ⟨raised cause rfl, callee, argExprs, code⟩

/-- Calls keep every contract on the host, however deep they are nested. -/
theorem invoke_keeps (C : Contract host) (depth : Nat) : Caller.Keeps (invoke host depth) C := by
  induction depth with
  | zero =>
    rintro m f args site span found has sees ⟨callee, argExprs, code⟩
    cases f with
    | native id name => exact callNative_keeps id code sees has
    | function id closure => exact keeps_unfinished
    | _ => exact keeps_fail (.inr ⟨_, code, .notCallable nofun⟩)
  | succ depth ih =>
    rintro m f args site span found has sees ⟨callee, argExprs, code⟩
    cases f with
    | native id name => exact callNative_keeps id code sees has
    | function id closure =>
      obtain ⟨inside, knows⟩ := C.function found
      exact callClosure_keeps ih code inside knows has
    | _ => exact keeps_fail (.inr ⟨_, code, .notCallable nofun⟩)

end Eval

end Scriptlet
