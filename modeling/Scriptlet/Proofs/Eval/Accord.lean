import Scriptlet.Eval.Basic
import Scriptlet.Proofs.Eval.Nodes
import Scriptlet.Proofs.Renaming.Machine
import Scriptlet.Proofs.Syntax.Moved

/-!
# Accords of two runs

A program runs twice, perhaps written in other places, on two machines that need not be the same. An
accord says which machines, scopes and values correspond to one another. As with a contract of one
run, it has to be shown for the operations on machines only: runs of what is made of them end alike
(`evalProgram_agrees`, `invoke_agrees`). What corresponds may depend on what both runs did so far:
that is a world of the accord, and worlds grow. Machines that correspond may be the same up to
renaming (`locality`), but for a scope without names (`padding`) or but for places (`sideBySide`).
-/
namespace Scriptlet

/-- The same cause in another place. -/
structure Located.Moved {α : Type} (S : Span → Span → Prop) (e f : Located α) : Prop where
  cause_eq : e.cause = f.cause
  place : S e.span f.span

theorem Located.Moved.eq {α : Type} {e f : Located α} (h : e.Moved Eq f) : e = f := by
  obtain ⟨cause, span⟩ := e
  obtain ⟨_, _⟩ := f
  obtain ⟨rfl, rfl⟩ := h
  rfl

namespace Outcome

variable {ε ε' δ δ' α β γ : Type} {failures : ε → ε' → Prop} {results further : α → β → Prop}

/-- Related failures, or related results. -/
inductive Matches (failures : ε → ε' → Prop) (results : α → β → Prop) :
    Outcome ε α → Outcome ε' β → Prop
  | value {a b} (related : results a b) : Matches failures results (.value a) (.value b)
  | failure {e e'} (related : failures e e') : Matches failures results (.failure e) (.failure e')
  | unfinished : Matches failures results .unfinished .unfinished

theorem Matches.mapError {worded : δ → δ' → Prop} {f : ε → δ} {g : ε' → δ'} {x : Outcome ε α}
    {y : Outcome ε' β} (h : Matches failures results x y)
    (wording : ∀ e e', failures e e' → worded (f e) (g e')) :
    Matches worded results (x.mapError f) (y.mapError g) := by
  cases h with
  | value related => exact .value related
  | failure related => exact .failure (wording _ _ related)
  | unfinished => exact .unfinished

theorem Matches.imp {x : Outcome ε α} {y : Outcome ε' β} (h : Matches failures results x y)
    (implied : ∀ a b, results a b → further a b) : Matches failures further x y := by
  cases h with
  | value related => exact .value (implied _ _ related)
  | failure related => exact .failure related
  | unfinished => exact .unfinished

theorem Rel.matches {failures : ε → ε → Prop} {x : Outcome ε α} {y : Outcome ε β}
    (h : x.Rel results y) (refl : ∀ e, failures e e) : Matches failures results x y := by
  cases h with
  | value related => exact .value related
  | failure e => exact .failure (refl e)
  | unfinished => exact .unfinished

/-- In the same place, a failure for the same cause is the same failure. -/
theorem matches_moved_iff {x : Outcome (Located γ) α} {y : Outcome (Located γ) β} :
    Matches (Located.Moved Eq) results x y ↔ x.Rel results y := by
  refine ⟨fun h => ?_, fun h => h.matches fun _ => ⟨rfl, rfl⟩⟩
  cases h with
  | value related => exact .value related
  | failure same => exact same.eq ▸ .failure _
  | unfinished => exact .unfinished

end Outcome

namespace Eval

/-- What two runs on a host keep between them. The spans of their code are related by `S` and `T`. -/
structure Accord (host : Host) (S T : Span → Span → Prop) where
  /-- What both runs did so far. -/
  World : Type
  /-- What may become of a world. -/
  Later : World → World → Prop
  /-- The machines that correspond. -/
  Alike : World → Machine → Machine → Prop
  /-- The scopes in which the same expressions may be evaluated. -/
  Sees : World → ScopeId → ScopeId → Prop
  /-- The scopes in which the same names may be declared. -/
  Owns : World → ScopeId → ScopeId → Prop
  /-- The scopes in which the same calls may stand. -/
  Sites : World → ScopeId → ScopeId → Prop
  /-- The values that correspond. -/
  Has : World → Value → Value → Prop
  refl : ∀ w, Later w w
  trans : ∀ {u v w}, Later u v → Later v w → Later u w
  sees_later : ∀ {v w a b}, Later v w → Sees v a b → Sees w a b
  owns_later : ∀ {v w a b}, Later v w → Owns v a b → Owns w a b
  has_later : ∀ {v w x y}, Later v w → Has v x y → Has w x y
  sees_of_owns : ∀ {w a b}, Owns w a b → Sees w a b
  sites_of_sees : ∀ {w a b}, Sees w a b → Sites w a b
  plain : ∀ {w v}, v.identity? = none → Has w v v
  resembles : ∀ {w x y}, Has w x y → x.Resembles (Sees w) (Has w) (MovedStmts S T) y
  strictEqual_eq : ∀ {w x y x' y'}, Has w x y → Has w x' y' →
    x.strictEqual x' = y.strictEqual y'
  bound : ∀ {w m n a b}, Alike w m n → Sees w a b → ∀ name,
    Option.Rel (fun x y => Has w x.value y.value) (m.store.lookup? a name) (n.store.lookup? b name)
  newScope : ∀ {w m n a b}, Alike w m n → Sees w a b → ∃ later, Later w later ∧
    Alike later (m.newScope (some a)).2 (n.newScope (some b)).2 ∧
      Owns later (m.newScope (some a)).1 (n.newScope (some b)).1
  newObject : ∀ {w m n entries others}, Alike w m n → Entries.Alike (Has w) entries others →
    ∃ later, Later w later ∧ Alike later m.newIdentity.2 n.newIdentity.2 ∧
      Has later (.object m.newIdentity.1 entries) (.object n.newIdentity.1 others)
  newFunction : ∀ {w m n a b body other} name params, Alike w m n → Owns w a b →
    MovedStmts S T body other →
      ∃ later, Later w later ∧ Alike later m.newIdentity.2 n.newIdentity.2 ∧
        Has later (.function m.newIdentity.1 ⟨name, params, body, a⟩)
          (.function n.newIdentity.1 ⟨name, params, other, b⟩)
  declare : ∀ {w m n a b x y} name constant, Alike w m n → Owns w a b → Has w x y →
    m.store.declareFault? a name = n.store.declareFault? b name ∧
      Alike w { m with store := m.store.bind a name x constant }
        { n with store := n.store.bind b name y constant }
  assign : ∀ {w m n a b x y} name, Alike w m n → Sees w a b → Has w x y →
    m.store.assignFault? a name = n.store.assignFault? b name ∧
      Alike w { m with store := m.store.set a name x } { n with store := n.store.set b name y }
  native : ∀ {w m n a b id id' name native args others}, host name = some native → Alike w m n →
    Has w (.native id name) (.native id' name) → List.Forall₂ (Has w) args others → Sites w a b →
      ∃ later, Later w later ∧ Alike later (native args a m).2 (native others b n).2 ∧
        (Outcome.ofExcept (native args a m).1).Matches Eq (Has later)
          (Outcome.ofExcept (native others b n).1)

namespace Accord

variable {host : Host} {S T : Span → Span → Prop} {α β γ δ : Type}

/-- Two ends that correspond, in some later world: the same fault in places that are related, or
related results. -/
def Ends (A : Accord host S T) (related : A.World → α → β → Prop) (w : A.World)
    (x : Outcome (Located Fault) α × Machine) (y : Outcome (Located Fault) β × Machine) : Prop :=
  ∃ later, A.Later w later ∧ A.Alike later x.2 y.2 ∧
    x.1.Matches (Located.Moved S) (related later) y.1

/-- From machines that correspond both runs end alike. -/
def Agrees (A : Accord host S T) (related : A.World → α → β → Prop) (w : A.World) (p : Run α)
    (q : Run β) : Prop :=
  ∀ m n, A.Alike w m n → A.Ends related w (p m) (q n)

variable {A : Accord host S T} {related : A.World → α → β → Prop}
  {after : A.World → γ → δ → Prop} {w : A.World} {a b : ScopeId} {x y : Value} {span span' : Span}

theorem apply_eq (op : Operator) {x' y' : Value} (left : A.Has w x y)
    (right : A.Has w x' y') : op.apply x x' = op.apply y y' :=
  op.apply_eq_of_resembles (A.resembles left) (A.resembles right) (A.strictEqual_eq left right)

theorem agrees_pure {r : α} {r' : β} (same : related w r r') :
    A.Agrees related w (pure r) (pure r') := fun _ _ machines =>
  ⟨w, A.refl w, machines, .value same⟩

theorem agrees_fail (cause : Fault) (place : S span span') :
    A.Agrees related w (Run.fail cause span) (Run.fail cause span') := fun _ _ machines =>
  ⟨w, A.refl w, machines, .failure ⟨rfl, place⟩⟩

theorem agrees_unfinished : A.Agrees related w Run.unfinished Run.unfinished :=
  fun _ _ machines => ⟨w, A.refl w, machines, .unfinished⟩

/-- What goes on alike after two ends that correspond. -/
theorem Ends.bind {first : Run α} {first' : Run β} {second : α → Run γ} {second' : β → Run δ}
    {m n : Machine} (h : A.Ends related w (first m) (first' n))
    (next : ∀ later, A.Later w later → ∀ r r', related later r r' →
      A.Agrees after later (second r) (second' r')) :
    A.Ends after w ((first >>= second) m) ((first' >>= second') n) := by
  obtain ⟨between, grown, machines, outcomes⟩ := h
  rw [Run.bind_apply, Run.bind_apply]
  cases left : first m with
  | mk r m' =>
    cases right : first' n with
    | mk r' n' =>
      rw [left, right] at machines outcomes
      cases outcomes with
      | value same =>
        obtain ⟨later, further, ended⟩ := next between grown _ _ same m' n' machines
        exact ⟨later, A.trans grown further, ended⟩
      | failure same => exact ⟨between, grown, machines, .failure same⟩
      | unfinished => exact ⟨between, grown, machines, .unfinished⟩

theorem Agrees.imp {also : A.World → α → β → Prop} {p : Run α} {q : Run β}
    (h : A.Agrees related w p q) (implied : ∀ later r r', related later r r' → also later r r') :
    A.Agrees also w p q := by
  intro m n machines
  obtain ⟨later, grown, ended, outcomes⟩ := h m n machines
  exact ⟨later, grown, ended, outcomes.imp (implied later)⟩

/-- The second runs may count on everything that the first ones did. -/
theorem Agrees.bind {first : Run α} {first' : Run β} {second : α → Run γ} {second' : β → Run δ}
    (h : A.Agrees related w first first')
    (next : ∀ later, A.Later w later → ∀ r r', related later r r' →
      A.Agrees after later (second r) (second' r')) :
    A.Agrees after w (first >>= second) (first' >>= second') :=
  fun m n machines => (h m n machines).bind next

/-! The operations of the evaluator on the machine. -/

theorem agrees_ofExcept (place : S span span') {result : Except Fault Value}
    (plain : ∀ v, result = .ok v → v.identity? = none) :
    A.Agrees A.Has w (Run.ofExcept span result) (Run.ofExcept span' result) := by
  cases result with
  | ok v => exact agrees_pure (A.plain (plain v rfl))
  | error cause => exact agrees_fail cause place

theorem agrees_get (sees : A.Sees w a b) (name : String) (place : S span span') :
    A.Agrees A.Has w (Run.get a name span) (Run.get b name span') := by
  intro m n machines
  unfold Run.get Store.get
  obtain ⟨left, right⟩ | ⟨found, found', left, right, same⟩ :=
    optionRel_iff.mp (A.bound machines sees name)
  · rw [left, right]
    exact agrees_fail _ place m n machines
  · rw [left, right]
    exact agrees_pure same m n machines

theorem agrees_newScope (sees : A.Sees w a b) :
    A.Agrees A.Owns w (Run.newScope a) (Run.newScope b) := by
  intro m n machines
  obtain ⟨later, grown, machines', owns⟩ := A.newScope machines sees
  exact ⟨later, grown, machines', .value owns⟩

theorem agrees_newObject {entries others : Entries} (members : entries.Alike (A.Has w) others) :
    A.Agrees (fun later id id' => A.Has later (.object id entries) (.object id' others)) w
      Run.newIdentity Run.newIdentity := by
  intro m n machines
  obtain ⟨later, grown, machines', made⟩ := A.newObject machines members
  exact ⟨later, grown, machines', .value made⟩

theorem agrees_newFunction {body other : List Stmt} (name : String) (params : List String)
    (owns : A.Owns w a b) (bodies : MovedStmts S T body other) :
    A.Agrees (fun later id id' => A.Has later (.function id ⟨name, params, body, a⟩)
      (.function id' ⟨name, params, other, b⟩)) w Run.newIdentity Run.newIdentity := by
  intro m n machines
  obtain ⟨later, grown, machines', made⟩ := A.newFunction name params machines owns bodies
  exact ⟨later, grown, machines', .value made⟩

theorem agrees_updateStore {fault? fault?' : Store → Option ScopeFault}
    {change change' : Store → Store} (place : S span span')
    (changed : ∀ m n, A.Alike w m n → fault? m.store = fault?' n.store ∧
      A.Alike w { m with store := change m.store } { n with store := change' n.store }) :
    A.Agrees (fun _ _ _ => True) w (Run.updateStore span fault? change)
      (Run.updateStore span' fault?' change') := by
  intro m n machines
  obtain ⟨same, machines'⟩ := changed m n machines
  simp only [Run.updateStore, same]
  cases fault?' n.store with
  | some fault => exact agrees_fail _ place m n machines
  | none => exact ⟨w, A.refl w, machines', .value trivial⟩

theorem agrees_declare (owns : A.Owns w a b) (name : String) (value : A.Has w x y)
    (constant : Bool) (place : S span span') :
    A.Agrees (fun _ _ _ => True) w (Run.declare a name x constant span)
      (Run.declare b name y constant span') :=
  agrees_updateStore place fun _ _ machines => A.declare name constant machines owns value

theorem agrees_assign (sees : A.Sees w a b) (name : String) (value : A.Has w x y)
    (place : S span span') :
    A.Agrees (fun _ _ _ => True) w (Run.assign a name x span) (Run.assign b name y span') :=
  agrees_updateStore place fun _ _ machines => A.assign name machines sees value

/-- What a declaration does with the value that it has at last, whatever it gives in the end. -/
theorem agrees_declaration {first : Run α} {first' : Run β} {value result : α → Value}
    {value' result' : β → Value} (name : String) (constant : Bool) (owns : A.Owns w a b)
    (place : S span span')
    (made : A.Agrees (fun later r r' => A.Has later (value r) (value' r') ∧
      A.Has later (result r) (result' r')) w first first') :
    A.Agrees A.Has w
      (first >>= fun r => Run.declare a name (value r) constant span >>= fun _ => pure (result r))
      (first' >>= fun r =>
        Run.declare b name (value' r) constant span' >>= fun _ => pure (result' r)) := by
  apply made.bind
  intro later grown r r' has
  apply (agrees_declare (A.owns_later grown owns) name has.1 constant place).bind
  intro _ further _ _ _
  exact agrees_pure (A.has_later further has.2)

theorem agrees_memberOf {object other : Expr} (moved : object.Moved S T other)
    (has : A.Has w x y) (property : String) (place : S span span') :
    A.Agrees A.Has w (memberOf object property span x) (memberOf other property span' y) := by
  cases A.resembles has with
  | object members =>
    unfold memberOf
    obtain ⟨left, right⟩ | ⟨found, found', left, right, same⟩ :=
      optionRel_iff.mp (members.get? property)
    · simp only [left, right]
      exact agrees_fail _ place
    · simp only [left, right]
      exact agrees_pure same
  | plain none =>
    cases x with
    | object => cases none
    | _ =>
      simp only [memberOf, moved.render_eq]
      exact agrees_fail _ moved.span
  | function | native =>
    simp only [memberOf, moved.render_eq]
    exact agrees_fail _ moved.span

end Accord

/-- Calls of corresponding values with corresponding arguments end alike. -/
def Caller.Agrees {host : Host} {S T : Span → Span → Prop} (caller : Caller)
    (A : Accord host S T) : Prop :=
  ∀ {w f g args others a b span span'}, A.Has w f g → List.Forall₂ (A.Has w) args others →
    A.Sites w a b → S span span' →
      A.Agrees A.Has w (caller f args a span) (caller g others b span')

open Accord

variable {host : Host} {S T : Span → Span → Prop} {A : Accord host S T} {caller : Caller}

mutual

theorem evalExpr_agrees (calls : caller.Agrees A) :
    ∀ {e f : Expr}, e.Moved S T f → ∀ {w : A.World} {a b : ScopeId}, A.Sees w a b →
      A.Agrees A.Has w (evalExpr caller a e) (evalExpr caller b f)
  | _, _, .number _, _, _, _, _ => agrees_pure (A.plain rfl)
  | _, _, .text _, _, _, _, _ => agrees_pure (A.plain rfl)
  | _, _, .name place, _, _, _, sees => agrees_get sees _ place
  | _, _, .binary left right place, w, a, b, sees => by
    rw [evalExpr, evalExpr]
    apply (evalExpr_agrees calls left sees).bind
    intro later grown v v' same
    apply (evalExpr_agrees calls right (A.sees_later grown sees)).bind
    intro latest further u u' same'
    rw [apply_eq _ (A.has_later further same) same']
    exact agrees_ofExcept place fun _ => Operator.identity?_apply
  | _, _, .not operand _, w, a, b, sees => by
    rw [evalExpr, evalExpr]
    apply (evalExpr_agrees calls operand sees).bind
    intro later _ v v' same
    rw [(A.resembles same).isTruthy_eq]
    exact agrees_pure (A.plain rfl)
  | _, _, .assign target value place, w, a, b, sees => by
    have text := target.render_eq
    have span := target.span
    cases target with
    | name _ =>
      rw [evalExpr, evalExpr]
      apply (evalExpr_agrees calls value sees).bind
      intro later grown v v' same
      apply (agrees_assign (A.sees_later grown sees) _ same place).bind
      intro _ further _ _ _
      exact agrees_pure (A.has_later further same)
    | _ =>
      simp only [evalExpr, text]
      exact agrees_fail _ span
  | _, _, .object properties _, w, a, b, sees => by
    rw [evalExpr, evalExpr]
    apply (evalProperties_agrees calls properties sees .nil).bind
    intro later _ entries others members
    apply (agrees_newObject members).bind
    intro _ _ id id' made
    exact agrees_pure made
  | _, _, .member object place, w, a, b, sees => by
    rw [evalExpr, evalExpr]
    apply (evalExpr_agrees calls object sees).bind
    intro later _ v v' same
    exact agrees_memberOf object same _ place
  | _, _, .call callee args place, w, a, b, sees => by
    rw [evalExpr, evalExpr]
    apply (evalArgs_agrees calls args sees).bind
    intro later grown values others same
    have sees' := A.sees_later grown sees
    apply (evalExpr_agrees calls callee sees').bind
    intro latest further f g functions
    exact calls functions (same.imp fun _ _ => A.has_later further)
      (A.sites_of_sees (A.sees_later further sees')) place

theorem evalArgs_agrees (calls : caller.Agrees A) :
    ∀ {args others : List Expr}, MovedArgs S T args others → ∀ {w : A.World} {a b : ScopeId},
      A.Sees w a b → A.Agrees (fun later => List.Forall₂ (A.Has later)) w
        (evalArgs caller a args) (evalArgs caller b others)
  | _, _, .nil, _, _, _, _ => agrees_pure .nil
  | _, _, .cons arg rest, w, a, b, sees => by
    rw [evalArgs, evalArgs]
    apply (evalExpr_agrees calls arg sees).bind
    intro later grown v v' same
    apply (evalArgs_agrees calls rest (A.sees_later grown sees)).bind
    intro latest further values values' all
    exact agrees_pure (.cons (A.has_later further same) all)

theorem evalProperties_agrees (calls : caller.Agrees A) :
    ∀ {properties others : List Property}, MovedProperties S T properties others →
      ∀ {w : A.World} {a b : ScopeId} {entries entries' : Entries}, A.Sees w a b →
        entries.Alike (A.Has w) entries' →
          A.Agrees (fun later => Entries.Alike (A.Has later)) w
            (evalProperties caller a entries properties) (evalProperties caller b entries' others)
  | _, _, .nil, _, _, _, _, _, _, members => agrees_pure members
  | _, _, .cons (.mk value _) rest, w, a, b, entries, entries', sees, members => by
    rw [evalProperties, evalProperties]
    apply (evalExpr_agrees calls value sees).bind
    intro later grown v v' same
    have members' : entries.Alike (A.Has later) entries' := members.imp (A.has_later grown)
    exact evalProperties_agrees calls rest (A.sees_later grown sees) (members'.insert _ same)

end

mutual

/-- Only a statement that declares a name has to stand in scopes of the program's own. -/
theorem evalStmt_agrees (calls : caller.Agrees A) :
    ∀ {s t : Stmt}, s.Moved S T t → ∀ {w : A.World} {a b : ScopeId}, A.Sees w a b →
      (s.declared?.isSome → A.Owns w a b) →
        A.Agrees A.Has w (evalStmt caller a s) (evalStmt caller b t)
  | _, _, .expr value _, w, a, b, sees, _ => by
    rw [evalStmt, evalStmt]
    exact evalExpr_agrees calls value sees
  | _, _, .declare (.some value) place, w, a, b, sees, owns => by
    rw [evalStmt, evalStmt]
    exact agrees_declaration _ _ (owns rfl) place
      ((evalExpr_agrees calls value sees).imp fun _ _ _ same => ⟨same, same⟩)
  | _, _, .declare .none place, w, a, b, _, owns => by
    rw [evalStmt, evalStmt]
    exact agrees_declaration _ _ (owns rfl) place (agrees_pure ⟨A.plain rfl, A.plain rfl⟩)
  | _, _, .function body place, w, a, b, _, owns => by
    rw [evalStmt, evalStmt]
    exact agrees_declaration _ _ (owns rfl) place
      ((agrees_newFunction _ _ (owns rfl) body).imp fun _ _ _ made => ⟨made, A.plain rfl⟩)
  | _, _, .branchElse guard body others last _, w, a, b, sees, _ => by
    rw [evalStmt, evalStmt]
    apply (evalExpr_agrees calls guard sees).bind
    intro later grown v v' same
    have sees' := A.sees_later grown sees
    rw [(A.resembles same).isTruthy_eq]
    split
    · exact evalBlock_agrees calls body sees'
    · apply (evalAlternatives_agrees calls others sees').bind
      intro latest further taken taken' chosen
      cases chosen with
      | some value => exact agrees_pure value
      | none => exact evalBlock_agrees calls last (A.sees_later further sees')
  | _, _, .branch guard body others _, w, a, b, sees, _ => by
    rw [evalStmt, evalStmt]
    apply (evalExpr_agrees calls guard sees).bind
    intro later grown v v' same
    have sees' := A.sees_later grown sees
    rw [(A.resembles same).isTruthy_eq]
    split
    · exact evalBlock_agrees calls body sees'
    · apply (evalAlternatives_agrees calls others sees').bind
      intro latest further taken taken' chosen
      cases chosen with
      | some value => exact agrees_pure value
      | none => exact agrees_pure (A.plain rfl)

/-- A block runs in new scopes, wherever it stands. -/
theorem evalBlock_agrees (calls : caller.Agrees A) :
    ∀ {body other : List Stmt}, MovedStmts S T body other → ∀ {w : A.World} {a b : ScopeId},
      A.Sees w a b → A.Agrees A.Has w
        (Run.newScope a >>= fun inner => evalSequence caller inner .null body)
        (Run.newScope b >>= fun inner => evalSequence caller inner .null other) := by
  intro body other moved w a b sees
  apply (agrees_newScope sees).bind
  intro later _ inner inner' owns
  exact evalSequence_agrees calls moved owns (A.plain rfl)

theorem evalAlternatives_agrees (calls : caller.Agrees A) :
    ∀ {alternatives others : List Alternative}, MovedAlternatives S T alternatives others →
      ∀ {w : A.World} {a b : ScopeId}, A.Sees w a b →
        A.Agrees (fun later => Option.Rel (A.Has later)) w
          (evalAlternatives caller a alternatives) (evalAlternatives caller b others)
  | _, _, .nil, _, _, _, _ => agrees_pure .none
  | _, _, .cons (.mk guard body) rest, w, a, b, sees => by
    rw [evalAlternatives, evalAlternatives]
    apply (evalExpr_agrees calls guard sees).bind
    intro later grown v v' same
    have sees' := A.sees_later grown sees
    rw [(A.resembles same).isTruthy_eq]
    split
    · rw [← bind_assoc, ← bind_assoc]
      apply (evalBlock_agrees calls body sees').bind
      intro _ _ value value' taken
      exact agrees_pure (.some taken)
    · exact evalAlternatives_agrees calls rest sees'

theorem evalSequence_agrees (calls : caller.Agrees A) :
    ∀ {statements others : List Stmt}, MovedStmts S T statements others →
      ∀ {w : A.World} {a b : ScopeId} {v v' : Value}, A.Owns w a b → A.Has w v v' →
        A.Agrees A.Has w (evalSequence caller a v statements) (evalSequence caller b v' others)
  | _, _, .nil, _, _, _, _, _, _, last => agrees_pure last
  | _, _, .cons statement rest, w, a, b, _, _, owns, _ => by
    rw [evalSequence, evalSequence]
    apply (evalStmt_agrees calls statement (A.sees_of_owns owns) fun _ => owns).bind
    intro later grown v v' same
    exact evalSequence_agrees calls rest (A.owns_later grown owns) same

end

theorem bindParams_agrees {span span' : Span} (place : S span span') (params : List String)
    {w : A.World} {a b : ScopeId} {args others : List Value} (owns : A.Owns w a b)
    (same : List.Forall₂ (A.Has w) args others) :
    A.Agrees (fun _ _ _ => True) w (bindParams a span params args)
      (bindParams b span' params others) := by
  induction params generalizing w args others with
  | nil => exact agrees_pure trivial
  | cons param params ih =>
    have head : A.Has w (args.headD .null) (others.headD .null) := by
      cases same with
      | nil => exact A.plain rfl
      | cons first _ => exact first
    have tail : List.Forall₂ (A.Has w) args.tail others.tail := by
      cases same with
      | nil => exact .nil
      | cons _ rest => exact rest
    rw [bindParams, bindParams]
    apply (agrees_declare owns param head false place).bind
    intro later grown _ _ _
    exact ih (A.owns_later grown owns) (tail.imp fun _ _ => A.has_later grown)

/-- A call of a function starts in the scope of its declaration. That of the call plays no part. -/
theorem callClosure_agrees (calls : caller.Agrees A) {w : A.World} {a b : ScopeId}
    {body other : List Stmt} {args others : List Value} {span span' : Span} (sees : A.Sees w a b)
    (moved : MovedStmts S T body other) (same : List.Forall₂ (A.Has w) args others)
    (place : S span span') (name : String) (params : List String) :
    A.Agrees A.Has w (callClosure caller ⟨name, params, body, a⟩ args span)
      (callClosure caller ⟨name, params, other, b⟩ others span') := by
  unfold callClosure
  apply (agrees_newScope sees).bind
  intro later grown inner inner' owns
  apply (bindParams_agrees place params owns (same.imp fun _ _ => A.has_later grown)).bind
  intro latest further _ _ _
  exact evalSequence_agrees calls moved (A.owns_later further owns) (A.plain rfl)

theorem callNative_agrees {w : A.World} {a b : ScopeId} {id id' : Identity} {name : String}
    {args others : List Value} {span span' : Span}
    (has : A.Has w (.native id name) (.native id' name))
    (same : List.Forall₂ (A.Has w) args others) (sites : A.Sites w a b) (place : S span span') :
    A.Agrees A.Has w (callNative host name args a span) (callNative host name others b span') := by
  intro m n machines
  unfold callNative
  cases known : host name with
  | none => exact agrees_fail _ place m n machines
  | some native =>
    obtain ⟨later, grown, ended, outcomes⟩ := A.native known machines has same sites
    dsimp only
    cases left : native args a m with
    | mk r m' =>
      cases right : native others b n with
      | mk r' n' =>
        rw [left, right] at ended outcomes
        cases r <;> cases r' <;> cases outcomes
        · next same_cause => exact ⟨later, grown, ended, .failure ⟨same_cause, place⟩⟩
        · next results => exact ⟨later, grown, ended, .value results⟩

/-- What has no identity is no function. -/
theorem invoke_plain {f : Value} (none : f.identity? = none) (depth : Nat) (args : List Value)
    (site : ScopeId) (span : Span) :
    invoke host depth f args site span = Run.fail (.notCallable f.typeName) span := by
  cases f with
  | object | function | native => cases none
  | _ => cases depth <;> rfl

/-- The induction is on the depth: the body of a function calls one level less deep. -/
theorem invoke_agrees (A : Accord host S T) (depth : Nat) : (invoke host depth).Agrees A := by
  induction depth with
  | zero =>
    intro w f g args others a b span span' functions same sites place
    cases A.resembles functions with
    | native => exact callNative_agrees functions same sites place
    | function => exact agrees_unfinished
    | object => exact agrees_fail _ place
    | plain none =>
      rw [invoke_plain none, invoke_plain none]
      exact agrees_fail _ place
  | succ depth ih =>
    intro w f g args others a b span span' functions same sites place
    cases A.resembles functions with
    | native => exact callNative_agrees functions same sites place
    | function sees moved => exact callClosure_agrees ih sees moved same place _ _
    | object => exact agrees_fail _ place
    | plain none =>
      rw [invoke_plain none, invoke_plain none]
      exact agrees_fail _ place

theorem evalProgram_agrees (A : Accord host S T) (depth : Nat) {w : A.World} {a b : ScopeId}
    {program other : Program} (moved : program.Moved S T other) (owns : A.Owns w a b) :
    A.Agrees A.Has w (evalProgram host depth a program) (evalProgram host depth b other) :=
  evalSequence_agrees (invoke_agrees A depth) moved owns (A.plain rfl)

end Eval

end Scriptlet
