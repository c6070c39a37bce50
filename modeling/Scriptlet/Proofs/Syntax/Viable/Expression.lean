import Scriptlet.Proofs.Syntax.Completeness.Expression
import Scriptlet.Proofs.Syntax.Viable.Rules

/-!
# Expressions that are cut off

Where an expression goes on behind the tokens that are left of it, it is no name: what is left is
only its beginning, and a name has none. This matters where only a name is allowed.
-/
namespace Scriptlet

/-- An expression that is no name. -/
def Expr.Compound (e : Expr) : Prop := ∀ name span, e ≠ .name name span

namespace Syntax

namespace Parse

variable {more : List Token} {n : Nat} {longer : Expr → Prop} {c d : Cursor} {e f : Expr}

/-! What is made of an operand is no name. -/

theorem members_compound {object : Expr} (done : members object c = .ok (e, d))
    (compound : object.Compound) : e.Compound := by
  refine fix_ok (motive := fun object _ e _ => object.Compound → e.Compound) ?_ done compound
  intro again kept object c e d done compound
  obtain ⟨taken, c₁, -, done⟩ := bind_ok done
  cases taken with
  | false =>
    obtain ⟨rfl, -⟩ := pure_ok done
    exact compound
  | true =>
    obtain ⟨property, c₂, -, done⟩ := bind_ok done
    exact kept _ _ _ _ done nofun

theorem calls_compound {inner : Parse Expr} {callee : Expr}
    (done : calls inner callee c = .ok (e, d)) (compound : callee.Compound) : e.Compound := by
  refine fix_ok (motive := fun callee _ e _ => callee.Compound → e.Compound) ?_ done compound
  intro again kept callee c e d done compound
  obtain ⟨taken, c₁, -, done⟩ := bind_ok done
  cases taken with
  | false =>
    obtain ⟨rfl, -⟩ := pure_ok done
    exact compound
  | true =>
    obtain ⟨args, c₂, -, done⟩ := bind_ok done
    obtain ⟨closing, c₃, -, done⟩ := bind_ok done
    exact kept _ _ _ _ done nofun

theorem operations_compound {operand : Parse Expr} {level : Level} {left : Expr}
    (done : operations operand level left c = .ok (e, d)) (compound : left.Compound) :
    e.Compound := by
  refine fix_ok (motive := fun left _ e _ => left.Compound → e.Compound) ?_ done compound
  intro again kept left c e d done compound
  obtain ⟨taken, c₁, -, done⟩ := bind_ok done
  cases taken with
  | none =>
    obtain ⟨rfl, -⟩ := pure_ok done
    exact compound
  | some token =>
    cases found : level.operator? token.text with
    | none =>
      simp only [found] at done
      exact absurd done fail_ne_ok
    | some op =>
      simp only [found] at done
      obtain ⟨_, c₂, -, done⟩ := bind_ok done
      obtain ⟨right, c₃, -, done⟩ := bind_ok done
      exact kept _ _ _ _ done nofun

/-! Where no token comes: every expression begins with one, and needs none behind its first
operand. -/

theorem ends_calls (callee : Expr) : Ends True (calls expression callee) := by
  rw [calls_eq]
  exact ends_accept_bind (ends_pure trivial)

theorem ends_operations {operand : Parse Expr} (steady : Steady 1 operand) (level : Level)
    (left : Expr) : Ends True (operations operand level left) := by
  rw [operations_eq steady]
  exact ends_take_bind (ends_pure trivial)

theorem ends_primary : Ends False (primary expression) := by
  refine ends_take_bind ?_
  rintro ⟨previous, rest, finish⟩ rfl
  exact .fault trivial

theorem ends_unary : Ends False (unary expression) := by
  rw [unary_eq]
  refine ends_take_bind ?_
  exact (ends_primary.bind_stuck).bind_stuck

theorem ends_chains (levels : List Level) {operand : Parse Expr} (stuck : Ends False operand) :
    Ends False (levels.foldl chain operand) := by
  induction levels generalizing operand with
  | nil => exact stuck
  | cons level levels ih => exact ih stuck.bind_stuck

theorem ends_expression : Ends False expression := by
  rw [expression_eq]
  refine Ends.bind_stuck (ends_take_bind ?_)
  exact ends_chains _ ends_unary

theorem ends_property : Ends False (property expression) := (ends_expect _).bind_stuck

/-! Where the full run goes on. -/

section
variable (inner : ∀ m ≤ n, Viable more m Expr.Compound expression)
include inner

theorem viable_group (opening : Token) :
    Viable more n (fun _ => False) (group expression opening) := by
  unfold group
  refine viable_nextIs_bind (fun empty => ?_) ends_expression.bind_stuck
  cases empty with
  | true => exact viable_get_fail
  | false =>
    refine (inner n (Nat.le_refl n)).bind steady_expression (fun e m le => ?_) ?_
    · exact (viable_expect _).bind_closed (fun _ => agree_expect _) fun _ _ _ => viable_pure
    · exact fun _ _ _ _ _ _ _ => (ends_expect _).bind_stuck

theorem viable_args : Viable more n (fun _ => True) (listUntil .closeParen expression) :=
  viable_listUntil _ steady_expression ends_expression inner

theorem viable_property : Viable more n (fun _ => True) (property expression) := by
  unfold property
  refine (viable_expect _).bind_closed (fun _ => agree_expect _) fun key m le => ?_
  refine (viable_expect _).bind_closed (fun _ => agree_expect _) fun _ m' le' => ?_
  refine (inner m' (by omega)).bind_open steady_expression (fun _ _ _ => viable_pure) ?_
  exact fun _ => ends_pure trivial

end

section
variable (inner : ∀ m < n, Viable more m Expr.Compound expression)
include inner

theorem viable_primary : Viable more n (fun _ => False) (primary expression) := by
  unfold primary
  refine viable_take_bind (fun token _ m less => ?_) viable_get_fail ?_
  · dsimp only
    split
    · exact viable_pure
    · split
      · exact viable_pure
      · exact viable_fail
    · exact viable_pure
    · exact viable_group (fun l le => inner l (by omega)) token
    · exact viable_fail
  · rintro _ _ _ _ _ _ ⟨previous, rest, finish⟩ rfl
    exact .fault trivial

theorem viable_members (object : Expr) : Viable more n Expr.Compound (members object) := by
  induction n using Nat.strongRecOn generalizing object with
  | ind n ih =>
  rw [members_eq]
  refine viable_accept_bind (fun m less => ?_) viable_pure fun d r d' done => ?_
  · refine (viable_expect _).bind_closed (fun _ => agree_expect _) fun property l le => ?_
    exact ih l (by omega) (fun i less => inner i (by omega)) _
  · obtain ⟨property, c₁, -, done⟩ := bind_ok done
    exact ends_pure (members_compound done nofun)

theorem viable_member : Viable more n Expr.Compound (member expression) :=
  (viable_primary inner).bind_closed (fun _ => agree_primary agree_expression_fewer) fun object m le =>
    viable_members (fun l less => inner l (by omega)) object

theorem viable_calls (callee : Expr) : Viable more n Expr.Compound (calls expression callee) := by
  induction n using Nat.strongRecOn generalizing callee with
  | ind n ih =>
  rw [calls_eq]
  refine viable_accept_bind (fun m less => ?_) viable_pure fun d r d' done => ?_
  · refine (viable_args fun l le => inner l (by omega)).bind
      (fun _ => agree_listUntil _ (steady_expression _)) (fun args l le => ?_) ?_
    · refine (viable_expect _).bind_closed (fun _ => agree_expect _) fun closing l' le' => ?_
      exact ih l' (by omega) (fun i less => inner i (by omega)) _
    · exact fun _ _ _ _ _ _ _ => (ends_expect _).bind_stuck
  · obtain ⟨args, c₁, -, done⟩ := bind_ok done
    obtain ⟨closing, c₂, -, done⟩ := bind_ok done
    exact ends_pure (calls_compound done nofun)

theorem viable_call : Viable more n Expr.Compound (call expression) := by
  refine (viable_member inner).bind (fun _ => agree_member agree_expression_fewer)
    (fun callee m le => viable_calls (fun l less => inner l (by omega)) callee) ?_
  intro callee compound d r d' done a
  exact (ends_calls a).imp fun _ => calls_compound done compound

theorem viable_unary : Viable more n Expr.Compound (unary expression) := by
  induction n using Nat.strongRecOn with
  | ind n ih =>
  rw [unary_eq]
  refine viable_take_bind (fun operator _ m less => ?_) (viable_call inner) fun _ _ _ _ _ _ => ?_
  · refine (viable_requireOperand operator).bind_closed (fun _ => agree_requireOperand operator)
      fun _ l le => ?_
    refine (ih l (by omega) fun i less => inner i (by omega)).bind
      (fun _ => (agree_unary agree_expression_fewer).weaken (Nat.zero_le 1))
      (fun _ _ _ => viable_pure) ?_
    intro operand _ d r d' done a
    obtain ⟨rfl, -⟩ := pure_ok done
    exact ends_pure nofun
  · exact (ends_primary.bind_stuck).bind_stuck

end

/-- The operands of a chain are read from fewer tokens but for the first. -/
theorem viable_operations {operand : Parse Expr} (steady : Steady 1 operand)
    (operands : ∀ m < n, Viable more m Expr.Compound operand) (level : Level) (left : Expr) :
    Viable more n Expr.Compound (operations operand level left) := by
  induction n using Nat.strongRecOn generalizing left with
  | ind n ih =>
  rw [operations_eq steady]
  refine viable_take_bind (fun token _ m less => ?_) viable_pure fun token d r d' _ done => ?_
  · dsimp only
    split
    · refine (viable_requireOperand token).bind_closed (fun _ => agree_requireOperand token)
        fun _ l le => ?_
      refine (operands l (by omega)).bind steady (fun right l' le' => ?_) ?_
      · exact ih l' (by omega) (fun i less => operands i (by omega)) _
      · intro right _ d r d' done a
        exact (ends_operations steady level _).imp fun _ => operations_compound done nofun
    · exact viable_fail
  · cases found : level.operator? token.text with
    | none =>
      simp only [found] at done
      exact absurd done fail_ne_ok
    | some op =>
      simp only [found] at done
      obtain ⟨_, c₁, -, done⟩ := bind_ok done
      obtain ⟨right, c₂, -, done⟩ := bind_ok done
      exact ends_pure (operations_compound done nofun)

theorem viable_chain {operand : Parse Expr} (steady : Steady 1 operand)
    (operands : ∀ m ≤ n, Viable more m Expr.Compound operand) (level : Level) :
    Viable more n Expr.Compound (chain operand level) := by
  refine (operands n (Nat.le_refl n)).bind steady (fun left m le => ?_) ?_
  · exact viable_operations steady (fun l less => operands l (by omega)) level left
  · intro left compound d r d' done a
    exact (ends_operations steady level a).imp fun _ => operations_compound done compound

theorem viable_chains (levels : List Level) {operand : Parse Expr} (steady : Steady 1 operand)
    (operands : ∀ m ≤ n, Viable more m Expr.Compound operand) :
    Viable more n Expr.Compound (levels.foldl chain operand) := by
  induction levels generalizing operand with
  | nil => exact operands n (Nat.le_refl n)
  | cons level levels ih =>
    refine ih (fun m => agree_chain (steady m) level) fun m le => ?_
    exact viable_chain steady (fun l le' => operands l (by omega)) level

section
variable (inner : ∀ m < n, Viable more m Expr.Compound expression)
include inner

theorem viable_objectOrLogical : Viable more n Expr.Compound (objectOrLogical expression) := by
  unfold objectOrLogical
  refine viable_take_bind (fun opening _ m less => ?_) ?_ fun _ _ _ _ _ _ => ?_
  · have properties : Viable more m (fun _ => True)
        (listUntil .closeBrace (property expression)) :=
      viable_listUntil _ steady_property ends_property fun l le =>
        viable_property fun i le' => inner i (by omega)
    refine properties.bind (fun _ => agree_listUntil _ (steady_property _)) (fun _ l le => ?_) ?_
    · exact (viable_expect _).bind_closed (fun _ => agree_expect _) fun _ _ _ => viable_pure
    · exact fun _ _ _ _ _ _ _ => (ends_expect _).bind_stuck
  · exact viable_chains Level.all (fun _ => agree_unary agree_expression_fewer)
      fun m le => viable_unary fun l less => inner l (by omega)
  · exact Ends.imp (ends_chains Level.all ends_unary) False.elim

theorem viable_assignment : Viable more n Expr.Compound (assignment expression) := by
  unfold assignment
  refine (viable_objectOrLogical inner).bind (fun _ => agree_objectOrLogical agree_expression_fewer)
    (fun target m le => ?_) ?_
  · refine viable_take_bind (fun operator _ l less => ?_) viable_pure fun _ d r d' _ done => ?_
    · refine (viable_requireOperand operator).bind_closed (fun _ => agree_requireOperand operator)
        fun _ l' le' => ?_
      refine (inner l' (by omega)).bind steady_expression (fun _ _ _ => viable_pure) ?_
      intro value _ d r d' done a
      obtain ⟨rfl, -⟩ := pure_ok done
      exact ends_pure nofun
    · obtain ⟨_, c₁, -, done⟩ := bind_ok done
      obtain ⟨value, c₂, -, done⟩ := bind_ok done
      obtain ⟨rfl, -⟩ := pure_ok done
      exact ends_pure nofun
  · -- Behind a target that is no name comes an assignment or nothing.
    intro target compound d r d' done a
    refine ends_take_bind (ends_pure ?_)
    obtain ⟨taken, c₁, -, done⟩ := bind_ok done
    cases taken with
    | none =>
      obtain ⟨rfl, -⟩ := pure_ok done
      exact compound
    | some operator =>
      obtain ⟨_, c₂, -, done⟩ := bind_ok done
      obtain ⟨value, c₃, -, done⟩ := bind_ok done
      obtain ⟨rfl, -⟩ := pure_ok done
      exact nofun

end

/-- Whole expressions. -/
theorem viable_expression : Viable more n Expr.Compound expression := by
  induction n using Nat.strongRecOn with
  | ind n ih =>
  rw [expression_eq]
  exact viable_assignment ih

end Parse

end Syntax

end Scriptlet
