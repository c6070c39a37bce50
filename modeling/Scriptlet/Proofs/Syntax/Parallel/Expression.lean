import Scriptlet.Proofs.Syntax.Completeness.Expression
import Scriptlet.Proofs.Syntax.Parallel.Rules

/-!
# Expressions side by side

The parsers of expressions, each with itself on the same lexemes in other places. The induction is
on the tokens that come (`parallel_expression`): whole expressions inside of others stand behind a
token that was read.
-/
namespace Scriptlet

namespace Syntax

open Grammar (opening)

/-- Tokens that may come behind a statement: none, or such as begin the next one. -/
def Opens (tokens : List Token) : Prop := ∀ token ∈ tokens.head?, opening token.kind ≤ 3

/-- Tokens that may come behind an expression: also not such as begin its arguments. -/
structure Apart (tokens : List Token) : Prop where
  opens : Opens tokens
  no_args : ∀ token ∈ tokens.head?, token.kind ≠ .openParen

theorem Opens.ne_kind {tokens : List Token} {kind : Token.Kind} (h : Opens tokens)
    (out : 3 < opening kind) : ∀ token ∈ tokens.head?, token.kind ≠ kind := by
  rintro token head rfl
  exact absurd (h token head) (Nat.not_le.mpr out)

namespace Level

theorem continuedBy_moved {S : Span → Span → Prop} (level : Level) {token other : Token}
    (same : token.Moved S other) : level.continuedBy token = level.continuedBy other := by
  cases level <;> simp only [continuedBy, same.kind_eq, same.text_eq]

/-- Operators begin nothing. -/
theorem opening_of_continuedBy {level : Level} {token : Token}
    (continued : level.continuedBy token = true) : 3 < opening token.kind := by
  cases level <;> simp only [continuedBy, Bool.and_eq_true, decide_eq_true_eq] at continued
  case logical | comparison => rw [continued]; decide
  case additive | multiplicative => rw [continued.1]; decide

end Level

namespace Parse

variable {S : Span → Span → Prop} {last : Token → Prop} {more : List Token} {ends : Prop}
  {seen n : Nat}

variable (moving : Moving S)
include moving

section
variable (inner : ∀ m ≤ n, ∀ seen,
  Parallel S last more (Apart more) seen 1 m (Expr.Moved S S) expression expression)
include inner

/-- Expressions with commas between, up to a closing token. -/
theorem parallel_args :
    Parallel S last more False seen 0 n (MovedArgs S S) (listUntil .closeParen expression)
      (listUntil .closeParen expression) := by
  refine (parallel_listUntil moving _ steady_expression fun m le seen => ?_).imp
    fun _ _ => .of_forall₂
  exact (inner m le seen).inside.weaken (Nat.zero_le 1)

theorem parallel_group (opening other : Token) :
    Parallel S last more ends seen 1 n (Expr.Moved S S) (group expression opening)
      (group expression other) := by
  unfold group
  refine (parallel_nextIs moving _).bind_closed (by omega) fun empty _ same_kind m le => ?_
  subst same_kind
  cases empty with
  | true => exact parallel_get_fail (fun _ => .emptyParentheses) fun _ _ _ => rfl
  | false =>
    refine (inner m le _).inside.bind_closed (by omega) fun e f moved m' le' => ?_
    exact (parallel_expect moving _).bind fun _ _ _ _ _ => parallel_pure moved

end

section
variable (inner : ∀ m < n, ∀ seen,
  Parallel S last more (Apart more) seen 1 m (Expr.Moved S S) expression expression)
include inner

theorem parallel_primary :
    Parallel S last more ends seen 1 n (Expr.Moved S S) (primary expression)
      (primary expression) := by
  unfold primary
  refine parallel_take_bind moving (fun _ _ _ => rfl) nofun ?_ ?_
  · intro token other same _ m less
    simp only [← same.kind_eq, ← same.text_eq]
    split
    · exact parallel_pure (.name same.place)
    · split
      · exact parallel_pure (.number same.place)
      · exact parallel_fail _ _ _
    · exact parallel_pure (.text same.place)
    · exact (parallel_group moving (fun l le => inner l (by omega)) _ _).weaken (Nat.zero_le 1)
    · exact parallel_fail _ _ _
  · exact parallel_get_fail (fun _ => .unexpectedEnd) fun _ _ _ => rfl

theorem parallel_members {object other : Expr} (same : object.Moved S S other) :
    Parallel S last more (Apart more) seen 0 n (Expr.Moved S S) (members object)
      (members other) := by
  induction n using Nat.strongRecOn generalizing seen object other with
  | ind n ih =>
  rw [members_eq, members_eq]
  refine parallel_accept_bind moving (fun _ apart => apart.opens.ne_kind (by decide))
    (fun m less => ?_) ?_
  · refine (parallel_expect moving _).bind_uncounted fun property name named l le => ?_
    rw [← named.text_eq]
    exact ih l (by omega) (fun l' less => inner l' (by omega))
      (.member same (moving.cover same.span named.place))
  · exact parallel_pure same

theorem parallel_member :
    Parallel S last more (Apart more) seen 1 n (Expr.Moved S S) (member expression)
      (member expression) :=
  (parallel_primary moving inner).bind fun _ _ same _ le =>
    parallel_members moving (fun l less => inner l (by omega)) same

theorem parallel_calls {callee other : Expr} (same : callee.Moved S S other) :
    Parallel S last more (Apart more) seen 0 n (Expr.Moved S S) (calls expression callee)
      (calls expression other) := by
  induction n using Nat.strongRecOn generalizing seen callee other with
  | ind n ih =>
  rw [calls_eq, calls_eq]
  refine parallel_accept_bind moving (fun _ => Apart.no_args) (fun m less => ?_) ?_
  · refine (parallel_args moving fun l le => inner l (by omega)).bind_closed (by omega) ?_
    intro args others moved l le
    refine (parallel_expect moving _).bind fun closing other' ended l' le' => ?_
    exact ih l' (by omega) (fun i less => inner i (by omega))
      (.call same moved (moving.cover same.span ended.place))
  · exact parallel_pure same

theorem parallel_call :
    Parallel S last more (Apart more) seen 1 n (Expr.Moved S S) (call expression)
      (call expression) :=
  (parallel_member moving inner).bind fun _ _ same _ le =>
    parallel_calls moving (fun l less => inner l (by omega)) same

theorem parallel_unary :
    Parallel S last more (Apart more) seen 1 n (Expr.Moved S S) (unary expression)
      (unary expression) := by
  induction n using Nat.strongRecOn generalizing seen with
  | ind n ih =>
  rw [unary_eq]
  refine parallel_take_bind moving (fun _ _ same => by rw [same.kind_eq]) nofun ?_ ?_
  · intro operator other same _ m less
    refine (parallel_requireOperand same).bind fun _ _ _ l le => ?_
    refine (ih l (by omega) fun i less => inner i (by omega)).bind_uncounted ?_
    intro e f moved _ _
    exact parallel_pure (.not moved (moving.cover same.place moved.span))
  · exact parallel_call moving inner

end

/-- The operands of a chain are read from fewer tokens but for the first. -/
theorem parallel_operations {operand : Parse Expr} (steady : Steady 1 operand)
    (operands : ∀ m < n, ∀ seen,
      Parallel S last more (Apart more) seen 1 m (Expr.Moved S S) operand operand)
    (level : Level) {left other : Expr} (same : left.Moved S S other) :
    Parallel S last more (Apart more) seen 0 n (Expr.Moved S S) (operations operand level left)
      (operations operand level other) := by
  induction n using Nat.strongRecOn generalizing seen left other with
  | ind n ih =>
  rw [operations_eq steady, operations_eq steady]
  refine parallel_take_bind moving (fun _ _ => level.continuedBy_moved) ?_ ?_ ?_
  · intro _ apart token head
    cases continued : level.continuedBy token with
    | false => rfl
    | true =>
      exact absurd rfl (apart.opens.ne_kind (Level.opening_of_continuedBy continued) token head)
  · intro token other' same' _ m less
    simp only [← same'.text_eq]
    split
    · refine (parallel_requireOperand same').bind fun _ _ _ l le => ?_
      refine (operands l (by omega) _).bind_uncounted fun e f moved l' le' => ?_
      exact ih l' (by omega) (fun i less => operands i (by omega))
        (.binary same moved (moving.cover same.span moved.span))
    · exact parallel_fail _ _ _
  · exact parallel_pure same

theorem parallel_chain {operand : Parse Expr} (steady : Steady 1 operand)
    (operands : ∀ m ≤ n, ∀ seen,
      Parallel S last more (Apart more) seen 1 m (Expr.Moved S S) operand operand)
    (level : Level) :
    Parallel S last more (Apart more) seen 1 n (Expr.Moved S S) (chain operand level)
      (chain operand level) :=
  (operands n (Nat.le_refl n) seen).bind fun _ _ same _ le =>
    parallel_operations moving steady (fun l less => operands l (by omega)) level same

theorem parallel_chains (levels : List Level) {operand : Parse Expr} (steady : Steady 1 operand)
    (operands : ∀ m ≤ n, ∀ seen,
      Parallel S last more (Apart more) seen 1 m (Expr.Moved S S) operand operand) :
    Parallel S last more (Apart more) seen 1 n (Expr.Moved S S) (levels.foldl chain operand)
      (levels.foldl chain operand) := by
  induction levels generalizing operand with
  | nil => exact operands n (Nat.le_refl n) seen
  | cons level levels ih =>
    rw [List.foldl_cons]
    refine ih (fun m => agree_chain (steady m) level) fun m le seen => ?_
    exact parallel_chain moving steady (fun l le' => operands l (by omega)) level

section
variable (inner : ∀ m < n, ∀ seen,
  Parallel S last more (Apart more) seen 1 m (Expr.Moved S S) expression expression)
include inner

theorem parallel_logical :
    Parallel S last more (Apart more) seen 1 n (Expr.Moved S S) (logical expression)
      (logical expression) :=
  parallel_chains moving Level.all (fun _ => agree_unary agree_expression_fewer) fun _ le _ =>
    parallel_unary moving fun l less => inner l (by omega)

end

section
variable (inner : ∀ m ≤ n, ∀ seen,
  Parallel S last more (Apart more) seen 1 m (Expr.Moved S S) expression expression)
include inner

theorem parallel_property :
    Parallel S last more False seen 0 n (Property.Moved S S) (property expression)
      (property expression) := by
  unfold property
  refine (parallel_expect moving _).bind_uncounted fun key other named m le => ?_
  rw [← named.text_eq]
  refine (parallel_expect moving _).bind_uncounted fun _ _ _ m' le' => ?_
  refine (inner m' (by omega) _).inside.bind_uncounted fun value value' moved _ _ => ?_
  exact parallel_pure (.mk moved (moving.cover named.place moved.span))

theorem parallel_properties :
    Parallel S last more False seen 0 n (MovedProperties S S)
      (listUntil .closeBrace (property expression))
      (listUntil .closeBrace (property expression)) := by
  refine (parallel_listUntil moving _ steady_property fun m le seen => ?_).imp
    fun _ _ => .of_forall₂
  exact parallel_property moving fun l le' => inner l (by omega)

end

section
variable (inner : ∀ m < n, ∀ seen,
  Parallel S last more (Apart more) seen 1 m (Expr.Moved S S) expression expression)
include inner

theorem parallel_objectOrLogical :
    Parallel S last more (Apart more) seen 1 n (Expr.Moved S S) (objectOrLogical expression)
      (objectOrLogical expression) := by
  unfold objectOrLogical
  refine parallel_take_bind moving (fun _ _ same => by rw [same.kind_eq]) nofun ?_ ?_
  · intro opening opening' same _ m less
    refine (parallel_properties moving fun l le => inner l (by omega)).bind_closed (by omega) ?_
    intro properties others moved l le
    refine (parallel_expect moving _).bind fun closing closing' ended _ _ => parallel_pure ?_
    exact .object moved (moving.cover same.place ended.place)
  · exact parallel_logical moving inner

theorem parallel_assignment :
    Parallel S last more (Apart more) seen 1 n (Expr.Moved S S) (assignment expression)
      (assignment expression) := by
  unfold assignment
  refine (parallel_objectOrLogical moving inner).bind fun target target' moved m le => ?_
  refine parallel_take_bind moving (fun _ _ same => by rw [same.kind_eq]) ?_ ?_ ?_
  · intro _ apart token head
    exact decide_eq_false (apart.opens.ne_kind (by decide) token head)
  · intro operator other same _ l less
    refine (parallel_requireOperand same).bind fun _ _ _ l' le' => ?_
    refine (inner l' (by omega) _).bind_uncounted fun value value' moved' _ _ => ?_
    exact parallel_pure (.assign moved moved' (moving.cover moved.span moved'.span))
  · exact parallel_pure moved

end

/-- Whole expressions. -/
theorem parallel_expression :
    Parallel S last more (Apart more) seen 1 n (Expr.Moved S S) expression expression := by
  induction n using Nat.strongRecOn generalizing seen with
  | ind n ih =>
  rw [expression_eq]
  exact parallel_assignment moving fun m less seen => ih m less

end Parse

end Syntax

end Scriptlet
