import Scriptlet.Proofs.Syntax.Walk.Following

/-!
# Walks over expressions

Each walk over a construct of expressions follows the parser of that construct, given walks over
whole expressions that follow with fewer tokens to come.
-/
namespace Scriptlet

namespace Syntax

namespace Walk

open Parse (bind_run take?)

variable {α : Type} {n limit : Nat} {t : Layout}

section
variable {item : Walk α} {item' : Parse α}

theorem follows_commaSeparated (enough : n < limit) (items : Follows t 0 n item item') :
    Follows t 0 n (commaSeparated limit item) (Parse.commaSeparated item') := by
  refine follows_fix enough ?_ ()
  intro n' le again again' calls _
  apply (items.mono le).bind
  intro first
  apply follows_accept_bind (by omega)
  · intro m less
    exact (calls m less ()).bind fun _ => follows_pure _
  · exact follows_pure _

theorem follows_listUntil (enough : n < limit) (closing : Token.Kind)
    (items : Follows t 0 n item item') :
    Follows t 0 n (listUntil limit closing item) (Parse.listUntil closing item') := by
  unfold listUntil Parse.listUntil
  apply (follows_nextIs closing).bind
  intro empty
  split
  · exact follows_pure _
  · exact follows_commaSeparated enough items

theorem follows_sequenceUntil (enough : n < limit) {ended : Walk Bool} {stop : Token → Bool}
    (ends : ∀ c, Tells t c ended (c.rest.head?.all stop)) (items : Follows t 1 n item item') :
    Follows t 0 n (sequenceUntil limit ended item) (Parse.sequenceUntil stop item') := by
  refine follows_fix enough ?_ ()
  intro n' le again again' calls _ c bound
  have further : Follows t 0 n' (do return (← item) :: (← again ()))
      (do return (← item') :: (← again' ())) := by
    refine ((items.mono le).bind_fewer ?_).weaken (by omega)
    intro first m less
    exact (calls m less ()).bind fun _ => follows_pure _
  apply Runs.tell (ends c)
  rw [peek?_bind]
  cases c.rest.head? with
  | none => exact follows_pure _ c bound
  | some token =>
    rw [Option.all_some]
    dsimp only
    split
    · exact follows_pure _ c bound
    · exact further c bound

end

section
variable {f : Walk Expr} {g : Parse Expr}

theorem follows_group (inner : Follows t 0 n f g) (opening : Token) :
    Follows t 0 n (group f opening) (Parse.group g opening) := by
  unfold group Parse.group
  apply (follows_nextIs _).bind
  intro empty
  have read : Follows t 0 n (f >>= fun e => expect .groupEnd >>= fun _ => pure e)
      (g >>= fun e => Parse.expect .groupEnd >>= fun _ => pure e) :=
    inner.bind fun _ => ((follows_expect _).weaken (by omega)).bind fun _ => follows_pure _
  dsimp only
  split
  · exact follows_here_bind (fun span => fail _ (opening.span.cover span)) fun _ =>
      follows_fail_bind _ _ (by simp)
  · exact read

theorem follows_primary (inner : ∀ m < n, Follows t 0 m f g) :
    Follows t 1 n (primary f) (Parse.primary g) := by
  intro c bound
  apply Runs.tell tells_isAtEnd
  unfold Parse.primary
  rw [bind_run]
  cases ahead : c.rest with
  | nil =>
    have here : c.here = c.finish := by rw [Cursor.here, ahead]
    simp only [take?, ahead]
    change Runs t 1 c (peek >>= fun token => fail .unexpectedEnd token.span)
      (Parse.fail .unexpectedEnd c.finish c)
    have failed : Follows t 1 n (peek >>= fun token => fail .unexpectedEnd token.span : Walk Expr)
        (get >>= fun c => Parse.fail .unexpectedEnd c.here) :=
      follows_here_bind (fail _) fun _ => follows_fail _ (by simp)
    exact here ▸ failed c bound
  | cons token rest =>
    rw [ahead, List.length_cons] at bound
    simp only [take?, ahead, if_true]
    apply Runs.advance ahead
    have behind := Nat.le_refl rest.length
    cases kind : token.kind with
    | name | text => exact follows_pure _ _ behind
    | number =>
      dsimp only
      cases Number.ofNumeral? token.text.toList with
      | some value => exact follows_pure _ _ behind
      | none => exact (follows_fail _ (by simp)) _ behind
    | openParen => exact follows_group (inner _ bound) token _ behind
    | _ => exact (follows_fail _ (by simp)) _ behind

theorem follows_members (enough : n < limit) (object : Expr) :
    Follows t 0 n (members limit object) (Parse.members object) := by
  refine follows_fix enough ?_ object
  intro n' le again again' calls object
  apply follows_accept_bind (by omega)
  · intro m less
    refine ((follows_expect _).bind_fewer ?_).weaken (by omega)
    intro property k fewer
    exact calls k (Nat.lt_trans fewer less) _
  · exact follows_pure _

theorem follows_member (enough : n < limit) (inner : ∀ m < n, Follows t 0 m f g) :
    Follows t 1 n (member limit f) (Parse.member g) :=
  (follows_primary inner).bind_fewer fun object _ less =>
    follows_members (Nat.lt_trans less enough) object

theorem follows_calls (enough : n < limit) (inner : ∀ m < n, Follows t 0 m f g) (callee : Expr) :
    Follows t 0 n (calls limit f callee) (Parse.calls g callee) := by
  refine follows_fix enough ?_ callee
  intro n' le again again' calls callee
  simp only [Parse.accept, bind_assoc, pure_bind]
  apply follows_look_bind (fun _ => tells_check _)
  · intro c token rest here parenthesis bound
    -- The parenthesis is looked at again, and is still there.
    unfold arguments
    simp only [bind_assoc, pure_bind]
    refine (Runs.consume here (of_decide_eq_true parenthesis) ?_).weaken (by omega)
    rw [here, List.length_cons] at bound
    have items := inner rest.length (Nat.lt_of_lt_of_le bound le)
    refine ((follows_listUntil (by omega) _ items).bind ?_) _ (Nat.le_refl rest.length)
    intro args
    refine ((follows_expect _).bind_fewer ?_).weaken (by omega)
    intro closing k fewer
    exact calls k (by omega) _
  · exact follows_pure _

/-- Without a parenthesis there are no calls. -/
theorem runs_no_calls {c : Cursor} (callee : Expr)
    (none : c.rest.head?.any (·.kind = .openParen) = false) :
    Runs t 0 c (pure callee) (Parse.calls g callee c) := by
  have refused : Parse.accept .openParen c = .ok (false, c) := by
    rw [Parse.accept, bind_run, take?]
    cases ahead : c.rest with
    | nil => rfl
    | cons token rest =>
      rw [ahead, List.head?_cons, Option.any_some] at none
      simp only [none]
      rfl
  have stays : Parse.calls g callee c = .ok (callee, c) := by
    change (Parse.accept .openParen >>= _) c = _
    rw [bind_run, refused]
    rfl
  rw [stays]
  exact follows_pure callee c (Nat.le_refl _)

theorem follows_call (enough : n < limit) (inner : ∀ m < n, Follows t 0 m f g) :
    Follows t 1 n (call limit f) (Parse.call g) := by
  apply (follows_member enough inner).bind_fewer
  intro callee m less c bound
  apply Runs.tell (tells_check _)
  cases begins : c.rest.head?.any (·.kind = .openParen) with
  | true =>
    have enough' := Nat.lt_trans less enough
    exact follows_calls enough' (fun k fewer => inner k (Nat.lt_trans fewer less)) callee c bound
  | false => exact runs_no_calls callee begins

theorem follows_unary (enough : n < limit) (inner : ∀ m < n, Follows t 0 m f g) :
    Follows t 1 n (unary limit f) (Parse.unary g) := by
  refine follows_fix enough ?_ ()
  intro n' le again again' calls _
  apply follows_take_bind (Nat.le_refl 1) (fun _ => tells_check _)
  · intro operator m less
    apply (follows_requireOperand operator).bind
    intro _
    exact ((calls m less ()).weaken (by omega)).bind fun _ => follows_pure _
  · exact follows_call (Nat.lt_of_le_of_lt le enough)
      fun m less => inner m (Nat.lt_of_lt_of_le less le)

theorem follows_chain (enough : n < limit) {operand : Walk Expr} {operand' : Parse Expr}
    (operands : Follows t 1 n operand operand') (level : Level) :
    Follows t 1 n (chain limit operand level) (Parse.chain operand' level) := by
  apply operands.bind_fewer
  intro left m less
  refine follows_fix (Nat.lt_trans less enough) ?_ left
  intro n' le again again' calls left
  apply follows_take_bind (by omega) (fun _ => tells_checkLevel level)
  · intro token k fewer
    dsimp only
    cases level.operator? token.text with
    | some op =>
      apply (follows_requireOperand token).bind
      intro _
      apply ((operands.mono (by omega)).weaken (by omega)).bind
      intro right
      exact calls k fewer _
    | none => exact follows_fail _ (by simp)
  · exact follows_pure _

theorem follows_logical (enough : n < limit) (inner : ∀ m < n, Follows t 0 m f g) :
    Follows t 1 n (logical limit f) (Parse.logical g) :=
  follows_chain enough (follows_chain enough (follows_chain enough
    (follows_chain enough (follows_unary enough inner) _) _) _) _

theorem follows_property (inner : Follows t 0 n f g) :
    Follows t 0 n (property f) (Parse.property g) := by
  apply ((follows_expect _).weaken (by omega)).bind
  intro key
  apply ((follows_expect _).weaken (by omega)).bind
  intro _
  exact inner.bind fun _ => follows_pure _

theorem follows_objectOrLogical (enough : n < limit) (inner : ∀ m < n, Follows t 0 m f g) :
    Follows t 1 n (objectOrLogical limit f) (Parse.objectOrLogical g) := by
  apply follows_take_bind (Nat.le_refl 1) (fun _ => tells_check _)
  · intro opening m less
    apply (follows_listUntil (Nat.lt_trans less enough) _ (follows_property (inner m less))).bind
    intro properties
    exact ((follows_expect _).weaken (by omega)).bind fun _ => follows_pure _
  · exact follows_logical enough inner

theorem follows_assignment (enough : n < limit) (inner : ∀ m < n, Follows t 0 m f g) :
    Follows t 1 n (assignment limit f) (Parse.assignment g) := by
  apply (follows_objectOrLogical enough inner).bind_fewer
  intro target m less
  rw [accept_bind]
  apply follows_take_bind' (by omega) (fun _ => tells_check _)
  · intro operator d last shorter
    simp only [if_true]
    have told : Tells t d previous operator := by
      simpa only [last, Option.getD_some] using tells_previous (t := t) (c := d)
    apply Runs.tell told
    refine ((follows_requireOperand operator).bind ?_) d (Nat.le_refl _)
    intro _
    exact (inner _ (by omega)).bind fun _ => follows_pure _
  · simp only [Bool.false_eq_true, if_false]
    exact follows_pure _

end

theorem follows_expression (enough : n < limit) :
    Follows t 1 n (expression limit) Parse.expression := by
  refine follows_fix enough ?_ ()
  intro n' le again again' calls _ c bound
  -- All inner expressions stand behind a token of the outer one.
  have inner : ∀ m < n', Follows t 0 m (again ()) (again' ()) :=
    fun m less => (calls m less ()).weaken (by omega)
  exact (follows_assignment (Nat.lt_of_le_of_lt le enough) inner c bound).traced

end Walk

end Syntax

end Scriptlet
