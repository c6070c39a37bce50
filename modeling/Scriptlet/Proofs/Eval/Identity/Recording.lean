import Scriptlet.Proofs.Eval.Diagnosis
import Scriptlet.Proofs.Eval.Identity.Origin

/-!
# Runs write sound journals

A journal agrees with a state when it is sound, tells of all that scopes bind and of each identity
that was given out, and of none that is still to be given out. A run that starts where the two agree leaves
them in agreement, and its result is known (`logSequence_records`, `logInvoke_records`).
-/
namespace Scriptlet

namespace Eval

open Log

/-- What a journal says goes with a state. -/
structure Agrees (printId : Identity) (J : List Entry) (m : Machine) : Prop where
  sound : Sound printId J
  bound : KnownStore printId J m.store
  below : ∀ v id, Known printId J v → v.identity? = some id → id < m.nextIdentity
  counted : J.filterMap Entry.given? =
    List.range' (printId + 1) (m.nextIdentity - (printId + 1))

variable {printId : Identity} {J : List Entry} {m n : Machine} {α β : Type} {e : Entry}

/-- What was printed does not matter. -/
theorem Agrees.of_eq (agrees : Agrees printId J m) (store_eq : n.store = m.store)
    (next_eq : n.nextIdentity = m.nextIdentity) : Agrees printId J n :=
  ⟨agrees.sound, store_eq ▸ agrees.bound, next_eq ▸ agrees.below, next_eq ▸ agrees.counted⟩

/-- Something was seen, and nothing made. -/
theorem Agrees.seen (agrees : Agrees printId J m) {values : List Value}
    (known : ∀ v ∈ values, Known printId J v) : Agrees printId (J ++ [.seen values m]) m where
  sound := agrees.sound.concat ⟨known, agrees.bound⟩
  bound := agrees.bound.mono (List.subset_append_left _ _)
  below v id told := by
    refine agrees.below v id ?_
    cases told with
    | plain none => exact .plain none
    | print => exact .print
    | made member =>
      rcases List.mem_append.mp member with old | new
      · exact .made old
      · cases List.mem_singleton.mp new
  counted := by
    rw [List.filterMap_append, agrees.counted]
    exact List.append_nil _

/-- A run is over, and what it gave is seen. -/
theorem Agrees.ended {ε : Type} (agrees : Agrees printId J m) {outcome : Outcome ε Value}
    (known : ∀ v, outcome = .value v → Known printId J v) :
    Agrees printId (J ++ [.ending (outcome, m)]) m := by
  cases outcome with
  | value v => exact agrees.seen (List.forall_mem_singleton.mpr (known v rfl))
  | failure e => exact agrees.seen (List.forall_mem_nil _)
  | unfinished => exact agrees.seen (List.forall_mem_nil _)

/-- Something was made, with the next identity. -/
theorem Agrees.made (agrees : Agrees printId J m) {node : Node} {v : Value}
    (makes : node.Makes v) (identity : v.identity? = some m.nextIdentity)
    (parts : ∀ id entries, v = .object id entries → ∀ entry ∈ entries, Known printId J entry.2) :
    Agrees printId (J ++ [.made node v m]) m.newIdentity.2 where
  sound := by
    refine agrees.sound.concat (Fresh.mk makes parts agrees.bound fun w known same => ?_)
    exact Nat.lt_irrefl _ (agrees.below w _ known (same.trans identity))
  bound := agrees.bound.mono (List.subset_append_left _ _)
  below w id told own := by
    have earlier : Known printId J w → id < m.nextIdentity + 1 :=
      fun known => Nat.lt_succ_of_lt (agrees.below w id known own)
    cases told with
    | plain none => exact earlier (.plain none)
    | print => exact earlier .print
    | made member =>
      rcases List.mem_append.mp member with old | new
      · exact earlier (.made old)
      · cases List.mem_singleton.mp new
        cases own.symm.trans identity
        exact Nat.lt_succ_self _
  counted := by
    have after : printId + 1 ≤ m.nextIdentity := agrees.below _ printId .print rfl
    have count : m.nextIdentity + 1 - (printId + 1) = m.nextIdentity - (printId + 1) + 1 :=
      Nat.succ_sub after
    rw [List.filterMap_append, agrees.counted]
    simp only [List.filterMap_cons, List.filterMap_nil, Entry.given?, identity]
    rw [Machine.newIdentity, count, List.range'_1_concat, Nat.add_sub_cancel' after]

/-- Scopes may change that still lead to known values only. -/
theorem KnownStore.change {store later : Store} {start : Referent}
    (known : KnownStore printId J store) (given : ∀ v, start = .value v → Known printId J v)
    (changed : ∀ id o, later.Next (.scope id) o → store.Next (.scope id) o ∨ o = start) :
    KnownStore printId J later := by
  intro id name binding bound
  have step := changed id _ (.binding bound)
  generalize binding.value = v at step
  rcases step with old | same
  · cases old with
    | binding found => exact known _ _ _ found
  · exact given v same.symm

/-- From where a journal agrees with the state, a run leaves it in agreement with what is written
down of the run, and gives something good. -/
def Records (printId : Identity) (J : List Entry) (good : List Entry → α → Prop) (run : Run α)
    (log : Log) : Prop :=
  ∀ m, Agrees printId J m → Agrees printId (J ++ log m) (run m).2 ∧
    ∀ a, (run m).1 = .value a → good (J ++ log m) a

section
variable {good : List Entry → α → Prop} {later : List Entry → β → Prop}

theorem records_pure {a : α} (is_good : good J a) : Records printId J good (pure a) silent := by
  intro m agrees
  rw [silent, List.append_nil]
  refine ⟨agrees, ?_⟩
  rintro _ ⟨⟩
  exact is_good

theorem records_fail (cause : Fault) (span : Span) :
    Records printId J good (Run.fail cause span) silent := by
  intro m agrees
  rw [silent, List.append_nil]
  exact ⟨agrees, nofun⟩

theorem records_unfinished : Records printId J good Run.unfinished silent := by
  intro m agrees
  rw [silent, List.append_nil]
  exact ⟨agrees, nofun⟩

theorem Records.bind {first : Run α} {second : α → Run β} {log : Log} {next : α → Log}
    (h : Records printId J good first log)
    (rest : ∀ J' a, J ⊆ J' → good J' a → Records printId J' later (second a) (next a)) :
    Records printId J later (first >>= second) (chained first log next) := by
  intro m agrees
  obtain ⟨still, value⟩ := h m agrees
  rw [Run.bind_apply, chained]
  cases run : first m with
  | mk outcome n =>
    rw [run] at still value
    cases outcome with
    | value a =>
      have ended := rest _ a (List.subset_append_left J (log m)) (value a rfl) n still
      rwa [List.append_assoc] at ended
    | failure e =>
      rw [List.append_nil]
      exact ⟨still, nofun⟩
    | unfinished =>
      rw [List.append_nil]
      exact ⟨still, nofun⟩

theorem chained_silent (run : Run α) (log : Log) : chained run log (fun _ => silent) = log := by
  funext m
  unfold chained
  split <;> exact List.append_nil _

/-- Nothing is written down of what follows. -/
theorem Records.quietly {first : Run α} {second : α → Run β} {log : Log}
    (h : Records printId J good first log)
    (rest : ∀ J' a, J ⊆ J' → good J' a → Records printId J' later (second a) silent) :
    Records printId J later (first >>= second) log := by
  rw [← chained_silent first log]
  exact h.bind rest

end

/-- The result of a run is seen where it ends. -/
theorem Records.concluded {run : Run Value} {log : Log}
    (h : Records printId J (Known printId) run log) :
    Records printId J (Known printId) run (Log.concluded run log) := by
  intro m agrees
  obtain ⟨still, value⟩ := h m agrees
  rw [Log.concluded, ← List.append_assoc]
  exact ⟨still.ended value, fun v ended => (value v ended).mono (List.subset_append_left _ _)⟩

/-! The operations of the evaluator on the machine. -/

theorem records_get (scope : ScopeId) (name : String) (span : Span) :
    Records printId J (Known printId) (Run.get scope name span) silent := by
  intro m agrees
  unfold Run.get Store.get
  cases found : m.store.lookup? scope name with
  | none => exact records_fail _ _ m agrees
  | some binding =>
    obtain ⟨owner, -, bound⟩ := Store.find?_of_lookup? found
    exact records_pure (agrees.bound _ _ _ bound) m agrees

theorem records_newScope (parent : ScopeId) :
    Records printId J (fun _ _ => True) (Run.newScope parent) silent := by
  intro m agrees
  rw [silent, List.append_nil]
  have bound : KnownStore printId J (m.store.create (some parent)).2 := by
    refine agrees.bound.change ?_ fun _ _ => Store.next_create
    rintro _ ⟨⟩
  exact ⟨⟨agrees.sound, bound, agrees.below, agrees.counted⟩, fun _ _ => trivial⟩

theorem records_updateStore {span : Span} {fault? : Store → Option ScopeFault}
    {change : Store → Store} {v : Value} (known : Known printId J v)
    (changed : ∀ store id o, (change store).Next (.scope id) o →
      store.Next (.scope id) o ∨ o = .value v) :
    Records printId J (fun _ _ => True) (Run.updateStore span fault? change) silent := by
  rintro ⟨store, nextIdentity, sink⟩ agrees
  rw [silent, List.append_nil]
  simp only [Run.updateStore]
  cases fault? store with
  | some fault =>
    refine ⟨agrees, ?_⟩
    rintro _ ⟨⟩
  | none =>
    have bound : KnownStore printId J (change store) := by
      refine agrees.bound.change ?_ (changed store)
      rintro _ ⟨⟩
      exact known
    exact ⟨⟨agrees.sound, bound, agrees.below, agrees.counted⟩, fun _ _ => trivial⟩

theorem records_declare {v : Value} (known : Known printId J v) (scope : ScopeId) (name : String)
    (constant : Bool) (span : Span) :
    Records printId J (fun _ _ => True) (Run.declare scope name v constant span) silent :=
  records_updateStore known fun _ _ _ => Store.next_bind

theorem records_assign {v : Value} (known : Known printId J v) (scope : ScopeId) (name : String)
    (span : Span) : Records printId J (fun _ _ => True) (Run.assign scope name v span) silent :=
  records_updateStore known fun _ _ _ => Store.next_set

/-- What an operator gives has no identity. -/
theorem records_apply (op : Operator) (a b : Value) (span : Span) :
    Records printId J (Known printId) (Run.ofExcept span (op.apply a b)) silent := by
  cases op with
  | connective op => exact records_pure (.plain rfl)
  | comparison op => exact records_pure (.plain rfl)
  | arithmetic op =>
    simp only [Operator.apply, Arithmetic.apply]
    split
    · next x y =>
      rcases op.onNumbers_cases x y with ⟨failed, -⟩ | ⟨z, done⟩
      · rw [failed]
        exact records_fail _ _
      · rw [done]
        exact records_pure (.plain rfl)
    · refine records_pure (.plain ?_)
      split <;> rfl
    · exact records_pure (.plain rfl)

theorem records_memberOf {v : Value} (known : Known printId J v) (object : Expr)
    (property : String) (span : Span) :
    Records printId J (Known printId) (memberOf object property span v) silent := by
  unfold memberOf
  split
  · next id entries =>
    split
    · next value found =>
      intro m agrees
      obtain ⟨front, back, rfl, -⟩ := List.lookup_eq_some_iff.mp found
      have member := agrees.sound.part known (List.mem_append_right front List.mem_cons_self)
      exact records_pure member m agrees
    · exact records_fail _ _
  · exact records_fail _ _

/-- An identity is given out, and what gets it is written down. -/
theorem records_newIdentity {node : Node} (make : Identity → Value)
    (makes : ∀ id, node.Makes (make id)) (identity : ∀ id, (make id).identity? = some id)
    (parts : ∀ next id entries, make next = .object id entries →
      ∀ entry ∈ entries, Known printId J entry.2) :
    Records printId J (fun J' id => Known printId J' (make id)) Run.newIdentity
      (fun m => [.made node (make m.nextIdentity) m]) := by
  intro m agrees
  refine ⟨agrees.made (makes _) (identity _) (parts _), ?_⟩
  rintro _ ⟨⟩
  exact .made (List.mem_append_right _ List.mem_cons_self)

/-- `print` leaves scopes and identities as they are. -/
theorem records_callNative {host : Host} (prints : host.OnlyPrints) (name : String)
    (args : List Value) (site : ScopeId) (span : Span) :
    Records printId J (Known printId) (callNative host name args site span) silent := by
  intro m agrees
  unfold callNative
  cases known : host name with
  | none => exact records_fail _ _ m agrees
  | some native =>
    obtain rfl := prints name native known
    rw [silent, List.append_nil]
    have still : Agrees printId J (Native.print args site m).2 := agrees.of_eq rfl rfl
    dsimp only
    cases called : Native.print args site m with
    | mk answer next =>
      rw [called] at still
      cases answer with
      | ok value =>
        refine ⟨still, ?_⟩
        rintro _ ⟨⟩
        exact .plain (Native.identity?_print (congrArg Prod.fst called))
      | error cause => exact ⟨still, nofun⟩

/-- A caller and what is written down of its calls. -/
def CallRecords (printId : Identity) (caller : Caller) (calls : CallLog) : Prop :=
  ∀ {J f args site span}, Known printId J f → (∀ a ∈ args, Known printId J a) →
    Records printId J (Known printId) (caller f args site span) (calls f args site span)

variable {caller : Caller} {calls : CallLog}

mutual

theorem logExpr_records (called : CallRecords printId caller calls) (scope : ScopeId) :
    ∀ (e : Expr) {J : List Entry}, Records printId J (Known printId) (evalExpr caller scope e)
      (logExpr caller calls scope e)
  | .number n _, J => by
    rw [logExpr]
    exact Records.concluded (records_pure (.plain rfl))
  | .text s _, J => by
    rw [logExpr]
    exact Records.concluded (records_pure (.plain rfl))
  | .name name span, J => by
    rw [logExpr]
    exact Records.concluded (records_get scope name span)
  | .binary op left right span, J => by
    rw [logExpr]
    apply Records.concluded
    rw [evalExpr]
    apply (logExpr_records called scope left).bind
    intro J' a _ _
    apply (logExpr_records called scope right).quietly
    intro _ b _ _
    exact records_apply op a b span
  | .not operand _, J => by
    rw [logExpr]
    apply Records.concluded
    rw [evalExpr]
    apply (logExpr_records called scope operand).quietly
    intro _ _ _ _
    exact records_pure (.plain rfl)
  | .assign target value span, J => by
    cases target with
    | name name place =>
      rw [logExpr]
      apply Records.concluded
      rw [evalExpr]
      apply (logExpr_records called scope value).quietly
      intro J' a _ known
      apply (records_assign known scope name span).quietly
      intro _ _ further _
      exact records_pure (known.mono further)
    | _ => exact Records.concluded (records_fail _ _)
  | .object properties span, J => by
    rw [logExpr]
    apply Records.concluded
    rw [evalExpr]
    apply (logProperties_records called scope properties (List.forall_mem_nil _)).bind
    intro J' entries _ known
    have parts : ∀ next id entries', Value.object next entries = .object id entries' →
        ∀ entry ∈ entries', Known printId J' entry.2 := by
      rintro _ _ _ ⟨⟩
      exact known
    apply (records_newIdentity (.object · entries) (fun _ => .object) (fun _ => rfl) parts).quietly
    intro _ id _ made
    exact records_pure made
  | .member object property span, J => by
    rw [logExpr]
    apply Records.concluded
    rw [evalExpr]
    apply (logExpr_records called scope object).quietly
    intro _ _ _ known
    exact records_memberOf known object property span
  | .call callee args span, J => by
    rw [logExpr]
    apply Records.concluded
    rw [evalExpr]
    apply (logArgs_records called scope args).bind
    intro J' values _ known
    apply (logExpr_records called scope callee).bind
    intro J'' f further found
    exact called found fun a member => (known a member).mono further

theorem logArgs_records (called : CallRecords printId caller calls) (scope : ScopeId) :
    ∀ (args : List Expr) {J : List Entry},
      Records printId J (fun J' values => ∀ a ∈ values, Known printId J' a)
        (evalArgs caller scope args) (logArgs caller calls scope args)
  | [], J => by
    rw [logArgs]
    exact records_pure (List.forall_mem_nil _)
  | arg :: rest, J => by
    rw [evalArgs, logArgs]
    apply (logExpr_records called scope arg).bind
    intro J' a _ known
    apply (logArgs_records called scope rest).quietly
    intro _ values further all
    exact records_pure (List.forall_mem_cons.mpr ⟨known.mono further, all⟩)

theorem logProperties_records (called : CallRecords printId caller calls) (scope : ScopeId) :
    ∀ (properties : List Property) {entries : Entries} {J : List Entry},
      (∀ entry ∈ entries, Known printId J entry.2) →
        Records printId J (fun J' entries => ∀ entry ∈ entries, Known printId J' entry.2)
          (evalProperties caller scope entries properties)
          (logProperties caller calls scope entries properties)
  | [], entries, J, known => by
    rw [logProperties]
    exact records_pure known
  | .mk key value _ :: rest, entries, J, known => by
    rw [evalProperties, logProperties]
    apply (logExpr_records called scope value).bind
    intro J' a further made
    apply logProperties_records called scope rest
    intro entry member
    rcases Entries.mem_insert member with old | new
    · exact (known entry old).mono further
    · rw [new]
      exact made

end

mutual

theorem logStmt_records (called : CallRecords printId caller calls) (scope : ScopeId) :
    ∀ (s : Stmt) {J : List Entry}, Records printId J (Known printId) (evalStmt caller scope s)
      (logStmt caller calls scope s)
  | .expr value _, J => by
    rw [logStmt]
    apply Records.concluded
    rw [evalStmt]
    exact logExpr_records called scope value
  | .declare name constant (some value) span, J => by
    rw [logStmt]
    apply Records.concluded
    rw [evalStmt]
    apply (logExpr_records called scope value).quietly
    intro J' a _ known
    apply (records_declare known scope name constant span).quietly
    intro _ _ further _
    exact records_pure (known.mono further)
  | .declare name constant none span, J => by
    rw [logStmt]
    apply Records.concluded
    rw [evalStmt]
    have nothing : Records printId J (Known printId) (pure Value.null) silent :=
      records_pure (.plain rfl)
    apply nothing.quietly
    intro J' a _ known
    apply (records_declare known scope name constant span).quietly
    intro _ _ further _
    exact records_pure (known.mono further)
  | .function name params body span, J => by
    rw [logStmt]
    apply Records.concluded
    rw [evalStmt]
    apply (records_newIdentity (.function · ⟨name, params, body, scope⟩) (fun _ => .function)
      (fun _ => rfl) nofun).quietly
    intro J' id _ known
    apply (records_declare known scope name true span).quietly
    intro _ _ _ _
    exact records_pure (.plain rfl)
  | .branch condition body alternatives otherwise _, J => by
    rw [logStmt.eq_def]
    apply Records.concluded
    rw [evalStmt.eq_def]
    apply (logExpr_records called scope condition).bind
    intro J' guard _ _
    split
    · exact logBlock_records called scope body
    · apply (logAlternatives_records called scope alternatives).bind
      intro J'' taken _ known
      cases taken with
      | some value => exact records_pure (known value rfl)
      | none =>
        cases otherwise with
        | some block => exact logBlock_records called scope block
        | none => exact records_pure (.plain rfl)

theorem logBlock_records (called : CallRecords printId caller calls) (parent : ScopeId)
    (body : List Stmt) {J : List Entry} :
    Records printId J (Known printId)
      (Run.newScope parent >>= fun inner => evalSequence caller inner .null body)
      (chained (Run.newScope parent) silent fun inner => logSequence caller calls inner body) := by
  apply (records_newScope parent).bind
  intro J' inner _ _
  exact logSequence_records called inner body (.plain rfl)

theorem logAlternatives_records (called : CallRecords printId caller calls) (scope : ScopeId) :
    ∀ (alternatives : List Alternative) {J : List Entry},
      Records printId J (fun J' taken => ∀ v, taken = some v → Known printId J' v)
        (evalAlternatives caller scope alternatives)
        (logAlternatives caller calls scope alternatives)
  | [], J => by
    rw [logAlternatives]
    exact records_pure nofun
  | .mk condition body :: rest, J => by
    rw [evalAlternatives, logAlternatives]
    apply (logExpr_records called scope condition).bind
    intro J' guard _ _
    split
    · rw [← bind_assoc]
      apply (logBlock_records called scope body).quietly
      intro _ value _ known
      refine records_pure ?_
      rintro _ ⟨⟩
      exact known
    · exact logAlternatives_records called scope rest

theorem logSequence_records (called : CallRecords printId caller calls) (scope : ScopeId) :
    ∀ (statements : List Stmt) {last : Value} {J : List Entry}, Known printId J last →
      Records printId J (Known printId) (evalSequence caller scope last statements)
        (logSequence caller calls scope statements)
  | [], last, J, known => by
    rw [logSequence]
    exact records_pure known
  | statement :: rest, last, J, _ => by
    rw [evalSequence, logSequence]
    apply (logStmt_records called scope statement).bind
    intro J' value _ known
    exact logSequence_records called scope rest known

end

theorem bindParams_records (scope : ScopeId) (span : Span) (params : List String)
    {args : List Value} {J : List Entry} (known : ∀ a ∈ args, Known printId J a) :
    Records printId J (fun _ _ => True) (bindParams scope span params args) silent := by
  induction params generalizing args J with
  | nil => exact records_pure trivial
  | cons param params ih =>
    have head : Known printId J (args.headD .null) := by
      cases args with
      | nil => exact .plain rfl
      | cons first _ => exact known first List.mem_cons_self
    rw [bindParams]
    apply (records_declare head scope param false span).quietly
    intro J' _ further _
    exact ih fun a member => (known a (List.mem_of_mem_tail member)).mono further

theorem logClosure_records (called : CallRecords printId caller calls) (closure : Closure)
    {args : List Value} (span : Span) (known : ∀ a ∈ args, Known printId J a) :
    Records printId J (Known printId) (callClosure caller closure args span)
      (logClosure caller calls closure args span) := by
  unfold callClosure logClosure
  apply (records_newScope closure.scope).bind
  intro J' scope further _
  apply (bindParams_records scope span closure.params fun a member =>
    (known a member).mono further).bind
  intro J'' _ _ _
  exact logSequence_records called scope closure.body (.plain rfl)

/-- Known values are seen where a run begins. -/
theorem Records.preceded {good : List Entry → α → Prop} {run : Run α} {log : Log}
    {values : List Value} (known : ∀ v ∈ values, Known printId J v)
    (h : ∀ J', J ⊆ J' → Records printId J' good run log) :
    Records printId J good run (fun m => .seen values m :: log m) := by
  intro m agrees
  have kept := h _ (List.subset_append_left _ _) m (agrees.seen known)
  rwa [List.append_assoc] at kept

theorem logInvoke_records {host : Host} (prints : host.OnlyPrints) (depth : Nat) :
    CallRecords printId (invoke host depth) (logInvoke host depth) := by
  induction depth with
  | zero =>
    intro J f args site span found known
    have at_hand := List.forall_mem_cons.mpr ⟨found, known⟩
    cases f with
    | native id name =>
      exact Records.preceded at_hand fun _ _ => records_callNative prints name args site span
    | function id closure => exact Records.preceded at_hand fun _ _ => records_unfinished
    | _ => exact Records.preceded at_hand fun _ _ => records_fail _ _
  | succ depth ih =>
    intro J f args site span found known
    have at_hand := List.forall_mem_cons.mpr ⟨found, known⟩
    cases f with
    | native id name =>
      exact Records.preceded at_hand fun _ _ => records_callNative prints name args site span
    | function id closure =>
      exact Records.preceded at_hand fun J' further =>
        logClosure_records ih closure span fun a member => (known a member).mono further
    | _ => exact Records.preceded at_hand fun _ _ => records_fail _ _

end Eval

end Scriptlet
