import Scriptlet.Interpreter
import Scriptlet.Proofs.Value.Entries

/-!
# Object literals

The properties of an object literal are evaluated one after the other, each of them once, up to
the first one that has no value (`evaluates_or_stops`). If all have one, the object has each key
where it was named first, with the value that was given last, and that is what members and printed
text show (`object_literal_collects`). A value that is overwritten was computed all the same.
-/
namespace Scriptlet

namespace Eval

open Entries (LastOf Collects ofPairs)

/-- Properties that are evaluated one after the other, each of them once: the keys with the values
that they are given, and the machine that is left behind. -/
inductive Evaluates (caller : Caller) (scope : ScopeId) :
    List Property → Machine → List (String × Value) → Machine → Prop
  | none {m : Machine} : Evaluates caller scope [] m [] m
  | next {key : String} {expr : Expr} {span : Span} {rest : List Property} {value : Value}
      {pairs : List (String × Value)} {m between last : Machine}
      (first : evalExpr caller scope expr m = (.value value, between))
      (others : Evaluates caller scope rest between pairs last) :
      Evaluates caller scope (.mk key expr span :: rest) m ((key, value) :: pairs) last

/-- Properties of which one has no value: those before it are evaluated, and those behind it are
not. -/
inductive Stops (caller : Caller) (scope : ScopeId) :
    List Property → Machine → Outcome (Located Fault) Value → Machine → Prop
  | behind {before after : List Property} {key : String} {expr : Expr} {span : Span}
      {pairs : List (String × Value)} {outcome : Outcome (Located Fault) Value}
      {m between last : Machine}
      (front : Evaluates caller scope before m pairs between)
      (stop : evalExpr caller scope expr between = (outcome, last))
      (valueless : ∀ value, outcome ≠ .value value) :
      Stops caller scope (before ++ .mk key expr span :: after) m outcome last

variable {caller : Caller} {scope : ScopeId} {properties : List Property} {m last : Machine}
  {pairs : List (String × Value)}

theorem Stops.at_first {key : String} {expr : Expr} {span : Span} {rest : List Property}
    {outcome : Outcome (Located Fault) Value}
    (stop : evalExpr caller scope expr m = (outcome, last))
    (valueless : ∀ value, outcome ≠ .value value) :
    Stops caller scope (.mk key expr span :: rest) m outcome last := by
  rw [← List.nil_append (_ :: rest)]
  exact .behind .none stop valueless

theorem Stops.valueless {outcome : Outcome (Located Fault) Value}
    (stops : Stops caller scope properties m outcome last) : ∀ value, outcome ≠ .value value := by
  cases stops with
  | behind front stop valueless => exact valueless

theorem evaluates_or_stops (caller : Caller) (scope : ScopeId) (properties : List Property)
    (m : Machine) :
    (∃ pairs last, Evaluates caller scope properties m pairs last) ∨
      ∃ outcome last, Stops caller scope properties m outcome last := by
  induction properties generalizing m with
  | nil => exact .inl ⟨[], m, .none⟩
  | cons property rest ih =>
    obtain ⟨key, expr, span⟩ := property
    cases result : evalExpr caller scope expr m with | mk outcome between
    cases outcome with
    | value value =>
      rcases ih between with ⟨pairs, last, all⟩ | ⟨outcome, last, stops⟩
      · exact .inl ⟨_, last, .next result all⟩
      · cases stops with
        | behind front stop valueless =>
          exact .inr ⟨outcome, last, .behind (.next result front) stop valueless⟩
    | failure fault => exact .inr ⟨_, between, .at_first result (by simp)⟩
    | unfinished => exact .inr ⟨_, between, .at_first result (by simp)⟩

theorem Evaluates.keys (all : Evaluates caller scope properties m pairs last) :
    pairs.map (·.1) = properties.map (·.key) := by
  induction all with
  | none => rfl
  | next first others ih => rw [List.map_cons, List.map_cons, ih]; rfl

theorem evalProperties_of_evaluates (all : Evaluates caller scope properties m pairs last)
    (entries : Entries) :
    evalProperties caller scope entries properties m =
      (.value (pairs.foldl (fun entries pair => entries.insert pair.1 pair.2) entries), last) := by
  induction all generalizing entries with
  | none => rfl
  | next first others ih =>
    rw [evalProperties, Run.bind_apply, first]
    exact ih _

theorem evalProperties_append (entries : Entries) (before after : List Property) :
    evalProperties caller scope entries (before ++ after) =
      evalProperties caller scope entries before >>= fun entries =>
        evalProperties caller scope entries after := by
  induction before generalizing entries with
  | nil => rfl
  | cons property before ih =>
    obtain ⟨key, expr, span⟩ := property
    rw [List.cons_append, evalProperties, evalProperties, bind_assoc]
    exact congrArg _ (funext fun value => ih _)

theorem evalObject_of_evaluates (all : Evaluates caller scope properties m pairs last)
    (span : Span) :
    evalExpr caller scope (.object properties span) m =
      (.value (.object last.nextIdentity (ofPairs pairs)),
        { last with nextIdentity := last.nextIdentity + 1 }) := by
  rw [evalExpr, Run.bind_apply, evalProperties_of_evaluates all]
  rfl

theorem evalObject_of_stops {outcome : Outcome (Located Fault) Value}
    (stops : Stops caller scope properties m outcome last) (span : Span) :
    evalExpr caller scope (.object properties span) m = (outcome, last) := by
  cases stops with
  | behind front stop valueless =>
    rw [evalExpr, Run.bind_apply, evalProperties_append, Run.bind_apply,
      evalProperties_of_evaluates front]
    dsimp only
    rw [evalProperties, Run.bind_apply, stop]
    cases outcome with
    | value value => exact absurd rfl (valueless value)
    | failure fault => rfl
    | unfinished => rfl

/-- What can be seen of an object that was made of some pairs. A member is the value of the last
pair with its key, and it is missing just if no pair has that key. The printed text lists the
entries, with quotes around texts. -/
structure Presents (pairs : List (String × Value)) (entries : Entries) : Prop where
  member {caller : Caller} {scope : ScopeId} {object : Expr} {id : Identity} {m next : Machine}
      (found : evalExpr caller scope object m = (.value (.object id entries), next))
      (key : String) (span : Span) :
    (∀ value, LastOf pairs key value →
      evalExpr caller scope (.member object key span) m = (.value value, next)) ∧
    (Setup.conclude (evalExpr caller scope (.member object key span)) m =
        (.failure ⟨.runtime, span, "Member not found: " ++ key, none⟩, next) ↔
      key ∉ pairs.map (·.1))
  text (id : Identity) : (Value.object id entries).render =
    if pairs.isEmpty then "\x7b\x7d"
    else "\x7b " ++ ", ".intercalate (entries.map fun entry =>
      entry.1 ++ ": " ++ entry.2.nestedText entry.2.render) ++ " \x7d"

theorem evalMember_of_object {object : Expr} {id : Identity} {entries : Entries} {next : Machine}
    (found : evalExpr caller scope object m = (.value (.object id entries), next)) (key : String)
    (span : Span) : evalExpr caller scope (.member object key span) m =
      memberOf object key span (.object id entries) next := by
  rw [evalExpr, Run.bind_apply, found]

theorem presents_ofPairs (pairs : List (String × Value)) : Presents pairs (ofPairs pairs) where
  member {_ _ object id _ next} found key span := by
    simp only [Setup.conclude, evalMember_of_object found, memberOf]
    constructor
    · intro value last
      rw [Entries.get?_ofPairs_eq_some_iff.mpr last]
      rfl
    · rw [← Entries.get?_ofPairs_eq_none_iff]
      cases Entries.get? key (ofPairs pairs) with
      | none => exact ⟨fun _ => rfl, fun _ => rfl⟩
      | some value => simp [Outcome.mapError]
  text id := by
    rw [Value.render_object, Entries.isEmpty_ofPairs, Value.renderEntries_eq_map]

/-- **First places and last values.** An object literal evaluates its properties one after the
other, each of them once, up to the first one that has no value. If all have one, the object is new,
and its keys are those of the properties in the order in which they first occur, each with the value
of the last property of that name. Members and printed text show exactly that. -/
theorem object_literal_collects (caller : Caller) (scope : ScopeId) (properties : List Property)
    (span : Span) (m : Machine) :
    (∃ pairs last entries, Evaluates caller scope properties m pairs last ∧
      evalExpr caller scope (.object properties span) m =
        (.value (.object last.nextIdentity entries),
          { last with nextIdentity := last.nextIdentity + 1 }) ∧
      pairs.map (·.1) = properties.map (·.key) ∧ Collects pairs entries ∧ Presents pairs entries) ∨
    ∃ outcome last, Stops caller scope properties m outcome last ∧
      evalExpr caller scope (.object properties span) m = (outcome, last) := by
  rcases evaluates_or_stops caller scope properties m with
    ⟨pairs, last, all⟩ | ⟨outcome, last, stops⟩
  · exact .inl ⟨pairs, last, ofPairs pairs, all, evalObject_of_evaluates all span, all.keys,
      Entries.collects_ofPairs pairs, presents_ofPairs pairs⟩
  · exact .inr ⟨outcome, last, stops, evalObject_of_stops stops span⟩

/-- A literal that names a key twice and prints for the value that is overwritten. -/
theorem object_literal_collects_overwritten :
    let m := Machine.initial.newGlobalScope.2
    let print : Expr := .call (.name "print" ⟨5, 10⟩) [.text "x" ⟨11, 14⟩] ⟨5, 15⟩
    let literal : Expr := .object
      [.mk "a" print ⟨2, 15⟩, .mk "b" (.text "2" ⟨20, 23⟩) ⟨17, 23⟩,
        .mk "a" (.text "3" ⟨28, 31⟩) ⟨25, 31⟩] ⟨0, 33⟩
    let run := evalExpr (invoke .standard 1) 0
    (run literal m).2.sink.written = "x\n" ∧
      (run (.member literal "a" ⟨0, 35⟩) m).1 = .value (.text "3") ∧
      (Setup.conclude (run (.member literal "c" ⟨0, 35⟩)) m).1 =
        .failure ⟨.runtime, ⟨0, 35⟩, "Member not found: c", none⟩ ∧
      ∃ object, (run literal m).1 = .value object ∧ object.render = "\x7b a: '3', b: '2' \x7d" := by
  intro m print literal run
  have value : (run literal m).1 = .value (.object 1 [("a", .text "3"), ("b", .text "2")]) := rfl
  rcases object_literal_collects (invoke .standard 1) 0 _ ⟨0, 33⟩ m with
    ⟨pairs, last, entries, all, made, keys, collects, presents⟩ | ⟨outcome, last, stops, stopped⟩
  · have same := value.symm.trans (congrArg Prod.fst made)
    injection same with same
    injection same with identity same
    subst same
    have last_a : LastOf pairs "a" (.text "3") := (collects.values _ _).mp (by simp)
    have no_c : "c" ∉ pairs.map (·.1) := by
      rw [keys]
      decide
    have member := presents.member made
    refine ⟨by decide +kernel, ?_, ?_, _, value, ?_⟩
    · exact congrArg Prod.fst ((member "a" ⟨0, 35⟩).1 _ last_a)
    · exact congrArg Prod.fst ((member "c" ⟨0, 35⟩).2.mpr no_c)
    · decide +kernel
  · exact absurd (value.symm.trans (congrArg Prod.fst stopped)).symm (stops.valueless _)

end Eval

end Scriptlet
