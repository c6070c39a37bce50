import Scriptlet.Interpreter
import Scriptlet.Proofs.Eval.Compositional
import Scriptlet.Proofs.Eval.Diagnosis

/-!
# Output is fail-stop

Where output has limited room, a run goes on as if there were no limit, up to the first text that
does not fit whole. The call of `print` that should have written it fails, and its failure is that
of the whole run, which leaves the machine as that call left it (`output_failStop`).
-/
namespace Scriptlet

namespace Sink

variable {written : String} {room : Nat}

theorem writeAll_unlimited (pieces : List String) :
    (⟨written, none⟩ : Sink).writeAll pieces = (true, ⟨written ++ String.join pieces, none⟩) := by
  induction pieces generalizing written with
  | nil => simp [writeAll]
  | cons piece rest ih =>
    have fits : (⟨written, none⟩ : Sink).fits piece := rfl
    simp [writeAll, fits, append, ih, String.append_assoc]

theorem written_writeAll (sink : Sink) (pieces : List String) :
    sink.written.toList <+: (sink.writeAll pieces).2.written.toList := by
  induction pieces generalizing sink with
  | nil => exact List.prefix_rfl
  | cons piece rest ih =>
    simp only [writeAll]
    split
    · have begun : sink.written.toList <+: (sink.append piece).written.toList := by
        simp [append]
      exact begun.trans (ih _)
    · exact List.prefix_rfl

/-- With limited room the same is written, or the beginning of it. -/
theorem writeAll_limited (pieces : List String) :
    (∃ left, (⟨written, some room⟩ : Sink).writeAll pieces =
        (true, ⟨written ++ String.join pieces, some left⟩)) ∨
      ∃ cut left, (⟨written, some room⟩ : Sink).writeAll pieces = (false, ⟨cut, some left⟩) ∧
        cut.toList <+: (written ++ String.join pieces).toList := by
  induction pieces generalizing written room with
  | nil => exact .inl ⟨room, by simp [writeAll]⟩
  | cons piece rest ih =>
    simp only [writeAll]
    split
    · have later := @ih (written ++ piece) (room - piece.utf8ByteSize)
      simpa [append, String.append_assoc] using later
    · exact .inr ⟨written, room, rfl, by simp⟩

end Sink

namespace Machine

/-- The same machine with other room for output. -/
def withRoom (machine : Machine) (room : Option Nat) : Machine :=
  { machine with sink := { machine.sink with room } }

end Machine

namespace Eval

/-- What to make of the failure of a call: the name of the function, the arguments, the scope and
the machine of the call, and how it failed. -/
abbrev Handler := String → List Value → ScopeId → Machine → Fault × Machine → Fault × Machine

/-- Leaves failures as they are. -/
def Handler.none : Handler := fun _ _ _ _ failure => failure

/-- The same native functions, but a handler deals with their failures. -/
def Host.handled (handler : Handler) (host : Host) : Host := fun name =>
  (host name).map fun native args site machine =>
    match native args site machine with
    | (.ok value, next) => (.ok value, next)
    | (.error cause, next) =>
      let (cause, next) := handler name args site machine (cause, next)
      (.error cause, next)

theorem Host.handled_none (host : Host) : host.handled .none = host := by
  funext name
  unfold handled
  cases host name with
  | none => rfl
  | some native =>
    refine congrArg some ?_
    funext args site machine
    dsimp only
    split
    · next returned => exact returned.symm
    · next raised => exact raised.symm

namespace Run

variable {α β : Type} {host : Host} {run : Handler → Run α}

/-- How a run goes whose output has limited room: as without a limit, and then handlers do not
matter, or up to a call of `print` that fails, and then the handler of it has the last word. -/
inductive Follows (host : Host) (run : Handler → Run α) (machine : Machine) (room : Nat) : Prop
  | alike {outcome : Outcome (Located Fault) α} {next : Machine} {left : Nat}
      (unlimited : run .none (machine.withRoom none) = (outcome, next.withRoom none))
      (limited : ∀ handler,
        run handler (machine.withRoom (some room)) = (outcome, next.withRoom (some left)))
      (own : ∀ e, outcome = .failure e → e.cause.IsOwn)
  | stopped {name : String} {args : List Value} {site : ScopeId} {before cut : Machine}
      {reason : String} (span : Span) (known : host name = some Native.print)
      (failed : Native.print args site before = (.error (.outputFailed reason), cut))
      (limited : ∀ handler, run handler (machine.withRoom (some room)) =
        let (cause, next) := handler name args site before (.outputFailed reason, cut)
        (.failure ⟨cause, span⟩, next))
      (begun : cut.sink.written.toList <+:
        (run .none (machine.withRoom none)).2.sink.written.toList)

/-- Text is only added to what was written, and limited room has no other effect than to stop the
run. -/
structure FailStop (host : Host) (run : Handler → Run α) : Prop where
  grows : ∀ machine,
    machine.sink.written.toList <+: (run .none machine).2.sink.written.toList
  follows : ∀ machine room, Follows host run machine room

theorem bind_of_value {first : Run α} {second : α → Run β} {machine next : Machine} {a : α}
    (ran : first machine = (.value a, next)) : (first >>= second) machine = second a next := by
  rw [bind_apply, ran]

theorem bind_of_failure {first : Run α} {second : α → Run β} {machine next : Machine}
    {e : Located Fault} (ran : first machine = (.failure e, next)) :
    (first >>= second) machine = (.failure e, next) := by
  rw [bind_apply, ran]

theorem bind_of_unfinished {first : Run α} {second : α → Run β} {machine next : Machine}
    (ran : first machine = (.unfinished, next)) :
    (first >>= second) machine = (.unfinished, next) := by
  rw [bind_apply, ran]

/-- What the first part has written is still there when the second one has ended. -/
theorem written_bind {first : Run α} {second : α → Run β}
    (grows : ∀ a next, next.sink.written.toList <+: (second a next).2.sink.written.toList)
    (machine : Machine) : (first machine).2.sink.written.toList <+:
      ((first >>= second) machine).2.sink.written.toList := by
  cases ran : first machine with
  | mk outcome next =>
    cases outcome with
    | value a =>
      rw [bind_of_value ran]
      exact grows a next
    | failure e =>
      simp only [bind_of_failure ran, List.prefix_rfl]
    | unfinished =>
      simp only [bind_of_unfinished ran, List.prefix_rfl]

theorem FailStop.bind {second : Handler → α → Run β} (h : FailStop host run)
    (then_ : ∀ a, FailStop host fun handler => second handler a) :
    FailStop host fun handler => run handler >>= second handler where
  grows machine := (h.grows machine).trans (written_bind (fun a => (then_ a).grows) machine)
  follows machine room := by
    cases h.follows machine room with
    | @alike outcome next left unlimited limited own =>
      cases outcome with
      | value a =>
        cases (then_ a).follows next left with
        | @alike outcome' next' left' unlimited' limited' own' =>
          have ends : ∀ handler, (run handler >>= second handler) (machine.withRoom (some room)) =
              (outcome', next'.withRoom (some left')) :=
            fun handler => (bind_of_value (limited handler)).trans (limited' handler)
          exact .alike ((bind_of_value unlimited).trans unlimited') ends own'
        | stopped span known failed limited' begun =>
          refine .stopped span known failed ?_ ?_
          · intro handler
            exact (bind_of_value (limited handler)).trans (limited' handler)
          · rw [bind_of_value unlimited]
            exact begun
      | failure e =>
        refine .alike (bind_of_failure unlimited) (fun handler => bind_of_failure (limited handler)) ?_
        rintro _ ⟨⟩
        exact own e rfl
      | unfinished =>
        exact .alike (bind_of_unfinished unlimited)
          (fun handler => bind_of_unfinished (limited handler)) nofun
    | stopped span known failed limited begun =>
      -- Without a limit the run goes on, and adds to what the first part has written.
      exact .stopped span known failed (fun handler => bind_of_failure (limited handler))
        (begun.trans (written_bind (fun a => (then_ a).grows) _))

/-- A computation that has nothing to do with output. -/
structure Silent (run : Run α) : Prop where
  same : ∀ machine room,
    run (machine.withRoom room) = ((run machine).1, (run machine).2.withRoom room)
  written : ∀ machine, (run machine).2.sink = machine.sink
  own : ∀ machine e, (run machine).1 = .failure e → e.cause.IsOwn

theorem Silent.failStop {quiet : Run α} (silent : Silent quiet) : FailStop host fun _ => quiet where
  grows machine := by
    simp only [silent.written, List.prefix_rfl]
  follows machine room :=
    .alike (silent.same machine none) (fun _ => silent.same machine (some room)) (silent.own machine)

theorem silent_pure (a : α) : Silent (pure a : Run α) := ⟨fun _ _ => rfl, fun _ => rfl, nofun⟩

theorem silent_fail {cause : Fault} (span : Span) (own : cause.IsOwn) :
    Silent (fail cause span : Run α) := by
  refine ⟨fun _ _ => rfl, fun _ => rfl, ?_⟩
  rintro _ _ ⟨⟩
  exact own

theorem silent_unfinished : Silent (unfinished : Run α) := ⟨fun _ _ => rfl, fun _ => rfl, nofun⟩

theorem silent_newScope (parent : ScopeId) : Silent (newScope parent) :=
  ⟨fun _ _ => rfl, fun _ => rfl, nofun⟩

theorem silent_newIdentity : Silent newIdentity := ⟨fun _ _ => rfl, fun _ => rfl, nofun⟩

theorem silent_get (scope : ScopeId) (name : String) (span : Span) : Silent (get scope name span) := by
  refine ⟨fun machine room => ?_, fun machine => ?_, fun machine e failed => ?_⟩
  all_goals simp only [get, Machine.withRoom] at *
  · cases machine.store.get scope name <;> rfl
  · cases machine.store.get scope name <;> rfl
  · split at failed
    · cases failed
    · cases failed
      trivial

theorem silent_updateStore (span : Span) (fault? : Store → Option ScopeFault)
    (change : Store → Store) : Silent (updateStore span fault? change) := by
  refine ⟨fun machine room => ?_, fun machine => ?_, fun machine e failed => ?_⟩
  all_goals simp only [updateStore, Machine.withRoom] at *
  · cases fault? machine.store <;> rfl
  · cases fault? machine.store <;> rfl
  · split at failed
    · cases failed
      trivial
    · cases failed

theorem failStop_compositional (host : Host) : Compositional fun α => FailStop (α := α) host where
  pure a := (silent_pure a).failStop
  fail span own := (silent_fail span own).failStop
  unfinished := silent_unfinished.failStop
  newScope parent := (silent_newScope parent).failStop
  newIdentity := silent_newIdentity.failStop
  get scope name span := (silent_get scope name span).failStop
  declare _ _ _ _ span := (silent_updateStore span _ _).failStop
  assign _ _ _ span := (silent_updateStore span _ _).failStop
  bind := FailStop.bind

end Run

namespace Native

/-- The pieces that `print` writes. -/
def pieces (args : List Value) : List String :=
  [" ".intercalate (args.map Value.render), "\n"]

variable (args : List Value) (site : ScopeId) (machine : Machine)

theorem print_of_writeAll {sink later : Sink} {complete : Bool}
    (wrote : sink.writeAll (pieces args) = (complete, later)) :
    print args site { machine with sink } =
      (if complete then .ok .null else .error (.outputFailed "sink full"),
        { machine with sink := later }) := by
  unfold pieces at wrote
  simp only [print, wrote]

theorem written_print :
    machine.sink.written.toList <+: (print args site machine).2.sink.written.toList := by
  cases wrote : machine.sink.writeAll (pieces args) with
  | mk complete later =>
    have grows := machine.sink.written_writeAll (pieces args)
    rw [wrote] at grows
    rw [print_of_writeAll args site machine wrote]
    exact grows

/-- The machine after everything was written. -/
def printed : Machine := machine.say (String.join (pieces args))

theorem print_unlimited : print args site (machine.withRoom none) =
    (.ok .null, (printed args machine).withRoom none) :=
  print_of_writeAll args site machine (Sink.writeAll_unlimited (pieces args))

/-- With limited room everything is written, or the call fails with the beginning of it written. -/
theorem print_limited (room : Nat) :
    (∃ left, print args site (machine.withRoom (some room)) =
        (.ok .null, (printed args machine).withRoom (some left))) ∨
      ∃ reason cut, print args site (machine.withRoom (some room)) =
          (.error (.outputFailed reason), cut) ∧
        cut.sink.written.toList <+: (printed args machine).sink.written.toList := by
  rcases @Sink.writeAll_limited machine.sink.written room (pieces args) with
    ⟨left, wrote⟩ | ⟨cut, left, wrote, begun⟩
  · exact .inl ⟨left, print_of_writeAll args site machine wrote⟩
  · exact .inr ⟨_, _, print_of_writeAll args site machine wrote, begun⟩

end Native

section

variable {host : Host} {name : String} {native : Native}

/-- A handler has to do with calls that fail only. -/
theorem callNative_handled (known : host name = some native) (handler : Handler)
    (args : List Value) (site : ScopeId) (span : Span) (machine : Machine) :
    callNative (host.handled handler) name args site span machine =
      match native args site machine with
      | (.ok value, next) => (.value value, next)
      | (.error cause, next) =>
        let (cause, next) := handler name args site machine (cause, next)
        (.failure ⟨cause, span⟩, next) := by
  simp only [callNative, Host.handled, known, Option.map_some]
  cases native args site machine with
  | mk answer next => cases answer <;> rfl

open Run

theorem callNative_failStop (prints : host.OnlyPrints) (name : String) (args : List Value)
    (site : ScopeId) (span : Span) :
    FailStop host fun handler => callNative (host.handled handler) name args site span := by
  cases known : host name with
  | none =>
    have unknown : ∀ handler, callNative (host.handled handler) name args site span =
        fail (.notCallable "native function") span := by
      intro handler
      funext machine
      simp only [callNative, Host.handled, known, Option.map_none]
      rfl
    have own : (Fault.notCallable "native function").IsOwn := trivial
    simp only [unknown]
    exact (silent_fail span own).failStop
  | some native =>
    obtain rfl := prints name native known
    refine ⟨fun machine => ?_, fun machine room => ?_⟩
    · have grows := Native.written_print args site machine
      rw [callNative_handled known]
      cases called : Native.print args site machine with
      | mk answer next =>
        rw [called] at grows
        cases answer <;> exact grows
    · have unlimited : callNative (host.handled .none) name args site span (machine.withRoom none) =
          (.value .null, (Native.printed args machine).withRoom none) := by
        rw [callNative_handled known, Native.print_unlimited]
      rcases Native.print_limited args site machine room with
        ⟨left, printed⟩ | ⟨reason, cut, failed, begun⟩
      · have limited : ∀ handler, callNative (host.handled handler) name args site span
            (machine.withRoom (some room)) =
              (.value .null, (Native.printed args machine).withRoom (some left)) := by
          intro handler
          rw [callNative_handled known, printed]
        exact .alike unlimited limited fun _ failed => by cases failed
      · refine .stopped span known failed ?_ ?_
        · intro handler
          rw [callNative_handled known, failed]
        · rw [unlimited]
          exact begun

end

end Eval

namespace Node

theorem head?_append (front back : String) (filled : front.toList.head?.isSome) :
    (front ++ back).toList.head? = front.toList.head? := by
  rw [String.toList_append, List.head?_append, Option.or_of_isSome filled]

/-- The message of a fault that a node explains begins with a capital letter. -/
theorem Explains.head? {functions : Closure → Prop} {node : Node} {span : Span} {message : String}
    (explains : node.Explains functions span message) :
    message.toList.head? ∈ [some 'U', some 'C', some 'M', some 'I'] := by
  cases explains with
  | undefinedName | undefinedTarget =>
    rw [head?_append "Undefined variable: " _ rfl]
    decide
  | constant =>
    rw [head?_append "Cannot reassign a constant variable: " _ rfl]
    decide
  | redeclared | redeclaredFunction | repeatedParameter _ _ =>
    rw [head?_append "Cannot redeclare block scoped variable " _ rfl]
    decide
  | divisionByZero _ => decide
  | memberNotFound =>
    rw [head?_append "Member not found: " _ rfl]
    decide
  | memberOfNonObject _ =>
    rw [head?_append "Cannot access member of non-object: " _ rfl]
    decide
  | invalidTarget _ =>
    rw [String.append_assoc, head?_append "Invalid assignment target '" _ rfl]
    decide
  | notCallable _ =>
    rw [head?_append "Cannot call a value that is not a function: " _ rfl]
    decide

theorem not_explains_outputFailed {functions : Closure → Prop} {node : Node} {span : Span}
    {reason : String} :
    ¬node.Explains functions span (Eval.Fault.outputFailed reason).message := by
  intro explains
  have words : (Eval.Fault.outputFailed reason).message =
      "print failed to write output: " ++ reason := rfl
  have capital := explains.head?
  rw [words, head?_append "print failed to write output: " _ rfl] at capital
  revert capital
  decide

end Node

namespace Setup

open Eval

/-- A failure of output is that of a call in the program, or in the body of a function that could
be reached from its scope. -/
theorem outputFailed_offered {setup : Setup} (prints : setup.host.OnlyPrints) {env : ScopeId}
    {program : Program} {machine : Machine} {reason : String} {span : Span}
    (failed : (Eval.evalProgram setup.host setup.depth env program machine).1 =
      .failure ⟨.outputFailed reason, span⟩) :
    ∃ callee args, program.Offers machine env (.expr (.call callee args span)) := by
  rcases failure_allowed prints.bringsNoCode (fun _ => True) (fun _ _ => trivial) failed with
    ⟨-, call⟩ | ⟨node, -, explains⟩
  · exact call
  · exact absurd explains Node.not_explains_outputFailed

/-- **Output is fail-stop.** Nothing is written with limited room that is not written without a
limit. If a run with limited room does not end with a failure of output, it ends as without a limit,
and but for the room on the same machine. If it does, that is the failure of a call of `print`, with
the span of a call in the code at hand: the run ends on the machine that this call left, and
whatever the call had failed with instead, and on whatever machine, the run would have ended so. -/
theorem output_failStop (setup : Setup) (prints : setup.host.OnlyPrints) (env : ScopeId)
    (program : Program) (machine : Machine) (room : Nat) :
    let run host := Eval.evalProgram host setup.depth env program
    let unlimited := run setup.host (machine.withRoom none)
    let limited := run setup.host (machine.withRoom (some room))
    limited.2.sink.written.toList <+: unlimited.2.sink.written.toList ∧
    ((∀ e reason, limited.1 = .failure e → e.cause ≠ .outputFailed reason) →
      limited.1 = unlimited.1 ∧ limited.2.withRoom none = unlimited.2) ∧
    ∀ e reason, limited.1 = .failure e → e.cause = .outputFailed reason →
      (∃ callee args, program.Offers machine env (.expr (.call callee args e.span))) ∧
      ∃ name args site before, setup.host name = some Native.print ∧
        Native.print args site before = (.error e.cause, limited.2) ∧
        ∀ handler : Handler, run (setup.host.handled handler) (machine.withRoom (some room)) =
          let (cause, next) := handler name args site before (e.cause, limited.2)
          (.failure ⟨cause, e.span⟩, next) := by
  intro run unlimited limited
  have follows := ((Run.failStop_compositional setup.host).evalProgram (callNative_failStop prints)
    setup.depth env program).follows machine room
  cases follows with
  | @alike outcome next left without within own =>
    rw [Host.handled_none] at without
    have ended : limited = (outcome, next.withRoom (some left)) := by
      have same := within .none
      rwa [Host.handled_none] at same
    have free : unlimited = (outcome, next.withRoom none) := without
    rw [ended, free]
    refine ⟨List.prefix_rfl, fun _ => ⟨rfl, rfl⟩, ?_⟩
    intro e reason failed cause
    have evaluated := own e failed
    rw [cause] at evaluated
    exact evaluated.elim
  | @stopped name args site before cut reason span known failed within begun =>
    rw [Host.handled_none] at begun
    have ended : limited = (.failure ⟨.outputFailed reason, span⟩, cut) := by
      have same := within .none
      rwa [Host.handled_none] at same
    refine ⟨?_, ?_, ?_⟩
    · rw [ended]
      exact begun
    · intro other
      rw [ended] at other
      exact absurd rfl (other _ reason rfl)
    · intro e reason' failure cause
      rw [ended] at failure ⊢
      cases failure
      have offered := outputFailed_offered prints (congrArg Prod.fst ended)
      exact ⟨offered, name, args, site, before, known,
        failed, within⟩

/-- Room for a text, but not for the end of the line. The second call is not made: the first one
decides how the run ends. -/
theorem output_failStop_newline :
    Setup.standard.host.OnlyPrints ∧
      let program : Program :=
        [.expr (.call (.name "print" ⟨0, 5⟩) [.text "tern" ⟨6, 12⟩] ⟨0, 13⟩) ⟨0, 13⟩,
          .expr (.call (.name "print" ⟨14, 19⟩) [] ⟨14, 21⟩) ⟨14, 21⟩]
      let machine := Machine.initial.newGlobalScope.2
      let run host := Eval.evalProgram host Setup.standard.depth 0 program
      let limited := run .standard (machine.withRoom (some 4))
      limited.1 = .failure ⟨.outputFailed "sink full", ⟨0, 13⟩⟩ ∧
        limited.2.sink.written = "tern" ∧
        (run .standard (machine.withRoom none)).2.sink.written = "tern\n\n" ∧
        ∃ name args site before, ∀ handler : Handler,
          run (Host.standard.handled handler) (machine.withRoom (some 4)) =
            let (cause, next) :=
              handler name args site before (.outputFailed "sink full", limited.2)
            (.failure ⟨cause, ⟨0, 13⟩⟩, next) := by
  refine ⟨Host.onlyPrints_standard, ?_⟩
  intro program machine run limited
  have failed : limited.1 = .failure ⟨.outputFailed "sink full", ⟨0, 13⟩⟩ := rfl
  have law := output_failStop Setup.standard Host.onlyPrints_standard 0 program machine 4
  obtain ⟨-, name, args, site, before, -, -, decides⟩ := law.2.2 _ _ failed rfl
  exact ⟨failed, by decide +kernel, by decide +kernel, name, args, site, before, decides⟩

end Setup

end Scriptlet
