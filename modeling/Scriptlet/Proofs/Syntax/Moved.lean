import Mathlib.Data.List.Forall2
import Scriptlet.Proofs.Syntax.Shape
import Scriptlet.Syntax.Printer

/-!
# Trees in other places

Two trees are `Moved` when they are the same but for their spans, and the spans at each place are
related: by `S` those of statements and expressions, by `T` those of the entries of object literals.
The relations are free. With equality the trees are the same (`Moved.eq`), and with any relation
they have one shape and one text. A tree is related to itself just as far as its spans are
(`moved_self`), so that a relation of equal spans is a property of all spans of a tree.
-/
namespace Scriptlet

mutual

inductive Expr.Moved (S T : Span → Span → Prop) : Expr → Expr → Prop
  | assign {target target' value value' s t} (of_target : Expr.Moved S T target target')
      (of_value : Expr.Moved S T value value') (place : S s t) :
      Expr.Moved S T (.assign target value s) (.assign target' value' t)
  | object {ps qs s t} (of_properties : MovedProperties S T ps qs) (place : S s t) :
      Expr.Moved S T (.object ps s) (.object qs t)
  | binary {op left left' right right' s t} (of_left : Expr.Moved S T left left')
      (of_right : Expr.Moved S T right right') (place : S s t) :
      Expr.Moved S T (.binary op left right s) (.binary op left' right' t)
  | not {operand operand' s t} (of_operand : Expr.Moved S T operand operand') (place : S s t) :
      Expr.Moved S T (.not operand s) (.not operand' t)
  | call {callee callee' args args' s t} (of_callee : Expr.Moved S T callee callee')
      (of_args : MovedArgs S T args args') (place : S s t) :
      Expr.Moved S T (.call callee args s) (.call callee' args' t)
  | member {object object' property s t} (of_object : Expr.Moved S T object object')
      (place : S s t) : Expr.Moved S T (.member object property s) (.member object' property t)
  | name {name s t} (place : S s t) : Expr.Moved S T (.name name s) (.name name t)
  | number {value s t} (place : S s t) : Expr.Moved S T (.number value s) (.number value t)
  | text {value s t} (place : S s t) : Expr.Moved S T (.text value s) (.text value t)

inductive Property.Moved (S T : Span → Span → Prop) : Property → Property → Prop
  | mk {key value value' s t} (of_value : Expr.Moved S T value value') (place : T s t) :
      Property.Moved S T (.mk key value s) (.mk key value' t)

inductive MovedArgs (S T : Span → Span → Prop) : List Expr → List Expr → Prop
  | nil : MovedArgs S T [] []
  | cons {e f es fs} (first : Expr.Moved S T e f) (rest : MovedArgs S T es fs) :
      MovedArgs S T (e :: es) (f :: fs)

inductive MovedProperties (S T : Span → Span → Prop) : List Property → List Property → Prop
  | nil : MovedProperties S T [] []
  | cons {p q ps qs} (first : Property.Moved S T p q) (rest : MovedProperties S T ps qs) :
      MovedProperties S T (p :: ps) (q :: qs)

end

mutual

inductive Stmt.Moved (S T : Span → Span → Prop) : Stmt → Stmt → Prop
  | declare {name constant value value' s t}
      (of_value : Option.Rel (Expr.Moved S T) value value') (place : S s t) :
      Stmt.Moved S T (.declare name constant value s) (.declare name constant value' t)
  | function {name params body body' s t} (of_body : MovedStmts S T body body') (place : S s t) :
      Stmt.Moved S T (.function name params body s) (.function name params body' t)
  | branch {guard guard' body body' others others' s t} (of_guard : Expr.Moved S T guard guard')
      (of_body : MovedStmts S T body body') (of_others : MovedAlternatives S T others others')
      (place : S s t) :
      Stmt.Moved S T (.branch guard body others none s) (.branch guard' body' others' none t)
  | branchElse {guard guard' body body' others others' last last' s t}
      (of_guard : Expr.Moved S T guard guard') (of_body : MovedStmts S T body body')
      (of_others : MovedAlternatives S T others others') (of_last : MovedStmts S T last last')
      (place : S s t) :
      Stmt.Moved S T (.branch guard body others (some last) s)
        (.branch guard' body' others' (some last') t)
  | expr {value value' s t} (of_value : Expr.Moved S T value value') (place : S s t) :
      Stmt.Moved S T (.expr value s) (.expr value' t)

inductive Alternative.Moved (S T : Span → Span → Prop) : Alternative → Alternative → Prop
  | mk {guard guard' body body'} (of_guard : Expr.Moved S T guard guard')
      (of_body : MovedStmts S T body body') :
      Alternative.Moved S T (.mk guard body) (.mk guard' body')

inductive MovedStmts (S T : Span → Span → Prop) : List Stmt → List Stmt → Prop
  | nil : MovedStmts S T [] []
  | cons {a b as bs} (first : Stmt.Moved S T a b) (rest : MovedStmts S T as bs) :
      MovedStmts S T (a :: as) (b :: bs)

inductive MovedAlternatives (S T : Span → Span → Prop) :
    List Alternative → List Alternative → Prop
  | nil : MovedAlternatives S T [] []
  | cons {a b as bs} (first : Alternative.Moved S T a b) (rest : MovedAlternatives S T as bs) :
      MovedAlternatives S T (a :: as) (b :: bs)

end

/-- The same program in another place. -/
abbrev Program.Moved (S T : Span → Span → Prop) (program other : Program) : Prop :=
  MovedStmts S T program other

variable {S T : Span → Span → Prop}

theorem Expr.Moved.span {e f : Expr} (h : e.Moved S T f) : S e.span f.span := by
  cases h with
  | assign _ _ place | binary _ _ place | call _ _ place => exact place
  | object _ place | not _ place | member _ place => exact place
  | name place | number place | text place => exact place

theorem MovedArgs.of_forall₂ {es fs : List Expr} (h : List.Forall₂ (Expr.Moved S T) es fs) :
    MovedArgs S T es fs := by
  induction h with
  | nil => exact .nil
  | cons first _ ih => exact .cons first ih

theorem MovedProperties.of_forall₂ {ps qs : List Property}
    (h : List.Forall₂ (Property.Moved S T) ps qs) : MovedProperties S T ps qs := by
  induction h with
  | nil => exact .nil
  | cons first _ ih => exact .cons first ih

theorem MovedStmts.of_forall₂ {as bs : List Stmt} (h : List.Forall₂ (Stmt.Moved S T) as bs) :
    MovedStmts S T as bs := by
  induction h with
  | nil => exact .nil
  | cons first _ ih => exact .cons first ih

/-! Moved trees have one shape. -/

mutual

theorem Expr.Moved.shape_eq : ∀ {e f : Expr}, e.Moved S T f → e.shape = f.shape
  | _, _, .assign target value _ => by
    rw [Expr.shape, Expr.shape, target.shape_eq, value.shape_eq]
  | _, _, .object properties _ => by rw [Expr.shape, Expr.shape, properties.shapes_eq]
  | _, _, .binary left right _ => by
    rw [Expr.shape, Expr.shape, left.shape_eq, right.shape_eq]
  | _, _, .not operand _ => by rw [Expr.shape, Expr.shape, operand.shape_eq]
  | _, _, .call callee args _ => by
    rw [Expr.shape, Expr.shape, callee.shape_eq, args.shapes_eq]
  | _, _, .member object _ => by rw [Expr.shape, Expr.shape, object.shape_eq]
  | _, _, .name _ | _, _, .number _ | _, _, .text _ => rfl

theorem Property.Moved.shape_eq : ∀ {p q : Property}, p.Moved S T q → p.shape = q.shape
  | _, _, .mk value _ => by rw [Property.shape, Property.shape, value.shape_eq]

theorem MovedArgs.shapes_eq : ∀ {es fs : List Expr}, MovedArgs S T es fs →
    exprShapes es = exprShapes fs
  | _, _, .nil => rfl
  | _, _, .cons first rest => by rw [exprShapes, exprShapes, first.shape_eq, rest.shapes_eq]

theorem MovedProperties.shapes_eq : ∀ {ps qs : List Property}, MovedProperties S T ps qs →
    propertyShapes ps = propertyShapes qs
  | _, _, .nil => rfl
  | _, _, .cons first rest => by
    rw [propertyShapes, propertyShapes, first.shape_eq, rest.shapes_eq]

end

mutual

theorem Stmt.Moved.shape_eq : ∀ {a b : Stmt}, a.Moved S T b → a.shape = b.shape
  | _, _, .declare value _ => by
    cases value with
    | none => rfl
    | some value => rw [Stmt.shape, Stmt.shape, Option.map_some, Option.map_some, value.shape_eq]
  | _, _, .function body _ => by rw [Stmt.shape, Stmt.shape, body.shapes_eq]
  | _, _, .branch guard body others _ => by
    rw [Stmt.shape, Stmt.shape, guard.shape_eq, body.shapes_eq, others.shapes_eq]
  | _, _, .branchElse guard body others last _ => by
    rw [Stmt.shape, Stmt.shape, guard.shape_eq, body.shapes_eq, others.shapes_eq, last.shapes_eq]
  | _, _, .expr value _ => by rw [Stmt.shape, Stmt.shape, value.shape_eq]

theorem Alternative.Moved.shape_eq : ∀ {a b : Alternative}, a.Moved S T b → a.shape = b.shape
  | _, _, .mk guard body => by
    rw [Alternative.shape, Alternative.shape, guard.shape_eq, body.shapes_eq]

theorem MovedStmts.shapes_eq : ∀ {as bs : List Stmt}, MovedStmts S T as bs →
    stmtShapes as = stmtShapes bs
  | _, _, .nil => rfl
  | _, _, .cons first rest => by rw [stmtShapes, stmtShapes, first.shape_eq, rest.shapes_eq]

theorem MovedAlternatives.shapes_eq : ∀ {as bs : List Alternative}, MovedAlternatives S T as bs →
    alternativeShapes as = alternativeShapes bs
  | _, _, .nil => rfl
  | _, _, .cons first rest => by
    rw [alternativeShapes, alternativeShapes, first.shape_eq, rest.shapes_eq]

end

/-! Texts show no places, so that they are the same where the shapes are. -/

mutual

theorem Expr.render_shape : ∀ e : Expr, e.shape.render = e.render
  | .assign target value _ => by
    rw [Expr.shape, Expr.render, Expr.render, target.render_shape, value.render_shape]
  | .object [] _ => rfl
  | .object (first :: rest) _ => by
    rw [Expr.shape, propertyShapes, Expr.render, Expr.render, first.render_shape,
      renderProperties_shapes rest]
  | .binary op left right _ => by
    rw [Expr.shape, Expr.render, Expr.render, left.render_shape, right.render_shape]
  | .not operand _ => by rw [Expr.shape, Expr.render, Expr.render, operand.render_shape]
  | .call callee args _ => by
    rw [Expr.shape, Expr.render, Expr.render, callee.render_shape, renderArgs_shapes args]
  | .member object _ _ => by rw [Expr.shape, Expr.render, Expr.render, object.render_shape]
  | .name _ _ | .number _ _ | .text _ _ => rfl

theorem Property.render_shape : ∀ p : Property, p.shape.render = p.render
  | .mk _ value _ => by
    rw [Property.shape, Property.render, Property.render, value.render_shape]

theorem renderProperties_shapes : ∀ ps : List Property,
    renderProperties (propertyShapes ps) = renderProperties ps
  | [] => rfl
  | first :: rest => by
    rw [propertyShapes, renderProperties, renderProperties, first.render_shape,
      renderProperties_shapes rest]

theorem renderArgs_shapes : ∀ es : List Expr, renderArgs (exprShapes es) = renderArgs es
  | [] => rfl
  | first :: rest => by
    rw [exprShapes, renderArgs, renderArgs, first.render_shape, renderArgs_shapes rest]

end

theorem Expr.Moved.render_eq {e f : Expr} (h : e.Moved S T f) : e.render = f.render := by
  rw [← e.render_shape, h.shape_eq, f.render_shape]

/-! Where only equal spans are related, the trees are equal. -/

mutual

theorem Expr.Moved.eq : ∀ {e f : Expr}, e.Moved Eq Eq f → e = f
  | _, _, .assign target value rfl => by rw [target.eq, value.eq]
  | _, _, .object properties rfl => by rw [properties.eq]
  | _, _, .binary left right rfl => by rw [left.eq, right.eq]
  | _, _, .not operand rfl => by rw [operand.eq]
  | _, _, .call callee args rfl => by rw [callee.eq, args.eq]
  | _, _, .member object rfl => by rw [object.eq]
  | _, _, .name rfl | _, _, .number rfl | _, _, .text rfl => rfl

theorem Property.Moved.eq : ∀ {p q : Property}, p.Moved Eq Eq q → p = q
  | _, _, .mk value rfl => by rw [value.eq]

theorem MovedArgs.eq : ∀ {es fs : List Expr}, MovedArgs Eq Eq es fs → es = fs
  | _, _, .nil => rfl
  | _, _, .cons first rest => by rw [first.eq, rest.eq]

theorem MovedProperties.eq : ∀ {ps qs : List Property}, MovedProperties Eq Eq ps qs → ps = qs
  | _, _, .nil => rfl
  | _, _, .cons first rest => by rw [first.eq, rest.eq]

end

mutual

theorem Stmt.Moved.eq : ∀ {a b : Stmt}, a.Moved Eq Eq b → a = b
  | _, _, .declare .none rfl => rfl
  | _, _, .declare (.some value) rfl => by rw [value.eq]
  | _, _, .function body rfl => by rw [body.eq]
  | _, _, .branch guard body others rfl => by rw [guard.eq, body.eq, others.eq]
  | _, _, .branchElse guard body others last rfl => by
    rw [guard.eq, body.eq, others.eq, last.eq]
  | _, _, .expr value rfl => by rw [value.eq]

theorem Alternative.Moved.eq : ∀ {a b : Alternative}, a.Moved Eq Eq b → a = b
  | _, _, .mk guard body => by rw [guard.eq, body.eq]

theorem MovedStmts.eq : ∀ {as bs : List Stmt}, MovedStmts Eq Eq as bs → as = bs
  | _, _, .nil => rfl
  | _, _, .cons first rest => by rw [first.eq, rest.eq]

theorem MovedAlternatives.eq : ∀ {as bs : List Alternative}, MovedAlternatives Eq Eq as bs → as = bs
  | _, _, .nil => rfl
  | _, _, .cons first rest => by rw [first.eq, rest.eq]

end

/-! The spans of the statements and expressions of a tree, those of parts behind that of the
whole. -/

mutual

def Expr.spans : Expr → List Span
  | .assign target value span => span :: (target.spans ++ value.spans)
  | .object properties span => span :: propertySpans properties
  | .binary _ left right span => span :: (left.spans ++ right.spans)
  | .not operand span => span :: operand.spans
  | .call callee args span => span :: (callee.spans ++ exprSpans args)
  | .member object _ span => span :: object.spans
  | .name _ span | .number _ span | .text _ span => [span]

def exprSpans : List Expr → List Span
  | [] => []
  | e :: rest => e.spans ++ exprSpans rest

/-- The spans inside the values of some properties. -/
def propertySpans : List Property → List Span
  | [] => []
  | .mk _ value _ :: rest => value.spans ++ propertySpans rest

end

mutual

def Stmt.spans : Stmt → List Span
  | .declare _ _ none span => [span]
  | .declare _ _ (some value) span => span :: value.spans
  | .function _ _ body span => span :: stmtSpans body
  | .branch guard body others none span =>
    span :: (guard.spans ++ stmtSpans body ++ alternativeSpans others)
  | .branch guard body others (some last) span =>
    span :: (guard.spans ++ stmtSpans body ++ alternativeSpans others ++ stmtSpans last)
  | .expr value span => span :: value.spans

def stmtSpans : List Stmt → List Span
  | [] => []
  | statement :: rest => statement.spans ++ stmtSpans rest

def alternativeSpans : List Alternative → List Span
  | [] => []
  | .mk guard body :: rest => guard.spans ++ stmtSpans body ++ alternativeSpans rest

end

/-- The spans of the statements and expressions of a program. -/
def Program.spans (program : Program) : List Span := stmtSpans program

/-! In moved trees these spans are related one by one. -/

mutual

theorem Expr.Moved.spans : ∀ {e f : Expr}, e.Moved S T f → List.Forall₂ S e.spans f.spans
  | _, _, .assign target value place => .cons place (List.rel_append target.spans value.spans)
  | _, _, .object properties place => .cons place properties.spans
  | _, _, .binary left right place => .cons place (List.rel_append left.spans right.spans)
  | _, _, .not operand place => .cons place operand.spans
  | _, _, .call callee args place => .cons place (List.rel_append callee.spans args.spans)
  | _, _, .member object place => .cons place object.spans
  | _, _, .name place | _, _, .number place | _, _, .text place => .cons place .nil

theorem MovedArgs.spans : ∀ {es fs : List Expr}, MovedArgs S T es fs →
    List.Forall₂ S (exprSpans es) (exprSpans fs)
  | _, _, .nil => .nil
  | _, _, .cons first rest => List.rel_append first.spans rest.spans

theorem MovedProperties.spans : ∀ {ps qs : List Property}, MovedProperties S T ps qs →
    List.Forall₂ S (propertySpans ps) (propertySpans qs)
  | _, _, .nil => .nil
  | _, _, .cons (.mk value _) rest => List.rel_append value.spans rest.spans

end

mutual

theorem Stmt.Moved.spans : ∀ {a b : Stmt}, a.Moved S T b → List.Forall₂ S a.spans b.spans
  | _, _, .declare .none place => .cons place .nil
  | _, _, .declare (.some value) place => .cons place value.spans
  | _, _, .function body place => .cons place body.spans
  | _, _, .branch guard body others place =>
    .cons place (List.rel_append (List.rel_append guard.spans body.spans) others.spans)
  | _, _, .branchElse guard body others last place =>
    .cons place (List.rel_append
      (List.rel_append (List.rel_append guard.spans body.spans) others.spans) last.spans)
  | _, _, .expr value place => .cons place value.spans

theorem MovedStmts.spans : ∀ {as bs : List Stmt}, MovedStmts S T as bs →
    List.Forall₂ S (stmtSpans as) (stmtSpans bs)
  | _, _, .nil => .nil
  | _, _, .cons first rest => List.rel_append first.spans rest.spans

theorem MovedAlternatives.spans : ∀ {as bs : List Alternative}, MovedAlternatives S T as bs →
    List.Forall₂ S (alternativeSpans as) (alternativeSpans bs)
  | _, _, .nil => .nil
  | _, _, .cons (.mk guard body) rest =>
    List.rel_append (List.rel_append guard.spans body.spans) rest.spans

end

/-! A tree is itself in another place, if its spans are related to themselves. -/

mutual

theorem Expr.moved_self (entries : ∀ span, T span span) :
    ∀ e : Expr, (∀ span ∈ e.spans, S span span) → e.Moved S T e
  | .assign target value span, nodes => by
    rw [Expr.spans, List.forall_mem_cons, List.forall_mem_append] at nodes
    exact .assign (target.moved_self entries nodes.2.1) (value.moved_self entries nodes.2.2) nodes.1
  | .object properties span, nodes => by
    rw [Expr.spans, List.forall_mem_cons] at nodes
    exact .object (movedProperties_self entries properties nodes.2) nodes.1
  | .binary op left right span, nodes => by
    rw [Expr.spans, List.forall_mem_cons, List.forall_mem_append] at nodes
    exact .binary (left.moved_self entries nodes.2.1) (right.moved_self entries nodes.2.2) nodes.1
  | .not operand span, nodes => by
    rw [Expr.spans, List.forall_mem_cons] at nodes
    exact .not (operand.moved_self entries nodes.2) nodes.1
  | .call callee args span, nodes => by
    rw [Expr.spans, List.forall_mem_cons, List.forall_mem_append] at nodes
    exact .call (callee.moved_self entries nodes.2.1) (movedArgs_self entries args nodes.2.2)
      nodes.1
  | .member object property span, nodes => by
    rw [Expr.spans, List.forall_mem_cons] at nodes
    exact .member (object.moved_self entries nodes.2) nodes.1
  | .name name span, nodes => .name (nodes span List.mem_cons_self)
  | .number value span, nodes => .number (nodes span List.mem_cons_self)
  | .text value span, nodes => .text (nodes span List.mem_cons_self)

theorem movedArgs_self (entries : ∀ span, T span span) :
    ∀ es : List Expr, (∀ span ∈ exprSpans es, S span span) → MovedArgs S T es es
  | [], _ => .nil
  | first :: rest, nodes => by
    rw [exprSpans, List.forall_mem_append] at nodes
    exact .cons (first.moved_self entries nodes.1) (movedArgs_self entries rest nodes.2)

theorem movedProperties_self (entries : ∀ span, T span span) :
    ∀ ps : List Property, (∀ span ∈ propertySpans ps, S span span) → MovedProperties S T ps ps
  | [], _ => .nil
  | .mk key value span :: rest, nodes => by
    rw [propertySpans, List.forall_mem_append] at nodes
    exact .cons (.mk (value.moved_self entries nodes.1) (entries span))
      (movedProperties_self entries rest nodes.2)

end

mutual

theorem Stmt.moved_self (entries : ∀ span, T span span) :
    ∀ s : Stmt, (∀ span ∈ s.spans, S span span) → s.Moved S T s
  | .declare name constant none span, nodes => .declare .none (nodes span List.mem_cons_self)
  | .declare name constant (some value) span, nodes => by
    rw [Stmt.spans, List.forall_mem_cons] at nodes
    exact .declare (.some (value.moved_self entries nodes.2)) nodes.1
  | .function name params body span, nodes => by
    rw [Stmt.spans, List.forall_mem_cons] at nodes
    exact .function (movedStmts_self entries body nodes.2) nodes.1
  | .branch guard body others none span, nodes => by
    simp only [Stmt.spans, List.forall_mem_cons, List.forall_mem_append] at nodes
    obtain ⟨place, ⟨of_guard, of_body⟩, of_others⟩ := nodes
    exact .branch (guard.moved_self entries of_guard) (movedStmts_self entries body of_body)
      (movedAlternatives_self entries others of_others) place
  | .branch guard body others (some last) span, nodes => by
    simp only [Stmt.spans, List.forall_mem_cons, List.forall_mem_append] at nodes
    obtain ⟨place, ⟨⟨of_guard, of_body⟩, of_others⟩, of_last⟩ := nodes
    exact .branchElse (guard.moved_self entries of_guard) (movedStmts_self entries body of_body)
      (movedAlternatives_self entries others of_others) (movedStmts_self entries last of_last) place
  | .expr value span, nodes => by
    rw [Stmt.spans, List.forall_mem_cons] at nodes
    exact .expr (value.moved_self entries nodes.2) nodes.1

theorem movedStmts_self (entries : ∀ span, T span span) :
    ∀ ss : List Stmt, (∀ span ∈ stmtSpans ss, S span span) → MovedStmts S T ss ss
  | [], _ => .nil
  | first :: rest, nodes => by
    rw [stmtSpans, List.forall_mem_append] at nodes
    exact .cons (first.moved_self entries nodes.1) (movedStmts_self entries rest nodes.2)

theorem movedAlternatives_self (entries : ∀ span, T span span) :
    ∀ as : List Alternative, (∀ span ∈ alternativeSpans as, S span span) →
      MovedAlternatives S T as as
  | [], _ => .nil
  | .mk guard body :: rest, nodes => by
    simp only [alternativeSpans, List.forall_mem_append] at nodes
    obtain ⟨⟨of_guard, of_body⟩, of_rest⟩ := nodes
    exact .cons (.mk (guard.moved_self entries of_guard) (movedStmts_self entries body of_body))
      (movedAlternatives_self entries rest of_rest)

end

theorem Expr.moved_refl (e : Expr) : e.Moved Eq Eq e := e.moved_self (fun _ => rfl) fun _ _ => rfl

theorem Stmt.moved_refl (s : Stmt) : s.Moved Eq Eq s := s.moved_self (fun _ => rfl) fun _ _ => rfl

theorem movedStmts_refl (ss : List Stmt) : MovedStmts Eq Eq ss ss :=
  movedStmts_self (fun _ => rfl) ss fun _ _ => rfl

end Scriptlet
