import Deferral.Script.Session

/-!
# Code in the direct form

Most operations have two forms, one on actions and one generic over carriers. `Expr.direct`
puts all operations of an expression in the direct form, wherever they are: in operands, in
the code of functions, in terms that run an action. Two expressions with the same direct form
are one expression, up to forms. A function is a value that holds code, so values, plans and
the world have a direct form too.

No operation on values or on the world looks at a form:

* `Value.same_direct`, `Value.layout_direct`: values are equal, or are shown, up to forms.
* `compute_direct`: operations on values.
* `World.direct_log` and the like: what changes the world.
-/

namespace Deferral.Script

section Operations

/-- The operation in the direct form. -/
def Holding.direct : Holding → Holding
  | value _ => value .direct
  | failure _ => failure .direct
  | outcome _ => outcome .direct
  | putLine => putLine
  | sleep => sleep

/-- The operation in the direct form. To adapt a failure is to change it. -/
def Mapping.direct : Mapping → Mapping
  | map _ => map .direct
  | recover _ => recover .direct
  | adapt => mapError
  | mapError => mapError

/-- The operation in the direct form. -/
def Wrapping.direct : Wrapping → Wrapping
  | discard => discard
  | observe _ => observe .direct
  | containPanic => containPanic

/-- The operation in the direct form. -/
def Chaining.direct : Chaining → Chaining
  | bind _ => bind .direct
  | andThen _ => andThen .direct
  | tryCatch _ => tryCatch .direct

/-- The operation in the direct form. -/
def Joining.direct : Joining → Joining
  | zip _ => zip .direct
  | seqLeft => seqLeft
  | seqRight => seqRight
  | followedBy _ => followedBy .direct
  | seq _ => seq .direct
  | orElse => orElse

end Operations

section Code

mutual

/-- The term with all operations in the direct form. -/
def Term.direct : Term → Term
  | .unit => .unit
  | .bool b => .bool b
  | .int n => .int n
  | .text s => .text s
  | .var x => .var x
  | .bind x t u => .bind x (Term.direct t) (Term.direct u)
  | .fn x body => .fn x (Term.direct body)
  | .call f a => .call (Term.direct f) (Term.direct a)
  | .block ts => .block (Term.directAll ts)
  | .cond c t u => .cond (Term.direct c) (Term.direct t) (Term.direct u)
  | .cases t x a y b => .cases (Term.direct t) x (Term.direct a) y (Term.direct b)
  | .prim op args => .prim op (Term.directAll args)
  | .run e => .run (Expr.direct e)
termination_by structural t => t

/-- The terms with all operations in the direct form. -/
def Term.directAll : List Term → List Term
  | [] => []
  | t :: ts => Term.direct t :: Term.directAll ts
termination_by structural ts => ts

/-- The expression with all operations in the direct form. -/
def Expr.direct : Expr → Expr
  | .slot name => .slot name
  | .cond c a b => .cond (Term.direct c) (Expr.direct a) (Expr.direct b)
  | .bind x t e => .bind x (Term.direct t) (Expr.direct e)
  | .after t e => .after (Term.direct t) (Expr.direct e)
  | .cases t x a y b => .cases (Term.direct t) x (Expr.direct a) y (Expr.direct b)
  | .repeated times name first step =>
    .repeated (Term.direct times) name (Expr.direct first) (Expr.direct step)
  | .absent => .absent
  | .getLine => .getLine
  | .hold op t => .hold op.direct (Term.direct t)
  | .delay op t => .delay op (Term.direct t)
  | .defer e => .defer (Expr.direct e)
  | .map op e x body => .map op.direct (Expr.direct e) x (Term.direct body)
  | .mapConst e t => .mapConst (Expr.direct e) (Term.direct t)
  | .wrap op e => .wrap op.direct (Expr.direct e)
  | .chain op e x body => .chain op.direct (Expr.direct e) x (Expr.direct body)
  | .join op a b => .join op.direct (Expr.direct a) (Expr.direct b)
  | .zipWith _ a b x y body =>
    .zipWith .direct (Expr.direct a) (Expr.direct b) x y (Term.direct body)
  | .loop _ seed x step => .loop .direct (Term.direct seed) x (Expr.direct step)
termination_by structural e => e

end

end Code

namespace Value

mutual

/-- The value with the code of all functions in the direct form. -/
def direct : Value → Value
  | unit => unit
  | bool b => bool b
  | int n => int n
  | text s => text s
  | list vs => list (directAll vs)
  | pair a b => pair (direct a) (direct b)
  | some v => some (direct v)
  | none => none
  | ok v => ok (direct v)
  | err v => err (direct v)
  | left v => left (direct v)
  | right v => right (direct v)
  | fault f => fault f
  | closure env x body => closure (directScope env) x body.direct
termination_by structural v => v

/-- The values with the code of all functions in the direct form. -/
def directAll : List Value → List Value
  | [] => []
  | v :: vs => direct v :: directAll vs
termination_by structural vs => vs

/-- The names in scope, with their values in the direct form. -/
def directScope : List (String × Value) → List (String × Value)
  | [] => []
  | b :: env => directBinding b :: directScope env
termination_by structural env => env

/-- A name, with its value in the direct form. -/
def directBinding : String × Value → String × Value
  | (x, v) => (x, direct v)
termination_by structural b => b

end

theorem directAll_eq_map (vs : List Value) : directAll vs = vs.map direct := by
  induction vs with
  | nil => rfl
  | cons v vs ih => rw [directAll, ih, List.map_cons]

theorem directScope_eq_map (env : Env) : directScope env = env.map (Prod.map id direct) := by
  induction env with
  | nil => rfl
  | cons b env ih =>
    obtain ⟨x, v⟩ := b
    rw [directScope, ih, List.map_cons, directBinding]
    rfl

@[simp] theorem directAll_eq_nil {vs : List Value} : directAll vs = [] ↔ vs = [] := by
  cases vs <;> simp [directAll]

@[simp] theorem directAll_eq_cons {vs ws : List Value} {w : Value} :
    directAll vs = w :: ws ↔ ∃ v vs', vs = v :: vs' ∧ v.direct = w ∧ directAll vs' = ws := by
  cases vs <;> simp [directAll, and_assoc]

mutual

/-- Values are equal up to forms, by recursion on the left one. -/
theorem same_direct : (v w : Value) → same v.direct w.direct = same v w
  | .unit, w | .bool _, w | .int _, w | .text _, w | .none, w | .fault _, w
  | .closure _ _ _, w => by cases w <;> rfl
  | .list vs, w => by
    cases w with
    | list ws => exact sameAll_direct vs ws
    | _ => rfl
  | .pair a b, w => by
    cases w with
    | pair c d => rw [direct, direct, same, same, same_direct a c, same_direct b d]
    | _ => rfl
  | .some v, w | .ok v, w | .err v, w | .left v, w | .right v, w => by
    cases w <;> first | exact same_direct v _ | rfl
termination_by structural v => v

theorem sameAll_direct : (vs ws : List Value) →
    sameAll (directAll vs) (directAll ws) = sameAll vs ws
  | [], ws => by cases ws <;> rfl
  | v :: vs, ws => by
    cases ws with
    | nil => rfl
    | cons w ws =>
      rw [directAll, directAll, sameAll, sameAll, same_direct v w, sameAll_direct vs ws]
termination_by structural vs => vs

end

mutual

/-- Values are shown up to forms; a function is shown without its code. -/
theorem layout_direct : (v : Value) → layout v.direct = layout v
  | .unit | .bool _ | .int _ | .text _ | .none | .fault _ | .closure _ _ _ => rfl
  | .list vs => congrArg Layout.list (layoutAll_direct vs)
  | .pair a b => by rw [direct, layout, layout, layout_direct a, layout_direct b]
  | .some v | .ok v | .err v | .left v | .right v => by rw [direct, layout, layout, layout_direct v]
termination_by structural v => v

theorem layoutAll_direct : (vs : List Value) → layoutAll (directAll vs) = layoutAll vs
  | [] => rfl
  | v :: vs => by rw [directAll, layoutAll, layoutAll, layout_direct v, layoutAll_direct vs]
termination_by structural vs => vs

end

theorem textOf_direct (v : Value) : textOf v.direct = textOf v := by cases v <;> rfl

theorem toEither?_direct (v : Value) : v.direct.toEither? = v.toEither?.map fun
    | .left w => .left w.direct
    | .right w => .right w.direct := by cases v <;> rfl

theorem side?_direct (v : Value) : v.direct.side? = v.side?.map fun
    | .left w => .left w.direct
    | .right w => .right w.direct := by cases v <;> rfl

theorem toExcept?_direct (v : Value) : v.direct.toExcept? = v.toExcept?.map fun
    | .ok w => .ok w.direct
    | .error w => .error w.direct := by cases v <;> rfl

theorem failure?_direct (c : Channel) (v : Value) :
    c.failure? v.direct = (c.failure? v).map direct := by cases c <;> cases v <;> rfl

end Value

theorem divide_direct (a b : Int64) : divide a b = Value.direct <$> divide a b := by
  unfold divide
  split <;> rfl

theorem remainder_direct (a b : Int64) : remainder a b = Value.direct <$> remainder a b := by
  unfold remainder
  split <;> rfl

theorem text_direct (x : Checked String) :
    Value.text <$> x = Value.direct <$> Value.text <$> x := by cases x <;> rfl

/-- No operation on values looks at a form. -/
theorem compute_direct (op : Prim) (vs : List Value) :
    op.compute (Value.directAll vs) = Value.direct <$> op.compute vs := by
  -- an operation takes at most two values, and most look at no more than how these are made
  rcases vs with _ | ⟨a, _ | ⟨b, _ | ⟨c, vs⟩⟩⟩
  · cases op <;> rfl
  -- one value: only to show a value and to count its elements look into it
  · cases op
    case shown =>
      change Value.text <$> textOf a.direct = _
      rw [Value.textOf_direct]
      exact text_direct _
    case length =>
      cases a
      case list vs =>
        have hlength : (Value.directAll vs).length = vs.length := by
          rw [Value.directAll_eq_map, List.length_map]
        exact congrArg (fun k => Except.ok (Value.int (Int64.ofNat k))) hlength
      all_goals rfl
    all_goals first | rfl | (cases a <;> rfl)
  -- two values: integers are divided, any values are compared, and a list takes another element
  · cases op
    case div =>
      cases a
      case int m =>
        cases b
        case int n => exact divide_direct m n
        all_goals rfl
      all_goals rfl
    case mod =>
      cases a
      case int m =>
        cases b
        case int n => exact remainder_direct m n
        all_goals rfl
      all_goals rfl
    case eq => exact congrArg (fun b => Except.ok (Value.bool b)) (Value.same_direct a b)
    case push =>
      cases a
      case list vs =>
        have hpush : Value.directAll vs ++ [b.direct] = Value.directAll (vs ++ [b]) := by
          simp [Value.directAll_eq_map]
        exact congrArg (fun vs => Except.ok (Value.list vs)) hpush
      all_goals rfl
    all_goals first | rfl | (cases a <;> first | rfl | (cases b <;> rfl))
  · cases op <;> first | rfl | (cases a <;> first | rfl | (cases b <;> rfl))

/-- The closure of a term with the code in the direct form. -/
def Closure.directTerm (f : Closure Term) : Closure Term :=
  ⟨Value.directScope f.env, f.x, f.body.direct⟩

/-- The closure of an expression with the code in the direct form. -/
def Closure.directExpr (f : Closure Expr) : Closure Expr :=
  ⟨Value.directScope f.env, f.x, f.body.direct⟩

/-- The closure of a term with the code in the direct form. -/
def Closure₂.directTerm (f : Closure₂ Term) : Closure₂ Term :=
  ⟨Value.directScope f.env, f.x, f.y, f.body.direct⟩

/-- An outcome with the code of all functions in the direct form. -/
def directOutcome : Except Value Value → Except Value Value
  | .ok v => .ok v.direct
  | .error e => .error e.direct

/-- The plan with all operations in the direct form. -/
def Plan.direct : Plan → Plan
  | value _ v => value .direct v.direct
  | failure _ e => failure .direct e.direct
  | outcome _ o => outcome .direct (directOutcome o)
  | putLine line => putLine line
  | getLine => getLine
  | sleep => sleep
  | delay op env t => delay op (Value.directScope env) t.direct
  | defer env e => defer (Value.directScope env) e.direct
  | map op p f => map op.direct p.direct f.directTerm
  | mapConst p v => mapConst p.direct v.direct
  | wrap op p => wrap op.direct p.direct
  | chain op p k => chain op.direct p.direct k.directExpr
  | join op p q => join op.direct p.direct q.direct
  | zipWith _ p q f => zipWith .direct p.direct q.direct f.directTerm
  | loop _ seed step => loop .direct seed.direct step.directExpr

/-- The entry with the code of all functions in the direct form. -/
def Entry.direct : Entry → Entry
  | logged v => logged v.direct
  | traced t => traced t

section Table

variable {α β : Type} (f : α → β)

/-- To look up in a table that was changed is to change what is looked up. -/
theorem lookup_map (es : List (String × α)) (key : String) :
    (es.map (Prod.map id f)).lookup key = (es.lookup key).map f := by
  induction es with
  | nil => rfl
  | cons e es ih =>
    obtain ⟨x, a⟩ := e
    simp only [List.map_cons, Prod.map_apply, id, List.lookup_cons, ih]
    split <;> rfl

/-- To put into a table that was changed is to put first, and to change then. -/
theorem put_map (key : String) (a : α) (es : List (String × α)) :
    put key (f a) (es.map (Prod.map id f)) = (put key a es).map (Prod.map id f) := by
  induction es with
  | nil => rfl
  | cons e es ih =>
    obtain ⟨x, b⟩ := e
    simp only [List.map_cons, Prod.map_apply, id, put, ih]
    split <;> rfl

end Table

theorem lookup_directScope (env : Env) (x : String) :
    (Value.directScope env).lookup x = (env.lookup x).map Value.direct := by
  rw [Value.directScope_eq_map, lookup_map]

namespace World

/-- The world with all that it holds in the direct form. -/
def direct (w : Host) : Host where
  journal := w.journal.map Entry.direct
  tracing := w.tracing
  channel := w.channel
  cells := w.cells.map (Prod.map id Value.direct)
  slots := w.slots.map (Prod.map id Plan.direct)
  input := w.input
  printed := w.printed

@[simp] theorem direct_log (v : Value) (w : Host) : (w.log v).direct = w.direct.log v.direct := by
  simp [direct, log, Entry.direct]

@[simp] theorem direct_setCell (name : String) (v : Value) (w : Host) :
    (w.setCell name v).direct = w.direct.setCell name v.direct := by
  simp [direct, setCell, put_map]

theorem cell_direct (name : String) (w : Host) : w.direct.cell name = (w.cell name).direct := by
  rw [cell, direct, lookup_map, cell]
  cases w.cells.lookup name <;> rfl

@[simp] theorem direct_fill (name : String) (p : Plan) (w : Host) :
    (w.fill name p).direct = w.direct.fill name p.direct := by
  simp [direct, fill, put_map]

@[simp] theorem direct_clear (name : String) (w : Host) :
    (w.clear name).direct = w.direct.clear name := by
  simp [direct, clear, List.filter_map, Function.comp_def]

/-- Notes hold no code. -/
theorem direct_note (t : Trace) (w : Host) :
    (Tracing.note t w : Host).direct = Tracing.note t w.direct := by
  obtain ⟨journal, tracing, channel, cells, slots, input, printed⟩ := w
  cases tracing with
  | false => rfl
  | true => simp [direct, Tracing.note, Entry.direct]

@[simp] theorem direct_cleared (w : Host) : w.cleared.direct = w.direct.cleared := by
  simp [direct, cleared]

end World

/-- The step with all operations in the direct form. -/
def Step.direct : Step → Step
  | build name e => build name e.direct
  | run name => run name
  | runThen name f => runThen name f.directTerm
  | display name spread => display name spread
  | displayExpr e => displayExpr e.direct
  | agree l r => agree l r
  | agreeBy l r valueEq errorEq => agreeBy l r valueEq.directTerm errorEq.directTerm
  | drop name => drop name
  | eval t => eval t.direct

/-- The answer without what an action looks like, which depends on its form. -/
def Answer.unshown : Answer → Answer
  | shown _ => shown ""
  | a => a

/-- The answer with its value in the direct form, and without what an action looks like. -/
def Answer.direct : Answer → Answer
  | built => built
  | dropped => dropped
  | value v => value v.direct
  | called v => called v.direct
  | shown _ => shown ""

/-- The report with all values in the direct form, and without what an action looks like. -/
def Report.direct (r : Report Answer) : Report Answer where
  ending := r.ending.map (Except.map Answer.direct)
  journal := r.journal.map Entry.direct
  printed := r.printed
  cells := r.cells.map (Prod.map id Value.direct)

end Deferral.Script
