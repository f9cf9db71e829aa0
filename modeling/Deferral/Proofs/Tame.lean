import Deferral.Proofs.Tags
import Mathlib.Data.List.Flatten
import Mathlib.Data.List.Perm.Subperm

/-!
# Tame values, plans and worlds

Values hold code, plans hold code and values, and the slots of a world hold plans, so they have
places that log tags, and may be tame, as code does and may.

* `Value.Tame.quiet_of_zero`: no function logs in a value that is tame at depth zero.
* `Prim.tame_compute`: operations on tame values give tame values, and add no place.
* `Plan.Tame.of_zero`: a plan that is tame at depth zero is tame at any depth.
* `World.places_take_subperm`: to take a plan from its slot adds no place.
-/

namespace Deferral.Script

section Value

/-- No function in the value logs anything. -/
inductive Value.Quiet : Value → Prop
  | unit : Quiet .unit
  | bool (b : Bool) : Quiet (.bool b)
  | int (n : Int64) : Quiet (.int n)
  | text (s : String) : Quiet (.text s)
  | list {vs : List Value} (h : ∀ v ∈ vs, Quiet v) : Quiet (.list vs)
  | pair {a b : Value} (ha : Quiet a) (hb : Quiet b) : Quiet (.pair a b)
  | some {v : Value} (h : Quiet v) : Quiet (.some v)
  | none : Quiet .none
  | ok {v : Value} (h : Quiet v) : Quiet (.ok v)
  | err {v : Value} (h : Quiet v) : Quiet (.err v)
  | left {v : Value} (h : Quiet v) : Quiet (.left v)
  | right {v : Value} (h : Quiet v) : Quiet (.right v)
  | fault (f : Fault) : Quiet (.fault f)
  | closure {env : Env} {x : String} {body : Term} (henv : ∀ b ∈ env, Quiet b.2)
      (hbody : body.Tame 0) (hplaces : body.places = []) : Quiet (.closure env x body)

/-- The names in scope have values in which no function logs anything. -/
def Env.Quiet (env : Env) : Prop := ∀ b ∈ env, b.2.Quiet

/-- The places of a function in place, or of one that is held as a success or a right value. -/
def Value.places : Value → List Place
  | .closure _ _ body => body.places
  | .ok v | .right v => Value.places v
  | _ => []
termination_by structural v => v

/-- The only function in the value that may log is one in place, for `k` arguments. -/
inductive Value.Tame : ℕ → Value → Prop
  | quiet {k : ℕ} {v : Value} (h : v.Quiet) : Tame k v
  | closure {k : ℕ} {env : Env} {x : String} {body : Term} (henv : Env.Quiet env)
      (hbody : body.Tame k) : Tame (k + 1) (.closure env x body)
  | ok {k : ℕ} {v : Value} (h : Tame k v) : Tame k (.ok v)
  | right {k : ℕ} {v : Value} (h : Tame k v) : Tame k (.right v)

/-- Where no function logs there is no place. -/
theorem Value.Quiet.places_eq_nil {v : Value} (h : v.Quiet) : v.places = [] := by
  induction h with
  | closure henv hbody hplaces => exact hplaces
  | ok _ ih | right _ ih => exact ih
  | _ => rfl

/-- At depth zero there is no argument that a function in place could be for. -/
theorem Value.Tame.quiet_of_zero {v : Value} (h : v.Tame 0) : v.Quiet := by
  -- the depth stays the same in all that is held, so a function in place cannot be met
  generalize hk : 0 = k at h
  induction h with
  | quiet h => exact h
  | closure => cases hk
  | ok _ ih => exact .ok (ih hk)
  | right _ ih => exact .right (ih hk)

/-- What is tame may be applied to one more argument. -/
theorem Value.Tame.succ {v : Value} {k : ℕ} (h : v.Tame k) : v.Tame (k + 1) := by
  induction h with
  | quiet h => exact .quiet h
  | closure henv hbody => exact .closure henv (Term.Tame.succ _ hbody)
  | ok _ ih => exact .ok ih
  | right _ ih => exact .right ih

theorem mem_of_lookup {α : Type} {es : List (String × α)} {key : String} {a : α}
    (h : es.lookup key = some a) : (key, a) ∈ es := by
  obtain ⟨l, l', rfl, -⟩ := List.lookup_eq_some_iff.1 h
  simp

theorem mem_put {α : Type} {key : String} {a : α} {es : List (String × α)} {b : String × α}
    (h : b ∈ put key a es) : b = (key, a) ∨ b ∈ es := by
  induction es with
  | nil => exact .inl (List.mem_singleton.1 h)
  | cons e es ih =>
    rw [put] at h
    split at h
    · exact (List.mem_cons.1 h).imp_right (List.mem_cons_of_mem _)
    · rcases List.mem_cons.1 h with rfl | h
      · exact .inr List.mem_cons_self
      · exact (ih h).imp_right (List.mem_cons_of_mem _)

theorem Env.Quiet.cons {env : Env} {v : Value} (hv : v.Quiet) (henv : Env.Quiet env) (x : String) :
    Env.Quiet ((x, v) :: env) := by
  intro b hb
  rcases List.mem_cons.1 hb with rfl | hb
  · exact hv
  · exact henv b hb

namespace Value

variable {v w : Value} {k : ℕ}

theorem Quiet.of_side (hv : v.Quiet) (h : v.side? = Option.some (.left w) ∨
    v.side? = Option.some (.right w)) : w.Quiet := by
  cases hv with
  | none => rcases h with h | h <;> cases h; exact .unit
  | some hw | ok hw | err hw | left hw | right hw => rcases h with h | h <;> cases h; exact hw
  | _ => rcases h with h | h <;> cases h

theorem Quiet.of_failure {c : Channel} (hv : v.Quiet) (h : c.failure? v = Option.some w) :
    w.Quiet := by
  cases c with
  | values => cases h; exact hv
  | faults => cases hv <;> cases h <;> exact .fault _

/-- A right value holds what is in it. -/
theorem Tame.of_right (hv : v.Tame k) (h : v.toEither? = Option.some (.right w)) :
    w.Tame k ∧ w.places = v.places := by
  cases hv with
  | quiet hv => cases hv <;> cases h; exact ⟨.quiet ‹_›, rfl⟩
  | right hw => cases h; exact ⟨hw, rfl⟩
  | _ => cases h

theorem Tame.of_left (hv : v.Tame k) (h : v.toEither? = Option.some (.left w)) : w.Quiet := by
  cases hv with
  | quiet hv => cases hv <;> cases h; assumption
  | _ => cases h

/-- A success holds what is in it. -/
theorem Tame.of_ok (hv : v.Tame k) (h : v.toExcept? = Option.some (.ok w)) :
    w.Tame k ∧ w.places = v.places := by
  cases hv with
  | quiet hv => cases hv <;> cases h; exact ⟨.quiet ‹_›, rfl⟩
  | ok hw => cases h; exact ⟨hw, rfl⟩
  | _ => cases h

theorem Tame.of_error (hv : v.Tame k) (h : v.toExcept? = Option.some (.error w)) : w.Quiet := by
  cases hv with
  | quiet hv => cases hv <;> cases h; assumption
  | _ => cases h

end Value

theorem quiet_divide {a b : Int64} {v : Value} (h : divide a b = .ok v) : v.Quiet := by
  unfold divide at h
  split at h <;> cases h
  exact .int _

theorem quiet_remainder {a b : Int64} {v : Value} (h : remainder a b = .ok v) : v.Quiet := by
  unfold remainder at h
  split at h <;> cases h
  exact .int _

theorem quiet_text {x : Checked String} {v : Value} (h : Value.text <$> x = .ok v) : v.Quiet := by
  cases x <;> cases h
  exact .text _

/-- Operations on values in which no function logs give such values. -/
theorem Prim.quiet_compute (op : Prim) {vs : List Value} {v : Value} (hvs : ∀ w ∈ vs, w.Quiet)
    (h : op.compute vs = .ok v) : v.Quiet := by
  -- an operation takes at most two values, and most give a value without parts
  rcases vs with _ | ⟨a, _ | ⟨b, _ | ⟨c, vs⟩⟩⟩
  · cases op <;> cases h <;> first | exact .none | exact .list hvs
  · have ha : a.Quiet := hvs a List.mem_cons_self
    cases op
    case shown => exact quiet_text h
    case list => cases h; exact .list hvs
    case some => cases h; exact .some ha
    case ok => cases h; exact .ok ha
    case err => cases h; exact .err ha
    case left => cases h; exact .left ha
    case right => cases h; exact .right ha
    case fst => cases ha <;> cases h; assumption
    case snd => cases ha <;> cases h; assumption
    all_goals cases a <;> cases h <;> constructor
  · have ha : a.Quiet := hvs a List.mem_cons_self
    have hb : b.Quiet := hvs b (List.mem_cons_of_mem a List.mem_cons_self)
    cases op
    case list => cases h; exact .list hvs
    case pair => cases h; exact .pair ha hb
    case eq => cases h; exact .bool _
    case push =>
      cases ha <;> cases h
      case list hws =>
        refine .list fun w hw => ?_
        rcases List.mem_append.1 hw with hw | hw
        · exact hws w hw
        · rw [List.mem_singleton.1 hw]; exact hb
    case div =>
      cases a <;> first
        | cases h
        | (cases b <;> first | cases h | exact quiet_divide h)
    case mod =>
      cases a <;> first
        | cases h
        | (cases b <;> first | cases h | exact quiet_remainder h)
    all_goals cases a <;> first | cases h | (cases b <;> cases h; constructor)
  · cases op
    case list => cases h; exact .list hvs
    all_goals first
      | cases h
      | (cases a <;> first | cases h | (cases b <;> cases h))

/-- Two operations pass their operand on; no other does. -/
theorem Prim.role_eq (op : Prim) : op.role = .used ∨ op = .ok ∨ op = .right := by
  cases op <;> simp [role]

/-- Operations on tame values give tame values, and at most the places that there were. -/
theorem Prim.tame_compute (op : Prim) {k : ℕ} {vs : List Value} {v : Value}
    (hvs : ∀ w ∈ vs, w.Tame (op.role.depth k)) (h : op.compute vs = .ok v) :
    v.Tame k ∧ (v.places = [] ∨ v.places = vs.flatMap Value.places) := by
  -- where an operand is not passed on no function in it logs, and so none does in the result
  rcases op.role_eq with hrole | rfl | rfl
  · rw [hrole] at hvs
    have hv := op.quiet_compute (fun w hw => (hvs w hw).quiet_of_zero) h
    exact ⟨.quiet hv, .inl hv.places_eq_nil⟩
  · rcases vs with _ | ⟨w, _ | ⟨_, _⟩⟩ <;> cases h
    exact ⟨.ok (hvs w List.mem_cons_self), .inr (by simp [Value.places])⟩
  · rcases vs with _ | ⟨w, _ | ⟨_, _⟩⟩ <;> cases h
    exact ⟨.right (hvs w List.mem_cons_self), .inr (by simp [Value.places])⟩

end Value

section Plan

/-- The places of an outcome. -/
def placesOfOutcome : Except Value Value → List Place
  | .ok v => v.places
  | .error _ => []

/-- The only function in the outcome that may log is one in place, for `k` arguments. -/
def TameOutcome (k : ℕ) : Except Value Value → Prop
  | .ok v => v.Tame k
  | .error e => e.Quiet

/-- The places of a plan. -/
def Plan.places : Plan → List Place
  | value _ v => v.places
  | outcome _ o => placesOfOutcome o
  | failure _ _ | putLine _ | getLine | sleep => []
  | delay _ _ t => t.places
  | defer _ e => e.places
  | map _ p f => places p ++ f.body.places
  | mapConst p v => places p ++ v.places
  | wrap _ p => places p
  | chain _ p k => places p ++ k.body.places
  | join _ p q => places p ++ places q
  | zipWith _ p q f => places p ++ (places q ++ f.body.places)
  | loop _ _ step => step.body.places.map (Place.inside step.body.mark?)

/-- The code and the values in the plan are tame. What it gives may be a function in place, for
`k` arguments. -/
def Plan.Tame : Plan → ℕ → Prop
  | value _ v, k => v.Tame k
  | failure _ e, _ => e.Quiet
  | outcome _ o, k => TameOutcome k o
  | putLine _, _ | getLine, _ | sleep, _ => True
  | delay _ env t, k => Env.Quiet env ∧ t.Tame k
  | defer env e, k => Env.Quiet env ∧ e.Tame k
  | map op p f, k =>
    Tame p (op.role.depth k) ∧ Env.Quiet f.env ∧ f.body.Tame (op.bodyRole.depth k)
  | mapConst p v, k => Tame p 0 ∧ v.Tame k
  | wrap _ p, k => Tame p k
  | chain op p f, k => Tame p (op.role.depth k) ∧ Env.Quiet f.env ∧ f.body.Tame k
  | join op p q, k => Tame p (op.left.depth k) ∧ Tame q (op.right.depth k)
  | zipWith _ p q f, k => Tame p 0 ∧ Tame q 0 ∧ Env.Quiet f.env ∧ f.body.Tame k
  | loop _ seed step, k =>
    seed.Quiet ∧ Env.Quiet step.env ∧ step.body.Tame k ∧ step.body.Marked

/-- A tame plan is tame at larger depths. -/
theorem Plan.Tame.succ {p : Plan} : ∀ {k : ℕ}, p.Tame k → p.Tame (k + 1) := by
  induction p with
  | value form v => exact Value.Tame.succ
  | outcome form o =>
    cases o with
    | ok v => exact Value.Tame.succ
    | error e => exact id
  | failure | putLine | getLine | sleep => exact id
  | delay op env t => exact fun h => ⟨h.1, Term.Tame.succ t h.2⟩
  | defer env e => exact fun h => ⟨h.1, Expr.Tame.succ e h.2⟩
  | map op p f ih =>
    exact fun h => ⟨op.role.succ p.Tame ih h.1, h.2.1,
      op.bodyRole.succ f.body.Tame (Term.Tame.succ f.body) h.2.2⟩
  | mapConst p v ih => exact fun h => ⟨h.1, h.2.succ⟩
  | wrap op p ih => exact ih
  | chain op p f ih =>
    exact fun h => ⟨op.role.succ p.Tame ih h.1, h.2.1, Expr.Tame.succ f.body h.2.2⟩
  | join op p q ihp ihq =>
    exact fun h => ⟨op.left.succ p.Tame ihp h.1, op.right.succ q.Tame ihq h.2⟩
  | zipWith form p q f ihp ihq =>
    exact fun h => ⟨h.1, h.2.1, h.2.2.1, Term.Tame.succ f.body h.2.2.2⟩
  | loop form seed step =>
    exact fun h => ⟨h.1, h.2.1, Expr.Tame.succ step.body h.2.2.1, h.2.2.2⟩

theorem Plan.Tame.of_zero {p : Plan} (h : p.Tame 0) (k : ℕ) : p.Tame k := by
  induction k with
  | zero => exact h
  | succ k ih => exact ih.succ

end Plan

section World

/-- The places of the plans in the slots. -/
def World.places (w : Host) : List Place := w.slots.flatMap fun b => b.2.places

/-- No function in a cell logs anything, and the plans in the slots are tame. -/
structure World.Tame (w : Host) : Prop where
  cells : ∀ b ∈ w.cells, b.2.Quiet
  slots : ∀ b ∈ w.slots, b.2.Tame 0

/-- How often a tag is in the journal. -/
def World.logged (tag : String) (w : Host) : ℕ :=
  w.journal.toList.countP fun
    | .logged (.text s) => s == tag
    | _ => false

namespace World

variable {w : Host}

theorem Tame.cell (h : w.Tame) (name : String) : (w.cell name).Quiet := by
  rw [World.cell]
  cases hcell : w.cells.lookup name with
  | some v => exact h.cells _ (mem_of_lookup hcell)
  | none => exact .int 0

theorem Tame.setCell (h : w.Tame) (name : String) {v : Value} (hv : v.Quiet) :
    (w.setCell name v).Tame := by
  refine ⟨fun b hb => ?_, h.slots⟩
  rcases mem_put hb with rfl | hb
  · exact hv
  · exact h.cells b hb

theorem Tame.clear (h : w.Tame) (name : String) : (w.clear name).Tame :=
  ⟨h.cells, fun b hb => h.slots b (List.mem_of_mem_filter hb)⟩

/-- The plan of a slot and what is left after it was taken have no more places than there were. -/
theorem places_take_subperm {name : String} {p : Plan} (h : w.slots.lookup name = some p) :
    (p.places ++ (w.clear name).places).Subperm w.places := by
  unfold World.places World.clear
  generalize w.slots = es at h
  induction es with
  | nil => cases h
  | cons e es ih =>
    obtain ⟨x, q⟩ := e
    rw [List.lookup_cons] at h
    rw [List.filter_cons, List.flatMap_cons]
    -- the slot that is looked up is the first of its name, and all of its name are cleared
    by_cases heq : x = name
    · subst heq
      have hq : q = p := by simpa using h
      simp only [bne_self_eq_false, Bool.false_eq_true, if_false, hq]
      exact (List.subperm_append_left _).2 (List.filter_sublist.flatMap _).subperm
    · have hne : (x != name) = true := by simpa using heq
      have hlookup : es.lookup name = some p := by simpa [beq_false_of_ne (Ne.symm heq)] using h
      simp only [hne, if_true, List.flatMap_cons]
      have hswap := List.perm_append_comm_assoc p.places q.places
        ((es.filter fun e => e.1 != name).flatMap fun b => b.2.places)
      exact hswap.subperm.trans ((List.subperm_append_left _).2 (ih hlookup))

end World
end World

end Deferral.Script
