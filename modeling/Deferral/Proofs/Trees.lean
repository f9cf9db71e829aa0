import Deferral.Proofs.Handlers
import Deferral.Proofs.Layers
import Deferral.Proofs.Program
import Deferral.Proofs.Spans

/-!
# Trees of actions

Actions are put together two by two, and what comes of it may be put together again: a
tree, with actions as its leaves and a `Joint` at each node. How the tree is bracketed
does not matter for the order: the leaves are evaluated from left to right, up to the
first that gives no value. At the end it is folded.

* `Joint.evaluate_apply`: a joint evaluates its left side, then its right side.
* `Tree.exists_executes`: a tree executes a front part of its leaves, by induction on
  the tree; `Tree.Executes` says which one, and how that ends.
* `Tree.evaluate_dropped`: but for the value, a tree does what its leaves do one by one.
* `Tree.Executes.lists`: what the leaves list, if each lists its mark.
* `tree_runs_leftToRight`: **the leaves of a tree that is run**, and what they list.
-/

namespace Deferral

open Script (Form)

variable {σ ε α β γ : Type}

/-- A way of putting two actions together that runs both and combines their values by a
function without effects. -/
inductive Joint : Type → Type → Type → Type 1 where
  | zipWith {α β γ : Type} (form : Form) (f : α → β → γ) : Joint α β γ
  | zip {α β : Type} (form : Form) : Joint α β (α × β)
  | seqLeft {α β : Type} : Joint α β α
  | seqRight {α β : Type} : Joint α β β
  | followedBy {α β : Type} (form : Form) : Joint α β β

namespace Joint

/-- What becomes of the values. -/
def combine : Joint α β γ → α → β → γ
  | zipWith _ f => f
  | zip _ => Prod.mk
  | seqLeft => fun x _ => x
  | seqRight | followedBy _ => fun _ y => y

/-- The joint with its right side, as a layer around the left side. -/
def layer : Joint α β γ → Action σ ε β → Onward σ ε α γ
  | zipWith form f, b => .zipWith form b fun x => Program.host σ (f x)
  | zip form, b => .zip form b
  | seqLeft, b => .seqLeft b
  | seqRight, b => .seqRight b
  | followedBy form, b => .followedBy form b

/-- Puts two actions together. -/
def apply [Tracing σ] (j : Joint α β γ) (a : Action σ ε α) (b : Action σ ε β) : Action σ ε γ :=
  (j.layer b).apply a

/-- After the left side the right side is evaluated, and the values are combined. -/
theorem next_layer (j : Joint α β γ) (b : Action σ ε β) (x : α) :
    (j.layer b).next x = b.evaluate >>= fun
      | .ok y => return .ok (j.combine x y)
      | .error e => return .error e := by
  cases j with
  | followedBy form =>
    refine (bind_pure b.evaluate).symm.trans (bind_congr fun r => ?_)
    cases r <;> rfl
  | _ => exact bind_congr fun r => by cases r <;> rfl

/-- **Left before right.** The right side is evaluated only after a value of the left one. -/
theorem evaluate_apply [Tracing σ] (j : Joint α β γ) (a : Action σ ε α) (b : Action σ ε β) :
    (j.apply a b).evaluate = a.evaluate >>= fun
      | .ok x => b.evaluate >>= fun
        | .ok y => return .ok (j.combine x y)
        | .error e => return .error e
      | .error e => return .error e := by
  rw [apply, (j.layer b).evaluate_apply]
  refine bind_congr fun r => ?_
  cases r with
  | ok x => exact j.next_layer b x
  | error e => rfl

end Joint

/-- Actions that are put together two by two. -/
inductive Tree (σ ε : Type) : Type → Type 1 where
  | leaf {α : Type} (a : Action σ ε α) : Tree σ ε α
  | node {α β γ : Type} (j : Joint α β γ) (l : Tree σ ε α) (r : Tree σ ε β) : Tree σ ε γ

/-- An action of any type, as a leaf. -/
structure Leaf (σ ε : Type) where
  {Result : Type}
  action : Action σ ε Result

/-- A leaf with a value that it may give. -/
structure Fruit (σ ε : Type) where
  {Result : Type}
  action : Action σ ε Result
  value : Result

/-- The leaf, without the value. -/
def Fruit.leaf (f : Fruit σ ε) : Leaf σ ε := ⟨f.action⟩

namespace Tree

/-- The action that the tree stands for. -/
def action [Tracing σ] {α : Type} : Tree σ ε α → Action σ ε α
  | leaf a => a
  | node j l r => j.apply l.action r.action

/-- The leaves, from left to right. -/
def leaves {α : Type} : Tree σ ε α → List (Leaf σ ε)
  | leaf a => [⟨a⟩]
  | node _ l r => l.leaves ++ r.leaves

/-- A value for each leaf. -/
def Values {α : Type} : Tree σ ε α → Type
  | leaf (α := α) _ => α
  | node _ l r => l.Values × r.Values

/-- The leaves with their values, from left to right. -/
def fruits {α : Type} : (t : Tree σ ε α) → t.Values → List (Fruit σ ε)
  | leaf a, v => [⟨a, v⟩]
  | node _ l r, v => l.fruits v.1 ++ r.fruits v.2

/-- What the joints make of the values of the leaves. -/
def fold {α : Type} : (t : Tree σ ε α) → t.Values → α
  | leaf _, v => v
  | node j l r, v => j.combine (l.fold v.1) (r.fold v.2)

theorem map_leaf_fruits (t : Tree σ ε α) (vs : t.Values) :
    (t.fruits vs).map Fruit.leaf = t.leaves := by
  induction t with
  | leaf a => rfl
  | node j l r ihl ihr => rw [fruits, leaves, List.map_append, ihl, ihr]

end Tree

/-- Actions that are evaluated one after the other and give their values. -/
inductive Succeed (n : ℕ) : List (Fruit σ ε) → σ → σ → Prop where
  | nil {s : σ} : Succeed n [] s s
  | cons {f : Fruit σ ε} {fs : List (Fruit σ ε)} {s s₁ s₂ : σ}
      (h : f.action.evaluate n s = .value (.ok f.value) s₁) (hs : Succeed n fs s₁ s₂) :
      Succeed n (f :: fs) s s₂

/-- The second ends as the first, which gives no value. -/
inductive Stops : Ending σ (Except ε α) → Ending σ (Except ε β) → Prop where
  | failed {e : ε} {s : σ} : Stops (.value (.error e) s) (.value (.error e) s)
  | panicked {p : Payload} {s : σ} : Stops (.panic p s) (.panic p s)
  | exhausted : Stops .exhausted .exhausted

/-- The leaves that a tree executes, and how that ends: all of them, and the tree is
folded; or those up to the first that gives no value. -/
inductive Tree.Executes (t : Tree σ ε α) (n : ℕ) (s : σ) :
    List (Leaf σ ε) → Ending σ (Except ε α) → Prop where
  | all {s' : σ} (vs : t.Values) (h : Succeed n (t.fruits vs) s s') :
      Executes t n s t.leaves (.value (.ok (t.fold vs)) s')
  | upTo {done : List (Fruit σ ε)} {l : Leaf σ ε} {rest : List (Leaf σ ε)} {s₁ : σ}
      {e : Ending σ (Except ε α)} (ht : t.leaves = done.map Fruit.leaf ++ l :: rest)
      (h : Succeed n done s s₁) (hl : Stops (l.action.evaluate n s₁) e) :
      Executes t n s (done.map Fruit.leaf ++ [l]) e

/-- The leaves one by one, up to the first that gives no value. Their values are dropped. -/
def inTurn : List (Leaf σ ε) → Work σ (Except ε Unit)
  | [] => return .ok ()
  | l :: ls => do
    match ← l.action.evaluate with
    | .ok _ => inTurn ls
    | .error e => return .error e

section Sequence

variable {n : ℕ} {s s₁ s₂ : σ}

/-- The leaves on the right have their turn after all those on the left. -/
theorem inTurn_append (ls ls' : List (Leaf σ ε)) :
    inTurn (ls ++ ls') = inTurn ls >>= fun
      | .ok () => inTurn ls'
      | .error e => return .error e := by
  induction ls with
  | nil => rfl
  | cons l ls ih =>
    rw [List.cons_append, inTurn, inTurn, ih, bind_assoc]
    refine bind_congr fun r => ?_
    cases r <;> rfl

theorem Succeed.append {fs gs : List (Fruit σ ε)} (hf : Succeed n fs s s₁)
    (hg : Succeed n gs s₁ s₂) : Succeed n (fs ++ gs) s s₂ := by
  induction hf with
  | nil => exact hg
  | cons h _ ih => exact .cons h (ih hg)

/-- What comes after a value does not come after anything else. -/
theorem Stops.bind {e : Ending σ (Except ε α)} {w : Work σ (Except ε β)}
    {f : Except ε β → Work σ (Except ε γ)} (h : Stops e (w n s))
    (hf : ∀ x, f (.error x) = return .error x) : Stops e ((w >>= f) n s) := by
  rw [Work.bind_run]
  generalize w n s = e' at h
  cases h with
  | failed =>
    simp only [hf]
    exact .failed
  | panicked => exact .panicked
  | exhausted => exact .exhausted

end Sequence

namespace Tree

/-- A leaf gives a value or stops the tree. -/
theorem executes_leaf (a : Action σ ε α) (n : ℕ) (s : σ) :
    (leaf a).Executes n s [⟨a⟩] (a.evaluate n s) := by
  have hstops : ∀ e : Ending σ (Except ε α), Stops (a.evaluate n s) e →
      (leaf a).Executes n s [⟨a⟩] e := by
    intro e he
    have hleaves : (leaf a).leaves = List.map Fruit.leaf [] ++ ⟨a⟩ :: [] := rfl
    exact .upTo hleaves .nil he
  rcases h : a.evaluate n s with ⟨x | x, s'⟩ | ⟨p, s'⟩ | _
  · exact hstops _ (h ▸ .failed)
  · exact .all (t := leaf a) x (.cons h .nil)
  · exact hstops _ (h ▸ .panicked)
  · exact hstops _ (h ▸ .exhausted)

section Node

variable [Tracing σ] {j : Joint α β γ} {l : Tree σ ε α} {r : Tree σ ε β} {n : ℕ} {s s₁ s₂ : σ}
  {done : List (Fruit σ ε)} {x : Leaf σ ε} {rest : List (Leaf σ ε)}

/-- A leaf on the left stops the tree. -/
theorem executes_left (ht : l.leaves = done.map Fruit.leaf ++ x :: rest) (h : Succeed n done s s₁)
    (hx : Stops (x.action.evaluate n s₁) (l.action.evaluate n s)) :
    (node j l r).Executes n s (done.map Fruit.leaf ++ [x]) ((node j l r).action.evaluate n s) := by
  have hleaves : (node j l r).leaves = done.map Fruit.leaf ++ x :: (rest ++ r.leaves) := by
    rw [leaves, ht, List.append_assoc, List.cons_append]
  rw [action, j.evaluate_apply]
  exact .upTo hleaves h (hx.bind fun _ => rfl)

/-- All leaves on the left give values, and one on the right stops the tree. -/
theorem executes_right (vs : l.Values) (hl : Succeed n (l.fruits vs) s s₁)
    (he : l.action.evaluate n s = .value (.ok (l.fold vs)) s₁)
    (ht : r.leaves = done.map Fruit.leaf ++ x :: rest) (h : Succeed n done s₁ s₂)
    (hx : Stops (x.action.evaluate n s₂) (r.action.evaluate n s₁)) :
    (node j l r).Executes n s ((l.fruits vs ++ done).map Fruit.leaf ++ [x])
      ((node j l r).action.evaluate n s) := by
  have hleaves : (node j l r).leaves = (l.fruits vs ++ done).map Fruit.leaf ++ x :: rest := by
    rw [leaves, ht, List.map_append, l.map_leaf_fruits, List.append_assoc]
  rw [action, j.evaluate_apply, Work.bind_run, he]
  exact .upTo hleaves (hl.append h) (hx.bind fun _ => rfl)

/-- All leaves on both sides give values. -/
theorem executes_both (vs : l.Values) (hl : Succeed n (l.fruits vs) s s₁)
    (he : l.action.evaluate n s = .value (.ok (l.fold vs)) s₁)
    (ws : r.Values) (hr : Succeed n (r.fruits ws) s₁ s₂)
    (he' : r.action.evaluate n s₁ = .value (.ok (r.fold ws)) s₂) :
    (node j l r).Executes n s (node j l r).leaves ((node j l r).action.evaluate n s) := by
  have hboth : Succeed n ((node j l r).fruits (vs, ws)) s s₂ := hl.append hr
  have hvalue : (node j l r).action.evaluate n s =
      .value (.ok ((node j l r).fold (vs, ws))) s₂ := by
    rw [action, j.evaluate_apply, Work.bind_run, he]
    change (r.action.evaluate >>= _) n s₁ = _
    rw [Work.bind_run, he']
    rfl
  rw [hvalue]
  exact .all (t := node j l r) (vs, ws) hboth

end Node

/-- **A tree executes its leaves from left to right**, up to the first that gives no value. -/
theorem exists_executes [Tracing σ] (t : Tree σ ε α) (n : ℕ) (s : σ) :
    ∃ executed, t.Executes n s executed (t.action.evaluate n s) := by
  -- on the tree, from any state: the right side starts from what the left side has left
  induction t generalizing s with
  | leaf a => exact ⟨_, executes_leaf a n s⟩
  | node j l r ihl ihr =>
    obtain ⟨_, hl⟩ := ihl s
    generalize he : l.action.evaluate n s = e at hl
    cases hl with
    | upTo ht h hx => exact ⟨_, executes_left ht h (he ▸ hx)⟩
    | @all s₁ vs hvs =>
      obtain ⟨_, hr⟩ := ihr s₁
      generalize he' : r.action.evaluate n s₁ = e' at hr
      cases hr with
      | upTo ht h hx => exact ⟨_, executes_right vs hvs he ht h (he' ▸ hx)⟩
      | all ws hws => exact ⟨_, executes_both vs hvs he ws hws he'⟩

/-- **How a tree is bracketed does not matter**, and neither do its joints, but for the
value: its leaves are evaluated one by one. -/
theorem evaluate_dropped [Tracing σ] (t : Tree σ ε α) :
    (t.action.map fun _ => return ()).evaluate = inTurn t.leaves := by
  -- on the tree; the values of both sides are dropped, so the joint of the node is of no concern
  induction t with
  | leaf a =>
    rw [action, Action.evaluate_map, leaves, inTurn]
    refine bind_congr fun r => ?_
    cases r <;> rfl
  | node j l r ihl ihr =>
    rw [leaves, inTurn_append, ← ihl, ← ihr, action, Action.evaluate_map, Action.evaluate_map,
      Action.evaluate_map, j.evaluate_apply, bind_assoc, bind_assoc]
    refine bind_congr fun x => ?_
    cases x with
    | error e => rfl
    | ok x =>
      change (r.action.evaluate >>= _) >>= _ = r.action.evaluate >>= _
      rw [bind_assoc]
      refine bind_congr fun y => ?_
      cases y <;> rfl

end Tree

section Listing

variable {ω : Type} {log : σ → List ω} {n : ℕ} {s s₁ s' : σ} {entries : List (List ω)}

/-- The leaf adds these entries to a list, wherever it ends. -/
def Leaf.Enters (log : σ → List ω) (l : Leaf σ ε) (es : List ω) : Prop :=
  l.action.evaluate.Lists log es

/-- Leaves that give their values have made their entries. -/
theorem Succeed.lists {fs : List (Fruit σ ε)} (h : Succeed n fs s s')
    (hlog : List.Forall₂ (Leaf.Enters log) (fs.map Fruit.leaf) entries) :
    log s' = log s ++ entries.flatten := by
  -- on the leaves that have given their values, with the entries that are left
  induction h generalizing entries with
  | nil =>
    cases hlog
    exact (List.append_nil _).symm
  | @cons f fs s s₁ s₂ h _ ih =>
    rw [List.map_cons] at hlog
    obtain _ | @⟨_, es, _, entries, hf, hlog⟩ := hlog
    have hfirst : log s₁ = log s ++ es := hf n s s₁ (by rw [Fruit.leaf, h]; rfl)
    rw [ih hlog, hfirst, List.flatten_cons, List.append_assoc]

/-- Leaves that give their values and one that does not have made their entries. -/
theorem Succeed.lists_last {done : List (Fruit σ ε)} (h : Succeed n done s s₁) {l : Leaf σ ε}
    {rest : List (Leaf σ ε)} (hl : (l.action.evaluate n s₁).state? = some s')
    (hlog : List.Forall₂ (Leaf.Enters log) (done.map Fruit.leaf ++ l :: rest) entries) :
    log s' = log s ++ (entries.take (done.length + 1)).flatten := by
  induction h generalizing entries with
  | @nil s =>
    obtain _ | @⟨_, es, _, entries, hes, _⟩ := hlog
    have hlast : log s' = log s ++ es := hes n s s' hl
    simpa using hlast
  | @cons f fs s s₁ s₂ h _ ih =>
    rw [List.map_cons, List.cons_append] at hlog
    obtain _ | @⟨_, es, _, entries, hf, hlog⟩ := hlog
    have hfirst : log s₁ = log s ++ es := hf n s s₁ (by rw [Fruit.leaf, h]; rfl)
    rw [ih hl hlog, hfirst, List.length_cons, List.take_succ_cons, List.flatten_cons,
      List.append_assoc]

theorem Stops.state?_eq {e : Ending σ (Except ε α)} {e' : Ending σ (Except ε β)} (h : Stops e e') :
    e.state? = e'.state? := by cases h <;> rfl

/-- The leaves that are executed make their entries, each once and in order. -/
theorem Tree.Executes.lists {t : Tree σ ε α} {executed : List (Leaf σ ε)}
    {e : Ending σ (Except ε α)} (h : t.Executes n s executed e)
    (hlog : List.Forall₂ (Leaf.Enters log) t.leaves entries) (hs : e.state? = some s') :
    log s' = log s ++ (entries.take executed.length).flatten := by
  cases h with
  | all vs h =>
    obtain rfl := Option.some.inj hs
    rw [hlog.length_eq, List.take_length]
    rw [← t.map_leaf_fruits vs] at hlog
    exact h.lists hlog
  | upTo ht h hl =>
    rw [ht] at hlog
    rw [List.length_append, List.length_map, List.length_singleton]
    exact h.lists_last (hl.state?_eq.trans hs) hlog

end Listing

/-- **Left to right, whatever the shape.** A tree that is run evaluates, inside its span,
its leaves from left to right, each once: all of them, and then it gives its fold of their
values; or those up to the first that gives no value, and then it ends as that one did,
with the same failure or panic. If the leaves make entries in a log, it has those of the
leaves that were executed, in this order, and no others. But for its value, a tree with
the same leaves does the same, however it is bracketed and whatever its joints are. -/
theorem tree_runs_leftToRight [Tracing σ] (t : Tree σ ε α) :
    (∀ (n : ℕ) (s : σ), ∃ executed e, t.Executes n (intoSpan s) executed e ∧
      t.action.run n s = e.outOfSpan ∧
      ∀ (ω : Type) (log : σ → List ω) (entries : List (List ω)),
        (∀ note s, log (Tracing.note note s) = log s) →
        List.Forall₂ (Leaf.Enters log) t.leaves entries →
        ∀ s', (t.action.run n s).state? = some s' →
          log s' = log s ++ (entries.take executed.length).flatten) ∧
    ∀ (β : Type) (t' : Tree σ ε β), t'.leaves = t.leaves →
      (t'.action.map fun _ => return ()).run = (t.action.map fun _ => return ()).run := by
  constructor
  · intro n s
    obtain ⟨executed, h⟩ := t.exists_executes n (intoSpan s)
    refine ⟨executed, _, h, t.action.run_eq_outOfSpan n s, ?_⟩
    intro ω log entries hnote hlog s' hs'
    have hmap := Ending.map_state?_outOfSpan hnote (t.action.evaluate n (intoSpan s))
    rw [← Action.run_eq_outOfSpan, hs'] at hmap
    -- the log is that of the state in which the evaluation has ended
    obtain ⟨s₁, hs₁, heq⟩ := Option.map_eq_some_iff.1 hmap.symm
    rw [← heq, h.lists hlog hs₁, view_intoSpan hnote]
  · intro β t' ht
    refine Action.run_eq_of_evaluate ?_
    rw [t'.evaluate_dropped, t.evaluate_dropped, ht]

/-- Makes an entry and ends so. -/
def entering (entry : String) (r : Checked (Except String ℕ)) : Action Complaints String ℕ :=
  .ofFallible do
    Work.update fun s => (s.1 ++ [entry], s.2)
    Work.ofChecked r

theorem entering_enters (entry : String) (r : Checked (Except String ℕ)) :
    Leaf.Enters (σ := Complaints) (ε := String) Prod.fst ⟨entering entry r⟩ [entry] := by
  intro n s s' hs
  rcases r with p | r
  · cases hs
    rfl
  · cases hs
    rfl

/-- Four leaves in two pairs, the third of which fails. -/
def twoPairs : Tree Complaints String ℕ :=
  .node (.zipWith .direct (· + ·))
    (.node .seqLeft (.leaf (entering "a" (.ok (.ok 1)))) (.leaf (entering "b" (.ok (.ok 2)))))
    (.node (.followedBy .direct) (.leaf (entering "c" (.ok (.error "no"))))
      (.leaf (entering "d" (.error .mute))))

/-- The same leaves, bracketed to the right by other joints. -/
def oneSpine : Tree Complaints String (ℕ × ℕ) :=
  .node .seqRight (.leaf (entering "a" (.ok (.ok 1))))
    (.node (.zip .generic) (.leaf (entering "b" (.ok (.ok 2))))
      (.node (.zipWith .generic (· * ·)) (.leaf (entering "c" (.ok (.error "no"))))
        (.leaf (entering "d" (.error .mute)))))

theorem tree_runs_twoPairs :
    List.Forall₂ (Leaf.Enters Prod.fst) twoPairs.leaves [["a"], ["b"], ["c"], ["d"]] ∧
    twoPairs.action.run 0 ([], []) = .value (.error "no") (["a", "b", "c"], [.exit,
      .message .debug "effect evaluation failed" [], .enter, .span .trace "io.run"]) ∧
    (∃ executed e, twoPairs.Executes 0 (intoSpan ([], [])) executed e ∧
      twoPairs.action.run 0 ([], []) = e.outOfSpan ∧
      ["a", "b", "c"] = ([["a"], ["b"], ["c"], ["d"]].take executed.length).flatten) ∧
    oneSpine.leaves = twoPairs.leaves ∧
    (oneSpine.action.map fun _ => return ()).run = (twoPairs.action.map fun _ => return ()).run := by
  obtain ⟨hruns, hshape⟩ := tree_runs_leftToRight twoPairs
  have hentries : List.Forall₂ (Leaf.Enters Prod.fst) twoPairs.leaves [["a"], ["b"], ["c"], ["d"]] :=
    .cons (entering_enters _ _) <| .cons (entering_enters _ _) <|
      .cons (entering_enters _ _) <| .cons (entering_enters _ _) .nil
  obtain ⟨executed, e, hexec, hrun, hlog⟩ := hruns 0 ([], [])
  have hmade := hlog String Prod.fst _ (fun _ _ => rfl) hentries _ rfl
  exact ⟨hentries, rfl, ⟨executed, e, hexec, hrun, hmade⟩, rfl, hshape _ oneSpine rfl⟩

end Deferral
