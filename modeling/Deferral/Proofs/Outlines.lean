import Deferral.Proofs.Agreement
import Deferral.Proofs.Building

/-!
# Scripts that outline programs

An expression of scripts builds an optional value or a result out of the generic operations. It is
the outline of a program: the same operations in the same places, and functions that compute at
once what the functions of the program give, wherever the program calls them
(`Rendering.Outlines`). So the carriers agree on what such scripts build as they do on programs.

Values of scripts stand for the values of all types that a program goes through: pairs, the sides
that end a loop, outcomes that were observed. Where the two differ, the outline is that of the
program with a last step that makes a value of scripts of it.

* `Rendering`: what the operations of a context build, rendered as results.
* `Rendering.Outlines.toExcept_build`: **an outline builds what the program builds as a result**,
  rendered that way, by induction on the outline. `Rendering.Outlines.build_result` and
  `Rendering.Outlines.build_option` say so for results and for optional values.
* `Rendering.Outlines.result_agrees`, `Rendering.Outlines.option_agrees`: a script gives what its
  program settles to, and the action of the program that is run gives the same.
-/

namespace Deferral

variable {σ ε : Type} {handling : Bool}

namespace Script

variable {F : Type → Type} [Context (F Value) (F Value)]

/-- How the outcomes that a context builds are rendered as results, and what its generic operations
build out of operands that are rendered as `x` and `y`. Handlers see a failure as the value that
`named` gives; where `handling` is false there are none, and to fail is to hold no value. -/
structure Rendering (F : Type → Type) [Context (F Value) (F Value)] (ε : Type)
    (handling : Bool) where
  /-- The outcome as a result. -/
  toExcept : F Value → Except ε Value
  /-- What a handler is given for a failure. -/
  named : ε → Value
  /-- The failure that a value stands for. -/
  meant : Value → ε
  meant_named (e : ε) : meant (named e) = e
  ready (r : Prompt F) (k : F Value) : Context.ready r k = k
  -- what is held at once
  absent (h : handling = false) (e : ε) :
    toExcept <$> (Context.absent : Work (World (F Value)) (F Value)) = return .error e
  value (v : Value) :
    toExcept <$> (Context.hold (.value .generic) v : Work (World (F Value)) (F Value)) =
      return .ok v
  failure (h : handling = true) (e : ε) :
    toExcept <$> (Context.hold (.failure .generic) (named e) : Work (World (F Value)) (F Value)) =
      return .error e
  outcome (h : handling = true) {v : Value} {x : Except ε Value}
    (hv : v.toExcept? = some (x.mapError named))
    (hfits : ∀ e, x = .error e → ∀ c : Channel, c.failure? (named e) = some (named e)) :
    toExcept <$> (Context.hold (.outcome .generic) v : Work (World (F Value)) (F Value)) = return x
  -- operations on one operand
  map (r : Prompt F) (f : Closure Term) (k x) (hk : toExcept k = x) :
    toExcept <$> Context.map r (.map .generic) k f = Mappable.map x (r.call f)
  mapConst (v : Value) (k x) (hk : toExcept k = x) :
    toExcept <$> Context.mapConst k v = Mappable.mapConst (World (F Value)) x v
  discard (k x) (hk : toExcept k = x) :
    toExcept <$> Context.wrap .discard k = do
      let u ← Mappable.discard (World (F Value)) x
      Mappable.map u fun _ => return .unit
  observe (h : handling = true) (k x) (hk : toExcept k = x) :
    toExcept <$> Context.wrap (.observe .generic) k =
      Mappable.map (Recoverable.observe (World (F Value)) x) fun y =>
        return .ofExcept (y.mapError named)
  recover (h : handling = true) (r : Prompt F) (f : Closure Term) (k x) (hk : toExcept k = x) :
    toExcept <$> Context.map r (.recover .generic) k f =
      Recoverable.recover x fun e => r.call f (named e)
  adapt (h : handling = true) (r : Prompt F) (f : Closure Term) (k x) (hk : toExcept k = x) :
    toExcept <$> Context.map r .adapt k f =
      Recoverable.adapt x fun e => meant <$> r.call f (named e)
  -- operations on two operands, which were built whatever becomes of the first one
  zipWith (r : Prompt F) (f : Closure₂ Term) (k l x y) (hk : toExcept k = x) (hl : toExcept l = y) :
    toExcept <$> Context.zipWith r .generic k l f = Zippable.zipWith x y (r.call₂ f)
  zip (r : Prompt F) (k l x y) (hk : toExcept k = x) (hl : toExcept l = y) :
    toExcept <$> Context.join r (.zip .generic) k l = do
      let z ← Zippable.zip (World (F Value)) x y
      Mappable.map z fun q => return .pair q.1 q.2
  seqLeft (r : Prompt F) (k l x y) (hk : toExcept k = x) (hl : toExcept l = y) :
    toExcept <$> Context.join r .seqLeft k l = Zippable.seqLeft (World (F Value)) x y
  seqRight (r : Prompt F) (k l x y) (hk : toExcept k = x) (hl : toExcept l = y) :
    toExcept <$> Context.join r .seqRight k l = Zippable.seqRight (World (F Value)) x y
  followedBy (r : Prompt F) (k l x y) (hk : toExcept k = x) (hl : toExcept l = y) :
    toExcept <$> Context.join r (.followedBy .generic) k l =
      Chainable.followedBy (World (F Value)) x y
  seq (r : Prompt F) (k l x y) (hk : toExcept k = x) (hl : toExcept l = y) :
    toExcept <$> Context.join r (.seq .generic) k l = do
      let f ← Mappable.map x fun g => return r.apply g
      Zippable.seq f y
  orElse (h : handling = true) (r : Prompt F) (k l x y) (hk : toExcept k = x)
    (hl : toExcept l = y) :
    toExcept <$> Context.join r .orElse k l = Recoverable.orElse (World (F Value)) x y
  -- operations that go on with what a function builds
  bind (r : Prompt F) (f : Closure Expr) (k x) (hk : toExcept k = x) :
    toExcept <$> Context.chain r (.bind .generic) k f =
      Chainable.bind x fun v => toExcept <$> r.build f v
  andThen (r : Prompt F) (f : Closure Expr) (k x) (hk : toExcept k = x) :
    toExcept <$> Context.chain r (.andThen .generic) k f =
      Chainable.andThen x fun v => toExcept <$> r.build f v
  tryCatch (h : handling = true) (r : Prompt F) (f : Closure Expr) (k x) (hk : toExcept k = x) :
    toExcept <$> Context.chain r (.tryCatch .generic) k f =
      Recoverable.tryCatch x fun e => toExcept <$> r.build f (named e)
  loop (r : Prompt F) (f : Closure Expr) (seed : Value) :
    toExcept <$> Context.loop r .generic seed f = Chainable.loop seed fun v => do
      let x ← toExcept <$> r.build f v
      Mappable.map x sideOf

/-- A failure that every channel takes as it is. -/
theorem failureOf_of_fits {κ : Type} {v : Value} (h : ∀ c : Channel, c.failure? v = some v) :
    (failureOf v : Work (World κ) Value) = return v := by
  funext n s
  exact failureOf_run (h s.channel)

/-- Results are rendered as they are. -/
def Rendering.result : Rendering (Except Value) Value true where
  toExcept := id
  named := id
  meant := id
  meant_named _ := rfl
  ready _ _ := rfl
  absent h := nomatch h
  value _ := rfl
  failure _ _ := rfl
  outcome _ v x hv hfits := by
    rw [id_map]
    change Recoverable.ofExcept (World Result) <$> outcomeOf v = return x
    rw [outcomeOf, hv]
    cases x with
    | ok a => rfl
    | error e =>
      have he : ∀ c : Channel, c.failure? e = some e := hfits e rfl
      change Recoverable.ofExcept (World Result) <$> Except.error <$> failureOf e = _
      rw [failureOf_of_fits he]
      rfl
  map _ _ _ _ := by rintro rfl; exact id_map _
  mapConst _ _ _ := by rintro rfl; exact id_map _
  discard _ _ := by rintro rfl; exact id_map _
  observe _ k _ := by rintro rfl; cases k <;> rfl
  recover _ _ _ _ _ := by rintro rfl; exact id_map _
  adapt _ _ _ _ _ := by rintro rfl; simp only [id_map]; rfl
  zipWith _ _ _ _ _ _ := by rintro rfl rfl; exact id_map _
  zip _ _ _ _ _ := by rintro rfl rfl; exact id_map _
  seqLeft _ _ _ _ _ := by rintro rfl rfl; exact id_map _
  seqRight _ _ _ _ _ := by rintro rfl rfl; exact id_map _
  followedBy _ _ _ _ _ := by rintro rfl rfl; exact id_map _
  seq _ _ _ _ _ := by rintro rfl rfl; exact id_map _
  orElse _ _ _ _ _ _ := by rintro rfl rfl; exact id_map _
  bind _ _ _ _ := by rintro rfl; simp only [id_map]; rfl
  andThen _ _ _ _ := by rintro rfl; simp only [id_map]; rfl
  tryCatch _ _ _ _ _ := by rintro rfl; simp only [id_map]; rfl
  loop _ _ _ := by simp only [id_map]; rfl

/-- An optional value as a result whose failure says nothing. -/
def presence {α : Type} : Option α → Except Unit α
  | some v => .ok v
  | none => .error ()

/-- The rendering of an optional value can be undone. -/
theorem toOption_presence {α : Type} (x : Option α) : (presence x).toOption = x := by
  cases x <;> rfl

/-- A value that is there is rendered as one, whatever work gives it. -/
theorem presence_map (w : Work (World (Option Value)) Value) :
    presence <$> some <$> w = Except.ok <$> w := Functor.map_map _ _ _

/-- Absent values are rendered as failures. -/
def Rendering.option : Rendering Option Unit false where
  toExcept := presence
  named _ := .unit
  meant _ := ()
  meant_named _ := rfl
  ready _ _ := rfl
  absent _ _ := rfl
  value _ := rfl
  failure h := nomatch h
  outcome h := nomatch h
  observe h := nomatch h
  recover h := nomatch h
  adapt h := nomatch h
  orElse h := nomatch h
  tryCatch h := nomatch h
  map r f k _ := by
    rintro rfl
    cases k with
    | some v => exact presence_map _
    | none => rfl
  mapConst v k _ := by rintro rfl; cases k <;> rfl
  discard k _ := by rintro rfl; cases k <;> rfl
  zipWith r f k l _ _ := by
    rintro rfl rfl
    rcases k with _ | v
    · rfl
    · rcases l with _ | w
      · rfl
      · exact presence_map _
  zip r k l _ _ := by rintro rfl rfl; cases k <;> cases l <;> rfl
  seqLeft r k l _ _ := by rintro rfl rfl; cases k <;> cases l <;> rfl
  seqRight r k l _ _ := by rintro rfl rfl; cases k <;> cases l <;> rfl
  followedBy r k l _ _ := by rintro rfl rfl; cases k <;> cases l <;> rfl
  seq r k l _ _ := by
    rintro rfl rfl
    rcases k with _ | g
    · cases l <;> rfl
    · rcases l with _ | v
      · rfl
      · exact presence_map _
  bind r f k _ := by rintro rfl; cases k <;> rfl
  andThen r f k _ := by rintro rfl; cases k <;> rfl
  loop r f seed := by
    -- the rounds differ only in how they end, and a round that goes on has the same next seed
    let step : Value → Work (World (Option Value)) (Option (Either Value Value)) := fun v => do
      let x ← r.build f v
      Mappable.map x sideOf
    have hround : ∀ v, Work.exceptRound (fun v => do
          let x ← presence <$> r.build f v
          Mappable.map x sideOf) v =
        optionRound step v >>= Either.mapRight (Program.host _ presence) := by
      intro v
      rw [Work.exceptRound, optionRound, bind_map_left, bind_assoc, bind_assoc, bind_assoc]
      refine bind_congr fun x => ?_
      rcases x with _ | w
      · rfl
      · change (Except.ok <$> sideOf w >>= _) = (some <$> sideOf w >>= _)
        rw [bind_map_left, bind_map_left]
        refine bind_congr fun e => ?_
        cases e <;> rfl
    change presence <$> Prod.fst <$> Work.iterate (optionRound step) seed =
      Prod.fst <$> Work.iterate (Work.exceptRound _) seed
    rw [Program.iterate_mapRight hround, Functor.map_map, Functor.map_map]
    rfl

/-- Where calls nest to the depth `d`, the term computes the value at once and does nothing else. -/
def Computes (F : Type → Type) [Context (F Value) (F Value)] (d : ℕ) (env : Env) (t : Term)
    (v : Value) : Prop :=
  t.eval (Runner.within d : Prompt F) env = return v

/-- The side of a value, if it has one. -/
def Value.sided (v : Value) : Either Value Value := v.toEither?.getD (.left v)

/-- The seeds of the rounds of a loop: each round settles to a left value with the next seed. -/
def Met (k : Value → Program ε handling Value) : Value → Value → Prop :=
  Relation.ReflTransGen fun v w => (k v).Settles (.ok (.left w))

/-- A value with a side is taken for it, and nothing else happens. -/
theorem sideOf_eq {σ : Type} {v : Value} (h : v.toEither?.isSome) :
    (sideOf v : Work σ _) = return v.sided := by
  rw [sideOf, Value.sided]
  obtain ⟨e, he⟩ := Option.isSome_iff_exists.1 h
  rw [he]
  rfl

/-- What is read as a left value is one. -/
theorem Value.eq_left_of_sided {v w : Value} (h : v.toEither?.isSome) (hv : v.sided = .left w) :
    v = .left w := by
  cases v <;> simp_all [Value.toEither?, Value.sided]

/-- Where calls nest to the depth `d`, the expression puts the operations of the program in their
places. Functions need to compute only what the program calls them with. -/
inductive Rendering.Outlines (R : Rendering F ε handling) :
    ℕ → Env → Expr → Program ε handling Value → Prop where
  -- code around the operations
  | condTrue {d env c a b p} (hc : Computes F d env c (.bool true)) (ha : Outlines R d env a p) :
      Outlines R d env (.cond c a b) p
  | condFalse {d env c a b p} (hc : Computes F d env c (.bool false)) (hb : Outlines R d env b p) :
      Outlines R d env (.cond c a b) p
  | bindTerm {d env x t v e p} (ht : Computes F d env t v)
      (he : Outlines R d ((x, v) :: env) e p) : Outlines R d env (.bind x t e) p
  | after {d env t v e p} (ht : Computes F d env t v) (he : Outlines R d env e p) :
      Outlines R d env (.after t e) p
  | casesRight {d env t x y a b v w p} (ht : Computes F d env t v) (hv : v.side? = some (.right w))
      (ha : Outlines R d ((x, w) :: env) a p) : Outlines R d env (.cases t x a y b) p
  | casesLeft {d env t x y a b v w p} (ht : Computes F d env t v) (hv : v.side? = some (.left w))
      (hb : Outlines R d ((y, w) :: env) b p) : Outlines R d env (.cases t x a y b) p
  -- what is held at once; a failure must be one on every channel, as the world is not known
  | absent {d env} (h : handling = false) (e : ε) : Outlines R d env .absent (.throw e)
  | value {d env t v} (ht : Computes F d env t v) :
      Outlines R d env (.hold (.value .generic) t) (.ofValue v)
  | failure {d env t} (h : handling = true) (e : ε) (ht : Computes F d env t (R.named e)) :
      Outlines R d env (.hold (.failure .generic) t) (.throw e)
  | outcome {d env t v x} (h : handling = true) (ht : Computes F d env t v)
      (hv : v.toExcept? = some (x.mapError R.named))
      (hfits : ∀ e, x = .error e → ∀ c : Channel, c.failure? (R.named e) = some (R.named e)) :
      Outlines R d env (.hold (.outcome .generic) t) (.ofExcept h x)
  -- one operand; the code of the function runs under one call less
  | map {d env e x body p f} (he : Outlines R (d + 1) env e p)
      (hf : ∀ v, p.Settles (.ok v) → Computes F d ((x, v) :: env) body (f v)) :
      Outlines R (d + 1) env (.map (.map .generic) e x body) (p.map f)
  | mapConst {d env e t v p} (he : Outlines R d env e p) (ht : Computes F d env t v) :
      Outlines R d env (.mapConst e t) (p.mapConst v)
  | discard {d env e p} (he : Outlines R d env e p) :
      Outlines R d env (.wrap .discard e) (p.discard.map fun _ => .unit)
  | observe {d env e p} (h : handling = true) (he : Outlines R d env e p) :
      Outlines R d env (.wrap (.observe .generic) e)
        ((p.observe h).map fun x => .ofExcept (x.mapError R.named))
  | recover {d env e x body p f} (h : handling = true) (he : Outlines R (d + 1) env e p)
      (hf : ∀ y, p.Settles (.error y) → Computes F d ((x, R.named y) :: env) body (f y)) :
      Outlines R (d + 1) env (.map (.recover .generic) e x body) (p.recover h f)
  | adapt {d env e x body p f} (h : handling = true) (he : Outlines R (d + 1) env e p)
      (hf : ∀ y, p.Settles (.error y) → Computes F d ((x, R.named y) :: env) body (R.named (f y))) :
      Outlines R (d + 1) env (.map .adapt e x body) (p.adapt h f)
  -- two operands
  | zipWith {d env a b x y body p q f} (ha : Outlines R (d + 1) env a p)
      (hb : Outlines R (d + 1) env b q)
      (hf : ∀ v w, p.Settles (.ok v) → q.Settles (.ok w) →
        Computes F d ((y, w) :: (x, v) :: env) body (f v w)) :
      Outlines R (d + 1) env (.zipWith .generic a b x y body) (p.zipWith q f)
  | zip {d env a b p q} (ha : Outlines R d env a p) (hb : Outlines R d env b q) :
      Outlines R d env (.join (.zip .generic) a b) ((p.zip q).map fun z => .pair z.1 z.2)
  | seqLeft {d env a b p q} (ha : Outlines R d env a p) (hb : Outlines R d env b q) :
      Outlines R d env (.join .seqLeft a b) (p.seqLeft q)
  | seqRight {d env a b p q} (ha : Outlines R d env a p) (hb : Outlines R d env b q) :
      Outlines R d env (.join .seqRight a b) (p.seqRight q)
  | followedBy {d env a b p q} (ha : Outlines R d env a p) (hb : Outlines R d env b q) :
      Outlines R d env (.join (.followedBy .generic) a b) (p.followedBy q)
  | seq {d env a b p q f} (ha : Outlines R d env a p) (hb : Outlines R d env b q)
      (hf : ∀ g v, p.Settles (.ok g) → q.Settles (.ok v) →
        (Runner.within d : Prompt F).apply g v = return f g v) :
      Outlines R d env (.join (.seq .generic) a b) ((p.map f).seq q)
  | orElse {d env a b p q} (h : handling = true) (ha : Outlines R d env a p)
      (hb : Outlines R d env b q) : Outlines R d env (.join .orElse a b) (p.orElse h q)
  -- functions that build: outlines again, of what the program goes on with
  | bind {d env e x body p k} (he : Outlines R (d + 1) env e p)
      (hk : ∀ v, p.Settles (.ok v) → Outlines R d ((x, v) :: env) body (k v)) :
      Outlines R (d + 1) env (.chain (.bind .generic) e x body) (p.bind k)
  | andThen {d env e x body p k} (he : Outlines R (d + 1) env e p)
      (hk : ∀ v, p.Settles (.ok v) → Outlines R d ((x, v) :: env) body (k v)) :
      Outlines R (d + 1) env (.chain (.andThen .generic) e x body) (p.andThen k)
  | tryCatch {d env e x body p k} (h : handling = true) (he : Outlines R (d + 1) env e p)
      (hk : ∀ y, p.Settles (.error y) → Outlines R d ((x, R.named y) :: env) body (k y)) :
      Outlines R (d + 1) env (.chain (.tryCatch .generic) e x body) (p.tryCatch h k)
  | loop {d env t x body seed k} (ht : Computes F (d + 1) env t seed)
      (hk : ∀ v, Met k seed v → Outlines R d ((x, v) :: env) body (k v))
      (hside : ∀ v w, Met k seed v → (k v).Settles (.ok w) → w.toEither?.isSome) :
      Outlines R (d + 1) env (.loop .generic t x body) (.loop seed fun v => (k v).map Value.sided)

namespace Rendering

variable {R : Rendering F ε handling} {d : ℕ} {env : Env} {e : Expr}
  {p q : Program ε handling Value}

/-- An operation on one operand, after the operand was built. -/
theorem toExcept_bind {w : Work (World (F Value)) (F Value)}
    {f : F Value → Work (World (F Value)) (F Value)}
    {g g' : Except ε Value → Work (World (F Value)) (Except ε Value)}
    (hw : R.toExcept <$> w = p.result _) (hf : ∀ k x, R.toExcept k = x → R.toExcept <$> f k = g x)
    (hg : ∀ x, p.Settles x → g x = g' x) : R.toExcept <$> (w >>= f) = p.result _ >>= g' := by
  rw [map_bind, ← Program.result_bind_congr hg, ← hw, bind_map_left]
  exact bind_congr fun k => hf k _ rfl

/-- An operation on two operands, after they were built one after the other. -/
theorem toExcept_bind₂ {w w' : Work (World (F Value)) (F Value)}
    {f : F Value → F Value → Work (World (F Value)) (F Value)}
    {g g' : Except ε Value → Except ε Value → Work (World (F Value)) (Except ε Value)}
    (hw : R.toExcept <$> w = p.result _) (hw' : R.toExcept <$> w' = q.result _)
    (hf : ∀ k l x y, R.toExcept k = x → R.toExcept l = y → R.toExcept <$> f k l = g x y)
    (hg : ∀ x y, p.Settles x → q.Settles y → g x y = g' x y) :
    R.toExcept <$> (w >>= fun k => w' >>= f k) = p.result _ >>= fun x => q.result _ >>= g' x := by
  refine toExcept_bind (g := fun x => q.result _ >>= g x) hw (fun k x hk => ?_) fun x hx => ?_
  · exact toExcept_bind hw' (fun l y hl => hf k l x y hk hl) fun _ _ => rfl
  · exact Program.result_bind_congr fun y hy => hg x y hx hy

/-- Under one call more, the code of a function is built under the calls that are left. -/
theorem build_within (R : Rendering F ε handling) (d : ℕ) (f : Closure Expr) (v : Value) :
    (Runner.within (d + 1) : Prompt F).build f v =
      f.body.build (Runner.within d : Prompt F) (f.scope v) := by
  change Context.ready (Runner.within d) <$> f.body.build _ _ = _
  rw [show Context.ready (Runner.within d : Prompt F) = id from funext (R.ready _), id_map]

/-- What a function builds, rendered as the result of the program it stands for. -/
theorem toExcept_build_within {f : Closure Expr} {v : Value}
    (h : R.toExcept <$> f.body.build (Runner.within d : Prompt F) (f.scope v) = p.result _) :
    R.toExcept <$> (Runner.within (d + 1) : Prompt F).build f v = p.result _ := by
  rw [R.build_within, h]

/-- A function that is a value, applied to another value: what it computes is known where both are
there. -/
theorem seq_apply {apply : Value → Value → Work σ Value} {f : Value → Value → Value}
    {x y : Except ε Value} (h : ∀ g v, x = .ok g → y = .ok v → apply g v = return f g v) :
    (do
      let g ← Mappable.map x fun g => return apply g
      Zippable.seq g y : Work σ (Except ε Value)) =
        Zippable.seq (Program.host σ <$> f <$> x) y := by
  rcases x with e | g
  · cases y <;> rfl
  · rcases y with e | v
    · rfl
    · exact congrArg (Except.ok <$> ·) (h g v rfl rfl)

/-- A loop whose rounds build what those of the program do, on the seeds that the program meets. -/
theorem loop_eq {x : String} {body : Expr} {seed : Value} {k : Value → Program ε handling Value}
    (hk : ∀ v, Met k seed v →
      R.toExcept <$> body.build (Runner.within d : Prompt F) ((x, v) :: env) = (k v).result _)
    (hside : ∀ v w, Met k seed v → (k v).Settles (.ok w) → w.toEither?.isSome) :
    (Chainable.loop seed fun v => do
      let y ← R.toExcept <$> (Runner.within (d + 1) : Prompt F).build ⟨env, x, body⟩ v
      Mappable.map y sideOf : Work (World (F Value)) (Except ε Value)) =
        (Program.loop seed fun v => (k v).map Value.sided).result (World (F Value)) := by
  have hround : ∀ v, Met k seed v → (do
      let y ← R.toExcept <$> (Runner.within (d + 1) : Prompt F).build ⟨env, x, body⟩ v
      Mappable.map y sideOf) = ((k v).map Value.sided).result (World (F Value)) := by
    intro v hv
    rw [toExcept_build_within (hk v hv)]
    refine Program.result_bind_congr fun y hy => ?_
    cases y with
    | error e => rfl
    | ok w => exact congrArg (Except.ok <$> ·) (sideOf_eq (hside v w hv hy))
  -- from the program's side: only there is it known which seeds are met
  refine congrArg (Prod.fst <$> ·) (Work.iterate_congr (fun v hv => ?_)
    (fun v v' n s s' hv h => ?_) (Relation.ReflTransGen.refl : Met k seed seed)).symm
  · rw [Work.exceptRound, Work.exceptRound, hround v hv]
    rfl
  · have hsettles : ((k v).map Value.sided).Settles (.ok (.left v')) :=
      Program.settles_of_exceptRound h
    obtain ⟨y, hy, hleft⟩ := hsettles
    cases y with
    | error e => cases hleft
    | ok w =>
      have hw : w.sided = .left v' := (Except.ok.inj hleft).symm
      rw [Value.eq_left_of_sided (hside v w hv hy) hw] at hy
      exact hv.tail hy

/-- **An outline builds the result of its program.** -/
theorem Outlines.toExcept_build (h : R.Outlines d env e p) :
    R.toExcept <$> e.build (Runner.within d : Prompt F) env = p.result (World (F Value)) := by
  -- by the operation; what follows an operand matters only for what the operand settles to
  induction h with
  | condTrue hc _ ih | condFalse hc _ ih =>
    rw [Expr.build, hc, pure_bind]
    exact ih
  | bindTerm ht _ ih | after ht _ ih =>
    rw [Expr.build, ht, pure_bind]
    exact ih
  | casesRight ht hv _ ih | casesLeft ht hv _ ih =>
    rw [Expr.build, ht, pure_bind, hv]
    exact ih
  | absent h e => exact R.absent h e
  | value ht =>
    rw [Expr.build, ht, pure_bind]
    exact R.value _
  | failure h e ht =>
    rw [Expr.build, ht, pure_bind]
    exact R.failure h e
  | @outcome _ _ _ _ x h ht hv hfits =>
    rw [Expr.build, ht, pure_bind, R.outcome h hv hfits]
    cases x <;> rfl
  | map _ hf ih =>
    refine toExcept_bind ih (R.map _ _) fun x hx => ?_
    cases x with
    | error e => rfl
    | ok v => exact congrArg (Except.ok <$> ·) (hf v hx)
  | mapConst _ ht ih =>
    refine toExcept_bind ih (fun k x hk => ?_) fun x _ => rfl
    rw [ht, pure_bind]
    exact R.mapConst _ k x hk
  | discard _ ih =>
    refine (toExcept_bind ih R.discard fun x _ => rfl).trans ?_
    exact (bind_assoc _ _ _).symm
  | observe h _ ih =>
    refine (toExcept_bind ih (R.observe h) fun x _ => rfl).trans ?_
    simp only [Program.result, Program.build, bind_assoc, pure_bind]
    rfl
  | recover h _ hf ih =>
    refine toExcept_bind ih (R.recover h _ _) fun x hx => ?_
    cases x with
    | error e => exact congrArg (_ <$> ·) (hf e hx)
    | ok v => rfl
  | @adapt _ _ _ _ _ _ f h _ hf ih =>
    refine toExcept_bind ih (R.adapt h _ _) fun x hx => ?_
    cases x with
    | error e =>
      have hcall := congrArg (R.meant <$> ·) (hf e hx)
      simp only [map_pure, R.meant_named] at hcall
      exact congrArg (_ <$> ·) hcall
    | ok v => rfl
  | zipWith _ _ hf iha ihb =>
    refine toExcept_bind₂ iha ihb (R.zipWith _ _) fun x y hx hy => ?_
    rcases x with e | v
    · rfl
    · rcases y with e | w
      · rfl
      · exact congrArg (Except.ok <$> ·) (hf v w hx hy)
  | zip _ _ iha ihb =>
    refine (toExcept_bind₂ iha ihb (R.zip _) fun x y _ _ => rfl).trans ?_
    simp only [Program.result, Program.build, bind_assoc]
    rfl
  | seqLeft _ _ iha ihb => exact toExcept_bind₂ iha ihb (R.seqLeft _) fun x y _ _ => rfl
  | seqRight _ _ iha ihb => exact toExcept_bind₂ iha ihb (R.seqRight _) fun x y _ _ => rfl
  | followedBy _ _ iha ihb => exact toExcept_bind₂ iha ihb (R.followedBy _) fun x y _ _ => rfl
  | seq _ _ hf iha ihb =>
    refine (toExcept_bind₂ iha ihb (R.seq _) fun x y hx hy =>
      seq_apply fun g v hg hv => hf g v (hg ▸ hx) (hv ▸ hy)).trans ?_
    simp only [Program.result, Program.build, bind_assoc]
    refine bind_congr fun x => ?_
    cases x <;> rfl
  | orElse h _ _ iha ihb => exact toExcept_bind₂ iha ihb (R.orElse h _) fun x y _ _ => rfl
  | bind _ _ ih ihk =>
    refine toExcept_bind ih (R.bind _ _) fun x hx => ?_
    cases x with
    | error e => rfl
    | ok v => exact toExcept_build_within (ihk v hx)
  | andThen _ _ ih ihk =>
    refine toExcept_bind ih (R.andThen _ _) fun x hx => ?_
    cases x with
    | error e => rfl
    | ok v => exact toExcept_build_within (ihk v hx)
  | tryCatch h _ _ ih ihk =>
    refine toExcept_bind ih (R.tryCatch h _ _) fun x hx => ?_
    cases x with
    | error e => exact toExcept_build_within (ihk e hx)
    | ok v => rfl
  | loop ht _ hside ihk =>
    rw [Expr.build, ht, pure_bind, R.loop]
    exact loop_eq ihk hside

/-- A value, then a failure with it, which is handled by pairing it with itself. -/
example (d : ℕ) : Rendering.result.Outlines (d + 1) []
    (.map (.recover .generic) (.chain (.bind .generic) (.hold (.value .generic) (.int 1)) "x"
      (.hold (.failure .generic) (.var "x"))) "e" (.prim .pair [.var "e", .var "e"]))
    (.recover rfl (.bind (.ofValue (.int 1)) .throw) fun y => .pair y y) :=
  .recover rfl (.bind (.value rfl) fun v _ => .failure rfl v rfl) fun _ _ => rfl

/-- **As a result**, the script builds what its program builds, under every budget and from every
state. -/
theorem Outlines.build_result {p : Program Value true Value}
    (h : Rendering.result.Outlines d env e p) :
    e.build (Runner.within d : Prompt (Except Value)) env = p.result (World Result) := by
  rw [← h.toExcept_build]
  exact (id_map _).symm

/-- **As an optional value**, the script builds what its program builds. -/
theorem Outlines.build_option {p : Program Unit false Value}
    (h : Rendering.option.Outlines d env e p) :
    e.build (Runner.within d : Prompt Option) env = p.buildOption (World (Option Value)) := by
  have hrendered : Except.toOption ∘ (presence : Option Value → Except Unit Value) = id :=
    funext toOption_presence
  rw [p.buildOption_eq, ← h.toExcept_build, ← comp_map]
  change _ = (Except.toOption ∘ presence) <$> _
  rw [hrendered, id_map]

end Rendering

section Reports

open Filter

variable [Tracing σ] {e : Expr}

/-- Where an expression builds an outcome and changes nothing, the report tells the outcome. -/
theorem buildOutcome_ending {n : ℕ} {x : F Value} {v : Value}
    (hbuild : ∀ s, e.build (Runner.within n : Prompt F) [] n s = .value x s)
    (hperform : (Context.perform (Context.ready (Runner.within n) x) :
      Work (World (F Value)) Value) = return v) :
    (buildOutcome (κ := F Value) n e).ending = some (.ok v) := by
  let work : Prompt F → Work (World (F Value)) Value := fun r => do
    let k ← e.build r []
    Context.perform (Context.ready r k)
  have hrun : ∀ s, withRunner work n s = .value v s := by
    intro s
    change (e.build (Runner.within n) [] >>= _) n s = _
    rw [Work.bind_run, hbuild]
    exact congrFun (congrFun hperform n) s
  change ((World.fresh false .values []).report n (withRunner work)).1.ending = _
  rw [World.report, Work.runFrom, hrun]
  rfl

/-- **Results.** The script gives what its program settles to, and so does a run of the program as
an action, which adds only entries to the trace. -/
theorem Rendering.Outlines.result_agrees {p : Program Value true Value} {r : Except Value Value}
    (h : ∀ᶠ n in atTop, Rendering.result.Outlines n [] e p) (hr : p.Settles r) :
    (∀ᶠ n in atTop, (evaluateResult n e).ending = some (.ok (.ofExcept r))) ∧
      Work.Gives Noted (p.action σ).run r := by
  refine ⟨?_, hr.gives_action.run⟩
  filter_upwards [h, (hr.gives_result (σ := World Result)).eventually] with n hn hgives
  refine buildOutcome_ending (fun s => ?_) rfl
  rw [hn.build_result]
  obtain ⟨s', rfl, hs⟩ := hgives s
  exact hs

/-- **Optional values.** The script gives a value exactly where its program settles to one, which is
where a run of the program as an action gives it. -/
theorem Rendering.Outlines.option_agrees {p : Program Unit false Value} {r : Except Unit Value}
    (h : ∀ᶠ n in atTop, Rendering.option.Outlines n [] e p) (hr : p.Settles r) :
    (∀ᶠ n in atTop, (evaluateOptional n e).ending = some (.ok (.ofOption r.toOption))) ∧
      Work.Gives Noted (p.action σ).run r := by
  refine ⟨?_, hr.gives_action.run⟩
  filter_upwards [h, (hr.gives_result (σ := World (Option Value))).eventually] with n hn hgives
  refine buildOutcome_ending (x := r.toOption) (fun s => ?_) ?_
  · rw [hn.build_option, p.buildOption_eq]
    obtain ⟨s', rfl, hs⟩ := hgives s
    rw [map_eq_pure_bind, Work.bind_run, hs]
    rfl
  · cases r <;> rfl

end Reports

end Script
end Deferral
