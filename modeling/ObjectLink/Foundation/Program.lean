import Mathlib.Data.Nat.Notation

/-!
# Programs of a thread

The code of one thread of several that share a state, as the tree of what it does: it accesses the
state, acquires and releases mutexes, and calls code outside, of which nothing is known. Calls may
throw, and so may the code itself. A tree says nothing about what others do in between; what it
means is given twice, by running it alone (`eval`, here) and among others (`Threads.lean`).

* `followedBy`: what is done with the outcome of a program, be it a value or an exception; `>>=`
  and `tryCatch` are instances of it.
* `withLock`: a block that holds a mutex, and releases it however it ends.
* `eval`: running a program alone, given how the code outside behaves (`Interpretation`); the lemmas
  `eval_followedBy` to `eval_withLock` run one piece after the other.
-/

namespace ObjectLink.Foundation

/-- What the code is written against: the state the threads share, the mutexes, the calls of code
outside and their replies, and what can be thrown. -/
structure Platform where
  State : Type
  Mutex : Type
  Call : Type
  Reply : Type
  Exception : Type

/-- Code that ends with a value `α` or an exception. -/
inductive Program (P : Platform) (α : Type) : Type 1 where
  | done (r : Except P.Exception α)
  | access {β : Type} (f : P.State → β × P.State) (next : β → Program P α)
  | acquire (m : P.Mutex) (next : Program P α)
  | release (m : P.Mutex) (next : Program P α)
  | call (c : P.Call) (next : Except P.Exception P.Reply → Program P α)

namespace Program

variable {P : Platform} {α β : Type}

/-- Goes on with the outcome of a program. -/
def followedBy : Program P α → (Except P.Exception α → Program P β) → Program P β
  | done r, f => f r
  | access g next, f => access g fun b => (next b).followedBy f
  | acquire m next, f => acquire m (next.followedBy f)
  | release m next, f => release m (next.followedBy f)
  | call c next, f => call c fun r => (next r).followedBy f

/-- What follows a value; an exception is passed on. -/
def onValue (f : α → Program P β) : Except P.Exception α → Program P β
  | .ok a => f a
  | .error e => done (.error e)

/-- What follows an exception; a value is passed on. -/
def onException (f : P.Exception → Program P α) : Except P.Exception α → Program P α
  | .ok a => done (.ok a)
  | .error e => f e

instance : Monad (Program P) where
  pure a := done (.ok a)
  bind p f := p.followedBy (onValue f)

instance : MonadExceptOf P.Exception (Program P) where
  throw e := done (.error e)
  tryCatch p f := p.followedBy (onException f)

/-- Changes the state, and gives a value. -/
def exchange (f : P.State → α × P.State) : Program P α := access f fun a => done (.ok a)

/-- Reads the state. -/
def read (f : P.State → α) : Program P α := exchange fun s => (f s, s)

/-- Changes the state. -/
def update (f : P.State → P.State) : Program P Unit := exchange fun s => ((), f s)

/-- Calls code outside. -/
def outside (c : P.Call) : Program P P.Reply := call c done

/-- A block in which a `std::unique_lock` is held. -/
def withLock (m : P.Mutex) (p : Program P α) : Program P α :=
  acquire m (p.followedBy fun r => release m (done r))

/-! ## Running a program alone -/

/-- How a program is run: what an access makes of the world `W`, and how the code outside answers a
call. -/
structure Interpretation (P : Platform) (W : Type) where
  access : {β : Type} → (P.State → β × P.State) → W → β × W
  answer : (c : P.Call) → W → Except P.Exception P.Reply × W

section Eval

variable {W : Type} (I : Interpretation P W)

/-- The outcome of a program that nobody interferes with. -/
def eval : Program P α → W → Except P.Exception α × W
  | done r, w => (r, w)
  | access f next, w => eval (next (I.access f w).1) (I.access f w).2
  | acquire _ next, w => eval next w
  | release _ next, w => eval next w
  | call c next, w => eval (next (I.answer c w).1) (I.answer c w).2

variable {I} {w w' : W}

theorem eval_followedBy (p : Program P α) (f : Except P.Exception α → Program P β) (w : W) :
    (p.followedBy f).eval I w = (f (p.eval I w).1).eval I (p.eval I w).2 := by
  induction p generalizing w with
  | done r => rfl
  | access g next ih => exact ih _ _
  | acquire m next ih => exact ih _
  | release m next ih => exact ih _
  | call c next ih => exact ih _ _

theorem eval_bind (p : Program P α) (f : α → Program P β) : (p >>= f).eval I w =
    match p.eval I w with
    | (.ok a, w') => (f a).eval I w'
    | (.error e, w') => (.error e, w') := by
  have h : (p >>= f).eval I w = (onValue f (p.eval I w).1).eval I (p.eval I w).2 :=
    eval_followedBy p _ w
  rw [h]
  cases hp : p.eval I w with
  | mk r w' =>
    cases r with
    | ok a => rfl
    | error e => rfl

/-- After code that returned. -/
theorem eval_bind_ok {p : Program P α} {f : α → Program P β} {a : α}
    (h : p.eval I w = (.ok a, w')) : (p >>= f).eval I w = (f a).eval I w' := by
  rw [eval_bind, h]

/-- After code that threw. -/
theorem eval_bind_error {p : Program P α} {f : α → Program P β} {e : P.Exception}
    (h : p.eval I w = (.error e, w')) : (p >>= f).eval I w = (.error e, w') := by
  rw [eval_bind, h]

theorem eval_tryCatch (p : Program P α) (f : P.Exception → Program P α) :
    (tryCatch p f).eval I w =
      match p.eval I w with
      | (.ok a, w') => (.ok a, w')
      | (.error e, w') => (f e).eval I w' := by
  have h : (tryCatch p f).eval I w = (onException f (p.eval I w).1).eval I (p.eval I w).2 :=
    eval_followedBy p _ w
  rw [h]
  cases hp : p.eval I w with
  | mk r w' =>
    cases r with
    | ok a => rfl
    | error e => rfl

/-- **The rule for what a program leaves alone**: what holds between the worlds before and after
each access and each call of code outside holds between those before and after a whole program. -/
theorem eval_related {R : W → W → Prop} (hrefl : ∀ w, R w w)
    (htrans : ∀ w₁ w₂ w₃, R w₁ w₂ → R w₂ w₃ → R w₁ w₃)
    (haccess : ∀ (β : Type) (f : P.State → β × P.State) (w : W), R w (I.access f w).2)
    (hanswer : ∀ c w, R w (I.answer c w).2) (p : Program P α) (w : W) : R w (p.eval I w).2 := by
  induction p generalizing w with
  | done r => exact hrefl w
  | access f next ih => exact htrans _ _ _ (haccess _ f w) (ih _ _)
  | acquire m next ih => exact ih w
  | release m next ih => exact ih w
  | call c next ih => exact htrans _ _ _ (hanswer c w) (ih _ _)

@[simp] theorem eval_pure (a : α) : (pure a : Program P α).eval I w = (.ok a, w) := rfl

@[simp] theorem eval_done (r : Except P.Exception α) : (done r).eval I w = (r, w) := rfl

@[simp] theorem eval_exchange (f : P.State → α × P.State) :
    (exchange f).eval I w = (.ok (I.access f w).1, (I.access f w).2) := rfl

@[simp] theorem eval_outside (c : P.Call) : (outside c).eval I w = I.answer c w := rfl

@[simp] theorem eval_withLock (m : P.Mutex) (p : Program P α) :
    (withLock m p).eval I w = p.eval I w := eval_followedBy p _ w

end Eval

end Program

end ObjectLink.Foundation
