import ObjectLink.Foundation.Machine
import ObjectLink.Foundation.Program

/-!
# Programs among other threads

What a thread does when it runs programs while other threads change the state and the code outside
does what it likes, calls of the same operations included. A `Thread` has the mutexes it holds, the
program it is running, and the programs that wait for the code outside they have called.

* `Respects meets`: where the accesses of a program meet a condition, which may be about the
  mutexes held, what is accessed and the state, it calls code outside only while it holds no mutex,
  and asks for no mutex that it holds. It is defined along the program; `respects_followedBy` takes
  a program apart.
* `Keeps`: the same, for a piece of code that holds the same mutexes afterwards, with a rule for
  each way to put code together.
* `free_run`: if the operations respect a condition, then in every run whose accesses meet it,
  however deep calls of the operations are nested, the thread holds no mutex while code outside
  runs, and never asks for a mutex it has.
-/

namespace ObjectLink.Foundation

variable {P : Platform} {O : Type}

/-! ## Threads -/

/-- One thread, and the state it shares with others. While no program is running, code outside is;
those that are waiting have called it, the last one first. -/
structure Thread (P : Platform) where
  state : P.State
  held : List P.Mutex
  running : Option (Program P Unit)
  waiting : List (Except P.Exception P.Reply → Program P Unit)

/-- What can happen. `step` is the next step of the program that is running. -/
inductive ThreadAction (P : Platform) (O : Type) where
  /-- The code outside calls an operation. -/
  | start (op : O)
  | step
  /-- The code outside ends a call of it; it may have changed the state. -/
  | answer (reply : Except P.Exception P.Reply) (state : P.State)
  /-- Other threads change the state. -/
  | others (state : P.State)

namespace Thread

variable [DecidableEq P.Mutex] (code : O → Program P Unit) (t : Thread P)

/-- The next step of what is running. -/
def step : Thread P :=
  match t.running with
  | some (.access f next) =>
    { t with state := (f t.state).2, running := some (next (f t.state).1) }
  | some (.acquire m next) => { t with held := m :: t.held, running := some next }
  | some (.release m next) => { t with held := t.held.erase m, running := some next }
  | some (.call _ next) => { t with running := none, waiting := next :: t.waiting }
  | some (.done _) => { t with running := none }
  | none => t

/-- The thread after it. -/
def next : ThreadAction P O → Thread P
  | .start op => { t with running := some (code op) }
  | .step => t.step
  | .answer reply state =>
    match t.waiting with
    | continuation :: rest =>
      { t with state := state, running := some (continuation reply), waiting := rest }
    | [] => t
  | .others state => { t with state := state }

/-- The thread asks for a mutex. -/
def Requests (m : P.Mutex) : Prop := ∃ next, t.running = some (.acquire m next)

/-- The thread is about to call code outside. -/
def Calls (c : P.Call) : Prop := ∃ next, t.running = some (.call c next)

/-- Whether the thread waits for itself: it asks for a mutex it has. -/
def stuck : Bool :=
  match t.running with
  | some (.acquire m _) => decide (m ∈ t.held)
  | _ => false

/-- When an action is possible. -/
def Enabled : ThreadAction P O → Prop
  | .start _ => t.running.isNone = true
  | .step => t.running.isSome = true ∧ t.stuck = false
  | .answer _ _ => t.running.isNone = true ∧ t.waiting.isEmpty = false
  | .others _ => True

instance : (a : ThreadAction P O) → Decidable (t.Enabled a)
  | .start _ => inferInstanceAs (Decidable (_ = true))
  | .step => inferInstanceAs (Decidable (_ ∧ _))
  | .answer _ _ => inferInstanceAs (Decidable (_ ∧ _))
  | .others _ => inferInstanceAs (Decidable True)

end Thread

/-- A thread that runs the operations. -/
def threads [DecidableEq P.Mutex] (init : P.State → Prop) (code : O → Program P Unit) :
    Machine (Thread P) (ThreadAction P O) where
  init t := init t.state ∧ t.held = [] ∧ t.running = none ∧ t.waiting = []
  enabled := Thread.Enabled
  next := Thread.next code

instance [DecidableEq P.Mutex] (init : P.State → Prop) (code : O → Program P Unit) (t : Thread P)
    (a : ThreadAction P O) : Decidable ((threads init code).enabled t a) :=
  inferInstanceAs (Decidable (t.Enabled a))

/-- **Code outside runs free of locks**, and the thread never asks for a mutex it has. -/
structure Thread.Free (t : Thread P) : Prop where
  call : ∀ c, t.Calls c → t.held = []
  outside : t.running = none → t.held = []
  request : ∀ m, t.Requests m → m ∉ t.held

/-- A condition on accesses: the mutexes held, what is accessed, and the state before. -/
abbrev AccessCondition (P : Platform) :=
  List P.Mutex → (β : Type) → (P.State → β × P.State) → P.State → Prop

/-- If the action accesses the state, it meets the condition. -/
def Thread.Accesses (meets : AccessCondition P) (t : Thread P) : ThreadAction P O → Prop
  | .step => ∀ (β : Type) (f : P.State → β × P.State) (next : β → Program P Unit),
    t.running = some (.access f next) → meets t.held β f t.state
  | _ => True

/-! ## What programs respect -/

namespace Program

variable [DecidableEq P.Mutex] (meets : AccessCondition P) {α β : Type}

/-- With some mutexes held, and where its accesses meet the condition, the program calls code
outside only when no mutex is held, asks for no mutex that is held, and ends with the
postcondition. -/
def Respects : Program P α → (Except P.Exception α → List P.Mutex → Prop) → List P.Mutex → Prop
  | done r, post, held => post r held
  | access f next, post, held => ∀ s, meets held _ f s → (next (f s).1).Respects post held
  | acquire m next, post, held => m ∉ held ∧ next.Respects post (m :: held)
  | release m next, post, held => next.Respects post (held.erase m)
  | call _ next, post, held => held = [] ∧ ∀ r, (next r).Respects post []

variable {meets} {post post' : Except P.Exception α → List P.Mutex → Prop} {held : List P.Mutex}
  {p : Program P α}

theorem Respects.mono (hpost : ∀ r held, post r held → post' r held)
    (h : p.Respects meets post held) : p.Respects meets post' held := by
  induction p generalizing held with
  | done r => exact hpost _ _ h
  | access f next ih =>
    intro s hmeets
    exact ih _ (h s hmeets)
  | acquire m next ih => exact ⟨h.1, ih h.2⟩
  | release m next ih => exact ih h
  | call c next ih => exact ⟨h.1, fun r => ih r (h.2 r)⟩

theorem respects_followedBy {f : Except P.Exception α → Program P β}
    {post : Except P.Exception β → List P.Mutex → Prop} :
    (p.followedBy f).Respects meets post held ↔
      p.Respects meets (fun r held => (f r).Respects meets post held) held := by
  induction p generalizing held with
  | done r => exact Iff.rfl
  | access g next ih => exact forall_congr' fun s => imp_congr_right fun _ => ih _
  | acquire m next ih => exact and_congr_right fun _ => ih
  | release m next ih => exact ih
  | call c next ih => exact and_congr_right fun _ => forall_congr' fun r => ih r

/-! ## Pieces of code -/

variable (meets) in
/-- With these mutexes held, the code respects the condition and holds the same mutexes
afterwards. -/
def Keeps (held : List P.Mutex) (p : Program P α) : Prop :=
  p.Respects meets (fun _ held' => held' = held) held

theorem keeps_done (r : Except P.Exception α) : Keeps meets held (done r) := rfl

theorem keeps_pure (a : α) : Keeps meets held (pure a : Program P α) := rfl

theorem keeps_exchange (f : P.State → α × P.State) : Keeps meets held (exchange f) :=
  fun _ _ => rfl

theorem keeps_followedBy {f : Except P.Exception α → Program P β} (hp : Keeps meets held p)
    (hf : ∀ r, Keeps meets held (f r)) : Keeps meets held (p.followedBy f) := by
  unfold Keeps
  rw [respects_followedBy]
  refine Respects.mono (fun r held' h => ?_) hp
  rw [h]
  exact hf r

theorem keeps_bind {f : α → Program P β} (hp : Keeps meets held p)
    (hf : ∀ a, Keeps meets held (f a)) : Keeps meets held (p >>= f) := by
  refine keeps_followedBy hp fun r => ?_
  cases r with
  | ok a => exact hf a
  | error e => exact keeps_done _

theorem keeps_tryCatch {f : P.Exception → Program P α} (hp : Keeps meets held p)
    (hf : ∀ e, Keeps meets held (f e)) : Keeps meets held (tryCatch p f) := by
  refine keeps_followedBy hp fun r => ?_
  cases r with
  | ok a => exact keeps_done _
  | error e => exact hf e

/-- Code outside is called without a mutex. -/
theorem keeps_outside (c : P.Call) : Keeps meets [] (outside c) := ⟨rfl, fun _ => rfl⟩

/-- A block under a mutex that is not held yet. -/
theorem keeps_withLock {m : P.Mutex} (hm : m ∉ held) (hp : Keeps meets (m :: held) p) :
    Keeps meets held (withLock m p) := by
  refine ⟨hm, respects_followedBy.mpr ?_⟩
  refine Respects.mono (fun r held' h => ?_) hp
  rw [h]
  exact List.erase_cons_head m held

/-- What follows a value may count on the state it has been read in. -/
theorem keeps_read_bind {f : P.State → α} {g : α → Program P β}
    (hg : ∀ s, meets held α (fun s => (f s, s)) s → Keeps meets held (g (f s))) :
    Keeps meets held (read f >>= g) := fun s hmeets => hg s hmeets

/-- The same for a value read under a mutex. -/
theorem keeps_withLock_read_bind {m : P.Mutex} {f : P.State → α} {g : α → Program P β}
    (hm : m ∉ held)
    (hg : ∀ s, meets (m :: held) α (fun s => (f s, s)) s → Keeps meets held (g (f s))) :
    Keeps meets held (withLock m (read f) >>= g) := by
  refine ⟨hm, fun s hmeets => ?_⟩
  change (g (f s)).Respects meets (fun _ held' => held' = held) ((m :: held).erase m)
  rw [List.erase_cons_head]
  exact hg s hmeets

end Program

/-! ## Runs -/

section Runs

variable [DecidableEq P.Mutex] {meets : AccessCondition P}
  {code : O → Program P Unit} {init : P.State → Prop}

/-- What is running respects the condition and ends without a mutex, and so will what is
waiting. -/
structure Thread.Inv (meets : AccessCondition P) (t : Thread P) : Prop where
  running : ∀ p, t.running = some p → p.Respects meets (fun _ held => held = []) t.held
  outside : t.running = none → t.held = []
  waiting : ∀ p ∈ t.waiting, ∀ r, Program.Keeps meets [] (p r)

theorem Thread.Inv.free {t : Thread P} (hi : t.Inv meets) : t.Free where
  call c hc := by
    obtain ⟨next, hr⟩ := hc
    exact (hi.running _ hr).1
  outside := hi.outside
  request m hm := by
    obtain ⟨next, hr⟩ := hm
    exact (hi.running _ hr).1

/-- Something is running now, and what is waiting has not changed. -/
theorem Thread.Inv.goOn {t t' : Thread P} {p : Program P Unit} (hi : t.Inv meets)
    (hr : t'.running = some p) (hw : t'.waiting = t.waiting)
    (hp : p.Respects meets (fun _ held => held = []) t'.held) : t'.Inv meets where
  running p' h := by
    rw [hr] at h
    cases h
    exact hp
  outside h := by
    rw [hr] at h
    cases h
  waiting p' h := hi.waiting p' (hw ▸ h)

/-- A step of what is running. -/
theorem Thread.inv_step {t : Thread P} (hi : t.Inv meets)
    (hk : t.Accesses meets (ThreadAction.step : ThreadAction P O)) : t.step.Inv meets := by
  cases hr : t.running with
  | none =>
    have hstep : t.step = t := by
      unfold Thread.step
      rw [hr]
    rw [hstep]
    exact hi
  | some p =>
    have hp := hi.running p hr
    unfold Thread.step
    rw [hr]
    cases p with
    | done r =>
      refine ⟨fun p' h => ?_, fun _ => hp, hi.waiting⟩
      cases h
    | access f next => exact hi.goOn rfl rfl (hp _ (hk _ f next hr))
    | acquire m next => exact hi.goOn rfl rfl hp.2
    | release m next => exact hi.goOn rfl rfl hp
    | call c next =>
      refine ⟨fun p' h => ?_, fun _ => hp.1, fun p' hp' => ?_⟩
      · cases h
      · rcases List.mem_cons.mp hp' with rfl | hp'
        · exact hp.2
        · exact hi.waiting p' hp'

/-- **One step**: what the operations respect is kept by every action whose access meets the
condition. -/
theorem Thread.inv_next (hcode : ∀ op, Program.Keeps meets [] (code op)) {t : Thread P}
    {a : ThreadAction P O} (hi : t.Inv meets) (hen : t.Enabled a) (hk : t.Accesses meets a) :
    (t.next code a).Inv meets := by
  cases a with
  | start op =>
    have hheld : t.held = [] := hi.outside (Option.isNone_iff_eq_none.mp hen)
    refine hi.goOn rfl rfl ?_
    change (code op).Respects meets _ t.held
    rw [hheld]
    exact hcode op
  | step => exact Thread.inv_step hi hk
  | answer reply state =>
    have hheld : t.held = [] := hi.outside (Option.isNone_iff_eq_none.mp hen.1)
    have hwaiting := hi.waiting
    unfold Thread.next
    cases hw : t.waiting with
    | nil => exact hi
    | cons continuation rest =>
      rw [hw] at hwaiting
      refine ⟨fun p h => ?_, fun h => ?_, fun p hp => hwaiting p (List.mem_cons_of_mem _ hp)⟩
      · cases h
        change (continuation reply).Respects meets _ t.held
        rw [hheld]
        exact hwaiting continuation List.mem_cons_self reply
      · cases h
  | others state => exact ⟨hi.running, hi.outside, hi.waiting⟩

/-- **Runs**: where every operation respects the condition, every state of a run whose accesses
meet it is free of locks outside. -/
theorem free_run (hcode : ∀ op, Program.Keeps meets [] (code op))
    {h : List (Thread P × ThreadAction P O)} {t : Thread P} (hr : Run (threads init code) h t)
    (hk : ∀ x ∈ h, x.1.Accesses meets x.2) : t.Free := by
  have hi : t.Inv meets := by
    refine Run.invariant_of_guard ?_ (fun t a hi hen hk => Thread.inv_next hcode hi hen hk) hr hk
    rintro t ⟨-, hheld, hrunning, hwaiting⟩
    refine ⟨fun p h => ?_, fun _ => hheld, fun p h => ?_⟩
    · rw [hrunning] at h
      cases h
    · rw [hwaiting] at h
      cases h
  exact hi.free

end Runs

end ObjectLink.Foundation
