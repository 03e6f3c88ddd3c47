import Mathlib.Algebra.Order.Monoid.Canonical.Defs
import Mathlib.Data.Finsupp.Weight
import Mathlib.Tactic.Abel
import ObjectLink.Foundation.Pool

/-!
# What threads may spend

An account of what programs that share a state may do how often. A call of code outside has a cost,
which is paid out of credit, and the state keeps a stock of credit. An operation is given an
allowance when it is started. Credit can be handed to another thread only through the stock, but who
spends it is up to the interleaving.

* `Pays`: a program that never spends more than it has, along each of its paths.
* `Spends`: the same for a piece of code whose remaining credit is given up, with a rule for each
  way to put code together.
* `paid_run`: if every operation gets along with its allowance, then in every run of any number of
  threads, what has been spent and what is still in stock come to at most what has been allowed and
  what was in stock at the start.
-/

namespace ObjectLink.Foundation

variable {P : Platform} {O ι M : Type}

/-- What is in stock, and what calls cost. -/
structure Budget (P : Platform) (M : Type) where
  stock : P.State → M
  cost : P.Call → M

namespace Budget

variable [AddCommMonoid M] [PartialOrder M] (B : Budget P M) {α β : Type}

/-- **The program gets along** with the credit `k`. An access may move credit to the stock or take
it from there, and give some up. -/
def Pays : Program P α → (Except P.Exception α → M → Prop) → M → Prop
  | .done r, post, k => post r k
  | .access f next, post, k => ∀ s, ∃ k', B.stock (f s).2 + k' ≤ B.stock s + k ∧
    Pays (next (f s).1) post k'
  | .acquire _ next, post, k => Pays next post k
  | .release _ next, post, k => Pays next post k
  | .call c next, post, k => ∃ k', B.cost c + k' ≤ k ∧ ∀ r, Pays (next r) post k'

/-- What is left of the credit is given up. -/
def Spends (k : M) (p : Program P α) : Prop := B.Pays p (fun _ _ => True) k

variable {B} {p : Program P α} {post post' : Except P.Exception α → M → Prop} {k k' : M}

theorem Pays.mono (hpost : ∀ r k, post r k → post' r k) (h : B.Pays p post k) :
    B.Pays p post' k := by
  induction p generalizing k with
  | done r => exact hpost r k h
  | access f next ih =>
    intro s
    obtain ⟨k', hk', hnext⟩ := h s
    exact ⟨k', hk', ih _ hnext⟩
  | acquire m next ih => exact ih h
  | release m next ih => exact ih h
  | call c next ih =>
    obtain ⟨k', hk', hnext⟩ := h
    exact ⟨k', hk', fun r => ih r (hnext r)⟩

theorem pays_followedBy {f : Except P.Exception α → Program P β}
    {post : Except P.Exception β → M → Prop} :
    B.Pays (p.followedBy f) post k ↔ B.Pays p (fun r k => B.Pays (f r) post k) k := by
  induction p generalizing k with
  | done r => exact Iff.rfl
  | access g next ih =>
    exact forall_congr' fun s => exists_congr fun k' => and_congr_right fun _ => ih _
  | acquire m next ih => exact ih
  | release m next ih => exact ih
  | call c next ih =>
    exact exists_congr fun k' => and_congr_right fun _ => forall_congr' fun r => ih r

/-! ## Putting code together -/

theorem spends_done (r : Except P.Exception α) : B.Spends k (.done r : Program P α) := trivial

theorem spends_pure (a : α) : B.Spends k (pure a : Program P α) := trivial

theorem spends_outside {c : P.Call} (h : B.cost c ≤ k) : B.Spends k (Program.outside c) :=
  ⟨0, by rwa [add_zero], fun _ => trivial⟩

theorem pays_withLock {m : P.Mutex} (h : B.Pays p post k) :
    B.Pays (Program.withLock m p) post k :=
  pays_followedBy.mpr h

theorem spends_withLock {m : P.Mutex} (h : B.Spends k p) : B.Spends k (Program.withLock m p) :=
  pays_withLock h

/-- What follows a piece of code may spend what that leaves over. -/
theorem spends_bind_of_pays {f : α → Program P β}
    (hp : B.Pays p (fun r k => ∀ a, r = .ok a → B.Spends k (f a)) k) : B.Spends k (p >>= f) := by
  refine pays_followedBy.mpr (hp.mono fun r k h => ?_)
  cases r with
  | ok a => exact h a rfl
  | error e => trivial

variable [IsOrderedAddMonoid M]

/-- More credit does no harm. -/
theorem Spends.le (h : B.Spends k p) (hk : k ≤ k') : B.Spends k' p := by
  induction p generalizing k k' with
  | done r => trivial
  | access f next ih =>
    intro s
    obtain ⟨j, hj, hnext⟩ := h s
    exact ⟨j, hj.trans (by gcongr), hnext⟩
  | acquire m next ih => exact ih h hk
  | release m next ih => exact ih h hk
  | call c next ih =>
    obtain ⟨j, hj, hnext⟩ := h
    exact ⟨j, hj.trans hk, hnext⟩

/-- What is accessed does not add to the stock. -/
theorem spends_exchange {f : P.State → α × P.State} (hf : ∀ s, B.stock (f s).2 ≤ B.stock s) :
    B.Spends k (Program.exchange f) := by
  intro s
  refine ⟨k, ?_, trivial⟩
  have := hf s
  gcongr

theorem spends_read (f : P.State → α) : B.Spends k (Program.read f) :=
  spends_exchange fun _ => le_rfl

variable [CanonicallyOrderedAdd M]

/-- A piece of code and what follows it share the credit. -/
theorem spends_followedBy {j : M} {f : Except P.Exception α → Program P β} (hp : B.Spends j p)
    (hf : ∀ r, B.Spends k (f r)) : B.Spends (j + k) (p.followedBy f) := by
  induction p generalizing j with
  | done r => exact (hf r).le le_add_self
  | access g next ih =>
    intro s
    obtain ⟨j', hj', hnext⟩ := hp s
    refine ⟨j' + k, ?_, ih _ hnext⟩
    rw [← add_assoc, ← add_assoc]
    gcongr
  | acquire m next ih => exact ih hp
  | release m next ih => exact ih hp
  | call c next ih =>
    obtain ⟨j', hj', hnext⟩ := hp
    refine ⟨j' + k, ?_, fun r => ih r (hnext r)⟩
    rw [← add_assoc]
    gcongr

theorem spends_bind_add {j : M} {f : α → Program P β} (hp : B.Spends j p)
    (hf : ∀ a, B.Spends k (f a)) : B.Spends (j + k) (p >>= f) := by
  refine spends_followedBy hp fun r => ?_
  cases r with
  | ok a => exact hf a
  | error e => trivial

/-- A piece of code that needs no credit. -/
theorem spends_bind {f : α → Program P β} (hp : B.Spends 0 p) (hf : ∀ a, B.Spends k (f a)) :
    B.Spends k (p >>= f) := by
  rw [← zero_add k]
  exact spends_bind_add hp hf

theorem spends_tryCatch {f : P.Exception → Program P α} (hp : B.Spends k p)
    (hf : ∀ e, B.Spends 0 (f e)) : B.Spends k (tryCatch p f) := by
  rw [← add_zero k]
  refine spends_followedBy hp fun r => ?_
  cases r with
  | ok a => trivial
  | error e => exact hf e

end Budget

/-! ## Runs -/

section Runs

variable [AddCommMonoid M] [PartialOrder M] {B : Budget P M}

/-- The programs that wait for code outside get along. -/
def Waits (B : Budget P M) : List (Except P.Exception P.Reply → Program P Unit) → M → Prop
  | [], _ => True
  | next :: rest, k => ∃ k₁ k₂, k₁ + k₂ ≤ k ∧ (∀ r, B.Spends k₁ (next r)) ∧ Waits B rest k₂

/-- Everything a thread is at gets along with the credit. -/
def Worker.Solvent (B : Budget P M) (w : Worker P) (k : M) : Prop :=
  match w.running with
  | some prog => ∃ k₁ k₂, k₁ + k₂ ≤ k ∧ B.Spends k₁ prog ∧ Waits B w.waiting k₂
  | none => Waits B w.waiting k

/-- The call of code outside that an action is. -/
def Pool.calls (p : Pool P ι) : PoolAction P O ι → Option P.Call
  | .step i =>
    match (p.workers i).running with
    | some (.call c _) => some c
    | _ => none
  | _ => none

/-- What an action spends. -/
def Pool.spent (B : Budget P M) (p : Pool P ι) (a : PoolAction P O ι) : M :=
  ((p.calls a).map B.cost).getD 0

/-- What an action is allowed. -/
def PoolAction.allowed (allowance : O → M) : PoolAction P O ι → M
  | .start _ op => allowance op
  | _ => 0

theorem Waits.le {k k' : M} {waiting : List (Except P.Exception P.Reply → Program P Unit)}
    (h : Waits B waiting k) (hk : k ≤ k') : Waits B waiting k' := by
  cases waiting with
  | nil => trivial
  | cons next rest =>
    obtain ⟨k₁, k₂, hle, hnext, hrest⟩ := h
    exact ⟨k₁, k₂, hle.trans hk, hnext, hrest⟩

variable [IsOrderedAddMonoid M] [DecidableEq ι] {p : Pool P ι}

/-- One action of a thread: what the others are at stays as it is. -/
theorem solvent_put {i : ι} {t : Thread P} {credit : ι →₀ M} {k c a : M}
    (hsolvent : ∀ j, (p.workers j).Solvent B (credit j))
    (ht : ((p.put i t).workers i).Solvent B k)
    (hle : B.stock t.state + k + c ≤ B.stock p.state + credit i + a) :
    ∃ credit' : ι →₀ M, (∀ j, ((p.put i t).workers j).Solvent B (credit' j)) ∧
      B.stock t.state + credit'.degree + c ≤ B.stock p.state + credit.degree + a := by
  refine ⟨credit.update i k, fun j => ?_, ?_⟩
  · by_cases hj : j = i
    · subst hj
      rw [Finsupp.coe_update, Function.update_self]
      exact ht
    · rw [Pool.put_of_ne t hj, Finsupp.coe_update, Function.update_of_ne hj]
      exact hsolvent j
  · have hdegree : credit.degree = credit i + (credit.erase i).degree := by
      conv_lhs => rw [← Finsupp.single_add_erase i credit]
      rw [map_add, Finsupp.degree_single]
    rw [Finsupp.update_eq_single_add_erase, map_add, Finsupp.degree_single, hdegree]
    calc B.stock t.state + (k + (credit.erase i).degree) + c
        = B.stock t.state + k + c + (credit.erase i).degree := by abel
      _ ≤ B.stock p.state + credit i + a + (credit.erase i).degree := by gcongr
      _ = B.stock p.state + (credit i + (credit.erase i).degree) + a := by abel

variable [CanonicallyOrderedAdd M] [DecidableEq P.Mutex] {code : O → Program P Unit}

/-- A step of a thread pays for itself. -/
theorem solvent_step {i : ι} {k : M} (h : (p.workers i).Solvent B k) :
    ∃ k', ((p.put i (p.thread i).step).workers i).Solvent B k' ∧
      B.stock (p.thread i).step.state + k' + p.spent B (.step i : PoolAction P O ι)
        ≤ B.stock p.state + k := by
  rw [Pool.put_self]
  unfold Worker.Solvent at h ⊢
  unfold Pool.spent Pool.calls Thread.step
  have hthread : (p.thread i).running = (p.workers i).running := rfl
  have hwaiting : (p.thread i).waiting = (p.workers i).waiting := rfl
  dsimp only
  rw [hthread]
  cases hr : (p.workers i).running with
  | none =>
    rw [hr] at h
    dsimp only at h ⊢
    rw [hthread, hr]
    exact ⟨k, h, (add_zero (B.stock p.state + k)).le⟩
  | some prog =>
    rw [hr] at h
    obtain ⟨k₁, k₂, hle, hprog, hrest⟩ := h
    cases prog with
    | done r => exact ⟨k, hrest.le (le_add_self.trans hle), (add_zero (B.stock p.state + k)).le⟩
    | access f next =>
      obtain ⟨k', hk', hnext⟩ := hprog p.state
      refine ⟨k' + k₂, ⟨k', k₂, le_rfl, hnext, hrest⟩, ?_⟩
      calc B.stock (f p.state).2 + (k' + k₂) + 0
          = B.stock (f p.state).2 + k' + k₂ := by rw [add_zero, add_assoc]
        _ ≤ B.stock p.state + k₁ + k₂ := by gcongr
        _ = B.stock p.state + (k₁ + k₂) := add_assoc _ _ _
        _ ≤ B.stock p.state + k := by gcongr
    | acquire m next => exact ⟨k, ⟨k₁, k₂, hle, hprog, hrest⟩, (add_zero (B.stock p.state + k)).le⟩
    | release m next => exact ⟨k, ⟨k₁, k₂, hle, hprog, hrest⟩, (add_zero (B.stock p.state + k)).le⟩
    | call c next =>
      obtain ⟨k', hk', hnext⟩ := hprog
      refine ⟨k' + k₂, ⟨k', k₂, le_rfl, hnext, hrest⟩, ?_⟩
      calc B.stock p.state + (k' + k₂) + B.cost c
          = B.stock p.state + (B.cost c + k' + k₂) := by
            rw [add_assoc, add_comm _ (B.cost c), ← add_assoc (B.cost c)]
        _ ≤ B.stock p.state + (k₁ + k₂) := by gcongr
        _ ≤ B.stock p.state + k := by gcongr

variable {allowance : O → M} {changes : P.State → P.State → Prop}

/-- **One action** spends no more than it is allowed, and what it takes from the credit of its
thread and from the stock. -/
theorem solvent_next (hcode : ∀ op, B.Spends (allowance op) (code op))
    (hchanges : ∀ s s', changes s s' → B.stock s' ≤ B.stock s) {act : PoolAction P O ι}
    (hen : p.Enabled changes act) {credit : ι →₀ M}
    (hsolvent : ∀ j, (p.workers j).Solvent B (credit j)) :
    ∃ credit' : ι →₀ M, (∀ j, ((p.next code act).workers j).Solvent B (credit' j)) ∧
      B.stock (p.next code act).state + credit'.degree + p.spent B act
        ≤ B.stock p.state + credit.degree + act.allowed allowance := by
  cases act with
  | step i =>
    obtain ⟨k, hk, hle⟩ := solvent_step (O := O) (hsolvent i)
    refine solvent_put hsolvent hk ?_
    change _ ≤ B.stock p.state + credit i + 0
    rwa [add_zero]
  | start i op =>
    have hi := hsolvent i
    unfold Worker.Solvent at hi
    have hnone : (p.workers i).running = none := Option.isNone_iff_eq_none.mp hen
    rw [hnone] at hi
    refine solvent_put (k := allowance op + credit i) hsolvent ?_ ?_
    · rw [Pool.put_self]
      exact ⟨allowance op, credit i, le_rfl, hcode op, hi⟩
    · change B.stock p.state + (allowance op + credit i) + 0
        ≤ B.stock p.state + credit i + allowance op
      rw [add_zero, add_comm (allowance op), add_assoc]
  | answer i reply state =>
    obtain ⟨hnone, hsome, hstate⟩ := hen
    have hi := hsolvent i
    have hnone : (p.workers i).running = none := Option.isNone_iff_eq_none.mp hnone
    have hwaiting : (p.thread i).waiting = (p.workers i).waiting := rfl
    unfold Worker.Solvent at hi
    rw [hnone] at hi
    have hstock := hchanges _ _ hstate
    change ∃ credit' : ι →₀ M, (∀ j, ((p.put i ((p.thread i).next code
      (.answer reply state))).workers j).Solvent B (credit' j)) ∧ _
    unfold Pool.next Thread.next
    cases hw : (p.workers i).waiting with
    | nil =>
      rw [hw] at hsome
      cases hsome
    | cons next rest =>
      rw [hw] at hi
      obtain ⟨k₁, k₂, hle, hnext, hrest⟩ := hi
      dsimp only
      rw [hwaiting, hw]
      refine solvent_put (k := credit i) hsolvent ?_ ?_
      · rw [Pool.put_self]
        exact ⟨k₁, k₂, hle, hnext reply, hrest⟩
      · change B.stock state + credit i + 0 ≤ B.stock p.state + credit i + 0
        gcongr
  | outside state =>
    refine ⟨credit, hsolvent, ?_⟩
    have hstock := hchanges _ _ hen
    change B.stock state + credit.degree + 0 ≤ B.stock p.state + credit.degree + 0
    gcongr

variable {init : P.State → Prop} {h : List (Pool P ι × PoolAction P O ι)}

/-- **Runs**: what has been spent and what is in stock come to at most what has been allowed and
what was in stock at the start. -/
theorem paid_run (hcode : ∀ op, B.Spends (allowance op) (code op))
    (hchanges : ∀ s s', changes s s' → B.stock s' ≤ B.stock s) {k : M}
    (hinit : ∀ s, init s → B.stock s ≤ k) (hr : Run (pool init changes code) h p) :
    (h.map fun x => x.1.spent B x.2).sum + B.stock p.state
      ≤ (h.map fun x => x.2.allowed allowance).sum + k := by
  suffices hcredit : ∃ credit : ι →₀ M, (∀ j, (p.workers j).Solvent B (credit j)) ∧
      (h.map fun x => x.1.spent B x.2).sum + (B.stock p.state + credit.degree)
        ≤ (h.map fun x => x.2.allowed allowance).sum + k by
    obtain ⟨credit, -, hle⟩ := hcredit
    exact le_trans (by gcongr; exact le_self_add) hle
  induction hr with
  | @init p hs =>
    obtain ⟨hstate, hworkers⟩ := hs
    refine ⟨0, fun j => ?_, ?_⟩
    · rw [hworkers j]
      trivial
    · simpa using hinit _ hstate
  | @snoc h p act _ hen ih =>
    obtain ⟨credit, hsolvent, hle⟩ := ih
    obtain ⟨credit', hsolvent', hle'⟩ := solvent_next hcode hchanges hen hsolvent
    refine ⟨credit', hsolvent', ?_⟩
    simp only [List.map_append, List.map_cons, List.map_nil, List.sum_append, List.sum_cons,
      List.sum_nil, add_zero]
    calc (h.map fun x => x.1.spent B x.2).sum + p.spent B act
          + (B.stock (p.next code act).state + credit'.degree)
        = (h.map fun x => x.1.spent B x.2).sum
          + (B.stock (p.next code act).state + credit'.degree + p.spent B act) := by abel
      _ ≤ (h.map fun x => x.1.spent B x.2).sum
          + (B.stock p.state + credit.degree + act.allowed allowance) := by gcongr
      _ = (h.map fun x => x.1.spent B x.2).sum + (B.stock p.state + credit.degree)
          + act.allowed allowance := by abel
      _ ≤ (h.map fun x => x.2.allowed allowance).sum + k + act.allowed allowance := by gcongr
      _ = (h.map fun x => x.2.allowed allowance).sum + act.allowed allowance + k := by abel

end Runs

end ObjectLink.Foundation
