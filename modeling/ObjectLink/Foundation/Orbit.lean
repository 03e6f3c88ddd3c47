import ObjectLink.Foundation.Machine
import Mathlib.Data.List.Iterate
import Mathlib.Dynamics.PeriodicPts.Defs

/-!
# Going round an orbit

`Walk f a l b` says that a walk along the orbit of `f`, from `a` on, comes through the values of `l`
one after the other and has `b` ahead. Where a value occurs twice, the walk has gone round: between
the two it came through everything `f` ever reaches from there.

A machine may make such a walk while it does other things: each step goes some way on, or none.

* `walk_append`: walks compose, and come apart at any point;
* `Walk.eq_iterate`: the values are the iterates of `f`;
* `Walk.mem_between`: between two visits of a value;
* `Run.walk`, `Run.visited_between`: the same for the steps of a run.
-/

namespace ObjectLink.Foundation

section Walks

variable {β : Type*} {f : β → β} {a b d : β} {l l₁ l₂ l₃ : List β}

/-- From `a` through the values of `l`, with `b` ahead. -/
inductive Walk (f : β → β) : β → List β → β → Prop
  | nil {a : β} : Walk f a [] a
  | cons {a b : β} {l : List β} : Walk f (f a) l b → Walk f a (a :: l) b

/-- One value further. -/
theorem walk_single (f : β → β) (a : β) : Walk f a [a] (f a) := .cons .nil

/-- **A walk in two parts.** -/
theorem walk_append : Walk f a (l₁ ++ l₂) d ↔ ∃ b, Walk f a l₁ b ∧ Walk f b l₂ d := by
  constructor
  · intro h
    induction l₁ generalizing a with
    | nil => exact ⟨a, .nil, h⟩
    | cons c l₁ ih =>
      cases h with
      | cons h =>
        obtain ⟨b, hb, hd⟩ := ih h
        exact ⟨b, .cons hb, hd⟩
  · rintro ⟨b, hb, hd⟩
    induction hb with
    | nil => exact hd
    | cons _ ih => exact .cons (ih hd)

/-- A walk comes through the iterates of `f`. -/
theorem Walk.eq_iterate (h : Walk f a l b) :
    l = List.iterate f a l.length ∧ b = f^[l.length] a := by
  induction h with
  | nil => exact ⟨rfl, rfl⟩
  | cons _ ih =>
    obtain ⟨hl, hb⟩ := ih
    refine ⟨?_, hb⟩
    rw [List.length_cons, List.iterate, ← hl]

/-- **Once round**: a walk that comes from `b` back to `b` comes through everything `f` reaches
from there. -/
theorem Walk.mem_of_return (h : Walk f b (b :: l) b) (i : Nat) : f^[i] b ∈ b :: l := by
  obtain ⟨hl, hb⟩ := h.eq_iterate
  have hper : Function.IsPeriodicPt f (b :: l).length b := hb.symm
  rw [hl, List.mem_iterate]
  exact ⟨i % (b :: l).length, Nat.mod_lt _ (by simp), (hper.iterate_mod_apply i).symm⟩

/-- **Between two visits of `b`** the walk goes once round. -/
theorem Walk.mem_between (h : Walk f a (l₁ ++ b :: (l₂ ++ b :: l₃)) d) (i : Nat) :
    f^[i] b ∈ b :: l₂ := by
  obtain ⟨b', -, h⟩ := walk_append.mp h
  rw [← List.cons_append] at h
  obtain ⟨b'', hround, hrest⟩ := walk_append.mp h
  cases hrest
  cases hround with
  | cons hround => exact (Walk.cons hround).mem_of_return i

end Walks

section Runs

variable {σ α β : Type*} {M : Machine σ α} {I : σ → Prop} {f : β → β} {ahead : σ → β}
  {visits : σ × α → List β} {b c : β} {h h₁ h₂ h₃ : List (σ × α)} {x y : σ × α} {s t : σ}

/-- **The walk of a run**, if each step goes some way on from where the last one stopped. -/
theorem Run.walk (hI : ∀ h s, Run M h s → I s) (hinit : ∀ s, M.init s → ahead s = c)
    (hstep : ∀ s a, I s → M.enabled s a → Walk f (ahead s) (visits (s, a)) (ahead (M.next s a)))
    (hr : Run M h t) : Walk f c (h.flatMap visits) (ahead t) := by
  induction hr with
  | init hs => exact hinit _ hs ▸ .nil
  | @snoc h s a hr hen ih =>
    rw [List.flatMap_append, List.flatMap_singleton]
    exact walk_append.mpr ⟨_, ih, hstep s a (hI _ _ hr) hen⟩

/-- **Between two steps that stop at `b`** everything else that `f` reaches from there was visited,
by a step between them or by the second of them on its way to `b`. -/
theorem Run.visited_between (hI : ∀ h s, Run M h s → I s) (hinit : ∀ s, M.init s → ahead s = c)
    (hstep : ∀ s a, I s → M.enabled s a → Walk f (ahead s) (visits (s, a)) (ahead (M.next s a)))
    (hr : Run M (h₁ ++ x :: (h₂ ++ y :: h₃)) t) {l l' : List β} (hx : visits x = l ++ [b])
    (hy : visits y = l' ++ [b]) (i : Nat) (hne : f^[i] b ≠ b) :
    (∃ z ∈ h₂, f^[i] b ∈ visits z) ∨ f^[i] b ∈ l' := by
  have hwalk := hr.walk hI hinit hstep
  have hsplit : (h₁ ++ x :: (h₂ ++ y :: h₃)).flatMap visits
      = (h₁.flatMap visits ++ l) ++ b :: ((h₂.flatMap visits ++ l') ++ b :: h₃.flatMap visits) := by
    simp only [List.flatMap_append, List.flatMap_cons, hx, hy, List.append_assoc,
      List.singleton_append]
  rw [hsplit] at hwalk
  have hmem := hwalk.mem_between i
  rw [List.mem_cons, List.mem_append, List.mem_flatMap] at hmem
  exact hmem.resolve_left hne

end Runs

end ObjectLink.Foundation
