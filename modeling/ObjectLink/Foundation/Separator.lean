import Mathlib.Data.List.Basic

/-!
# Lists with one separator

`Parted x l a b` says that `l` consists of `a`, the separator `x` and `b`, and that this is the only
`x` in `l`. A list can be searched for `x` from either end; the two searches meet exactly in the
lists that have one.

* `idxOf?_append_cons`, `lastIdxOf?_append_cons`: the search stops at an `x` with none before it,
  and at one with none after it;
* `Parted.left_eq`, `Parted.right_eq`: the parts are what stands before and after that position;
* `exists_parted_iff`, `exists_parted_iff_count`: a list is parted exactly if the first `x` is the
  last, and exactly if it contains one `x`.
-/

namespace ObjectLink.Foundation

variable {α : Type*} {x : α} {l a b c d : List α}

/-- The list is `a` and `b` with the only `x` between them. -/
structure Parted (x : α) (l a b : List α) : Prop where
  eq : l = a ++ x :: b
  left : x ∉ a
  right : x ∉ b

/-- What stands before the separator. -/
theorem Parted.left_eq (h : Parted x l a b) : l.take a.length = a := by
  rw [h.eq, List.take_left]

/-- What stands after it. -/
theorem Parted.right_eq (h : Parted x l a b) : l.drop (a.length + 1) = b := by
  have hl : l = (a ++ [x]) ++ b := by simp [h.eq]
  rw [hl, List.drop_left' (by simp)]

/-- The last `x` of a list has none after it. -/
theorem eq_append_cons_of_mem_last (h : x ∈ l) : ∃ a b, l = a ++ x :: b ∧ x ∉ b := by
  obtain ⟨b, a, hl, hb⟩ := List.eq_append_cons_of_mem (List.mem_reverse.mpr h)
  refine ⟨a.reverse, b.reverse, ?_, by simpa using hb⟩
  rw [← List.reverse_reverse l, hl]
  simp

variable [DecidableEq α]

/-- The position of the last `x`, found from the end. -/
def lastIdxOf? (x : α) (l : List α) : Option Nat :=
  (l.reverse.idxOf? x).map fun i => l.length - 1 - i

theorem idxOf?_append_cons (h : x ∉ a) : (a ++ x :: b).idxOf? x = some a.length := by
  induction a with
  | nil => simp [List.idxOf?_cons]
  | cons y a ih =>
    have hy : y ≠ x := fun he => h (he ▸ List.mem_cons_self)
    have ha : x ∉ a := fun hmem => h (List.mem_cons_of_mem _ hmem)
    rw [List.cons_append, List.idxOf?_cons, if_neg (by simpa using hy), ih ha]
    rfl

theorem lastIdxOf?_append_cons (h : x ∉ b) : lastIdxOf? x (a ++ x :: b) = some a.length := by
  have hrev : (a ++ x :: b).reverse = b.reverse ++ x :: a.reverse := by simp
  unfold lastIdxOf?
  rw [hrev, idxOf?_append_cons (by simpa using h), Option.map_some, List.length_reverse,
    List.length_append, List.length_cons]
  congr 1
  omega

theorem Parted.idxOf? (h : Parted x l a b) : l.idxOf? x = some a.length := by
  rw [h.eq]
  exact idxOf?_append_cons h.left

theorem Parted.lastIdxOf? (h : Parted x l a b) : lastIdxOf? x l = some a.length := by
  rw [h.eq]
  exact lastIdxOf?_append_cons h.right

/-- **A list is parted in one way.** -/
theorem Parted.unique (h : Parted x l a b) (h' : Parted x l c d) : a = c ∧ b = d := by
  have hlen : a.length = c.length := Option.some.inj (h.idxOf?.symm.trans h'.idxOf?)
  constructor
  · rw [← h.left_eq, ← h'.left_eq, hlen]
  · rw [← h.right_eq, ← h'.right_eq, hlen]

/-- **The searches meet** exactly in the lists that are parted. -/
theorem exists_parted_iff :
    (∃ a b, Parted x l a b) ↔ (l.idxOf? x).isSome ∧ l.idxOf? x = lastIdxOf? x l := by
  constructor
  · rintro ⟨a, b, h⟩
    rw [h.idxOf?, h.lastIdxOf?]
    exact ⟨rfl, rfl⟩
  · rintro ⟨hsome, hmeet⟩
    have hmem : x ∈ l := List.isSome_idxOf?.mp hsome
    obtain ⟨a, b, hl, ha⟩ := List.eq_append_cons_of_mem hmem
    obtain ⟨c, d, hl', hd⟩ := eq_append_cons_of_mem_last hmem
    have hfirst : l.idxOf? x = some a.length := by rw [hl, idxOf?_append_cons ha]
    have hlast : Foundation.lastIdxOf? x l = some c.length := by
      rw [hl', lastIdxOf?_append_cons hd]
    have hlen : a.length = c.length := Option.some.inj (hfirst.symm.trans (hmeet.trans hlast))
    obtain ⟨-, hbd⟩ := List.append_inj (hl.symm.trans hl') hlen
    cases hbd
    exact ⟨a, b, hl, ha, hd⟩

/-- **A list is parted** exactly if it contains one separator. -/
theorem exists_parted_iff_count : (∃ a b, Parted x l a b) ↔ l.count x = 1 := by
  constructor
  · rintro ⟨a, b, rfl, ha, hb⟩
    rw [List.count_append, List.count_cons_self, List.count_eq_zero.mpr ha,
      List.count_eq_zero.mpr hb]
  · intro h
    have hmem : x ∈ l := List.count_pos_iff.mp (by omega)
    obtain ⟨a, b, rfl, ha⟩ := List.eq_append_cons_of_mem hmem
    rw [List.count_append, List.count_cons_self, List.count_eq_zero.mpr ha] at h
    exact ⟨a, b, rfl, ha, List.count_eq_zero.mp (by omega)⟩

end ObjectLink.Foundation
