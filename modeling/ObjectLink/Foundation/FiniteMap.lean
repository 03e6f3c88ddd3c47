import Std.Data.ExtTreeMap.Lemmas
import Mathlib.Data.List.Range
import Mathlib.Data.List.Perm.Subperm

/-!
# Finite maps

`Map κ ν` is the ordered map of the standard library. This file states what a lookup finds after
an update with the keys compared by `=`, and adds what the library does not have: when two updates
commute, the keys whose value passes a test, in key order, and the counting facts about maps whose
keys are natural numbers below a bound.

* `find_insert`, `find_erase`, `mem_insert_iff`, `mem_erase_iff`, `mem_iff_find`;
* `find_alter`, `insert_eq_alter`, `erase_eq_alter`, `alter_comm`;
* `mem_keysWhere`, `nodup_keysWhere`;
* `size_le_of_keys_lt`, `exists_lt_not_mem`: a map with all its keys below `n` has at most `n`
  entries, and one with fewer has a free key below `n`.
-/

namespace ObjectLink.Foundation

/-- A finite map, ordered by its keys. -/
abbrev Map (κ ν : Type) [Ord κ] := Std.ExtTreeMap κ ν compare

section Find

variable {κ ν : Type} [Ord κ] [Std.TransOrd κ] [Std.LawfulEqOrd κ] (m : Map κ ν) (k j : κ)

theorem find_insert [DecidableEq κ] (v : ν) :
    (m.insert k v)[j]? = if j = k then some v else m[j]? := by
  rw [Std.ExtTreeMap.getElem?_insert]
  simp only [Std.LawfulEqOrd.compare_eq_iff_eq, eq_comm (a := j)]

theorem find_erase [DecidableEq κ] : (m.erase k)[j]? = if j = k then none else m[j]? := by
  rw [Std.ExtTreeMap.getElem?_erase]
  simp only [Std.LawfulEqOrd.compare_eq_iff_eq, eq_comm (a := j)]

theorem mem_insert_iff (v : ν) : j ∈ m.insert k v ↔ j = k ∨ j ∈ m := by
  rw [Std.ExtTreeMap.mem_insert, Std.LawfulEqOrd.compare_eq_iff_eq, eq_comm]

theorem mem_erase_iff : j ∈ m.erase k ↔ j ≠ k ∧ j ∈ m := by
  rw [Std.ExtTreeMap.mem_erase, Ne, Std.LawfulEqOrd.compare_eq_iff_eq, eq_comm]

omit [Std.LawfulEqOrd κ] in
theorem mem_iff_find : k ∈ m ↔ ∃ v, m[k]? = some v := by
  rw [Std.ExtTreeMap.mem_iff_isSome_getElem?, Option.isSome_iff_exists]

end Find

section Alter

variable {κ ν : Type} [Ord κ] [Std.TransOrd κ] [Std.LawfulEqOrd κ] {m m' : Map κ ν} {k j : κ}
  {f g : Option ν → Option ν}

theorem eq_of_find (h : ∀ j : κ, m[j]? = m'[j]?) : m = m' :=
  Std.ExtTreeMap.ext_getElem? fun {j} => h j

variable [DecidableEq κ]

theorem insert_self {v : ν} (h : m[k]? = some v) : m.insert k v = m := by
  refine eq_of_find fun j => ?_
  rw [find_insert]
  split
  · rename_i hj
    rw [hj, h]
  · rfl

theorem erase_insert {v : ν} (h : k ∉ m) : (m.insert k v).erase k = m := by
  refine eq_of_find fun j => ?_
  rw [find_erase, find_insert]
  split
  · rename_i hj
    rw [hj, Std.ExtTreeMap.getElem?_eq_none h]
  · rfl

theorem insert_insert (m : Map κ ν) (k : κ) (v v' : ν) :
    (m.insert k v).insert k v' = m.insert k v' := by
  refine eq_of_find fun j => ?_
  rw [find_insert, find_insert, find_insert]
  split <;> rfl

theorem find_alter (m : Map κ ν) (k j : κ) (f : Option ν → Option ν) :
    (m.alter k f)[j]? = if j = k then f m[k]? else m[j]? := by
  rw [Std.ExtTreeMap.getElem?_alter]
  simp only [Std.LawfulEqOrd.compare_eq_iff_eq, eq_comm (a := j)]

/-- Every update at one key is an `alter`. -/
theorem insert_eq_alter {v : ν} (h : f m[k]? = some v) : m.insert k v = m.alter k f := by
  refine eq_of_find fun j => ?_
  rw [find_insert, find_alter, h]

theorem erase_eq_alter (h : f m[k]? = none) : m.erase k = m.alter k f := by
  refine eq_of_find fun j => ?_
  rw [find_erase, find_alter, h]

theorem self_eq_alter (h : f m[k]? = m[k]?) : m = m.alter k f := by
  refine eq_of_find fun j => ?_
  rw [find_alter, h]
  split
  · rename_i hj
    rw [hj]
  · rfl

/-- **Updates commute** if they are at different keys, or do the same in either order. -/
theorem alter_comm (h : j = k → ∀ v, g (f v) = f (g v)) :
    (m.alter j f).alter k g = (m.alter k g).alter j f := by
  refine eq_of_find fun i => ?_
  simp only [find_alter]
  by_cases hjk : j = k
  · subst hjk
    simp only [if_true, h rfl]
    split <;> rfl
  · rw [if_neg (Ne.symm hjk), if_neg hjk]
    by_cases hij : i = j
    · rw [hij, if_neg hjk, if_pos rfl, if_pos rfl]
    · rw [if_neg hij, if_neg hij]

end Alter

section KeysWhere

variable {κ ν : Type} [Ord κ] [Std.TransOrd κ] [Std.LawfulEqOrd κ] {m : Map κ ν} {k : κ}

/-- The keys of the entries whose value passes `p`, in key order. -/
def keysWhere (m : Map κ ν) (p : ν → Bool) : List κ :=
  (m.toList.filter fun x => p x.2).map Prod.fst

theorem mem_keysWhere {p : ν → Bool} :
    k ∈ keysWhere m p ↔ ∃ v, m[k]? = some v ∧ p v = true := by
  unfold keysWhere
  simp only [List.mem_map, List.mem_filter]
  constructor
  · rintro ⟨⟨k', v⟩, ⟨hm, hp⟩, rfl⟩
    exact ⟨v, Std.ExtTreeMap.mem_toList_iff_getElem?_eq_some.mp hm, hp⟩
  · rintro ⟨v, hm, hp⟩
    exact ⟨(k, v), ⟨Std.ExtTreeMap.mem_toList_iff_getElem?_eq_some.mpr hm, hp⟩, rfl⟩

omit [Std.LawfulEqOrd κ] in
theorem nodup_keysWhere (p : ν → Bool) : (keysWhere m p).Nodup := by
  have hkeys : (m.toList.map Prod.fst).Nodup := by
    rw [Std.ExtTreeMap.map_fst_toList_eq_keys]
    exact Std.ExtTreeMap.nodup_keys
  exact hkeys.sublist (List.filter_sublist.map _)

end KeysWhere

section Counting

variable {ν : Type} {m : Map Nat ν} {n : Nat}

theorem size_le_of_keys_lt (h : ∀ k ∈ m, k < n) : m.size ≤ n := by
  have hsub : m.keys ⊆ List.range n := fun k hk =>
    List.mem_range.mpr (h k (Std.ExtTreeMap.mem_keys.mp hk))
  have := (Std.ExtTreeMap.nodup_keys (t := m)).subperm hsub
  have hle := this.length_le
  rwa [Std.ExtTreeMap.length_keys, List.length_range] at hle

/-- A map with fewer than `n` entries leaves some key below `n` free. -/
theorem exists_lt_not_mem (h : m.size < n) : ∃ k < n, k ∉ m := by
  by_contra hno
  have hall : List.range n ⊆ m.keys := fun k hk => by
    by_contra hk'
    exact hno ⟨k, List.mem_range.mp hk, fun hm => hk' (Std.ExtTreeMap.mem_keys.mpr hm)⟩
  have hle := ((List.nodup_range).subperm hall).length_le
  rw [Std.ExtTreeMap.length_keys, List.length_range] at hle
  omega

end Counting

end ObjectLink.Foundation
