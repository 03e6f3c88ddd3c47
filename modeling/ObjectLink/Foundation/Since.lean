import Mathlib.Data.List.Induction
import Mathlib.Data.Nat.Find

/-!
# Past-time properties of a history

A history is the list of what happened, oldest first. `Since P K h` says that `P` happened and
that nothing satisfying `K` happened afterwards; it is the *since* operator of past-time temporal
logic, with the entry that satisfies `P` itself not counted against `K`. "The most recent `a` was
not followed by a `b`" is `Since (· = a) (fun x => x = a ∨ x = b)`.

`HeldFrom P K h i` is the same with the position of the `P`-entry named, and `Began P K h i` says
that `i` is the earliest such position, so that two standing facts can be ordered by when they
began.

* `since_snoc`, `began_snoc`: how one more entry changes the two, the rules every run induction
  uses;
* `since_iff_began`: a standing fact has a beginning.
-/

namespace ObjectLink.Foundation

variable {α β : Type*} {P K : α → Prop} {h h' : List α} {x : α}

/-- `P` happened in `h` and `K` did not happen after it. -/
def Since (P K : α → Prop) (h : List α) : Prop :=
  ∃ h₁ x h₂, h = h₁ ++ x :: h₂ ∧ P x ∧ ∀ y ∈ h₂, ¬ K y

theorem not_since_nil : ¬ Since P K [] := by
  rintro ⟨h₁, x, h₂, he, -⟩
  simp at he

/-- **One more entry**: it establishes the fact, or it leaves a standing one standing. -/
theorem since_snoc : Since P K (h ++ [x]) ↔ P x ∨ (Since P K h ∧ ¬ K x) := by
  constructor
  · rintro ⟨h₁, y, h₂, he, hP, hK⟩
    rcases List.eq_nil_or_concat h₂ with rfl | ⟨h₃, z, rfl⟩
    · obtain ⟨-, hxy⟩ := List.append_inj' he rfl
      cases hxy
      exact Or.inl hP
    · rw [List.concat_eq_append, ← List.cons_append, ← List.append_assoc] at he
      obtain ⟨rfl, hxz⟩ := List.append_inj' he rfl
      cases hxz
      rw [List.concat_eq_append] at hK
      refine Or.inr ⟨⟨h₁, y, h₃, rfl, hP, fun w hw => hK w ?_⟩, hK x ?_⟩
      · exact List.mem_append_left _ hw
      · exact List.mem_append_right _ (List.mem_singleton.mpr rfl)
  · rintro (hP | ⟨⟨h₁, y, h₂, rfl, hP, hK⟩, hx⟩)
    · exact ⟨h, x, [], rfl, hP, fun y hy => absurd hy List.not_mem_nil⟩
    · refine ⟨h₁, y, h₂ ++ [x], by simp, hP, ?_⟩
      intro w hw
      rcases List.mem_append.mp hw with hw | hw
      · exact hK w hw
      · rw [List.mem_singleton.mp hw]
        exact hx

/-- Entries that do not establish the fact leave it standing if none of them ends it. -/
theorem since_append_iff (hP : ∀ y ∈ h', ¬ P y) :
    Since P K (h ++ h') ↔ Since P K h ∧ ∀ y ∈ h', ¬ K y := by
  induction h' using List.reverseRecOn with
  | nil => simp
  | append_singleton l y ih =>
    have hy := hP y (List.mem_append_right _ (List.mem_singleton.mpr rfl))
    rw [← List.append_assoc, since_snoc, ih fun z hz => hP z (List.mem_append_left _ hz)]
    simp only [hy, false_or, List.forall_mem_append, List.forall_mem_singleton]
    exact and_assoc

theorem since_map {β : Type*} {g : β → α} {l : List β} :
    Since P K (l.map g) ↔ Since (fun x => P (g x)) (fun x => K (g x)) l := by
  induction l using List.reverseRecOn with
  | nil => exact iff_of_false not_since_nil not_since_nil
  | append_singleton l x ih =>
    rw [List.map_append, List.map_cons, List.map_nil, since_snoc, since_snoc, ih]

/-- Entries that neither establish nor end the fact may be left out. -/
theorem since_filter {keep : α → Bool} (hP : ∀ x ∈ h, keep x = false → ¬ P x)
    (hK : ∀ x ∈ h, keep x = false → ¬ K x) : Since P K (h.filter keep) ↔ Since P K h := by
  induction h using List.reverseRecOn with
  | nil => rfl
  | append_singleton l x ih =>
    have hl : Since P K (l.filter keep) ↔ Since P K l :=
      ih (fun y hy => hP y (List.mem_append_left _ hy)) fun y hy => hK y (List.mem_append_left _ hy)
    have hx : x ∈ l ++ [x] := List.mem_append_right _ (List.mem_singleton.mpr rfl)
    rw [List.filter_append, since_snoc]
    cases hkeep : keep x with
    | true => rw [List.filter_cons_of_pos hkeep, List.filter_nil, since_snoc, hl]
    | false =>
      rw [List.filter_cons_of_neg (by rw [hkeep]; exact Bool.false_ne_true), List.filter_nil,
        List.append_nil, hl]
      simp [hP x hx hkeep, hK x hx hkeep]

/-- Two facts that the entries establish and end alike. -/
theorem since_congr {P' K' : α → Prop} (hP : ∀ x ∈ h, P x ↔ P' x) (hK : ∀ x ∈ h, K x ↔ K' x) :
    Since P K h ↔ Since P' K' h := by
  induction h using List.reverseRecOn with
  | nil => exact iff_of_false not_since_nil not_since_nil
  | append_singleton l x ih =>
    have hx : x ∈ l ++ [x] := List.mem_append_right _ (List.mem_singleton.mpr rfl)
    have hl : Since P K l ↔ Since P' K' l :=
      ih (fun y hy => hP y (List.mem_append_left _ hy)) fun y hy => hK y (List.mem_append_left _ hy)
    rw [since_snoc, since_snoc, hP x hx, hK x hx, hl]

/-- Entries that end nothing establish the fact if one of them does. -/
theorem since_append_of_mem (hx : x ∈ h') (hPx : P x) (hK : ∀ y ∈ h', ¬ K y) :
    Since P K (h ++ h') := by
  obtain ⟨h₁, h₂, rfl⟩ := List.append_of_mem hx
  exact ⟨h ++ h₁, x, h₂, by simp, hPx, fun y hy => hK y (by simp [hy])⟩

/-- What stands after more entries stood before them or happened among them. -/
theorem Since.of_append (hs : Since P K (h ++ h')) : Since P K h ∨ ∃ x ∈ h', P x := by
  induction h' using List.reverseRecOn with
  | nil =>
    rw [List.append_nil] at hs
    exact Or.inl hs
  | append_singleton l y ih =>
    rw [← List.append_assoc, since_snoc] at hs
    rcases hs with hP | ⟨hs, -⟩
    · exact Or.inr ⟨y, List.mem_append_right _ (List.mem_singleton.mpr rfl), hP⟩
    · rcases ih hs with h | ⟨x, hx, hP⟩
      · exact Or.inl h
      · exact Or.inr ⟨x, List.mem_append_left _ hx, hP⟩

/-- A fact that is never ended stands as soon as it has happened. -/
theorem since_of_mem {x : α} (hx : x ∈ h) (hP : P x) (hK : ∀ y ∈ h, ¬ K y) : Since P K h :=
  since_append_of_mem (h := []) hx hP hK

/-! ## When a standing fact began -/

/-- The entry at `i` established the fact, and nothing after `i` ended it. -/
def HeldFrom (P K : α → Prop) (h : List α) (i : Nat) : Prop :=
  (∃ x, h[i]? = some x ∧ P x) ∧ ∀ j y, i < j → h[j]? = some y → ¬ K y

/-- The fact has stood since exactly `i`: `i` is the earliest entry it can be dated to. -/
def Began (P K : α → Prop) (h : List α) (i : Nat) : Prop :=
  HeldFrom P K h i ∧ ∀ j < i, ¬ HeldFrom P K h j

theorem HeldFrom.lt_length {i : Nat} (hi : HeldFrom P K h i) : i < h.length := by
  obtain ⟨⟨x, hx, -⟩, -⟩ := hi
  exact (List.getElem?_eq_some_iff.mp hx).1

theorem since_iff_heldFrom : Since P K h ↔ ∃ i, HeldFrom P K h i := by
  constructor
  · rintro ⟨h₁, x, h₂, rfl, hP, hK⟩
    refine ⟨h₁.length, ⟨x, by simp, hP⟩, fun j y hj hy => hK y ?_⟩
    rw [List.getElem?_append_right (by omega)] at hy
    obtain ⟨k, hk⟩ : ∃ k, j - h₁.length = k + 1 := ⟨j - h₁.length - 1, by omega⟩
    rw [hk, List.getElem?_cons_succ] at hy
    exact List.mem_of_getElem? hy
  · rintro ⟨i, ⟨x, hx, hP⟩, hK⟩
    obtain ⟨hi, hxi⟩ := List.getElem?_eq_some_iff.mp hx
    refine ⟨h.take i, x, h.drop (i + 1), ?_, hP, ?_⟩
    · rw [← hxi, List.getElem_cons_drop, List.take_append_drop]
    · intro y hy
      obtain ⟨k, hk⟩ := List.getElem?_of_mem hy
      rw [List.getElem?_drop] at hk
      exact hK _ y (by omega) hk

/-- A standing fact has a beginning. -/
theorem since_iff_began : Since P K h ↔ ∃ i, Began P K h i := by
  classical
  rw [since_iff_heldFrom]
  constructor
  · intro hex
    exact ⟨Nat.find hex, Nat.find_spec hex, fun j hj => Nat.find_min hex hj⟩
  · rintro ⟨i, hi, -⟩
    exact ⟨i, hi⟩

theorem heldFrom_snoc {i : Nat} :
    HeldFrom P K (h ++ [x]) i ↔ (HeldFrom P K h i ∧ ¬ K x) ∨ (i = h.length ∧ P x) := by
  have hlast : (h ++ [x])[h.length]? = some x := by simp
  constructor
  · intro hi
    have hlt := hi.lt_length
    rw [List.length_append, List.length_singleton] at hlt
    obtain ⟨⟨y, hy, hP⟩, hK⟩ := hi
    by_cases he : i = h.length
    · subst he
      rw [hlast] at hy
      cases hy
      exact Or.inr ⟨rfl, hP⟩
    · have hi' : i < h.length := by omega
      rw [List.getElem?_append_left hi'] at hy
      refine Or.inl ⟨⟨⟨y, hy, hP⟩, ?_⟩, hK _ x hi' hlast⟩
      intro j z hj hz
      have hjl := (List.getElem?_eq_some_iff.mp hz).1
      exact hK j z hj (by rw [List.getElem?_append_left hjl]; exact hz)
  · rintro (⟨hi, hx⟩ | ⟨rfl, hP⟩)
    · have hlt := hi.lt_length
      obtain ⟨⟨y, hy, hP⟩, hK⟩ := hi
      refine ⟨⟨y, by rw [List.getElem?_append_left hlt]; exact hy, hP⟩, fun j z hj hz => ?_⟩
      by_cases hj' : j < h.length
      · rw [List.getElem?_append_left hj'] at hz
        exact hK j z hj hz
      · have hjl := (List.getElem?_eq_some_iff.mp hz).1
        rw [List.length_append, List.length_singleton] at hjl
        have hje : j = h.length := by omega
        rw [hje, hlast] at hz
        cases hz
        exact hx
    · refine ⟨⟨x, hlast, hP⟩, ?_⟩
      intro j z hj hz
      have hjl := (List.getElem?_eq_some_iff.mp hz).1
      rw [List.length_append, List.length_singleton] at hjl
      omega

/-- An entry that does not end a standing fact leaves its beginning where it was. -/
theorem Began.snoc {i : Nat} (hi : Began P K h i) (hx : ¬ K x) : Began P K (h ++ [x]) i := by
  refine ⟨heldFrom_snoc.mpr (Or.inl ⟨hi.1, hx⟩), ?_⟩
  intro j hj hj'
  rcases heldFrom_snoc.mp hj' with ⟨hj', -⟩ | ⟨rfl, -⟩
  · exact hi.2 j hj hj'
  · have := hi.1.lt_length
    omega

/-- A fact that did not stand begins with the entry that establishes it. -/
theorem began_snoc_new (hs : ¬ Since P K h) (hx : P x) : Began P K (h ++ [x]) h.length := by
  refine ⟨heldFrom_snoc.mpr (Or.inr ⟨rfl, hx⟩), ?_⟩
  intro j hj hj'
  rcases heldFrom_snoc.mp hj' with ⟨hj', -⟩ | ⟨rfl, -⟩
  · exact hs (since_iff_heldFrom.mpr ⟨j, hj'⟩)
  · omega

end ObjectLink.Foundation
