import ObjectLink.Foundation.Machine

/-!
# Rosters

A roster is a list kept by a machine, from which each step strikes the members a fact about whom
it ends and to which it may append one about whom it establishes the fact.

* `Run.roster`: at the end of every run a roster has no duplicates, and its members are exactly
  those about whom the fact stands (`Since`), in the order in which it began to stand (`Began`).
-/

namespace ObjectLink.Foundation

variable {σ α ι : Type*} {M : Machine σ α} {h : List (σ × α)} {s t : σ} {a : α}

/-- How a roster changes in a step that establishes the fact about the members in `P` and ends it
about those in `K`. -/
structure RosterStep (P K : ι → Prop) (l l' : List ι) : Prop where
  mem_iff : ∀ i, i ∈ l' ↔ P i ∨ (i ∈ l ∧ ¬ K i)
  order : l'.Sublist l ∨ ∃ i, i ∉ l ∧ P i ∧ l' = l ++ [i]
  exclusive : ∀ i, P i → ¬ K i

theorem RosterStep.refl {P K : ι → Prop} {l : List ι} (hP : ∀ i, ¬ P i) (hK : ∀ i ∈ l, ¬ K i) :
    RosterStep P K l l where
  mem_iff i := by
    constructor
    · exact fun hi => Or.inr ⟨hi, hK i hi⟩
    · rintro (hi | ⟨hi, -⟩)
      · exact absurd hi (hP i)
      · exact hi
  order := Or.inl (List.Sublist.refl l)
  exclusive i hi := absurd hi (hP i)

/-- The members in the order in which the fact about them began to stand. -/
def InOrder (P K : ι → σ × α → Prop) (h : List (σ × α)) (l : List ι) : Prop :=
  l.Pairwise fun i j => ∃ a b, Began (P i) (K i) h a ∧ Began (P j) (K j) h b ∧ a < b

/-- **The roster rule.** -/
theorem Run.roster {I : σ → Prop} {P K : ι → σ × α → Prop} {L : σ → List ι}
    (hI : ∀ h s, Run M h s → I s) (hinit : ∀ s, M.init s → L s = [])
    (hstep : ∀ s a, I s → M.enabled s a →
      RosterStep (fun i => P i (s, a)) (fun i => K i (s, a)) (L s) (L (M.next s a)))
    (hr : Run M h t) :
    (L t).Nodup ∧ (∀ i, i ∈ L t ↔ Since (P i) (K i) h) ∧ InOrder P K h (L t) := by
  induction hr with
  | init hs =>
    rw [hinit _ hs]
    exact ⟨List.nodup_nil, fun i => by simp [not_since_nil], List.Pairwise.nil⟩
  | @snoc h s a hr hen ih =>
    obtain ⟨hnodup, hmem, hord⟩ := ih
    obtain ⟨hiff, hsub, hex⟩ := hstep s a (hI _ _ hr) hen
    have hmem' : ∀ i, i ∈ L (M.next s a) ↔ Since (P i) (K i) (h ++ [(s, a)]) := fun i => by
      rw [hiff, since_snoc, hmem]
    -- a member that stays has not been struck, so its beginning stays
    have hstay : ∀ i ∈ L s, i ∈ L (M.next s a) → ∀ b, Began (P i) (K i) h b →
        Began (P i) (K i) (h ++ [(s, a)]) b := fun i _ hi b hb => by
      rcases (hiff i).mp hi with hP | ⟨-, hK⟩
      · exact hb.snoc (hex i hP)
      · exact hb.snoc hK
    have hkeep : ∀ l : List ι, l.Sublist (L s) → (∀ i ∈ l, i ∈ L (M.next s a)) →
        InOrder P K (h ++ [(s, a)]) l := fun l hl hin => by
      refine (hord.sublist hl).imp_of_mem fun hi hj => ?_
      rintro ⟨b, c, hb, hc, hbc⟩
      exact ⟨b, c, hstay _ (hl.subset hi) (hin _ hi) b hb, hstay _ (hl.subset hj) (hin _ hj) c hc,
        hbc⟩
    refine ⟨?_, hmem', ?_⟩
    · rcases hsub with hsub | ⟨i, hi, -, hl⟩
      · exact hnodup.sublist hsub
      · rw [hl]
        refine List.pairwise_append.mpr ⟨hnodup, List.pairwise_singleton _ _, ?_⟩
        rintro x hx y hy rfl
        rw [List.mem_singleton.mp hy] at hx
        exact hi hx
    · rcases hsub with hsub | ⟨i, hi, hP, hl⟩
      · exact hkeep _ hsub fun _ hi => hi
      · have hin : ∀ j ∈ L s, j ∈ L (M.next s a) := fun j hj => by
          rw [hl]
          exact List.mem_append_left _ hj
        rw [hl]
        refine List.pairwise_append.mpr ⟨hkeep _ (List.Sublist.refl _) hin, ?_, ?_⟩
        · exact List.pairwise_singleton _ _
        · intro j hj k hk
          rw [List.mem_singleton.mp hk]
          obtain ⟨b, hb⟩ := since_iff_began.mp ((hmem j).mp hj)
          have hnew := began_snoc_new (fun hs => hi ((hmem i).mpr hs)) hP
          exact ⟨b, h.length, hstay j hj (hin j hj) b hb, hnew, hb.1.lt_length⟩

end ObjectLink.Foundation
