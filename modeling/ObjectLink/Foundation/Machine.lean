import ObjectLink.Foundation.Since

/-!
# Machines and their runs

A `Machine` has initial states, a guard `enabled` and a step function `next`. `Run M h t` says
that the machine can go from an initial state to `t` with history `h`: one entry per step, the
state it started in and the action taken. Keeping the states in the history lets a past-time
property (`Since.lean`) speak about what was the case when an action was taken.

* `Run.invariant`: what every step keeps holds in every state reached;
* `Run.invariant_of_guard`: the same when the steps are only known to keep it under a condition
  `G` and every step of the run meets `G`;
* `Run.simulate`: what one machine shows of its state runs on another one, which may stand still;
* `Run.shows`: the same with the actions that are seen;
* `Run.related`: a run of one machine has a run of another one next to it, step by step;
* `Run.purge`: if some actions show nothing, a run without them shows the same;
* `Run.fifo`: what went into a queue has come out of it, in that order, or is still in it;
* `Run.iff_since`: a fact holds of the last state exactly when it was established and not ended
  since;
* `Run.of_since`: the same for one that may hold otherwise, too;
* `Run.guard_iff`: a condition on the steps that is exact at each step is exact for whole runs;
* `run_play`: the run a list of enabled actions makes, for evaluating one;
* `Machine.Plays.length_le`, `Machine.exists_exhausted`: actions that take from a measure come to an
  end, in any order.
-/

namespace ObjectLink.Foundation

/-- A deterministic machine with guarded actions. -/
structure Machine (σ α : Type*) where
  init : σ → Prop
  enabled : σ → α → Prop
  next : σ → α → σ

variable {σ α : Type*} {M : Machine σ α} {h h' : List (σ × α)} {s t : σ} {a : α}

/-- `t` is reached from an initial state through the steps recorded in the history. -/
inductive Run (M : Machine σ α) : List (σ × α) → σ → Prop
  | init {s : σ} : M.init s → Run M [] s
  | snoc {h : List (σ × α)} {s : σ} {a : α} :
      Run M h s → M.enabled s a → Run M (h ++ [(s, a)]) (M.next s a)

/-- **The invariant rule.** -/
theorem Run.invariant {I : σ → Prop} (hinit : ∀ s, M.init s → I s)
    (hstep : ∀ s a, I s → M.enabled s a → I (M.next s a)) (hr : Run M h t) : I t := by
  induction hr with
  | init hs => exact hinit _ hs
  | snoc _ hen ih => exact hstep _ _ ih hen

/-- **The invariant rule under a condition on the steps**: an invariant that steps meeting `G`
keep holds at the end of every run all of whose steps meet `G`. -/
theorem Run.invariant_of_guard {I : σ → Prop} {G : σ → α → Prop} (hinit : ∀ s, M.init s → I s)
    (hstep : ∀ s a, I s → M.enabled s a → G s a → I (M.next s a)) (hr : Run M h t)
    (hG : ∀ x ∈ h, G x.1 x.2) : I t := by
  induction hr with
  | init hs => exact hinit _ hs
  | @snoc h s a _ hen ih =>
    have hlast : G s a := hG (s, a) (List.mem_append_right _ (List.mem_singleton.mpr rfl))
    exact hstep _ _ (ih fun x hx => hG x (List.mem_append_left _ hx)) hen hlast

/-- **The rule for simulations**: if each step of `M` is one of `N` or none at all, seen through
`f`, then a run of `M` is seen as one of `N`. -/
theorem Run.simulate {τ β : Type*} {N : Machine τ β} (f : σ → τ)
    (hinit : ∀ s, M.init s → N.init (f s))
    (hstep : ∀ s a, M.enabled s a → f (M.next s a) = f s ∨
      ∃ b, N.enabled (f s) b ∧ f (M.next s a) = N.next (f s) b) (hr : Run M h t) :
    ∃ h', Run N h' (f t) := by
  induction hr with
  | init hs => exact ⟨[], .init (hinit _ hs)⟩
  | @snoc h s a _ hen ih =>
    obtain ⟨h', hr'⟩ := ih
    rcases hstep s a hen with hstay | ⟨b, hen', hnext⟩
    · exact ⟨h', hstay ▸ hr'⟩
    · exact ⟨_, hnext ▸ hr'.snoc hen'⟩

/-- **The rule for simulations, with the actions**: where each step of `M` that shows an action is
that step of `N`, and the others show nothing, a run of `M` is seen as the run of `N` with the
actions it shows. The steps need only meet `G`. -/
theorem Run.shows {τ β : Type*} {N : Machine τ β} {G : σ → α → Prop} (f : σ → τ) (g : α → Option β)
    (hinit : ∀ s, M.init s → N.init (f s))
    (hstay : ∀ s a, g a = none → f (M.next s a) = f s)
    (hstep : ∀ s a b, M.enabled s a → G s a → g a = some b →
      N.enabled (f s) b ∧ f (M.next s a) = N.next (f s) b)
    (hr : Run M h t) (hG : ∀ x ∈ h, G x.1 x.2) :
    ∃ h', Run N h' (f t) ∧ h'.map Prod.snd = (h.map Prod.snd).filterMap g := by
  induction hr with
  | init hs => exact ⟨[], .init (hinit _ hs), rfl⟩
  | @snoc h s a _ hen ih =>
    obtain ⟨h', hr', hactions⟩ := ih fun x hx => hG x (List.mem_append_left _ hx)
    have hlast : G s a := hG (s, a) (List.mem_append_right _ (List.mem_singleton.mpr rfl))
    cases ha : g a with
    | none =>
      refine ⟨h', (hstay s a ha).symm ▸ hr', ?_⟩
      rw [hactions, List.map_append, List.filterMap_append]
      simp [ha]
    | some b =>
      obtain ⟨hen', hnext⟩ := hstep s a b hen hlast ha
      refine ⟨h' ++ [(f s, b)], hnext ▸ hr'.snoc hen', ?_⟩
      rw [List.map_append, hactions, List.map_append, List.filterMap_append]
      simp [ha]

/-- **The rule for refinements**: if each step of `M` is the step `f a` of `N` from every related
state, then a run of `M` has one of `N` next to it, step by step. -/
theorem Run.related {τ β : Type*} {N : Machine τ β} {R : σ → τ → Prop} (f : α → β)
    (hinit : ∀ s, M.init s → ∃ s', N.init s' ∧ R s s')
    (hstep : ∀ s s' a, R s s' → M.enabled s a →
      N.enabled s' (f a) ∧ R (M.next s a) (N.next s' (f a))) (hr : Run M h t) :
    ∃ (l : List ((σ × α) × (τ × β))) (t' : τ), l.map Prod.fst = h ∧ Run N (l.map Prod.snd) t' ∧
      R t t' ∧ ∀ x ∈ l, R x.1.1 x.2.1 ∧ x.2.2 = f x.1.2 := by
  induction hr with
  | @init s hs =>
    obtain ⟨s', hs', hrel⟩ := hinit s hs
    exact ⟨[], s', rfl, .init hs', hrel, fun x hx => absurd hx List.not_mem_nil⟩
  | @snoc h s a _ hen ih =>
    obtain ⟨l, s', rfl, hr', hrel, hsteps⟩ := ih
    obtain ⟨hen', hrel'⟩ := hstep s s' a hrel hen
    refine ⟨l ++ [((s, a), (s', f a))], _, ?_, ?_, hrel', ?_⟩
    · rw [List.map_append]
      rfl
    · rw [List.map_append]
      exact hr'.snoc hen'
    · intro x hx
      rcases List.mem_append.mp hx with hx | hx
      · exact hsteps x hx
      · rw [List.mem_singleton.mp hx]
        exact ⟨hrel, rfl⟩

/-- **The rule for interference**: if the actions that are left out keep every state related, and
the others take related states to related ones, where `f` may adapt the action, then a run has one
without the former next to it, step by step. -/
theorem Run.purge {R : σ → σ → Prop} (keep : α → Bool) (f : σ → σ → α → α)
    (hinit : ∀ s, M.init s → R s s)
    (hout : ∀ s s' a, R s s' → M.enabled s a → keep a = false → R (M.next s a) s')
    (hkeep : ∀ s s' a, R s s' → M.enabled s a → keep a = true →
      M.enabled s' (f s s' a) ∧ R (M.next s a) (M.next s' (f s s' a)))
    (hr : Run M h t) : ∃ (l : List ((σ × α) × (σ × α))) (t' : σ),
      l.map Prod.fst = h.filter (fun x => keep x.2) ∧ Run M (l.map Prod.snd) t' ∧ R t t' ∧
      ∀ x ∈ l, R x.1.1 x.2.1 ∧ x.2.2 = f x.1.1 x.2.1 x.1.2 := by
  induction hr with
  | @init s hs => exact ⟨[], s, rfl, .init hs, hinit s hs, fun x hx => absurd hx List.not_mem_nil⟩
  | @snoc h s a _ hen ih =>
    obtain ⟨l, s', hl, hr', hrel, hsteps⟩ := ih
    cases ha : keep a with
    | false =>
      have hout' : [(s, a)].filter (fun x => keep x.2) = [] := by simp [ha]
      refine ⟨l, s', ?_, hr', hout s s' a hrel hen ha, hsteps⟩
      rw [hl, List.filter_append, hout', List.append_nil]
    | true =>
      have hin : [(s, a)].filter (fun x => keep x.2) = [(s, a)] := by simp [ha]
      obtain ⟨hen', hrel'⟩ := hkeep s s' a hrel hen ha
      refine ⟨l ++ [((s, a), (s', f s s' a))], M.next s' (f s s' a), ?_, ?_, hrel', ?_⟩
      · rw [List.map_append, hl, List.filter_append, hin]
        rfl
      · rw [List.map_append]
        exact hr'.snoc hen'
      · intro x hx
        rcases List.mem_append.mp hx with hx | hx
        · exact hsteps x hx
        · rw [List.mem_singleton.mp hx]
          exact ⟨hrel, rfl⟩

/-- **The rule for queues**: where a step takes from the front and puts behind the rest, what has
been put in a queue that was empty is what has been taken from it, followed by what is in it. -/
theorem Run.fifo {β : Type*} {q : σ → List β} {put taken : σ × α → List β}
    (hinit : ∀ s, M.init s → q s = [])
    (hstep : ∀ s a, M.enabled s a → q s ++ put (s, a) = taken (s, a) ++ q (M.next s a))
    (hr : Run M h t) : h.flatMap put = h.flatMap taken ++ q t := by
  induction hr with
  | init hs => rw [hinit _ hs, List.flatMap_nil, List.flatMap_nil, List.append_nil]
  | @snoc h s a _ hen ih =>
    calc (h ++ [(s, a)]).flatMap put
        = h.flatMap taken ++ (q s ++ put (s, a)) := by
          rw [List.flatMap_append, ih, List.flatMap_singleton, List.append_assoc]
      _ = (h ++ [(s, a)]).flatMap taken ++ q (M.next s a) := by
          rw [hstep s a hen, List.flatMap_append, List.flatMap_singleton, List.append_assoc]

/-- A run passes through each entry of its history: what leads up to the entry is a run, and
the entry's action was enabled. -/
theorem Run.split {x : σ × α} (hr : Run M (h ++ x :: h') t) : Run M h x.1 ∧ M.enabled x.1 x.2 := by
  generalize he : h ++ x :: h' = l at hr
  induction hr generalizing h' with
  | init _ => simp at he
  | @snoc l s a hr hen ih =>
    rcases List.eq_nil_or_concat h' with rfl | ⟨h₃, z, rfl⟩
    · obtain ⟨rfl, hxy⟩ := List.append_inj' he rfl
      cases hxy
      exact ⟨hr, hen⟩
    · rw [List.concat_eq_append, ← List.cons_append, ← List.append_assoc] at he
      obtain ⟨he', -⟩ := List.append_inj' he rfl
      exact ih he'

/-- Every state on the way is reached by the history up to it. -/
theorem Run.of_mem {x : σ × α} (hr : Run M h t) (hx : x ∈ h) :
    ∃ h₁, Run M h₁ x.1 ∧ M.enabled x.1 x.2 := by
  obtain ⟨h₁, h₂, rfl⟩ := List.append_of_mem hx
  exact ⟨h₁, hr.split⟩

/-- **The rule for past-time properties**: a fact about states that each step establishes, or
leaves alone unless it ends it, holds exactly when it has been established and not ended since. -/
theorem Run.iff_since {I Q : σ → Prop} {P K : σ × α → Prop} (hI : ∀ h s, Run M h s → I s)
    (hinit : ∀ s, M.init s → ¬ Q s)
    (hstep : ∀ s a, I s → M.enabled s a → (Q (M.next s a) ↔ P (s, a) ∨ (Q s ∧ ¬ K (s, a))))
    (hr : Run M h t) : Q t ↔ Since P K h := by
  induction hr with
  | init hs => exact iff_of_false (hinit _ hs) not_since_nil
  | snoc hr hen ih => rw [hstep _ _ (hI _ _ hr) hen, since_snoc, ih]

/-- **The rule for promises**: a fact about states that each step `P` establishes, and each step but
those of `K` keeps, holds once it has been established and not ended since. -/
theorem Run.of_since {Q : σ → Prop} {P K : σ × α → Prop}
    (hP : ∀ s a, M.enabled s a → P (s, a) → Q (M.next s a))
    (hK : ∀ s a, M.enabled s a → ¬ K (s, a) → Q s → Q (M.next s a))
    (hr : Run M h t) (hs : Since P K h) : Q t := by
  induction hr with
  | init _ => exact absurd hs not_since_nil
  | @snoc h s a _ hen ih =>
    rcases since_snoc.mp hs with hlast | ⟨hbefore, hkept⟩
    · exact hP s a hen hlast
    · exact hK s a hen hkept (ih hbefore)

/-- **The rule for exact conditions**: where a step keeps the safety property `N` exactly if it
meets `G`, all steps of a run meet `G` exactly if `N` holds in every state of the run. `I` is what
the steps that `A` admits keep in any case. -/
theorem Run.guard_iff {I N : σ → Prop} {A G : σ → α → Prop} (hinit : ∀ s, M.init s → I s ∧ N s)
    (hI : ∀ s a, I s → M.enabled s a → A s a → I (M.next s a))
    (hN : ∀ s a, I s → M.enabled s a → A s a → N s → (N (M.next s a) ↔ G s a))
    (hr : Run M h t) (hA : ∀ x ∈ h, A x.1 x.2) :
    (∀ x ∈ h, G x.1 x.2) ↔ (∀ x ∈ h, N x.1) ∧ N t := by
  induction hr with
  | init hs => simp [(hinit _ hs).2]
  | @snoc h s a hr hen ih =>
    have hA' : ∀ x ∈ h, A x.1 x.2 := fun x hx => hA x (List.mem_append_left _ hx)
    have hlast : A s a := hA (s, a) (List.mem_append_right _ (List.mem_singleton.mpr rfl))
    have hIs : I s := hr.invariant_of_guard (fun s hs => (hinit s hs).1) hI hA'
    simp only [List.forall_mem_append, List.forall_mem_singleton]
    rw [ih hA']
    constructor
    · rintro ⟨⟨hh, hs⟩, hG⟩
      exact ⟨⟨hh, hs⟩, (hN s a hIs hen hlast hs).mpr hG⟩
    · rintro ⟨⟨hh, hs⟩, ht⟩
      exact ⟨⟨hh, hs⟩, (hN s a hIs hen hlast hs).mp ht⟩

/-! ## Playing a list of actions -/

/-- The state after the actions, guards not looked at. -/
def Machine.exec (M : Machine σ α) : σ → List α → σ
  | s, [] => s
  | s, a :: as => M.exec (M.next s a) as

/-- The history of the actions. -/
def Machine.history (M : Machine σ α) : σ → List α → List (σ × α)
  | _, [] => []
  | s, a :: as => (s, a) :: M.history (M.next s a) as

/-- Each action is enabled in its turn. -/
def Machine.Plays (M : Machine σ α) : σ → List α → Prop
  | _, [] => True
  | s, a :: as => M.enabled s a ∧ M.Plays (M.next s a) as

/-- Whether a list of actions can be played is decided step by step. -/
instance decidablePlays [∀ s a, Decidable (M.enabled s a)] :
    (s : σ) → (as : List α) → Decidable (M.Plays s as)
  | _, [] => inferInstanceAs (Decidable True)
  | s, a :: as =>
    have := decidablePlays (M.next s a) as
    inferInstanceAs (Decidable (_ ∧ _))

theorem run_play_from : ∀ {as : List α} {h : List (σ × α)} {s : σ}, Run M h s → M.Plays s as →
    Run M (h ++ M.history s as) (M.exec s as)
  | [], h, s, hr, _ => by simpa [Machine.history, Machine.exec] using hr
  | a :: as, h, s, hr, hp => by
    have := run_play_from (hr.snoc hp.1) hp.2
    simpa [Machine.history, Machine.exec] using this

/-- The run that enabled actions make from an initial state. -/
theorem run_play (as : List α) (hs : M.init s) (hp : M.Plays s as) :
    Run M (M.history s as) (M.exec s as) := by
  simpa using run_play_from (Run.init hs) hp

/-! ## Playing until nothing is left -/

section Ending

variable {I : σ → Prop} {D : α → Prop} {μ : σ → ℕ}

theorem Machine.Plays.invariant (hI : ∀ s a, I s → D a → M.enabled s a → I (M.next s a)) :
    ∀ {as : List α} {s : σ}, M.Plays s as → (∀ a ∈ as, D a) → I s → I (M.exec s as)
  | [], _, _, _, hs => hs
  | a :: as, s, hp, hd, hs => by
    have hrest : I (M.exec (M.next s a) as) := Plays.invariant hI hp.2
      (fun b hb => hd b (List.mem_cons_of_mem a hb)) (hI s a hs (hd a List.mem_cons_self) hp.1)
    exact hrest

/-- **The rule for ending**: of actions that each take from a measure, no more can be played. -/
theorem Machine.Plays.length_le (hI : ∀ s a, I s → D a → M.enabled s a → I (M.next s a))
    (hμ : ∀ s a, I s → D a → M.enabled s a → μ (M.next s a) < μ s) :
    ∀ {as : List α} {s : σ}, M.Plays s as → (∀ a ∈ as, D a) → I s → as.length ≤ μ s
  | [], s, _, _, _ => Nat.zero_le (μ s)
  | a :: as, s, hp, hd, hs => by
    have ha : D a := hd a List.mem_cons_self
    have hrest : as.length ≤ μ (M.next s a) := Plays.length_le hI hμ hp.2
      (fun b hb => hd b (List.mem_cons_of_mem a hb)) (hI s a hs ha hp.1)
    have hlt : μ (M.next s a) < μ s := hμ s a hs ha hp.1
    rw [List.length_cons]
    omega

/-- They can be played until none is possible. -/
theorem Machine.exists_exhausted (hI : ∀ s a, I s → D a → M.enabled s a → I (M.next s a))
    (hμ : ∀ s a, I s → D a → M.enabled s a → μ (M.next s a) < μ s) (hs : I s) :
    ∃ as, (∀ a ∈ as, D a) ∧ M.Plays s as ∧ ∀ a, D a → ¬ M.enabled (M.exec s as) a := by
  induction hn : μ s using Nat.strong_induction_on generalizing s with
  | _ n ih =>
    by_cases hany : ∃ a, D a ∧ M.enabled s a
    · obtain ⟨a, ha, hen⟩ := hany
      obtain ⟨as, hd, hp, hstuck⟩ := ih _ (hn ▸ hμ s a hs ha hen) (hI s a hs ha hen) rfl
      exact ⟨a :: as, List.forall_mem_cons.mpr ⟨ha, hd⟩, ⟨hen, hp⟩, hstuck⟩
    · exact ⟨[], fun a ha => absurd ha List.not_mem_nil, trivial,
        fun a ha hen => hany ⟨a, ha, hen⟩⟩

end Ending

end ObjectLink.Foundation
