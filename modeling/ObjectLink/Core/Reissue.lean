import ObjectLink.Core.Allocation
import ObjectLink.Foundation.Orbit

/-!
# When a number is issued again

`getUniqueIdLocked` (`uniqueidobjectstorage.h:126-153`) takes its numbers from a counter that only
ever goes up, and from `maxCount - 1` back to zero. It hands out the number the counter is at, or,
after the first wrap, the next one that is not in use. Removals and purges leave the counter where
it is. So the numbers that are issued and the numbers that are found in use form one walk round the
range, whatever happens in between.

* `passed`: the numbers the search finds in use on its way; `drawsFrom`: the storage in which `add`
  draws a number, where it comes to that.

Results:
* `walk_getUniqueIdLocked`: one drawing goes on from the counter through the numbers passed to the
  number issued; `walk_next`: so does every step, or it leaves the counter alone.
* `visits_of_newlyIssues`, `newlyIssues_or_foundOccupied`: what a step comes through is what it
  issues or finds in use, in this order.
* `reissued_last`: a number is issued again only after every other number was issued or found in
  use.
-/

namespace ObjectLink

open Foundation (Machine Run run_play Walk walk_single walk_append)

namespace UniqueIdObjectStorage

variable {Obj : Type} {alive : Obj → Bool} {s r : UniqueIdObjectStorage Obj} {o : Obj}
  {id j k : Nat}

/-! ## The numbers on the way -/

/-- The numbers the loop of `getUniqueIdLocked` finds in use, from the value `counter` on. -/
def passedFrom (s : UniqueIdObjectStorage Obj) (startId : Nat) : Nat → Nat → List Nat
  | 0, _ => []
  | fuel + 1, counter =>
    if counter ∈ s.objects then
      if s.objects.size = s.maxCount then [counter]
      else if s.bump counter = startId then [counter]
      else counter :: passedFrom s startId fuel (s.bump counter)
    else []

/-- The numbers `getUniqueIdLocked` finds in use. Before the counter wraps for the first time it
does not look. -/
def passed (s : UniqueIdObjectStorage Obj) : List Nat :=
  if s.overflowed then s.passedFrom s.counter s.maxCount s.counter else []

/-- A number that is passed is in use. -/
theorem mem_objects_of_passedFrom {startId : Nat} : ∀ {fuel counter : Nat},
    j ∈ s.passedFrom startId fuel counter → j ∈ s.objects
  | fuel + 1, counter, h => by
    unfold passedFrom at h
    by_cases hused : counter ∈ s.objects
    · rw [if_pos hused] at h
      split at h
      · exact List.mem_singleton.mp h ▸ hused
      · split at h
        · exact List.mem_singleton.mp h ▸ hused
        · rcases List.mem_cons.mp h with rfl | h
          · exact hused
          · exact mem_objects_of_passedFrom h
    · rw [if_neg hused] at h
      cases h

theorem mem_objects_of_passed (h : j ∈ s.passed) : j ∈ s.objects := by
  unfold passed at h
  split at h
  · exact mem_objects_of_passedFrom h
  · cases h

/-- **The search** walks through the numbers in use to the free one. -/
theorem walk_search {startId c : Nat} : ∀ {fuel counter : Nat},
    s.search startId fuel counter = some (true, c) →
    Walk s.bump counter (s.passedFrom startId fuel counter ++ [c]) (s.bump c)
  | fuel + 1, counter, h => by
    unfold search at h
    unfold passedFrom
    by_cases hused : counter ∈ s.objects
    · rw [if_pos hused] at h ⊢
      by_cases hfull : s.objects.size = s.maxCount
      · rw [if_pos hfull] at h
        cases h
      · by_cases hround : s.bump counter = startId
        · rw [if_neg hfull, if_pos hround] at h
          cases h
        · rw [if_neg hfull, if_neg hround] at h ⊢
          exact .cons (walk_search h)
    · rw [if_neg hused] at h ⊢
      cases h
      exact walk_single _ _

/-- **Drawing a number** goes on from the counter, through the numbers passed, to the number that
is issued. -/
theorem walk_getUniqueIdLocked (hc : s.Counted) (hroom : s.objects.size < s.maxCount) :
    Walk s.bump s.counter (s.passed ++ [(s.getUniqueIdLocked).1])
      (s.getUniqueIdLocked).2.counter := by
  unfold getUniqueIdLocked passed
  by_cases ho : s.overflowed = true
  · obtain ⟨c, hfound⟩ := search_finds hc hroom
    rw [if_pos ho, if_neg (by simp [ho]), hfound]
    exact walk_search hfound
  · have hof : s.overflowed = false := by simpa using ho
    have hwalk := walk_single s.bump s.counter
    rw [if_neg ho, if_pos (by simp [hof])]
    by_cases hlast : s.counter + 1 = s.maxCount
    · have hnext : s.bump s.counter = 0 := if_pos hlast
      rw [hnext] at hwalk
      rw [if_pos hlast]
      exact hwalk
    · have hnext : s.bump s.counter = s.counter + 1 := if_neg hlast
      rw [hnext] at hwalk
      rw [if_neg hlast]
      exact hwalk

/-- Where the counter goes depends on the capacity only. -/
theorem bump_eq {maxCount : Nat} (h : s.maxCount = maxCount) :
    s.bump = (new maxCount : UniqueIdObjectStorage Obj).bump := by
  funext counter
  unfold bump
  rw [h]
  rfl

/-- The counter comes to every number of the range. -/
theorem bump_iterate (hk : k < s.maxCount) : ∀ i, s.bump^[i] k = (k + i) % s.maxCount
  | 0 => (Nat.mod_eq_of_lt hk).symm
  | i + 1 => by
    have hlt : (k + i) % s.maxCount < s.maxCount := Nat.mod_lt _ (by omega)
    rw [Function.iterate_succ_apply', bump_iterate hk i, bump_eq_mod hlt, Nat.mod_add_mod,
      Nat.add_assoc]

theorem exists_bump_iterate (hk : k < s.maxCount) (hj : j < s.maxCount) :
    ∃ i, s.bump^[i] k = j := by
  refine ⟨j + s.maxCount - k, ?_⟩
  rw [bump_iterate hk, Nat.add_sub_cancel' (by omega), Nat.add_mod_right, Nat.mod_eq_of_lt hj]

/-! ## What `add` draws -/

variable [DecidableEq Obj] {object : WeakPtr Obj}

/-- The storage in which `add` draws a number: that after the purge of a full one. It draws none if
the object has expired, if there is no room, or if the object is found. -/
def drawsFrom (alive : Obj → Bool) (s : UniqueIdObjectStorage Obj) (object : WeakPtr Obj) :
    Option (UniqueIdObjectStorage Obj) :=
  (object.lock alive).bind fun o =>
    if (s.room alive).objects.size = s.maxCount then none
    else if ((s.room alive).findObject alive o).isSome then none
    else some (s.room alive)

theorem drawsFrom_eq_some : drawsFrom alive s object = some r ↔
    ∃ o, object.lock alive = some o ∧ (s.room alive).objects.size ≠ s.maxCount ∧
      (s.room alive).findObject alive o = none ∧ s.room alive = r := by
  unfold drawsFrom
  rw [Option.bind_eq_some_iff]
  refine exists_congr fun o => and_congr_right fun _ => ?_
  by_cases hfull : (s.room alive).objects.size = s.maxCount
  · simp [hfull]
  · cases hfind : (s.room alive).findObject alive o <;> simp [hfull]

/-- Where `add` draws there is room, and the counter is where it was. -/
theorem counted_of_drawsFrom (hw : s.Wf) (h : drawsFrom alive s object = some r) :
    r.Counted ∧ r.objects.size < r.maxCount ∧ r.maxCount = s.maxCount ∧ r.counter = s.counter := by
  obtain ⟨o, -, hfull, -, rfl⟩ := drawsFrom_eq_some.mp h
  have hwr := wf_room hw alive
  have hle := hwr.size_le
  have hmax : (s.room alive).maxCount = s.maxCount := room_maxCount
  exact ⟨hwr.counted, by omega, hmax, (room_keeps alive s).1⟩

/-- **An `add` that draws** stores a new object under the number drawn. -/
theorem add_of_drawsFrom (hw : s.Wf) (h : drawsFrom alive s object = some r) :
    (s.add alive object).1 = (r.getUniqueIdLocked).1 ∧
      (s.add alive object).2.counter = (r.getUniqueIdLocked).2.counter ∧
      ∃ o, object = some o ∧ ∀ k, s.get k ≠ some o := by
  obtain ⟨hc, hroom, hmax, -⟩ := counted_of_drawsFrom hw h
  obtain ⟨o, ho, hfull, hfind, rfl⟩ := drawsFrom_eq_some.mp h
  obtain ⟨hobject, hlive⟩ := WeakPtr.lock_eq_some.mp ho
  have hvalid : ((s.room alive).getUniqueIdLocked).1 ≠ invalidId := by
    have hlt := (getUniqueIdLocked_spec hc hroom).1
    have hle := hw.maxCount_le
    omega
  have hnew : ∀ k, s.get k ≠ some o := fun k hk =>
    findObject_eq_none hlive hfind ((get_room_iff hlive).mpr hk)
  rw [add_eq ho, if_neg hfull, addLocked, hfind]
  dsimp only
  rw [if_neg hvalid]
  exact ⟨rfl, rfl, o, hobject, hnew⟩

/-- **An `add` that does not draw** leaves the counter alone, and issues nothing to a new object. -/
theorem add_of_drawsFrom_eq_none (h : drawsFrom alive s object = none) :
    (s.add alive object).2.counter = s.counter ∧
      ((s.add alive object).1 = invalidId ∨ ∃ o k, object = some o ∧ s.get k = some o) := by
  cases ho : object.lock alive with
  | none =>
    have hadd : s.add alive object = (invalidId, s) := by
      unfold add
      rw [ho]
    rw [hadd]
    exact ⟨rfl, Or.inl rfl⟩
  | some o =>
    have hcounter : (s.room alive).counter = s.counter := (room_keeps alive s).1
    rw [add_eq ho]
    by_cases hfull : (s.room alive).objects.size = s.maxCount
    · rw [if_pos hfull]
      exact ⟨hcounter, Or.inl rfl⟩
    · rw [if_neg hfull]
      unfold drawsFrom at h
      rw [ho, Option.bind_some, if_neg hfull] at h
      unfold addLocked
      cases hfind : (s.room alive).findObject alive o with
      | some id =>
        have hobject := (WeakPtr.lock_eq_some.mp ho).1
        exact ⟨hcounter, Or.inr ⟨o, id, hobject, get_of_get_room (findObject_eq_some hfind)⟩⟩
      | none =>
        rw [hfind] at h
        cases h

/-! ## What a step issues and finds in use -/

variable {maxCount : Nat} {t : Holding Obj} {x : Holding Obj × Action Obj}

/-- `add` issued the number `id` to an object that was not stored. -/
def NewlyIssues (id : Nat) (x : Holding Obj × Action Obj) : Prop :=
  ∃ o, Issued id o x ∧ ∀ k, x.1.storage.get k ≠ some o

/-- The search of an `add` found the number `id` in use when the counter passed it. -/
def FoundOccupied (id : Nat) (x : Holding Obj × Action Obj) : Prop :=
  ∃ object r, x.2 = .add object ∧ drawsFrom x.1.alive x.1.storage object = some r ∧ id ∈ r.passed

/-- The numbers a step comes through: those that are passed, and the one that is issued. -/
def visits (x : Holding Obj × Action Obj) : List Nat :=
  match x.2 with
  | .add object => (drawsFrom x.1.alive x.1.storage object).elim []
      fun r => r.passed ++ [(r.getUniqueIdLocked).1]
  | _ => []

/-- A number found occupied was in use. -/
theorem FoundOccupied.mem_objects (h : FoundOccupied id x) : id ∈ x.1.storage.objects := by
  obtain ⟨object, r, -, hdraw, hpassed⟩ := h
  obtain ⟨o, -, -, -, rfl⟩ := drawsFrom_eq_some.mp hdraw
  exact (room_keeps _ _).2.2 _ (mem_objects_of_passed hpassed)

/-- A step that newly issues a number comes to it last. -/
theorem visits_of_newlyIssues (hi : Inv maxCount x.1) (h : NewlyIssues id x) :
    id < maxCount ∧ ∃ l, visits x = l ++ [id] ∧ ∀ j ∈ l, FoundOccupied j x := by
  obtain ⟨o, ⟨hact, hid, hvalid⟩, hnew⟩ := h
  cases hdraw : drawsFrom x.1.alive x.1.storage (some o) with
  | none =>
    rcases (add_of_drawsFrom_eq_none hdraw).2 with hinvalid | ⟨o', k, ho, hk⟩
    · exact absurd (hid.symm.trans hinvalid) hvalid
    · cases ho
      exact absurd hk (hnew k)
  | some r =>
    obtain ⟨hc, hroom, hmax, -⟩ := counted_of_drawsFrom hi.wf hdraw
    obtain ⟨hissued, -⟩ := add_of_drawsFrom hi.wf hdraw
    have hdrawn : (r.getUniqueIdLocked).1 = id := hissued.symm.trans hid
    have hlt := (getUniqueIdLocked_spec hc hroom).1
    rw [hdrawn, hmax, hi.maxCount_eq] at hlt
    refine ⟨hlt, r.passed, ?_, fun j hj => ⟨some o, r, hact, hdraw, hj⟩⟩
    unfold visits
    rw [hact]
    dsimp only
    rw [hdraw, Option.elim_some, hdrawn]

/-- **What a step comes through** it has issued or found in use. -/
theorem newlyIssues_or_foundOccupied (hi : Inv maxCount x.1) (h : j ∈ visits x) :
    NewlyIssues j x ∨ FoundOccupied j x := by
  obtain ⟨t, a⟩ := x
  cases a with
  | add object =>
    unfold visits at h
    dsimp only at h
    cases hdraw : drawsFrom t.alive t.storage object with
    | none =>
      rw [hdraw] at h
      cases h
    | some r =>
      rw [hdraw, Option.elim_some, List.mem_append, List.mem_singleton] at h
      obtain ⟨hc, hroom, hmax, -⟩ := counted_of_drawsFrom hi.wf hdraw
      obtain ⟨hissued, -, o, rfl, hnew⟩ := add_of_drawsFrom hi.wf hdraw
      rcases h with hpassed | rfl
      · exact Or.inr ⟨some o, r, rfl, hdraw, hpassed⟩
      · have hlt := (getUniqueIdLocked_spec hc hroom).1
        have hle := hi.wf.maxCount_le
        exact Or.inl ⟨o, ⟨rfl, hissued, by omega⟩, hnew⟩
  | remove _ | get _ | purgeExpired | expire _ => cases h

/-- **One step** goes on from the counter, or leaves it alone. -/
theorem walk_next (hi : Inv maxCount t) (a : Action Obj) :
    Walk (new maxCount : UniqueIdObjectStorage Obj).bump t.storage.counter (visits (t, a))
      (next t a).storage.counter := by
  cases a with
  | add object =>
    unfold visits next
    dsimp only
    cases hdraw : drawsFrom t.alive t.storage object with
    | none =>
      rw [Option.elim_none, (add_of_drawsFrom_eq_none hdraw).1]
      exact .nil
    | some r =>
      obtain ⟨hc, hroom, hmax, hcounter⟩ := counted_of_drawsFrom hi.wf hdraw
      obtain ⟨-, hnext, -⟩ := add_of_drawsFrom hi.wf hdraw
      rw [Option.elim_some, hnext, ← hcounter, ← bump_eq (hmax.trans hi.maxCount_eq)]
      exact walk_getUniqueIdLocked hc hroom
  | remove _ | get _ | purgeExpired | expire _ => exact .nil

/-- **A number is reissued as late as possible.** If `add` newly issues the number `k`, and later
newly issues `k` again, then every other number below `maxCount` was in the meantime newly issued
or found in use by the search, at the latest by that of the second `add`. So a stale number is not
handed to another object before the counter has gone round the whole range. -/
theorem reissued_last {maxCount : Nat} (hmax : maxCount ≤ invalidId)
    {h₁ h₂ h₃ : List (Holding Obj × Action Obj)} {x y : Holding Obj × Action Obj}
    {t : Holding Obj} (hr : Run (machine Obj maxCount) (h₁ ++ x :: (h₂ ++ y :: h₃)) t) {k : Nat}
    (hx : NewlyIssues k x) (hy : NewlyIssues k y) :
    ∀ j < maxCount, j ≠ k →
      (∃ z ∈ h₂, NewlyIssues j z) ∨ ∃ z ∈ h₂ ++ [y], FoundOccupied j z := by
  intro j hj hjk
  have hI : ∀ z ∈ h₁ ++ x :: (h₂ ++ y :: h₃), Inv maxCount z.1 := fun z hz => by
    obtain ⟨h, hrz, -⟩ := hr.of_mem hz
    exact inv_run hmax h z.1 hrz
  obtain ⟨hk, l, hvx, -⟩ := visits_of_newlyIssues (hI x (by simp)) hx
  obtain ⟨-, l', hvy, hpassed⟩ := visits_of_newlyIssues (hI y (by simp)) hy
  have hinit : ∀ s, (machine Obj maxCount).init s → s.storage.counter = 0 := fun s hs => by
    have hnew : s.storage = new maxCount := hs
    rw [hnew]
    rfl
  obtain ⟨i, hij⟩ :=
    exists_bump_iterate (s := (new maxCount : UniqueIdObjectStorage Obj)) hk hj
  rw [← hij] at hjk ⊢
  have hvisited := hr.visited_between (inv_run hmax) hinit (fun s a hi _ => walk_next hi a) hvx hvy
    i hjk
  rcases hvisited with ⟨z, hz, hvisit⟩ | hsearch
  · rcases newlyIssues_or_foundOccupied (hI z (by simp [hz])) hvisit with hissued | hoccupied
    · exact Or.inl ⟨z, hz, hissued⟩
    · exact Or.inr ⟨z, List.mem_append_left _ hz, hoccupied⟩
  · exact Or.inr ⟨y, by simp, hpassed _ hsearch⟩

/-- The counter wraps, and the number `0` is removed. -/
def wrap : List (Action Nat) := [.add (some 0), .add (some 1), .remove 0]

/-- It is issued, removed and issued again. -/
def reissue : List (Action Nat) := [.add (some 2), .remove 0, .add (some 3)]

/-- When `0` is issued again the counter has passed `1`, which is in use. -/
theorem reissued_last_wrap :
    let s := (machine Nat 2).exec twoSlots wrap
    let t := next s (.add (some 2))
    let t' := next t (.remove 0)
    NewlyIssues 0 (s, .add (some 2)) ∧ NewlyIssues 0 (t', .add (some 3)) ∧
      ((∃ z ∈ [(t, Action.remove 0)], NewlyIssues 1 z) ∨
        ∃ z ∈ [(t, .remove 0), (t', .add (some 3))], FoundOccupied 1 z) := by
  intro s t t'
  have hx : NewlyIssues 0 (s, .add (some 2)) := by
    refine ⟨2, ⟨rfl, by decide +kernel, by decide⟩, fun k => ?_⟩
    exact findObject_eq_none (rfl : s.alive 2 = true) (by decide +kernel)
  have hy : NewlyIssues 0 (t', .add (some 3)) := by
    refine ⟨3, ⟨rfl, by decide +kernel, by decide⟩, fun k => ?_⟩
    exact findObject_eq_none (rfl : t'.alive 3 = true) (by decide +kernel)
  have hr : Run (machine Nat 2) ((machine Nat 2).history twoSlots wrap ++ (s, .add (some 2)) ::
      ([(t, .remove 0)] ++ (t', .add (some 3)) :: [])) (next t' (.add (some 3))) :=
    run_play (M := machine Nat 2) (s := twoSlots) (wrap ++ reissue) rfl (plays _ _)
  exact ⟨hx, hy, reissued_last (by decide) hr hx hy 1 (by decide) (by decide)⟩

end UniqueIdObjectStorage

end ObjectLink
