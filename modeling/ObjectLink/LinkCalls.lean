import ObjectLink.ClientRuns

/-!
# Calls of `linkRemote` and `unlinkRemote` that overlap

One client node, and any number of calls of `linkRemote` and `unlinkRemote` on it, for any objects.
A call is the steps it takes in its turn (`clientnode.cpp:30-49`):

* `linkRemote` writes the `Link`, frees the slot of the object (`unsetNode`), and sets the node
  (`setNode`);
* `unlinkRemote` releases the sink, writes the `Unlink`, and frees the slot.

Each of the steps locks on its own, and the steps of different calls follow each other in any order.
A call that is made from within the write function or a sink of another call, on the same thread,
has its steps between two steps of that call, so these orders are among them.

Results:
* `linkRemote_alone`, `unlinkRemote_alone`: a call whose steps follow each other is the operation.
* `Repaired`: the slot of each object agrees with the last message about it, or a call that is on
  its way will change that; `repaired_next_iff`: a step keeps that exactly if it `Keeps`.
* `lastMessage_agrees`: the same over whole runs, and agreement when all calls have returned.
* `unlink_overtakes`: an `unlinkRemote` from within the write of the `Link`.
-/

namespace ObjectLink

open Foundation (Machine Run Since since_snoc run_play)

/-- The step that a call takes next. -/
inductive LinkPhase where
  | linkWrite (objectId : ObjectId)
  | linkUnset (objectId : ObjectId)
  | linkSet (objectId : ObjectId)
  | unlinkRelease (objectId : ObjectId)
  | unlinkWrite (objectId : ObjectId)
  | unlinkUnset (objectId : ObjectId)
  deriving DecidableEq

/-- The client side, and the calls on their way. -/
structure LinkCalls where
  client : Client
  running : Nat → Option LinkPhase

namespace LinkCalls

/-- A call is made, or one on its way takes its next step. -/
inductive Action where
  | linkRemote (call : Nat) (objectId : ObjectId)
  | unlinkRemote (call : Nat) (objectId : ObjectId)
  | step (call : Nat)

/-- The step of a call on the node `n`, and the step that it takes after that. -/
def advance (n : NodeRef) (w : Client) : LinkPhase → Client × Option LinkPhase
  | .linkWrite o =>
    (((ClientNode.emitWrite .returning n (Protocol.linkMessage o)).run w).2, some (.linkUnset o))
  | .linkUnset o => (w.updateRegistry fun r => r.unsetNode o, some (.linkSet o))
  | .linkSet o => (w.updateRegistry fun r => r.setNode (w.nodes n).nodeId o, none)
  | .unlinkRelease o =>
    (match (w.registry.getSink o).lock w.sinkAlive with
      | some sink => ((ClientNode.perform .returning (.olinkOnRelease sink)).run w).2
      | none => w, some (.unlinkWrite o))
  | .unlinkWrite o =>
    (((ClientNode.emitWrite .returning n (Protocol.unlinkMessage o)).run w).2,
      some (.unlinkUnset o))
  | .unlinkUnset o => (w.updateRegistry fun r => r.unsetNode o, none)

/-- A call goes on to its next step, or has none. -/
def set (running : Nat → Option LinkPhase) (c : Nat) (p : Option LinkPhase) :
    Nat → Option LinkPhase := fun d => if d = c then p else running d

/-- The calls after it: one that has taken its last step is over. -/
def next (n : NodeRef) (s : LinkCalls) : Action → LinkCalls
  | .linkRemote c o => { s with running := set s.running c (some (.linkWrite o)) }
  | .unlinkRemote c o => { s with running := set s.running c (some (.unlinkRelease o)) }
  | .step c =>
    match s.running c with
    | some p =>
      let (client, p') := advance n s.client p
      { client := client, running := set s.running c p' }
    | none => s

/-- A call is made once. -/
def Enabled (s : LinkCalls) : Action → Prop
  | .linkRemote c _ | .unlinkRemote c _ => s.running c = none
  | .step c => s.running c ≠ none

instance decidableEnabled (s : LinkCalls) : (a : Action) → Decidable (Enabled s a)
  | .linkRemote _ _ | .unlinkRemote _ _ => inferInstanceAs (Decidable (_ = none))
  | .step _ => inferInstanceAs (Decidable (_ ≠ none))

/-- The last of the `Link` and `Unlink` messages that the node has written for the object is a
`Link`. -/
def LastLink (n : NodeRef) (o : ObjectId) (w : Client) : Prop :=
  Since (· = .write n (Protocol.linkMessage o)) (· = .write n (Protocol.unlinkMessage o)) w.effects

/-- **The recorded link agrees with the last message sent.** -/
def Agrees (n : NodeRef) (s : LinkCalls) (o : ObjectId) : Prop :=
  s.client.registry.getNode o = some n ↔ LastLink n o s.client

/-- The start: a live node on a client in any state that agrees with what the node has written, and
no call. -/
structure Init (n : NodeRef) (s : LinkCalls) : Prop where
  client : Client.Inv s.client
  alive : s.client.nodeAlive n = true
  running : ∀ c, s.running c = none
  agrees : ∀ o, Agrees n s o

/-- The calls of a node on a client from a start on. -/
def machine (n : NodeRef) : Machine LinkCalls Action where
  init := Init n
  enabled := Enabled
  next := next n

instance (n : NodeRef) (s : LinkCalls) (a : Action) : Decidable ((machine n).enabled s a) :=
  decidableEnabled s a

/-- All calls have returned. -/
def Quiet (s : LinkCalls) : Prop := ∀ c, s.running c = none

variable {n : NodeRef} {s : LinkCalls} {w : Client} {o k : ObjectId} {c d : Nat} {a : Action}

/-! ## A call alone -/

open ClientEnv (returning_returns)

theorem advance_linkWrite : advance n w (.linkWrite o) =
    ({ w with effects := w.effects ++ ClientNode.written w n (Protocol.linkMessage o) },
      some (.linkUnset o)) := by
  unfold advance
  dsimp only
  rw [ClientNode.emitWrite_run returning_returns]

theorem advance_unlinkRelease : advance n w (.unlinkRelease o) =
    ({ w with effects := w.effects ++ ClientNode.released w o }, some (.unlinkWrite o)) := by
  unfold advance ClientNode.released
  dsimp only
  cases (w.registry.getSink o).lock w.sinkAlive with
  | none =>
    dsimp only
    rw [List.append_nil]
  | some sink =>
    dsimp only
    rw [ClientNode.perform_run_ok returning_returns]

theorem advance_unlinkWrite : advance n w (.unlinkWrite o) =
    ({ w with effects := w.effects ++ ClientNode.written w n (Protocol.unlinkMessage o) },
      some (.unlinkUnset o)) := by
  unfold advance
  dsimp only
  rw [ClientNode.emitWrite_run returning_returns]

theorem set_self (running : Nat → Option LinkPhase) (p : Option LinkPhase) :
    set running c p c = p := if_pos rfl

theorem set_set (running : Nat → Option LinkPhase) (p q : Option LinkPhase) :
    set (set running c p) c q = set running c q := by
  funext d
  unfold set
  split <;> rfl

theorem set_of_eq {running : Nat → Option LinkPhase} {p : Option LinkPhase}
    (h : running c = p) : set running c p = running := by
  funext d
  unfold set
  split
  · rename_i hd
    rw [hd, h]
  · rfl

theorem next_step {p : LinkPhase} (hp : s.running c = some p) : next n s (.step c) =
    { client := (advance n s.client p).1,
      running := set s.running c (advance n s.client p).2 } := by
  unfold next
  dsimp only
  rw [hp]

/-- A call takes its next step. -/
theorem next_set_step {running : Nat → Option LinkPhase} {p : LinkPhase} {p' : Option LinkPhase}
    {w' : Client} (h : advance n w p = (w', p')) :
    next n ⟨w, set running c (some p)⟩ (.step c) = ⟨w', set running c p'⟩ := by
  rw [next_step (set_self running (some p)), set_set, h]

/-- **`linkRemote`** is its steps one after the other. -/
theorem linkRemote_alone (hc : s.running c = none) :
    (machine n).exec s [.linkRemote c o, .step c, .step c, .step c] =
      { s with client := ((ClientNode.linkRemote .returning n o).run s.client).2 } := by
  show next n (next n (next n ⟨s.client, set s.running c (some (.linkWrite o))⟩ (.step c))
    (.step c)) (.step c) = _
  rw [next_set_step advance_linkWrite, next_set_step rfl, next_set_step rfl, set_of_eq hc,
    ClientNode.linkRemote_run returning_returns]
  rfl

/-- **`unlinkRemote`** is its steps one after the other. -/
theorem unlinkRemote_alone (hc : s.running c = none) :
    (machine n).exec s [.unlinkRemote c o, .step c, .step c, .step c] =
      { s with client := ((ClientNode.unlinkRemote .returning n o).run s.client).2 } := by
  show next n (next n (next n ⟨s.client, set s.running c (some (.unlinkRelease o))⟩ (.step c))
    (.step c)) (.step c) = _
  rw [next_set_step advance_unlinkRelease, next_set_step advance_unlinkWrite, next_set_step rfl,
    set_of_eq hc, ClientNode.unlinkRemote_run returning_returns]
  dsimp only
  rw [List.append_assoc]
  rfl

/-! ## Calls on their way -/

/-- Some call on its way takes such a step next. -/
def Upcoming (running : Nat → Option LinkPhase) (P : LinkPhase → Prop) : Prop :=
  ∃ d p, running d = some p ∧ P p

/-- The same for the calls other than `c`. -/
def Elsewhere (running : Nat → Option LinkPhase) (c : Nat) (P : LinkPhase → Prop) : Prop :=
  ∃ d p, d ≠ c ∧ running d = some p ∧ P p

/-- A `linkRemote` of the object that has written its `Link` and has still to set the node. -/
def Linking (o : ObjectId) (p : LinkPhase) : Prop := p = .linkUnset o ∨ p = .linkSet o

/-- An `unlinkRemote` of the object that has written its `Unlink` and has still to free the
slot. -/
def Unlinking (o : ObjectId) (p : LinkPhase) : Prop := p = .unlinkUnset o

section Upcoming

variable {running : Nat → Option LinkPhase} {P : LinkPhase → Prop}

theorem upcoming_iff {p : LinkPhase} (hp : running c = some p) :
    Upcoming running P ↔ P p ∨ Elsewhere running c P := by
  constructor
  · rintro ⟨d, q, hd, hq⟩
    by_cases hdc : d = c
    · rw [hdc, hp] at hd
      cases hd
      exact Or.inl hq
    · exact Or.inr ⟨d, q, hdc, hd, hq⟩
  · rintro (h | ⟨d, q, -, hd, hq⟩)
    · exact ⟨c, p, hp, h⟩
    · exact ⟨d, q, hd, hq⟩

theorem upcoming_set {q : Option LinkPhase} :
    Upcoming (set running c q) P ↔ (∃ p ∈ q, P p) ∨ Elsewhere running c P := by
  constructor
  · rintro ⟨d, p, hd, hp⟩
    by_cases hdc : d = c
    · rw [hdc, set_self] at hd
      exact Or.inl ⟨p, hd, hp⟩
    · exact Or.inr ⟨d, p, hdc, (if_neg hdc).symm.trans hd, hp⟩
  · rintro (⟨p, hq, hp⟩ | ⟨d, p, hdc, hd, hp⟩)
    · exact ⟨c, p, (set_self running q).trans hq, hp⟩
    · exact ⟨d, p, (if_neg hdc).trans hd, hp⟩

/-- A call that is made takes no step yet. -/
theorem upcoming_start {p : LinkPhase} (hc : running c = none) (hp : ¬ P p) :
    Upcoming (set running c (some p)) P ↔ Upcoming running P := by
  rw [upcoming_set]
  constructor
  · rintro (⟨q, hq, h⟩ | ⟨d, q, -, hd, hq⟩)
    · cases hq
      exact absurd h hp
    · exact ⟨d, q, hd, hq⟩
  · rintro ⟨d, q, hd, hq⟩
    refine Or.inr ⟨d, q, ?_, hd, hq⟩
    rintro rfl
    rw [hc] at hd
    cases hd

end Upcoming

/-! ## The last message -/

theorem linkMessage_ne_unlinkMessage : Protocol.linkMessage o ≠ Protocol.unlinkMessage k := by
  intro h
  have hcode : Protocol.typeCode .link = Protocol.typeCode .unlink := by
    injection h with h
    exact (List.cons.inj h).1
  injection hcode with hcode
  exact absurd hcode (by decide)

theorem linkMessage_inj (h : Protocol.linkMessage o = Protocol.linkMessage k) : o = k := by
  injection h with h
  injection (List.cons.inj (List.cons.inj h).2).1

theorem unlinkMessage_inj (h : Protocol.unlinkMessage o = Protocol.unlinkMessage k) : o = k := by
  injection h with h
  injection (List.cons.inj (List.cons.inj h).2).1

/-- A call of code outside that is no message about the object. -/
theorem lastLink_of_ne {e : ClientEffect} (hl : e ≠ .write n (Protocol.linkMessage o))
    (hu : e ≠ .write n (Protocol.unlinkMessage o)) :
    LastLink n o { w with effects := w.effects ++ [e] } ↔ LastLink n o w := by
  unfold LastLink
  dsimp only
  rw [since_snoc]
  simp [hl, hu]

/-- After the write of a `Link`. -/
theorem lastLink_linkWritten :
    LastLink n o { w with effects := w.effects ++ ClientNode.written w n (Protocol.linkMessage k) }
      ↔ ((w.nodes n).writeFunc = true ∧ o = k) ∨ LastLink n o w := by
  unfold ClientNode.written
  split
  · rename_i hw
    by_cases ho : o = k
    · rw [ho]
      exact iff_of_true (since_snoc.mpr (Or.inl rfl)) (Or.inl ⟨hw, rfl⟩)
    · rw [lastLink_of_ne]
      · simp [ho]
      · intro he
        injection he with _ he
        exact ho (linkMessage_inj he).symm
      · intro he
        injection he with _ he
        exact linkMessage_ne_unlinkMessage he
  · rename_i hw
    rw [List.append_nil]
    simp [hw]

/-- After the write of an `Unlink`. -/
theorem lastLink_unlinkWritten :
    LastLink n o
        { w with effects := w.effects ++ ClientNode.written w n (Protocol.unlinkMessage k) }
      ↔ LastLink n o w ∧ ¬ ((w.nodes n).writeFunc = true ∧ o = k) := by
  unfold ClientNode.written
  split
  · rename_i hw
    by_cases ho : o = k
    · rw [ho]
      refine iff_of_false ?_ (fun h => h.2 ⟨hw, rfl⟩)
      intro h
      rcases since_snoc.mp h with h | ⟨-, h⟩
      · injection h with _ h
        exact linkMessage_ne_unlinkMessage h.symm
      · exact h rfl
    · rw [lastLink_of_ne]
      · simp [ho]
      · intro he
        injection he with _ he
        exact linkMessage_ne_unlinkMessage he.symm
      · intro he
        injection he with _ he
        exact ho (unlinkMessage_inj he).symm
  · rename_i hw
    rw [List.append_nil]
    simp [hw]

theorem lastLink_released : LastLink n o { w with effects := w.effects ++ ClientNode.released w k }
    ↔ LastLink n o w := by
  unfold ClientNode.released
  split
  · exact lastLink_of_ne (by simp) (by simp)
  · rw [List.append_nil]

/-! ## One step -/

/-- What every step keeps: the node stays registered under its id, and no other; a slot that is
about to be set is free or has the id already. -/
structure Inv (n : NodeRef) (s : LinkCalls) : Prop where
  wf : s.client.registry.clientNodesById.Wf
  registered : s.client.registry.clientNodesById.get (s.client.nodes n).nodeId = some n
  unique : ∀ id, s.client.registry.clientNodesById.get id = some n → id = (s.client.nodes n).nodeId
  setting : ∀ c o, s.running c = some (.linkSet o) →
    s.client.registry.slot o = invalidId ∨ s.client.registry.slot o = (s.client.nodes n).nodeId

/-- The slot of the object holds the id of the node. -/
def Held (n : NodeRef) (o : ObjectId) (w : Client) : Prop :=
  w.registry.slot o = (w.nodes n).nodeId

/-- **The slot of the object agrees with the last message**, or a call on its way will change
that. -/
def Repaired (n : NodeRef) (s : LinkCalls) (o : ObjectId) : Prop :=
  (LastLink n o s.client → Held n o s.client ∨ Upcoming s.running (Linking o)) ∧
  (¬ LastLink n o s.client → ¬ Held n o s.client ∨ Upcoming s.running (Unlinking o))

/-- **The condition on a step**: when a `linkRemote` sets the node, a `Link` is the last message
about the object or an `unlinkRemote` has still to free the slot; when an `unlinkRemote` frees the
slot, an `Unlink` is the last message or a `linkRemote` has still to set the node. -/
def Keeps (n : NodeRef) (s : LinkCalls) : Action → Prop
  | .step c =>
    match s.running c with
    | some (.linkSet o) => LastLink n o s.client ∨ Upcoming s.running (Unlinking o)
    | some (.unlinkUnset o) => ¬ LastLink n o s.client ∨ Upcoming s.running (Linking o)
    | _ => True
  | _ => True

theorem Inv.nodeId_ne_invalidId (hi : Inv n s) : (s.client.nodes n).nodeId ≠ invalidId := by
  intro he
  have hget := hi.registered
  rw [he, hi.wf.get_invalidId] at hget
  cases hget

theorem held_effects (effects : List ClientEffect) :
    Held n o { w with effects := effects } ↔ Held n o w := Iff.rfl

theorem lastLink_updateRegistry (f : ClientRegistry → ClientRegistry) :
    LastLink n o (w.updateRegistry f) ↔ LastLink n o w := Iff.rfl

theorem held_unsetNode (hi : Inv n s) :
    Held n o (s.client.updateRegistry fun r => r.unsetNode k) ↔ Held n o s.client ∧ o ≠ k := by
  unfold Held Client.updateRegistry
  dsimp only
  rw [ClientRegistry.slot_unsetNode]
  by_cases ho : o = k
  · rw [if_pos ho]
    exact iff_of_false (fun h => hi.nodeId_ne_invalidId h.symm) (fun h => h.2 ho)
  · rw [if_neg ho]
    simp [ho]

theorem held_setNode (hi : Inv n s) (hc : s.running c = some (.linkSet k)) :
    Held n o (s.client.updateRegistry fun r => r.setNode (s.client.nodes n).nodeId k)
      ↔ o = k ∨ Held n o s.client := by
  unfold Held Client.updateRegistry
  dsimp only
  rw [ClientRegistry.slot_setNode]
  rcases hi.setting c k hc with hfree | hset
  · by_cases ho : o = k
    · rw [if_pos ⟨ho, hfree⟩]
      simp [ho]
    · rw [if_neg fun h => ho h.1]
      simp [ho]
  · rw [if_neg fun h => hi.nodeId_ne_invalidId (hset.symm.trans h.2)]
    by_cases ho : o = k
    · simp [ho, hset]
    · simp [ho]

/-- **A step keeps the objects repaired** exactly if it meets the condition. -/
theorem repaired_next_iff (hi : Inv n s) (hen : Enabled s a) (hr : ∀ o, Repaired n s o) :
    (∀ o, Repaired n (next n s a) o) ↔ Keeps n s a := by
  cases a with
  | linkRemote c k | unlinkRemote c k =>
    refine iff_of_true ?_ trivial
    intro o
    unfold Repaired next
    dsimp only
    rw [upcoming_start hen (by simp [Linking]), upcoming_start hen (by simp [Unlinking])]
    exact hr o
  | step c =>
    obtain ⟨p, hp⟩ := Option.ne_none_iff_exists'.mp hen
    rw [next_step hp]
    unfold Repaired at hr
    simp only [upcoming_iff hp] at hr
    unfold Repaired Keeps
    simp only [hp, upcoming_iff hp]
    cases p with
    | linkWrite k =>
      refine iff_of_true ?_ trivial
      intro o
      have hro := hr o
      rw [advance_linkWrite]
      simp only [upcoming_set, lastLink_linkWritten, held_effects]
      simp only [Linking, Unlinking, Option.mem_def, Option.some.injEq, exists_eq_left',
        LinkPhase.linkUnset.injEq, reduceCtorEq, or_false, false_or] at hro ⊢
      grind
    | linkUnset k =>
      refine iff_of_true ?_ trivial
      intro o
      have hro := hr o
      simp only [advance, upcoming_set, held_unsetNode hi, lastLink_updateRegistry]
      simp only [Linking, Unlinking, Option.mem_def, Option.some.injEq, exists_eq_left',
        LinkPhase.linkUnset.injEq, LinkPhase.linkSet.injEq, reduceCtorEq, or_false, false_or]
        at hro ⊢
      grind
    | linkSet k =>
      simp only [advance, upcoming_set, held_setNode hi hp, lastLink_updateRegistry]
      simp only [Linking, Unlinking, Option.mem_def, LinkPhase.linkSet.injEq, reduceCtorEq,
        false_or, false_and, exists_false] at hr ⊢
      grind
    | unlinkRelease k =>
      refine iff_of_true ?_ trivial
      intro o
      have hro := hr o
      rw [advance_unlinkRelease]
      simp only [upcoming_set, lastLink_released, held_effects]
      simp only [Linking, Unlinking, Option.mem_def, Option.some.injEq, exists_eq_left',
        reduceCtorEq, or_false, false_or] at hro ⊢
      grind
    | unlinkWrite k =>
      refine iff_of_true ?_ trivial
      intro o
      have hro := hr o
      rw [advance_unlinkWrite]
      simp only [upcoming_set, lastLink_unlinkWritten, held_effects]
      simp only [Linking, Unlinking, Option.mem_def, Option.some.injEq, exists_eq_left',
        LinkPhase.unlinkUnset.injEq, reduceCtorEq, or_false, false_or] at hro ⊢
      grind
    | unlinkUnset k =>
      simp only [advance, upcoming_set, held_unsetNode hi, lastLink_updateRegistry]
      simp only [Linking, Unlinking, Option.mem_def, LinkPhase.unlinkUnset.injEq, reduceCtorEq,
        or_false, false_or, false_and, exists_false] at hr ⊢
      grind

/-- A step leaves the node storage and the ids of the nodes alone. -/
theorem advance_storage (p : LinkPhase) :
    (advance n w p).1.registry.clientNodesById = w.registry.clientNodesById ∧
      (advance n w p).1.nodes = w.nodes := by
  cases p with
  | linkWrite k => rw [advance_linkWrite]; exact ⟨rfl, rfl⟩
  | unlinkRelease k => rw [advance_unlinkRelease]; exact ⟨rfl, rfl⟩
  | unlinkWrite k => rw [advance_unlinkWrite]; exact ⟨rfl, rfl⟩
  | linkUnset k | unlinkUnset k => exact ⟨ClientRegistry.clientNodesById_unsetNode, rfl⟩
  | linkSet k => exact ⟨ClientRegistry.clientNodesById_setNode, rfl⟩

/-- A slot that is free or has the id of the node still is, and has, after a step. -/
theorem advance_slot (p : LinkPhase)
    (h : w.registry.slot o = invalidId ∨ w.registry.slot o = (w.nodes n).nodeId) :
    (advance n w p).1.registry.slot o = invalidId ∨
      (advance n w p).1.registry.slot o = (w.nodes n).nodeId := by
  cases p with
  | linkWrite k => rw [advance_linkWrite]; exact h
  | unlinkRelease k => rw [advance_unlinkRelease]; exact h
  | unlinkWrite k => rw [advance_unlinkWrite]; exact h
  | linkUnset k | unlinkUnset k =>
    unfold advance Client.updateRegistry
    dsimp only
    rw [ClientRegistry.slot_unsetNode]
    split
    · exact Or.inl rfl
    · exact h
  | linkSet k =>
    unfold advance Client.updateRegistry
    dsimp only
    rw [ClientRegistry.slot_setNode]
    split
    · exact Or.inr rfl
    · exact h

theorem inv_init (hs : Init n s) : Inv n s := by
  refine ⟨hs.client.wf, hs.client.registered hs.alive, ?_, ?_⟩
  · intro id hid
    exact (hs.client.nodes.stored id n hid).2.symm
  · intro c o hc
    rw [hs.running c] at hc
    cases hc

theorem inv_next (hi : Inv n s) (a : Action) : Inv n (next n s a) := by
  have hstart : ∀ c p, (∀ k, p ≠ .linkSet k) →
      Inv n { s with running := set s.running c (some p) } := fun c p hp => by
    refine ⟨hi.wf, hi.registered, hi.unique, ?_⟩
    intro d o hd
    dsimp only at hd
    by_cases hdc : d = c
    · rw [hdc, set_self] at hd
      exact absurd (Option.some.inj hd) (hp o)
    · exact hi.setting d o ((if_neg hdc).symm.trans hd)
  cases a with
  | linkRemote c k => exact hstart c _ (by simp)
  | unlinkRemote c k => exact hstart c _ (by simp)
  | step c =>
    cases hp : s.running c with
    | none =>
      have heq : next n s (.step c) = s := by
        unfold next
        dsimp only
        rw [hp]
      rw [heq]
      exact hi
    | some p =>
      rw [next_step hp]
      obtain ⟨hst, hnodes⟩ := advance_storage (n := n) (w := s.client) p
      refine ⟨?_, ?_, ?_, ?_⟩
      · dsimp only
        rw [hst]
        exact hi.wf
      · dsimp only
        rw [hst, hnodes]
        exact hi.registered
      · dsimp only
        rw [hst, hnodes]
        exact hi.unique
      · intro d o hd
        dsimp only at hd ⊢
        rw [hnodes]
        by_cases hdc : d = c
        · -- only the step that frees the slot comes before the one that sets it
          rw [hdc, set_self] at hd
          cases p with
          | linkUnset k =>
            cases hd
            left
            exact ClientRegistry.slot_unsetNode.trans (if_pos rfl)
          | _ => cases hd
        · exact advance_slot p (hi.setting d o ((if_neg hdc).symm.trans hd))

/-! ## Runs -/

theorem getNode_iff (hi : Inv n s) : s.client.registry.getNode o = some n ↔ Held n o s.client := by
  rw [ClientRegistry.getNode_eq hi.wf]
  constructor
  · exact fun h => hi.unique _ h
  · intro h
    unfold Held at h
    rw [h]
    exact hi.registered

/-- When all calls have returned, nothing is left to repair. -/
theorem repaired_iff_agrees (hi : Inv n s) (hq : Quiet s) : Repaired n s o ↔ Agrees n s o := by
  have hno : ∀ P, ¬ Upcoming s.running P := by
    rintro P ⟨c, p, hc, -⟩
    rw [hq c] at hc
    cases hc
  unfold Repaired Agrees
  rw [getNode_iff hi]
  simp only [hno, or_false]
  constructor
  · exact fun h => ⟨fun hh => not_not.mp fun hl => h.2 hl hh, h.1⟩
  · exact fun h => ⟨h.mpr, fun hl hh => hl (h.mp hh)⟩

/-- **Runs.** All steps of a run meet the condition exactly if every object is repaired in every
state; then the recorded links agree with the last messages whenever all calls have returned. -/
theorem lastMessage_agrees {h : List (LinkCalls × Action)} (hr : Run (machine n) h s) :
    ((∀ x ∈ h, Keeps n x.1 x.2) ↔
      (∀ x ∈ h, ∀ o, Repaired n x.1 o) ∧ ∀ o, Repaired n s o) ∧
    ((∀ x ∈ h, Keeps n x.1 x.2) → Quiet s → ∀ o, Agrees n s o) := by
  have hinit : ∀ s, (machine n).init s → Inv n s ∧ ∀ o, Repaired n s o := by
    intro s hs
    have hi := inv_init hs
    exact ⟨hi, fun o => (repaired_iff_agrees hi hs.running).mpr (hs.agrees o)⟩
  have hi : Inv n s := hr.invariant (fun s hs => (hinit s hs).1) fun _ a hi _ => inv_next hi a
  have hiff := hr.guard_iff (A := fun _ _ => True) hinit (fun _ a hi _ _ => inv_next hi a)
    (fun _ _ hi hen _ hn => repaired_next_iff hi hen hn) (fun _ _ => trivial)
  refine ⟨hiff, ?_⟩
  intro hg hq o
  exact (repaired_iff_agrees hi hq).mp ((hiff.mp hg).2 o)

/-! ## Calls that overlap -/

/-- The call that an action is about. -/
def Action.call : Action → Nat
  | .linkRemote c _ | .unlinkRemote c _ | .step c => c

theorem running_next (h : a.call ≠ c) : (next n s a).running c = s.running c := by
  cases a with
  | linkRemote d o | unlinkRemote d o => exact if_neg (Ne.symm h)
  | step d =>
    cases hp : s.running d with
    | none =>
      unfold next
      dsimp only
      rw [hp]
    | some p =>
      rw [next_step hp]
      exact if_neg (Ne.symm h)

theorem running_exec : ∀ {acts : List Action} {s : LinkCalls}, (∀ a ∈ acts, a.call ≠ c) →
    ((machine n).exec s acts).running c = s.running c
  | [], _, _ => rfl
  | a :: acts, s, h => by
    show ((machine n).exec (next n s a) acts).running c = _
    rw [running_exec fun b hb => h b (List.mem_cons_of_mem _ hb),
      running_next (h a List.mem_cons_self)]

/-- Only the calls that were made have to have returned. -/
theorem quiet_exec {acts : List Action} (hs : Quiet s)
    (h : ∀ a ∈ acts, ((machine n).exec s acts).running a.call = none) :
    Quiet ((machine n).exec s acts) := by
  intro c
  by_cases hc : ∃ a ∈ acts, a.call = c
  · obtain ⟨a, ha, rfl⟩ := hc
    exact h a ha
  · rw [running_exec fun a ha he => hc ⟨a, ha, he⟩]
    exact hs c

/-- A node with a write function, which has not written anything. -/
def start : LinkCalls where
  client := Client.next .truncating (Client.next .truncating .empty .create) (.onWrite 0)
  running _ := none

theorem init_start : Init 0 start := by
  have hr : Run (Client.machine .truncating) _ start.client :=
    run_play [Client.Action.create, .onWrite 0] Client.init_empty (by decide)
  refine ⟨Client.inv_run _ _ hr, rfl, fun _ => rfl, ?_⟩
  intro o
  refine iff_of_false ?_ Foundation.not_since_nil
  intro h
  cases h

/-- Three calls for one object. The `unlinkRemote` writes its `Unlink` once the first `linkRemote`
has returned, and frees the slot when the second one has written its `Link`. -/
def overlapping : List Action :=
  [.linkRemote 0 (lit "o"), .step 0, .unlinkRemote 1 (lit "o"), .step 1, .step 0, .step 0, .step 1,
    .linkRemote 2 (lit "o"), .step 2, .step 1, .step 2, .step 2]

theorem lastMessage_agrees_overlapping :
    Agrees 0 ((machine 0).exec start overlapping) (lit "o") := by
  have hr : Run (machine 0) _ _ := run_play overlapping init_start (by decide)
  refine (lastMessage_agrees hr).2 ?_ ?_ _
  · simp only [overlapping, Machine.history, List.forall_mem_cons]
    refine ⟨trivial, trivial, trivial, trivial, trivial, ?_, trivial, trivial, trivial, ?_, trivial,
      ?_, fun x hx => absurd hx List.not_mem_nil⟩
    · exact Or.inl ⟨[], _, [], rfl, rfl, fun y hy => absurd hy List.not_mem_nil⟩
    · exact Or.inr ⟨2, .linkUnset (lit "o"), rfl, Or.inl rfl⟩
    · exact Or.inl ⟨[_, _], _, [], rfl, rfl, fun y hy => absurd hy List.not_mem_nil⟩
  · exact quiet_exec (fun _ => rfl) (by decide)

/-- The sink that `linkRemote` reaches unlinks the object again: the second call runs between the
first two steps of the first one. -/
def overtaken : List Action :=
  [.linkRemote 0 (lit "o"), .step 0, .unlinkRemote 1 (lit "o"), .step 1, .step 1, .step 1, .step 0,
    .step 0]

theorem unlink_overtakes : ¬ ∀ (h : List (LinkCalls × Action)) (s : LinkCalls),
    Run (machine 0) h s → Quiet s → ∀ o, Agrees 0 s o := by
  intro hall
  have hr : Run (machine 0) _ _ := run_play overtaken init_start (by decide)
  have hlink := (hall _ _ hr (quiet_exec (fun _ => rfl) (by decide)) (lit "o")).mp
    (by decide +kernel)
  have hlink : Since (· = .write 0 (Protocol.linkMessage (lit "o")))
    (· = .write 0 (Protocol.unlinkMessage (lit "o")))
    ([ClientEffect.write 0 (Protocol.linkMessage (lit "o"))]
      ++ [.write 0 (Protocol.unlinkMessage (lit "o"))]) := hlink
  rcases since_snoc.mp hlink with h | ⟨-, h⟩
  · injection h with _ h
    exact linkMessage_ne_unlinkMessage h.symm
  · exact h rfl

end LinkCalls

end ObjectLink
