import ObjectLink.ClientRuns

/-!
# Sinks and the nodes they were given

`handleInit` (`clientnode.cpp:91-103`) hands the sink of an object a bare pointer to the node that
received the `Init`, whichever node the registry has for the object. The destructor (`:76-84`)
releases the sinks of the objects the registry has the node for. The two differ as soon as an
`Init` arrives on a node that the object is no longer linked through: a sink then keeps a node that
is gone.

A sink *holds* the node that the latest `olinkOnInit` gave it, until `olinkOnRelease`. Sinks are
not removed from the registry here, though they may expire.

Results:
* `holdsNode_next`: what each operation does to what the sinks hold.
* `notDangling_destroy`: a destructor leaves no sink behind exactly if the registry has the node
  for the object of each sink that holds it (`HoldersLinked`); `holdersLinked_iff`: as long as the
  node storage has never been full, this is what `getNode` says.
* `notDangling_run_iff`: no run leaves a sink behind exactly if that is so at every destruction.
* `late_init_dangles`: a late `Init`, after which it is not.
-/

namespace ObjectLink

open Foundation (Machine Run Since since_append_iff not_since_nil run_play)

namespace Client

variable {lib : JsonLibrary} {w : Client} {o : ObjectId} {n m : NodeRef} {s : Sink}

/-- A call that hands the sink this node. -/
def HandsOver (s : Sink) (n : NodeRef) (e : ClientEffect) : Prop :=
  ∃ o props, e = .olinkOnInit s o props n

/-- A call after which the sink no longer has the node it had. -/
def TakesBack (s : Sink) (e : ClientEffect) : Prop :=
  (∃ m, HandsOver s m e) ∨ e = .olinkOnRelease s

/-- The most recent `olinkOnInit` handed the sink this node, without a later `olinkOnRelease`. -/
def HoldsNode (s : Sink) (n : NodeRef) (effects : List ClientEffect) : Prop :=
  Since (HandsOver s n) (TakesBack s) effects

/-- The sink is alive and registered for the object. -/
def Registered (w : Client) (o : ObjectId) (s : Sink) : Prop :=
  (w.registry.getSink o).lock w.sinkAlive = some s

instance : Decidable (Registered w o s) := inferInstanceAs (Decidable (_ = _))

/-- **No sink is left with a node that is gone.** -/
def NotDangling (w : Client) : Prop :=
  ∀ o s n, Registered w o s → HoldsNode s n w.effects → w.nodeAlive n = true

/-! ## What the sinks hold -/

theorem mem_released {e : ClientEffect} :
    e ∈ ClientNode.released w o ↔ ∃ s, Registered w o s ∧ e = .olinkOnRelease s := by
  unfold ClientNode.released Registered
  cases (w.registry.getSink o).lock w.sinkAlive <;> simp

/-- Calls that hand over nothing leave a sink with what it holds, unless they release it. -/
theorem holdsNode_append {before calls : List ClientEffect}
    (h : ∀ e ∈ calls, ∀ m, ¬ HandsOver s m e) :
    HoldsNode s n (before ++ calls) ↔ HoldsNode s n before ∧ .olinkOnRelease s ∉ calls := by
  unfold HoldsNode
  rw [since_append_iff fun e he => h e he n]
  refine and_congr_right fun _ => ⟨fun hno hmem => hno _ hmem (Or.inr rfl), ?_⟩
  rintro hno e he (⟨m, hm⟩ | rfl)
  · exact h e he m hm
  · exact hno he

/-- **Handing over**: only a received `Init` gives a node to a sink, the node that received it to
the sink registered for the object. -/
theorem handsOver_mem {a : Action} {e : ClientEffect} (he : e ∈ callsOfAction lib w a)
    (hs : HandsOver s n e) :
    ∃ msg env o props, a = .receive n msg env ∧ Protocol.decode? lib msg = some (.init o props) ∧
      Registered w o s := by
  obtain ⟨o, props, rfl⟩ := hs
  have hwrite : ∀ {m msg}, .olinkOnInit s o props n ∉ ClientNode.written w m msg := fun {m msg} h =>
    ClientEffect.noConfusion (mem_written h)
  have hrelease : ∀ {k}, .olinkOnInit s o props n ∉ ClientNode.released w k := fun {k} h => by
    obtain ⟨t, -, ht⟩ := mem_released.mp h
    cases ht
  cases a with
  | receive m msg env =>
    unfold callsOfAction at he
    dsimp only at he
    cases hdec : ClientNode.handled env lib msg with
    | none =>
      rw [hdec] at he
      cases he
    | some c =>
      rw [hdec] at he
      obtain ⟨rfl, rfl, hreg⟩ := ClientNode.olinkOnInit_mem_callsOf.mp he
      exact ⟨msg, env, o, props, rfl, ClientNode.decode?_of_handled hdec, hreg⟩
  | unlinkRemote m k =>
    rcases List.mem_append.mp he with h | h
    · exact absurd h hrelease
    · exact absurd h hwrite
  | destroy m =>
    obtain ⟨k, -, h⟩ := List.mem_flatMap.mp he
    rcases List.mem_append.mp h with h | h
    · exact absurd h hrelease
    · exact absurd h hwrite
  | linkRemote _ _ | invokeRemote _ _ _ _ | setRemoteProperty _ _ _ => exact absurd he hwrite
  | create | onWrite _ | addSink _ | removeSink _ | sinkExpires _ => cases he

/-- What a sink holds after an operation it held before, or it was just given it. -/
theorem HoldsNode.of_next {a : Action} (hh : HoldsNode s n (next lib w a).effects) :
    HoldsNode s n w.effects ∨
      ∃ msg env o props, a = .receive n msg env ∧ Protocol.decode? lib msg = some (.init o props) ∧
        Registered w o s := by
  unfold HoldsNode at hh
  rw [effects_next] at hh
  rcases hh.of_append with h | ⟨e, he, hs⟩
  · exact Or.inl h
  · exact Or.inr (handsOver_mem he hs)

/-- A destructor releases the sinks of the objects that the registry has the node for. -/
theorem olinkOnRelease_mem_unlinkEffects {ids : List ObjectId} :
    .olinkOnRelease s ∈ ClientNode.unlinkEffects w n ids ↔ ∃ o ∈ ids, Registered w o s := by
  unfold ClientNode.unlinkEffects
  simp only [List.mem_flatMap, List.mem_append, mem_released]
  refine exists_congr fun o => and_congr_right fun _ => ?_
  constructor
  · rintro (⟨t, ht, he⟩ | h)
    · cases he
      exact ht
    · exact ClientEffect.noConfusion (mem_written h)
  · exact fun h => Or.inl ⟨s, h, rfl⟩

theorem holdsNode_destroy : HoldsNode s m (next lib w (.destroy n)).effects ↔
    HoldsNode s m w.effects ∧
      ¬ ∃ o ∈ w.registry.getObjectIds (w.nodes n).nodeId, Registered w o s := by
  rw [effects_next, holdsNode_append, ← olinkOnRelease_mem_unlinkEffects]
  · rfl
  · intro e he k hk
    obtain ⟨_, _, _, _, ha, -⟩ := handsOver_mem he hk
    cases ha

/-! ## Registered sinks -/

/-- A sink stays registered while it lives. -/
theorem Registered.next {a : Action} (ha : ∀ k, a ≠ .removeSink k) (hreg : Registered w o s)
    (halive : (next lib w a).sinkAlive s = true) : Registered (next lib w a) o s := by
  unfold Registered at hreg ⊢
  rw [lock_getSink_next a, hreg]
  cases a with
  | addSink sink =>
    cases sink <;> simp [sinkAfter]
  | removeSink k => exact absurd rfl (ha k)
  | sinkExpires t =>
    have hne : s ≠ t := fun he => by
      have h : (if s = t then false else w.sinkAlive s) = true := halive
      rw [if_pos he] at h
      cases h
    simp [sinkAfter, hne]
  | _ => rfl

/-- A sink registered after an operation was so before, or it was added when there was none. -/
theorem Registered.of_next {a : Action} (hreg : Registered (Client.next lib w a) o s) :
    Registered w o s ∨ (a = .addSink (some s) ∧ s.olinkObjectName = o ∧
      w.sinkAlive s = true ∧ (w.registry.getSink o).lock w.sinkAlive = none) := by
  unfold Registered at hreg
  rw [lock_getSink_next a] at hreg
  cases a with
  | addSink sink =>
    cases sink with
    | none => exact Or.inl hreg
    | some t =>
      unfold sinkAfter at hreg
      dsimp only at hreg
      split at hreg
      · rename_i h
        cases hreg
        exact Or.inr ⟨rfl, h⟩
      · exact Or.inl hreg
  | removeSink k =>
    unfold sinkAfter at hreg
    dsimp only at hreg
    split at hreg
    · cases hreg
    · exact Or.inl hreg
  | sinkExpires t =>
    unfold sinkAfter at hreg
    dsimp only at hreg
    split at hreg
    · cases hreg
    · exact Or.inl hreg
  | _ => exact Or.inl hreg

/-- What is known of every run that removes no sink: a sink is registered under its name, and a
living sink that holds a node is registered. -/
structure SinkInv (w : Client) : Prop where
  sinkName : ∀ o s, Registered w o s → s.olinkObjectName = o
  registeredSink : ∀ s n, HoldsNode s n w.effects → w.sinkAlive s = true →
    Registered w s.olinkObjectName s

theorem sinkAlive_of_next {a : Action} (halive : (next lib w a).sinkAlive s = true) :
    w.sinkAlive s = true := by
  cases a with
  | linkRemote _ _ => rwa [next_linkRemote] at halive
  | unlinkRemote _ _ => rwa [next_unlinkRemote] at halive
  | destroy _ => rwa [next_destroy] at halive
  | create | addSink _ | removeSink _ => exact halive
  | sinkExpires t =>
    have h : (if s = t then false else w.sinkAlive s) = true := halive
    split at h
    · cases h
    · exact h
  | _ => exact (congrFun (sameLinks_next (by trivial)).sinkAlive s).symm.trans halive

theorem sinkInv_init (hw : Init w) : SinkInv w := by
  refine ⟨?_, ?_⟩
  · intro o s hreg
    exact (inv_init hw).sinkName o s (WeakPtr.lock_eq_some.mp hreg).1
  · intro s n hh
    unfold HoldsNode at hh
    rw [hw.effects] at hh
    exact absurd hh not_since_nil

theorem sinkInv_next {a : Action} (hi : SinkInv w) (ha : ∀ k, a ≠ .removeSink k) :
    SinkInv (next lib w a) := by
  refine ⟨?_, ?_⟩
  · intro o s hreg
    rcases hreg.of_next with hreg | ⟨-, hname, -⟩
    · exact hi.sinkName o s hreg
    · exact hname
  · intro s n hh halive
    have hreg : Registered w s.olinkObjectName s := by
      rcases hh.of_next with h | ⟨_, _, o, _, -, -, hreg⟩
      · exact hi.registeredSink s n h (sinkAlive_of_next halive)
      · rwa [hi.sinkName o s hreg]
    exact hreg.next ha halive

/-! ## Destruction -/

/-- Each registered sink that holds the node is registered for an object that the registry has the
node for. -/
def HoldersLinked (w : Client) (n : NodeRef) : Prop :=
  ∀ o s, Registered w o s → HoldsNode s n w.effects →
    o ∈ w.registry.getObjectIds (w.nodes n).nodeId

/-- While the storage has never been full, that is the node `getNode` yields. -/
theorem holdersLinked_iff (hi : Inv w) (hn : w.nodeAlive n = true) : HoldersLinked w n ↔
    ∀ o s, Registered w o s → HoldsNode s n w.effects →
      (w.registry.getNode o).lock w.nodeAlive = some n := by
  unfold HoldersLinked
  refine forall₄_congr ?_
  intro o s _ _
  rw [getNode_iff hi.nodes, ClientRegistry.mem_getObjectIds_of_valid (hi.valid n hn)]
  exact ((and_iff_right hn).trans (and_iff_right (hi.valid n hn))).symm

/-- **A destructor** leaves no sink behind exactly if the registry has the node for the object of
each sink that holds it. -/
theorem notDangling_destroy (hi : SinkInv w) (hw : NotDangling w) :
    NotDangling (next lib w (.destroy n)) ↔ HoldersLinked w n := by
  have hreg : ∀ o s, Registered (next lib w (.destroy n)) o s ↔ Registered w o s := fun o s => by
    unfold Registered
    rw [lock_getSink_next]
    rfl
  have halive : ∀ m,
      (next lib w (.destroy n)).nodeAlive m = true ↔ m ≠ n ∧ w.nodeAlive m = true := by
    intro m
    rw [next_destroy]
    by_cases hm : m = n <;> simp [hm]
  unfold NotDangling HoldersLinked
  simp only [hreg, halive, holdsNode_destroy]
  constructor
  · intro hsafe o s hs hh
    by_contra hne
    refine (hsafe o s n hs ⟨hh, ?_⟩).1 rfl
    rintro ⟨k, hk, hsk⟩
    rw [← hi.sinkName k s hsk, hi.sinkName o s hs] at hk
    exact hne hk
  · rintro hlinked o s m hs ⟨hh, hno⟩
    refine ⟨fun hm => hno ⟨o, ?_, hs⟩, hw o s m hs hh⟩
    subst hm
    exact hlinked o s hs hh

/-- Every other operation leaves no sink behind. -/
theorem notDangling_next {a : Action} (hi : SinkInv w) (hen : Possible w a) (hw : NotDangling w)
    (hd : ∀ n, a ≠ .destroy n) : NotDangling (next lib w a) := by
  have halive : ∀ m, w.nodeAlive m = true → (next lib w a).nodeAlive m = true := fun m hm => by
    cases a with
    | create =>
      show (if m = w.nextNode then true else w.nodeAlive m) = true
      rw [hm, ite_self]
    | linkRemote _ _ => rwa [next_linkRemote]
    | unlinkRemote _ _ => rwa [next_unlinkRemote]
    | destroy n => exact absurd rfl (hd n)
    | addSink _ | removeSink _ | sinkExpires _ => exact hm
    | _ => exact (congrFun (sameLinks_next (by trivial)).nodeAlive m).trans hm
  intro o s n hreg hh
  rcases hh.of_next with hh | ⟨msg, env, _, _, rfl, -⟩
  · rcases hreg.of_next with hreg | ⟨-, rfl, hs, hnone⟩
    · exact halive n (hw o s n hreg hh)
    · have hreg := hi.registeredSink s n hh hs
      unfold Registered at hreg
      rw [hnone] at hreg
      cases hreg
  · exact halive n hen

/-- **Runs.** As long as no sink is removed, all states of a run are without a sink left behind
exactly if at every destruction the registry has the node for the object of each sink that holds
it. -/
theorem notDangling_run_iff {h : List (Client × Action)} (hr : Run (unboundedMachine lib) h w)
    (hrem : ∀ x ∈ h, ∀ k, x.2 ≠ .removeSink k) :
    (∀ x ∈ h, ∀ n, x.2 = .destroy n → HoldersLinked x.1 n) ↔
      (∀ x ∈ h, NotDangling x.1) ∧ NotDangling w := by
  refine Run.guard_iff (M := unboundedMachine lib) (I := SinkInv)
    (A := fun _ a => ∀ k, a ≠ .removeSink k)
    (G := fun w a => ∀ n, a = .destroy n → HoldersLinked w n) (fun w hw => ⟨sinkInv_init hw, ?_⟩)
    (fun w a hi _ ha => sinkInv_next hi ha) ?_ hr hrem
  · intro o s n _ hh
    unfold HoldsNode at hh
    rw [hw.effects] at hh
    exact absurd hh not_since_nil
  · intro w a hi hen ha hsafe
    by_cases hd : ∃ n, a = .destroy n
    · obtain ⟨n, rfl⟩ := hd
      show NotDangling (next lib w (.destroy n)) ↔ ∀ m, Action.destroy n = .destroy m → _
      rw [notDangling_destroy hi hsafe]
      constructor
      · intro hl m hm
        cases hm
        exact hl
      · exact fun hl => hl n rfl
    · rw [not_exists] at hd
      exact iff_of_true (notDangling_next hi hen hsafe hd) fun n hn => absurd hn (hd n)

/-! ## A late message -/

/-- A sink for the object `"o"`. -/
def someSink : Sink := { ref := 0, olinkObjectName := lit "o" }

/-- The answer to a link arrives after the object was unlinked again, and then the node is
destroyed. -/
def lateInit : List Action :=
  [.create, .addSink (some someSink), .linkRemote 0 (lit "o"), .unlinkRemote 0 (lit "o"),
    .receive 0 (Protocol.initMessage (lit "o") .null) .returning, .destroy 0]

/-- The same, but the object is not unlinked. -/
def promptInit : List Action :=
  [.create, .addSink (some someSink), .linkRemote 0 (lit "o"),
    .receive 0 (Protocol.initMessage (lit "o") .null) .returning, .destroy 0]

theorem notDangling_promptInit :
    let h := (unboundedMachine .truncating).history empty promptInit
    (∀ x ∈ h, ∀ n, x.2 = .destroy n → HoldersLinked x.1 n) ↔
      (∀ x ∈ h, NotDangling x.1) ∧
        NotDangling ((unboundedMachine .truncating).exec empty promptInit) :=
  notDangling_run_iff (run_play promptInit init_empty (by decide)) (by
    simp [promptInit, Machine.history])

theorem late_init_dangles : ¬ ∀ (h : List (Client × Action)) (w : Client),
    Run (unboundedMachine .truncating) h w → (∀ x ∈ h, ∀ k, x.2 ≠ .removeSink k) →
    NotDangling w := by
  intro hall
  have hr : Run (unboundedMachine .truncating) _ _ := run_play lateInit init_empty (by decide)
  have hsafe := hall _ _ hr (by simp [lateInit, Machine.history])
  have heffects : ((unboundedMachine .truncating).exec empty lateInit).effects =
      [.olinkOnRelease someSink, .olinkOnInit someSink (lit "o") .null 0] := by
    rfl
  have hheld :
      HoldsNode someSink 0 ((unboundedMachine .truncating).exec empty lateInit).effects := by
    rw [heffects]
    exact ⟨[.olinkOnRelease someSink], _, [], rfl, ⟨_, _, rfl⟩, fun e he => by cases he⟩
  have halive := hsafe (lit "o") someSink 0 (by decide) hheld
  exact absurd halive (by decide)

end Client

end ObjectLink
