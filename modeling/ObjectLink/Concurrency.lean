import ObjectLink.Operations.Orderly

/-!
# Any number of threads

Any number of threads run the public operations of the registries and the nodes at the same time,
each step by step, while code outside answers the calls it gets and objects expire. What a thread
does between two steps of its own is up to the others, but a mutex that one thread has is given to
no other. All members of the library are private, so code outside changes nothing but which objects
are alive and whose references are the last ones (`Outside`).

All results are about runs whose accesses are clear (`LockDiscipline.Clear`): what is released under
a mutex (by the scans and comparisons, or where `onLog`, `onWrite` and `invokeRemote` replace a
function) is not a last reference, and `addSource` does not log in its critical section. Members
that no mutex protects are in no part: a node's `m_nodeId`, which is set once, and the `m_lastError`
of a `Protocol`, which is left out. `ClientRegistry::getObjectIds` reads the size of the entries
without their mutex (`clientregistry.cpp:107`), for memory to reserve; a step may read anything.

* `no_deadlock`: a thread that is running can go on, or waits for a mutex that another one has, and
  so on along a chain of threads the last of which can go on.
* `sections`: no two threads have the same mutex, only a thread that has a mutex changes what it
  protects, and while nobody has it what it protects is what whole critical sections have made of
  it, one after the other. What is read without a mutex is not restricted.
* `registries_sound`: while nobody works on a registry, its ids are in range, its sinks and sources
  are registered under their own names, and no node is linked with an object twice.
-/

namespace ObjectLink

open Foundation (Program Discipline Pool PoolAction Machine Run pool run_play)
open LockDiscipline (Clear Operation code)

namespace Concurrency

open Sections

/-- What is not up to the library has changed: which objects are alive, and which references are
the last ones. -/
structure Outside (p p' : Process) : Prop where
  loggers : p'.loggers = p.loggers
  clientRegistry : p'.library.client.registry = p.library.client.registry
  clientNodes : p'.library.client.nodes = p.library.client.nodes
  clientNextNode : p'.library.client.nextNode = p.library.client.nextNode
  remoteRegistry : p'.library.server.registry = p.library.server.registry
  remoteNodes : p'.library.server.nodes = p.library.server.nodes
  remoteNextNode : p'.library.server.nextNode = p.library.server.nextNode
  baseWriteFunc : p'.library.baseWriteFunc = p.library.baseWriteFunc
  converters : p'.library.converters = p.library.converters

theorem spares_outside (start : Process) : (discipline start).Spares Outside := by
  intro p p' h m
  change part m p' = part m p
  cases m with
  | log l => exact congrFun h.loggers l
  | node n =>
    refine Prod.ext ?_ (congrFun h.converters n)
    change writeFunc p'.library n = writeFunc p.library n
    cases n with
    | base n => exact congrFun h.baseWriteFunc n
    | client n =>
      unfold writeFunc
      rw [h.clientNodes, h.clientNextNode]
    | remote n =>
      unfold writeFunc
      rw [h.remoteNodes, h.remoteNextNode]
  | pendingInvokes n =>
    change pending p'.library.client n = pending p.library.client n
    unfold pending
    rw [h.clientNodes, h.clientNextNode]
  | entries side =>
    cases side with
    | client => exact congrArg ClientRegistry.entries h.clientRegistry
    | remote => exact congrArg RemoteRegistry.entries h.remoteRegistry
  | storage side =>
    cases side with
    | client => exact congrArg ClientRegistry.clientNodesById h.clientRegistry
    | remote => exact congrArg RemoteRegistry.remoteNodesById h.remoteRegistry

/-! ## Runs -/

variable {ι : Type} [DecidableEq ι] {lib : Codecs} {start : Process}

/-- Threads that run the operations, none at the start. -/
abbrev machine (lib : Codecs) (start : Process) (ι : Type) [DecidableEq ι] :
    Machine (Pool platform ι) (PoolAction platform Operation ι) :=
  pool (fun p => p = start) Outside (code lib)

/-- Nothing has been set up. -/
def idle : Process where
  library := .new
  loggers := fun _ => .new

/-- Two threads, none of which runs. -/
def resting : Pool platform Bool where
  state := idle
  workers := fun _ => { held := [], running := none, waiting := [] }

/-- A thread changes the entries, while another one asks for their mutex. -/
def contends : List (PoolAction platform Operation Bool) :=
  [.start true (.unregisterRemoteNode 0), .step true, .start false (.getRemoteObjectIds 0),
    .step true]

/-- The first one has released the mutex. -/
def resolves : List (PoolAction platform Operation Bool) := contends ++ [.step true]

theorem plays_contends :
    (machine LockDiscipline.nullCodecs idle Bool).Plays resting contends := by
  refine ⟨rfl, ?_, rfl, trivial, trivial⟩
  rintro (_ | _) h <;> cases h

theorem plays_resolves :
    (machine LockDiscipline.nullCodecs idle Bool).Plays resting resolves := by
  refine ⟨rfl, ?_, rfl, trivial, trivial, trivial⟩
  rintro (_ | _) h <;> cases h

theorem accesses_resolves :
    ∀ x ∈ (machine LockDiscipline.nullCodecs idle Bool).history resting resolves,
      x.1.Accesses Clear x.2 := by
  simp only [resolves, contends, List.cons_append, List.nil_append, Machine.history,
    List.forall_mem_cons]
  refine ⟨trivial, ?_, trivial, ?_, ?_, by simp⟩
  · rintro β f next h
    cases h
  · rintro β f next -
    exact ⟨fun _ object _ => rfl, fun hentries => absurd hentries (by decide)⟩
  · rintro β f next h
    cases h

theorem accesses_contends :
    ∀ x ∈ (machine LockDiscipline.nullCodecs idle Bool).history resting contends,
      x.1.Accesses Clear x.2 := by
  refine fun x hx => accesses_resolves x ?_
  simp only [contends, resolves, List.cons_append, List.nil_append, Machine.history,
    List.mem_cons, List.not_mem_nil, or_false] at hx ⊢
  rcases hx with rfl | rfl | rfl | rfl <;> simp

theorem free_resolves :
    ((machine LockDiscipline.nullCodecs idle Bool).exec resting resolves).Free
      (.entries .remote) := by
  rintro (_ | _) h <;> cases h

theorem inv_run {h : List (Pool platform ι × PoolAction platform Operation ι)}
    {p : Pool platform ι} (hr : Run (machine lib start ι) h p)
    (hk : ∀ x ∈ h, x.1.Accesses Clear x.2) : p.Inv (discipline start) := by
  refine Foundation.inv_run (leaves_code start lib) (spares_outside start) ?_ hr hk
  rintro s rfl m
  exact Relation.ReflTransGen.refl

/-- **No deadlock.** In every run whose accesses are clear, a thread that is running can go on, or
waits for a chain of threads the last of which can. -/
theorem no_deadlock {h : List (Pool platform ι × PoolAction platform Operation ι)}
    {p : Pool platform ι} (hr : Run (machine lib start ι) h p)
    (hk : ∀ x ∈ h, x.1.Accesses Clear x.2) {i : ι} (hi : (p.workers i).running.isSome = true) :
    ∃ j, Relation.ReflTransGen p.WaitsFor i j ∧ p.CanStep j := by
  obtain ⟨prog, hprog⟩ := Option.isSome_iff_exists.mp hi
  exact (inv_run hr hk).progress hprog

/-- The second thread waits for the first one. -/
theorem no_deadlock_contends :
    ∃ j, Relation.ReflTransGen
        ((machine LockDiscipline.nullCodecs idle Bool).exec resting contends).WaitsFor false j ∧
      ((machine LockDiscipline.nullCodecs idle Bool).exec resting contends).CanStep j :=
  no_deadlock (run_play contends ⟨rfl, fun _ => rfl⟩ plays_contends) accesses_contends rfl

/-- **Critical sections are atomic.** In every run whose accesses are clear, for each mutex:
* no two threads have it;
* a step of a thread that does not have it, or of anything else, leaves alone what it protects;
* while nobody has it, what it protects is the outcome of whole critical sections. -/
theorem sections {h : List (Pool platform ι × PoolAction platform Operation ι)}
    {p : Pool platform ι} (hr : Run (machine lib start ι) h p)
    (hk : ∀ x ∈ h, x.1.Accesses Clear x.2) (m : Mutex) :
    (∀ i j, m ∈ (p.workers i).held → m ∈ (p.workers j).held → i = j) ∧
    (∀ x ∈ h, (∀ i, x.2 = .step i → m ∉ (x.1.workers i).held) →
      part m (x.1.next (code lib) x.2).state = part m x.1.state) ∧
    (p.Free m → Relation.ReflTransGen (Step m) (part m start) (part m p.state)) := by
  have hi := inv_run hr hk
  refine ⟨fun i j => hi.exclusive i j m, fun x hx hm => ?_, fun hm => hi.sound m hm⟩
  obtain ⟨h₁, h₂, rfl⟩ := List.append_of_mem hx
  obtain ⟨hr', hen⟩ := hr.split
  have hi' := inv_run hr' fun y hy => hk y (List.mem_append_left _ hy)
  exact hi'.part_next (spares_outside start) hen (hk x hx) hm

/-- The entries are what one critical section has made of them. -/
theorem sections_resolves :
    Relation.ReflTransGen (Step (.entries .remote)) (part (.entries .remote) idle)
      (part (.entries .remote)
        ((machine LockDiscipline.nullCodecs idle Bool).exec resting resolves).state) :=
  (sections (run_play resolves ⟨rfl, fun _ => rfl⟩ plays_resolves) accesses_resolves
    (.entries .remote)).2.2 free_resolves

/-! ## What the registries keep -/

section Registries

/-- A sink is registered under its own name. -/
def SinkNames (v : Foundation.Map ObjectId SinkToClientEntry) : Prop :=
  ∀ (o : ObjectId) (e : SinkToClientEntry), v[o]? = some e →
    ∀ s, e.sink = some s → s.olinkObjectName = o

/-- A source is registered under its own name, and no list of ids has an id twice. -/
structure SourceEntries (v : Foundation.Map ObjectId SourceToNodesEntry) : Prop where
  name : ∀ (o : ObjectId) (e : SourceToNodesEntry), v[o]? = some e →
    ∀ s, e.source = some s → s.olinkObjectName = o
  nodup : ∀ (o : ObjectId) (e : SourceToNodesEntry), v[o]? = some e → e.nodes.Nodup

theorem sinkNames_iff {r : ClientRegistry} :
    SinkNames r.entries ↔ ∀ o s, r.getSink o = some s → s.olinkObjectName = o := by
  refine forall_congr' fun o => ?_
  cases he : r.entries[o]? with
  | none => simp [ClientRegistry.getSink_of_not_mem he]
  | some e => simp [ClientRegistry.getSink_of_find he]

theorem sourceEntries_iff {r : RemoteRegistry} : SourceEntries r.entries ↔
    (∀ o s, r.getSource o = some s → s.olinkObjectName = o) ∧ ∀ o, (r.nodeIds o).Nodup := by
  have hname : (∀ (o : ObjectId) (e : SourceToNodesEntry), r.entries[o]? = some e →
      ∀ s, e.source = some s → s.olinkObjectName = o) ↔
        ∀ o s, r.getSource o = some s → s.olinkObjectName = o := by
    refine forall_congr' fun o => ?_
    cases he : r.entries[o]? with
    | none => simp [RemoteRegistry.getSource_of_not_mem he]
    | some e => simp [RemoteRegistry.getSource_of_find he]
  have hnodup : (∀ (o : ObjectId) (e : SourceToNodesEntry), r.entries[o]? = some e →
      e.nodes.Nodup) ↔ ∀ o, (r.nodeIds o).Nodup := by
    refine forall_congr' fun o => ?_
    cases he : r.entries[o]? with
    | none => simp [RemoteRegistry.nodeIds_of_not_mem he]
    | some e => simp [RemoteRegistry.nodeIds_of_find he]
  rw [← hname, ← hnodup]
  exact ⟨fun h => ⟨h.name, h.nodup⟩, fun h => ⟨h.1, h.2⟩⟩

theorem sinkNames_step {v v' : Foundation.Map ObjectId SinkToClientEntry} (h : SinkStep v v')
    (hv : SinkNames v) : SinkNames v' := by
  cases h with
  | setNode r id k =>
    rw [sinkNames_iff] at hv ⊢
    intro o s hs
    rw [ClientRegistry.getSink_setNode] at hs
    exact hv o s hs
  | unsetNode r k =>
    rw [sinkNames_iff] at hv ⊢
    intro o s hs
    rw [ClientRegistry.getSink_unsetNode] at hs
    exact hv o s hs
  | addSink r alive sink =>
    rw [sinkNames_iff] at hv ⊢
    intro o s hs
    exact (ClientRegistry.getSink_addSink_cases hs).elim (hv o s) id
  | removeSink r k =>
    rw [sinkNames_iff] at hv ⊢
    intro o s hs
    exact hv o s (ClientRegistry.getSink_of_removeSink hs)
  | unregisterNode r id =>
    intro o e he s hs
    unfold Operations.ClientRegistry.freeSlots at he
    rw [Std.ExtTreeMap.getElem?_map] at he
    obtain ⟨e', he', rfl⟩ := Option.map_eq_some_iff.mp he
    refine hv o e' he' s ?_
    split at hs <;> exact hs

theorem sinkNames_steps {v v' : Foundation.Map ObjectId SinkToClientEntry}
    (h : Relation.ReflTransGen SinkStep v v') (hv : SinkNames v) : SinkNames v' := by
  induction h with
  | refl => exact hv
  | tail _ hstep ih => exact sinkNames_step hstep ih

theorem sourceEntries_step {v v' : Foundation.Map ObjectId SourceToNodesEntry}
    (h : SourceStep v v') (hv : SourceEntries v) : SourceEntries v' := by
  cases h with
  | addSource r alive source =>
    rw [sourceEntries_iff] at hv ⊢
    refine ⟨fun o s hs => ?_, fun o => ?_⟩
    · rcases RemoteRegistry.getSource_addSource_cases hs with hold | hname
      · exact hv.1 o s hold
      · exact hname
    · rw [RemoteRegistry.nodeIds_addSource]
      exact hv.2 o
  | removeSource r k =>
    rw [sourceEntries_iff] at hv ⊢
    refine ⟨fun o s hs => ?_, fun o => ?_⟩
    · rw [RemoteRegistry.getSource_removeSource] at hs
      split at hs
      · cases hs
      · exact hv.1 o s hs
    · rw [RemoteRegistry.nodeIds_removeSource]
      split
      · exact List.nodup_nil
      · exact hv.2 o
  | addNodeForSource r id k =>
    unfold Operations.RemoteRegistry.enterNode
    cases hk : r.entries[k]? with
    | none => exact hv
    | some found =>
      dsimp only
      split
      · exact hv
      · rename_i hid
        rw [sourceEntries_iff] at hv ⊢
        refine ⟨fun o s hs => ?_, fun o => ?_⟩
        · rw [RemoteRegistry.getSource_insert] at hs
          split at hs
          · rename_i ho
            rw [← RemoteRegistry.getSource_of_find hk, ← ho] at hs
            exact hv.1 o s hs
          · exact hv.1 o s hs
        · rw [RemoteRegistry.nodeIds_insert]
          split
          · have hnodup := hv.2 k
            rw [RemoteRegistry.nodeIds_of_find hk] at hnodup
            exact List.nodup_append.mpr ⟨hnodup, List.pairwise_singleton _ _, fun a ha b hb hab =>
              hid (List.mem_singleton.mp hb ▸ hab ▸ ha)⟩
          · exact hv.2 o
  | removeNodeFromSource r id k =>
    rw [sourceEntries_iff] at hv ⊢
    refine ⟨fun o s hs => ?_, fun o => ?_⟩
    · rw [RemoteRegistry.getSource_removeNodeFromSource] at hs
      exact hv.1 o s hs
    · rw [RemoteRegistry.nodeIds_removeNodeFromSource]
      split
      · exact (hv.2 o).erase id
      · exact hv.2 o
  | unregisterNode r id =>
    have hfind : ∀ (o : ObjectId) (e : SourceToNodesEntry),
        (Operations.RemoteRegistry.withoutNode id r).entries[o]? = some e →
          ∃ e' : SourceToNodesEntry, r.entries[o]? = some e' ∧
            ({ e' with nodes := e'.nodes.erase id } : SourceToNodesEntry) = e := by
      intro o e he
      unfold Operations.RemoteRegistry.withoutNode at he
      rw [Std.ExtTreeMap.getElem?_map] at he
      exact Option.map_eq_some_iff.mp he
    refine ⟨fun o e he s hs => ?_, fun o e he => ?_⟩
    · obtain ⟨e', he', rfl⟩ := hfind o e he
      exact hv.name o e' he' s hs
    · obtain ⟨e', he', rfl⟩ := hfind o e he
      exact (hv.nodup o e' he').erase id

theorem sourceEntries_steps {v v' : Foundation.Map ObjectId SourceToNodesEntry}
    (h : Relation.ReflTransGen SourceStep v v') (hv : SourceEntries v) : SourceEntries v' := by
  induction h with
  | refl => exact hv
  | tail _ hstep ih => exact sourceEntries_step hstep ih

/-- Storing a node once there is room, also one that has expired meanwhile. -/
theorem wf_addLocked {s : UniqueIdObjectStorage NodeRef} (hw : s.Wf)
    (hroom : s.objects.size ≠ s.maxCount) (alive : NodeRef → Bool) (o : NodeRef) :
    (s.addLocked alive o).2.Wf ∧ (s.addLocked alive o).2.maxCount = s.maxCount := by
  have hlt : s.objects.size < s.maxCount := lt_of_le_of_ne hw.size_le hroom
  have hmax := (UniqueIdObjectStorage.getUniqueIdLocked_spec hw.counted hlt).2.2.2.1
  unfold UniqueIdObjectStorage.addLocked
  split
  · exact ⟨hw, rfl⟩
  · dsimp only
    split
    · exact ⟨(UniqueIdObjectStorage.counted_draw hw.counted hlt).wf (hmax ▸ hw.maxCount_le), hmax⟩
    · exact ⟨(UniqueIdObjectStorage.counted_store hw.counted hlt).wf (hmax ▸ hw.maxCount_le), hmax⟩

theorem storage_step {s s' : UniqueIdObjectStorage NodeRef} (h : StorageStep s s') (hw : s.Wf) :
    s'.Wf ∧ s'.maxCount = s.maxCount := by
  cases h with
  | full alive =>
    exact ⟨UniqueIdObjectStorage.wf_room hw alive, UniqueIdObjectStorage.room_maxCount⟩
  | add alive alive' o hroom =>
    have hw' := UniqueIdObjectStorage.wf_room hw alive
    have hmax : (s.room alive).maxCount = s.maxCount := UniqueIdObjectStorage.room_maxCount
    rw [← hmax] at hroom
    obtain ⟨hwf, hadded⟩ := wf_addLocked hw' hroom alive' o
    exact ⟨hwf, hadded.trans hmax⟩
  | remove id => exact ⟨UniqueIdObjectStorage.wf_remove hw id, rfl⟩

theorem storage_steps {s s' : UniqueIdObjectStorage NodeRef}
    (h : Relation.ReflTransGen StorageStep s s') (hw : s.Wf) :
    s'.Wf ∧ s'.maxCount = s.maxCount := by
  induction h with
  | refl => exact ⟨hw, rfl⟩
  | tail _ hstep ih =>
    obtain ⟨hwf, hmax⟩ := storage_step hstep ih.1
    exact ⟨hwf, hmax.trans ih.2⟩

/-- **The registries stay sound.** In every run whose accesses are clear, from registries that are
sound:
* while nobody has the entries mutex of the client registry, its sinks are registered under their
  own names;
* while nobody has that of the remote registry, its sources are, and no node is linked twice with
  an object;
* while nobody has the mutex of a node storage, the ids it has given are below its capacity, all
  different from those it gives next. -/
theorem registries_sound {h : List (Pool platform ι × PoolAction platform Operation ι)}
    {p : Pool platform ι} (hr : Run (machine lib start ι) h p)
    (hk : ∀ x ∈ h, x.1.Accesses Clear x.2)
    (hsinks : SinkNames start.library.client.registry.entries)
    (hsources : SourceEntries start.library.server.registry.entries)
    (hstorages : ∀ side, (start.library.storage side).Wf) :
    (p.Free (.entries .client) →
      ∀ o s, p.state.library.client.registry.getSink o = some s → s.olinkObjectName = o) ∧
    (p.Free (.entries .remote) →
      (∀ o s, p.state.library.server.registry.getSource o = some s → s.olinkObjectName = o) ∧
      ∀ o, (p.state.library.server.registry.nodeIds o).Nodup) ∧
    ∀ side, p.Free (.storage side) → (p.state.library.storage side).Wf ∧
      (p.state.library.storage side).maxCount = (start.library.storage side).maxCount := by
  have hsound := (inv_run hr hk).sound
  exact ⟨fun hm => sinkNames_iff.mp (sinkNames_steps (hsound (.entries .client) hm) hsinks),
    fun hm => sourceEntries_iff.mp (sourceEntries_steps (hsound (.entries .remote) hm) hsources),
    fun side hm => storage_steps (hsound (.storage side) hm) (hstorages side)⟩

/-- Nothing is registered at the start. -/
theorem registries_sound_resolves :
    (((machine LockDiscipline.nullCodecs idle Bool).exec resting
      resolves).state.library.server.registry.nodeIds (lit "o")).Nodup := by
  refine ((registries_sound (run_play resolves ⟨rfl, fun _ => rfl⟩ plays_resolves)
    accesses_resolves ?_ ?_ ?_).2.1 free_resolves).2 (lit "o")
  · intro o e he
    have hempty : (∅ : Foundation.Map ObjectId SinkToClientEntry)[o]? = some e := he
    simp at hempty
  · have hempty (o : ObjectId) (e : SourceToNodesEntry) :
        (∅ : Foundation.Map ObjectId SourceToNodesEntry)[o]? ≠ some e := by simp
    exact ⟨fun o e he => absurd he (hempty o e), fun o e he => absurd he (hempty o e)⟩
  · rintro (_ | _) <;> exact UniqueIdObjectStorage.wf_new le_rfl

end Registries

end Concurrency

end ObjectLink
