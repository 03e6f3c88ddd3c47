import ObjectLink.Core.Registrations
import ObjectLink.RemoteNode
import ObjectLink.RemoteRegistryRuns

/-!
# Runs of the server side

Any number of `RemoteNode`s over one `RemoteRegistry`, operation after operation: nodes are
created, receive messages and are destroyed, sources are added, removed, expire and notify the
nodes. In `machine` the node storage is not full when a node is created, in `unboundedMachine` it
may be. Code outside the library may throw whenever it is called.

Results:
* `Entered`: the registry keeps the invariant of `RemoteRegistryRuns.lean`, and a node is stored
  under its own id as long as it lives and no longer, unless it got none; `Inv`: all nodes have ids.
* `getNodes_iff`, `serves_next`: the nodes of an object, and how each operation changes them.
* `serves_run`: a node is linked with an object exactly while the messages it received say so.
-/

namespace ObjectLink

open Foundation (Machine Run Since)

namespace Server

/-- What can happen on the server side. -/
inductive Action where
  | create
  | onWrite (n : NodeRef)
  | receive (n : NodeRef) (msg : Json) (env : ServerEnv)
  | notifyPropertyChange (n : NodeRef) (propertyId : Bytes) (value : Json) (env : ServerEnv)
  | notifySignal (n : NodeRef) (signalId : Bytes) (args : Json) (env : ServerEnv)
  | destroy (n : NodeRef)
  | addSource (source : WeakPtr Source)
  | removeSource (objectId : ObjectId)
  | sourceExpires (s : Source)

/-- The server after it. -/
def next (lib : JsonLibrary) (w : Server) : Action → Server
  | .create => (RemoteNode.createRemoteNode w).2
  | .onWrite n => RemoteNode.onWrite n w
  | .receive n msg env => (RemoteNode.handleMessage env n lib msg w).2
  | .notifyPropertyChange n p v env => ((RemoteNode.notifyPropertyChange env n p v).run w).2
  | .notifySignal n s args env => ((RemoteNode.notifySignal env n s args).run w).2
  | .destroy n => RemoteNode.destroy n w
  | .addSource source => { w with registry := w.registry.addSource w.sourceAlive source }
  | .removeSource o => { w with registry := w.registry.removeSource o }
  | .sourceExpires s => { w with sourceAlive := fun x => if x = s then false else w.sourceAlive x }

/-- Operations are called on live nodes, and a node is created only while the storage is not
full. -/
def Enabled (w : Server) : Action → Prop
  | .create => w.registry.remoteNodesById.objects.size < 0xFFFFFFFF
  | .onWrite n | .receive n _ _ | .notifyPropertyChange n _ _ _ | .notifySignal n _ _ _
  | .destroy n => w.nodeAlive n = true
  | _ => True

instance decidableEnabled (w : Server) : (a : Action) → Decidable (Enabled w a)
  | .create => inferInstanceAs (Decidable (_ < _))
  | .onWrite _ | .receive _ _ _ | .notifyPropertyChange _ _ _ _ | .notifySignal _ _ _ _
  | .destroy _ => inferInstanceAs (Decidable (_ = _))
  | .addSource _ | .removeSource _ | .sourceExpires _ => inferInstanceAs (Decidable True)

/-- The start: a new registry and no node. -/
structure Init (w : Server) : Prop where
  registry : w.registry = .new
  nodeAlive : ∀ n, w.nodeAlive n = false
  effects : w.effects = []

/-- A server from its start on, while the storage has room for each node that is created. -/
def machine (lib : JsonLibrary) : Machine Server Action where
  init := Init
  enabled := Enabled
  next := next lib

instance (lib : JsonLibrary) (w : Server) (a : Action) : Decidable ((machine lib).enabled w a) :=
  decidableEnabled w a

/-- A node may also be created while the storage is full. -/
def Possible (w : Server) : Action → Prop
  | .create => True
  | a => Enabled w a

/-- The server side without a bound on the number of nodes. -/
def unboundedMachine (lib : JsonLibrary) : Machine Server Action where
  init := Init
  enabled := Possible
  next := next lib

instance decidablePossible (lib : JsonLibrary) (w : Server) :
    (a : Action) → Decidable ((unboundedMachine lib).enabled w a)
  | .create => inferInstanceAs (Decidable True)
  | .onWrite _ | .receive _ _ _ | .notifyPropertyChange _ _ _ _ | .notifySignal _ _ _ _
  | .destroy _ => inferInstanceAs (Decidable (_ = _))
  | .addSource _ | .removeSource _ | .sourceExpires _ => inferInstanceAs (Decidable True)

/-! ## What each operation does -/

variable {lib : JsonLibrary} {w : Server} {o : ObjectId} {n m : NodeRef}

theorem next_receive {msg : Json} {env : ServerEnv} : next lib w (.receive n msg env) =
    match Protocol.decode? lib msg with
    | some c => RemoteNode.received env w n c
    | none => w :=
  RemoteNode.handleMessage_state lib msg

/-- A message changes no node. -/
theorem receive_nodes (lib : JsonLibrary) (w : Server) (msg : Json) (env : ServerEnv) :
    (next lib w (.receive n msg env)).nodeAlive = w.nodeAlive ∧
      (next lib w (.receive n msg env)).nextNode = w.nextNode := by
  rw [next_receive]
  split <;> exact ⟨rfl, rfl⟩

theorem next_notifyPropertyChange {p : Bytes} {v : Json} {env : ServerEnv} :
    next lib w (.notifyPropertyChange n p v env) = { w with
      effects := w.effects ++ RemoteNode.written env w n (Protocol.propertyChangeMessage p v) } :=
  RemoteNode.emitWrite_state _

theorem next_notifySignal {s : Bytes} {args : Json} {env : ServerEnv} :
    next lib w (.notifySignal n s args env) = { w with
      effects := w.effects ++ RemoteNode.written env w n (Protocol.signalMessage s args) } :=
  RemoteNode.emitWrite_state _

theorem next_destroy : next lib w (.destroy n) = { w with
    nodeAlive := fun m => if m = n then false else w.nodeAlive m
    registry := w.registry.unregisterNode (w.nodes n).nodeId } := rfl

/-- What an operation calls. -/
def callsOfAction (lib : JsonLibrary) (w : Server) : Action → List ServerEffect
  | .receive n msg env => (Protocol.decode? lib msg).elim [] (RemoteNode.callsOf env w n)
  | .notifyPropertyChange n p v env =>
    RemoteNode.written env w n (Protocol.propertyChangeMessage p v)
  | .notifySignal n s args env => RemoteNode.written env w n (Protocol.signalMessage s args)
  | _ => []

theorem effects_next (a : Action) :
    (next lib w a).effects = w.effects ++ callsOfAction lib w a := by
  cases a with
  | create => exact (List.append_nil _).symm
  | receive n msg env =>
    rw [next_receive]
    show _ = w.effects ++ (Protocol.decode? lib msg).elim [] (RemoteNode.callsOf env w n)
    cases Protocol.decode? lib msg with
    | none => exact (List.append_nil _).symm
    | some c => rfl
  | notifyPropertyChange n p v env => rw [next_notifyPropertyChange]; rfl
  | notifySignal n s args env => rw [next_notifySignal]; rfl
  | _ => exact (List.append_nil _).symm

/-! ## The registered sources -/

variable {s : Source}

theorem source_registryAfter {env : ServerEnv} {c : Call} :
    (RemoteNode.registryAfter env w n c).getSource o = w.registry.getSource o := by
  unfold RemoteNode.registryAfter
  split
  · split
    · rw [RemoteRegistry.getSource_addNodeForSource]
    · rfl
  · split
    · split
      · rw [RemoteRegistry.getSource_removeNodeFromSource]
      · rfl
    · rfl
  · rfl

/-- The operations that have nothing to do with sources. -/
def Action.KeepsSources : Action → Prop
  | .addSource _ | .removeSource _ | .sourceExpires _ => False
  | _ => True

theorem source_eq_of_keepsSources (lib : JsonLibrary) {a : Action} (ha : a.KeepsSources) :
    (next lib w a).source o = w.source o := by
  unfold source
  cases a with
  | create =>
    unfold next RemoteNode.createRemoteNode
    dsimp only
    rw [RemoteRegistry.getSource_registerNode]
  | receive n msg env =>
    rw [next_receive]
    cases Protocol.decode? lib msg with
    | none => rfl
    | some c =>
      unfold RemoteNode.received
      dsimp only
      rw [source_registryAfter]
  | notifyPropertyChange n p v env => rw [next_notifyPropertyChange]
  | notifySignal n s args env => rw [next_notifySignal]
  | destroy n =>
    rw [next_destroy]
    dsimp only
    rw [RemoteRegistry.getSource_unregisterNode]
  | onWrite n => rfl
  | addSource _ | removeSource _ | sourceExpires _ => exact ha.elim

/-- A source stays registered until it is removed or expires. -/
theorem source_next {a : Action} (hs : w.source o = some s) (hrem : a ≠ .removeSource o)
    (hexp : a ≠ .sourceExpires s) : (next lib w a).source o = some s := by
  cases a with
  | addSource source =>
    unfold Server.source at hs ⊢
    obtain ⟨hget, halive⟩ := WeakPtr.lock_eq_some.mp hs
    rw [WeakPtr.lock_eq_some]
    exact ⟨RemoteRegistry.getSource_addSource_of_some hget, halive⟩
  | removeSource k =>
    unfold source at hs ⊢
    show ((w.registry.removeSource k).getSource o).lock w.sourceAlive = some s
    rw [RemoteRegistry.getSource_removeSource, if_neg, hs]
    rintro rfl
    exact hrem rfl
  | sourceExpires t =>
    unfold source at hs ⊢
    obtain ⟨hget, halive⟩ := WeakPtr.lock_eq_some.mp hs
    rw [WeakPtr.lock_eq_some]
    refine ⟨hget, ?_⟩
    show (if s = t then false else w.sourceAlive s) = true
    rw [if_neg, halive]
    rintro rfl
    exact hexp rfl
  | _ => rw [source_eq_of_keepsSources _ (by trivial), hs]

/-- A registered source has an entry. -/
theorem mem_entries_of_source (hs : w.source o = some s) : o ∈ w.registry.entries := by
  rw [Foundation.mem_iff_find]
  unfold source RemoteRegistry.getSource at hs
  cases he : w.registry.entries[o]? with
  | none =>
    rw [he] at hs
    cases hs
  | some e => exact ⟨e, rfl⟩

/-! ## The invariant -/

/-- What holds also where the storage has been full: a live node is stored under its id or has none,
and nothing else is stored. -/
structure Entered (w : Server) : Prop where
  links : RemoteRegistry.Inv ⟨w.registry, w.nodeAlive, w.sourceAlive⟩
  nodes : Registrations 0xFFFFFFFF w.registry.remoteNodesById w.nodeAlive
    (fun n => (w.nodes n).nodeId) w.nextNode

/-- In addition every live node has an id. -/
structure Inv (w : Server) : Prop extends Entered w where
  valid : ∀ n, w.nodeAlive n = true → (w.nodes n).nodeId ≠ invalidId

theorem entered_init (hw : Init w) : Entered w := by
  obtain ⟨hr, halive, -⟩ := hw
  refine ⟨RemoteRegistry.inv_init hr, ?_⟩
  rw [hr]
  exact .new halive

theorem inv_init (hw : Init w) : Inv w := by
  refine ⟨entered_init hw, fun n hn => ?_⟩
  rw [hw.nodeAlive] at hn
  cases hn

/-- No list has the invalid id. -/
theorem Entered.invalidId_notMem (hi : Entered w) (o : ObjectId) :
    invalidId ∉ w.registry.nodeIds o := by
  intro hmem
  obtain ⟨n, hn⟩ := hi.links.stored o invalidId hmem
  exact hi.nodes.sized.valid _ n hn rfl

/-- An operation that leaves the nodes and their storage alone keeps the invariant if the registry
keeps its own. -/
theorem Entered.of_links {w' : Server} (hi : Entered w)
    (hlinks : RemoteRegistry.Inv ⟨w'.registry, w'.nodeAlive, w'.sourceAlive⟩)
    (hst : w'.registry.remoteNodesById = w.registry.remoteNodesById)
    (halive : w'.nodeAlive = w.nodeAlive) (hnext : w'.nextNode = w.nextNode)
    (hid : ∀ m, (w'.nodes m).nodeId = (w.nodes m).nodeId) : Entered w' := by
  refine ⟨hlinks, ?_⟩
  rw [hst, halive, hnext, funext hid]
  exact hi.nodes

theorem Inv.of_links {w' : Server} (hi : Inv w)
    (hlinks : RemoteRegistry.Inv ⟨w'.registry, w'.nodeAlive, w'.sourceAlive⟩)
    (hst : w'.registry.remoteNodesById = w.registry.remoteNodesById)
    (halive : w'.nodeAlive = w.nodeAlive) (hnext : w'.nextNode = w.nextNode)
    (hid : ∀ m, (w'.nodes m).nodeId = (w.nodes m).nodeId) : Inv w' := by
  refine ⟨hi.toEntered.of_links hlinks hst halive hnext hid, fun n hn => ?_⟩
  rw [halive] at hn
  rw [hid]
  exact hi.valid n hn

/-- The server with a new node, stored under `id`. -/
def created (w : Server) (id : Nat) (storage : UniqueIdObjectStorage NodeRef) : Server :=
  { w with
    nextNode := w.nextNode + 1
    nodeAlive := fun m => if m = w.nextNode then true else w.nodeAlive m
    registry := { w.registry with remoteNodesById := storage }
    nodes := fun m => if m = w.nextNode then { nodeId := id, writeFunc := false } else w.nodes m }

theorem nodeId_created (id : Nat) (storage : UniqueIdObjectStorage NodeRef) (m : NodeRef) :
    ((created w id storage).nodes m).nodeId
      = if m = w.nextNode then id else (w.nodes m).nodeId := by
  unfold created
  dsimp only
  split <;> rfl

/-- **A new node**, and nothing else changes. -/
theorem next_create {id : Nat} {storage : UniqueIdObjectStorage NodeRef}
    (hadd : w.registry.remoteNodesById.add (fun m => if m = w.nextNode then true else w.nodeAlive m)
      (some w.nextNode) = (id, storage)) : next lib w .create = created w id storage := by
  unfold next RemoteNode.createRemoteNode
  dsimp only
  rw [RemoteRegistry.registerNode_eq, hadd]
  rfl

/-- It is stored under a free id, or gets none. -/
theorem create_cases (lib : JsonLibrary) (hi : Entered w) :
    ∃ id storage, next lib w .create = created w id storage ∧ Entered (created w id storage) ∧
      (id = invalidId ∨ w.registry.remoteNodesById.get id = none) := by
  obtain ⟨id, storage, hadd, hreg, hfree, hkept⟩ := hi.nodes.add_cases
  have hwf : storage.Wf := hreg.sized.counted.wf (hreg.sized.maxCount_eq ▸ Nat.le_refl _)
  refine ⟨id, storage, next_create hadd, ⟨?_, ?_⟩, hfree⟩
  · refine ⟨hwf, hreg.sized.maxCount_eq, hreg.sized.distinct, fun o k hk => ?_, hi.links.nodup⟩
    obtain ⟨n, hn⟩ := hi.links.stored o k hk
    exact ⟨n, hkept k n hn⟩
  · rw [funext (nodeId_created id storage)]
    exact hreg

/-- **With room** it gets an id. -/
theorem create_valid (hi : Entered w) (hroom : Enabled w .create) {id : Nat}
    {storage : UniqueIdObjectStorage NodeRef}
    (hcreated : next lib w .create = created w id storage) : id ≠ invalidId := by
  have hroom' : w.registry.remoteNodesById.objects.size < w.registry.remoteNodesById.maxCount := by
    rw [hi.links.maxCount_eq]
    exact hroom
  obtain ⟨id', storage', hadd, hid, -⟩ :=
    UniqueIdObjectStorage.add_created hi.links.wf hroom' (fun k n hk => (hi.nodes.stored k n hk).1)
      (hi.nodes.fresh w.nextNode (Nat.le_refl _))
  rw [next_create hadd] at hcreated
  have hnode := congrArg (fun w : Server => (w.nodes w.nextNode.pred).nodeId) hcreated
  simp only [created, Nat.pred_succ, if_true] at hnode
  exact hnode ▸ hid

/-- A message changes the registry like one operation of it, or not at all. -/
theorem registryAfter_cases (env : ServerEnv) (w : Server) (n : NodeRef) (c : Call) :
    RemoteNode.registryAfter env w n c = w.registry ∨
    (∃ o, RemoteNode.registryAfter env w n c
      = w.registry.addNodeForSource w.nodeAlive (w.nodes n).nodeId o) ∨
    ∃ o, RemoteNode.registryAfter env w n c
      = w.registry.removeNodeFromSource (w.nodes n).nodeId o := by
  unfold RemoteNode.registryAfter
  split
  · split
    · exact Or.inr (Or.inl ⟨_, rfl⟩)
    · exact Or.inl rfl
  · split
    · split
      · exact Or.inr (Or.inr ⟨_, rfl⟩)
      · exact Or.inl rfl
    · exact Or.inl rfl
  · exact Or.inl rfl

theorem entered_received {env : ServerEnv} {c : Call} (hi : Entered w) :
    Entered (RemoteNode.received env w n c) := by
  rcases registryAfter_cases env w n c with h | ⟨o, h⟩ | ⟨o, h⟩
  · refine hi.of_links ?_ (by rw [RemoteNode.received, h]) rfl rfl fun _ => rfl
    rw [RemoteNode.received, h]
    exact hi.links
  · refine hi.of_links ?_ ?_ rfl rfl fun _ => rfl
    · rw [RemoteNode.received, h]
      exact RemoteRegistry.inv_next hi.links (.addNodeForSource (w.nodes n).nodeId o) trivial
    · rw [RemoteNode.received, h]
      exact RemoteRegistry.remoteNodesById_addNodeForSource
  · refine hi.of_links ?_ ?_ rfl rfl fun _ => rfl
    · rw [RemoteNode.received, h]
      exact RemoteRegistry.inv_next hi.links (.removeNodeFromSource (w.nodes n).nodeId o) trivial
    · rw [RemoteNode.received, h]
      exact RemoteRegistry.remoteNodesById_removeNodeFromSource

theorem entered_destroy (hi : Entered w) (hn : w.nodeAlive n = true) :
    Entered (next lib w (.destroy n)) := by
  have hlinks := RemoteRegistry.inv_next hi.links (.unregisterNode (w.nodes n).nodeId) trivial
  rw [next_destroy]
  refine ⟨⟨hlinks.wf, hlinks.maxCount_eq, hlinks.distinct, hlinks.stored, hlinks.nodup⟩,
    hi.nodes.remove hn ?_ RemoteRegistry.remoteNodesById_unregisterNode⟩
  intro hid
  rw [hid, RemoteRegistry.unregisterNode_invalidId]

theorem entered_next (hi : Entered w) (a : Action) (hen : Possible w a) :
    Entered (next lib w a) := by
  cases a with
  | create =>
    obtain ⟨id, storage, heq, hentered, -⟩ := create_cases lib hi
    exact heq ▸ hentered
  | onWrite n =>
    refine hi.of_links hi.links rfl rfl rfl ?_
    intro m
    show (if m = n then { w.nodes m with writeFunc := true } else w.nodes m).nodeId = _
    split <;> rfl
  | receive n msg env =>
    rw [next_receive]
    split
    · exact entered_received hi
    · exact hi
  | notifyPropertyChange n p v env =>
    rw [next_notifyPropertyChange]
    exact hi.of_links hi.links rfl rfl rfl fun _ => rfl
  | notifySignal n s args env =>
    rw [next_notifySignal]
    exact hi.of_links hi.links rfl rfl rfl fun _ => rfl
  | destroy n => exact entered_destroy hi hen
  | addSource source =>
    refine hi.of_links ?_ (RemoteRegistry.remoteNodesById_addSource source) rfl rfl fun _ => rfl
    exact RemoteRegistry.inv_next hi.links (.addSource source) trivial
  | removeSource o =>
    refine hi.of_links ?_ rfl rfl rfl fun _ => rfl
    exact RemoteRegistry.inv_next hi.links (.removeSource o) trivial
  | sourceExpires s =>
    refine hi.of_links ?_ rfl rfl rfl fun _ => rfl
    exact RemoteRegistry.inv_next hi.links (.sourceExpires s) trivial

theorem entered_run {h : List (Server × Action)} (hr : Run (unboundedMachine lib) h w) :
    Entered w :=
  hr.invariant (fun _ hw => entered_init hw) fun _ a hi hen => entered_next hi a hen

theorem possible_of_enabled {a : Action} (hen : Enabled w a) : Possible w a := by
  cases a with
  | create => trivial
  | _ => exact hen

/-- Only `create` makes nodes and gives ids. -/
theorem nodes_next (lib : JsonLibrary) {a : Action} (ha : a ≠ .create) :
    (next lib w a).nextNode = w.nextNode ∧
    (∀ m, (next lib w a).nodeAlive m = true → w.nodeAlive m = true) ∧
    ∀ m, ((next lib w a).nodes m).nodeId = (w.nodes m).nodeId := by
  cases a with
  | create => exact absurd rfl ha
  | onWrite n =>
    refine ⟨rfl, fun _ h => h, fun m => ?_⟩
    show (if m = n then { w.nodes m with writeFunc := true } else w.nodes m).nodeId = _
    split <;> rfl
  | receive n msg env =>
    rw [next_receive]
    split <;> exact ⟨rfl, fun _ h => h, fun _ => rfl⟩
  | notifyPropertyChange n p v env =>
    rw [next_notifyPropertyChange]
    exact ⟨rfl, fun _ h => h, fun _ => rfl⟩
  | notifySignal n s args env =>
    rw [next_notifySignal]
    exact ⟨rfl, fun _ h => h, fun _ => rfl⟩
  | destroy n =>
    rw [next_destroy]
    refine ⟨rfl, fun m h => ?_, fun _ => rfl⟩
    dsimp only at h
    split at h
    · cases h
    · exact h
  | addSource source | removeSource o | sourceExpires s => exact ⟨rfl, fun _ h => h, fun _ => rfl⟩

theorem inv_next (hi : Inv w) (a : Action) (hen : Enabled w a) : Inv (next lib w a) := by
  refine ⟨entered_next hi.toEntered a (possible_of_enabled hen), fun n hn => ?_⟩
  by_cases ha : a = .create
  · subst ha
    obtain ⟨id, storage, heq, -⟩ := create_cases lib hi.toEntered
    have hid : id ≠ invalidId := create_valid hi.toEntered hen heq
    rw [heq] at hn ⊢
    rw [nodeId_created]
    have hn : (if n = w.nextNode then true else w.nodeAlive n) = true := hn
    split
    · exact hid
    · rename_i hne
      rw [if_neg hne] at hn
      exact hi.valid n hn
  · obtain ⟨-, halive, hid⟩ := nodes_next lib (w := w) ha
    rw [hid]
    exact hi.valid n (halive n hn)

theorem inv_run (h : List (Server × Action)) (w : Server) (hr : Run (machine lib) h w) : Inv w :=
  hr.invariant (fun _ hs => inv_init hs) fun _ a hi hen => inv_next hi a hen

/-! ## The nodes of an object -/

/-- The id of the node is in the entry of the object. -/
def Serves (w : Server) (o : ObjectId) (n : NodeRef) : Prop :=
  w.nodeAlive n = true ∧ (w.nodes n).nodeId ∈ w.registry.nodeIds o

/-- **`getNodes` reads the entry.** -/
theorem getNodes_iff (hi : Entered w) :
    some n ∈ w.registry.getNodes w.nodeAlive o ↔ Serves w o n := by
  rw [RemoteRegistry.some_mem_getNodes, RemoteRegistry.mem_linkedNodes]
  constructor
  · rintro ⟨⟨id, hid, hget⟩, hn⟩
    exact ⟨hn, (hi.nodes.stored id n hget).2.symm ▸ hid⟩
  · rintro ⟨hn, hid⟩
    refine ⟨⟨_, hid, (hi.nodes.registered n hn).resolve_left ?_⟩, hn⟩
    exact fun hinvalid => hi.invalidId_notMem o (hinvalid ▸ hid)

/-- A node that is linked shares its id with no other. -/
theorem Entered.nodeId_inj (hi : Entered w) (hn : Serves w o n) (hm : w.nodeAlive m = true)
    (he : (w.nodes n).nodeId = (w.nodes m).nodeId) : n = m := by
  have hid : (w.nodes n).nodeId ≠ invalidId := fun h => hi.invalidId_notMem o (h ▸ hn.2)
  have hgetn := (hi.nodes.registered n hn.1).resolve_left hid
  have hgetm := (hi.nodes.registered m hm).resolve_left (he ▸ hid)
  have heq : w.registry.remoteNodesById.get (w.nodes n).nodeId = some m := he ▸ hgetm
  rw [hgetn] at heq
  exact Option.some.inj heq

/-- The node receives the `Link` of an object that has a source. -/
def Linked (lib : JsonLibrary) (o : ObjectId) (n : NodeRef) (x : Server × Action) : Prop :=
  ∃ msg env, x.2 = .receive n msg env ∧ Protocol.decode? lib msg = some (.link o) ∧
    (x.1.source o).isSome

/-- The node receives the `Unlink` of an object that has a source, which returns from being told,
or the node is destroyed, or the object is removed. -/
def Unlinked (lib : JsonLibrary) (o : ObjectId) (n : NodeRef) (x : Server × Action) : Prop :=
  (∃ msg env s, x.2 = .receive n msg env ∧ Protocol.decode? lib msg = some (.unlink o) ∧
    x.1.source o = some s ∧ env.call x.1.effects (.olinkUnlinked s o) = .ok ()) ∨
  x.2 = .destroy n ∨ x.2 = .removeSource o

theorem linked_receive {msg : Json} {env : ServerEnv} {c : Call}
    (hdec : Protocol.decode? lib msg = some c) : Linked lib o n (w, .receive m msg env) ↔
      n = m ∧ c = .link o ∧ (w.source o).isSome := by
  constructor
  · rintro ⟨_, _, ha, hlink, hs⟩
    cases ha
    rw [hdec] at hlink
    exact ⟨rfl, Option.some.inj hlink, hs⟩
  · rintro ⟨rfl, rfl, hs⟩
    exact ⟨msg, env, rfl, hdec, hs⟩

theorem unlinked_receive {msg : Json} {env : ServerEnv} {c : Call}
    (hdec : Protocol.decode? lib msg = some c) : Unlinked lib o n (w, .receive m msg env) ↔
      n = m ∧ c = .unlink o ∧
        ∃ s, w.source o = some s ∧ env.call w.effects (.olinkUnlinked s o) = .ok () := by
  constructor
  · rintro (⟨_, _, s, ha, hunlink, hs, hc⟩ | ha | ha)
    · cases ha
      rw [hdec] at hunlink
      exact ⟨rfl, Option.some.inj hunlink, s, hs, hc⟩
    · cases ha
    · cases ha
  · rintro ⟨rfl, rfl, s, hs, hc⟩
    exact Or.inl ⟨msg, env, s, rfl, hdec, hs, hc⟩

theorem serves_congr {w' : Server} (halive : w'.nodeAlive = w.nodeAlive)
    (hid : ∀ m, (w'.nodes m).nodeId = (w.nodes m).nodeId)
    (hids : w'.registry.nodeIds o = w.registry.nodeIds o) : Serves w' o n ↔ Serves w o n := by
  unfold Serves
  rw [halive, hid, hids]

/-- A `Link` enters the node that received it, if it has an id. -/
theorem serves_link {env : ServerEnv} {k : ObjectId} (hi : Entered w) (hm : w.nodeAlive m = true) :
    Serves (RemoteNode.received env w m (.link k)) o n ↔
      (n = m ∧ o = k ∧ (w.source k).isSome ∧ (w.nodes m).nodeId ≠ invalidId) ∨ Serves w o n := by
  have hids : (RemoteNode.received env w m (.link k)).registry = RemoteNode.registryAfter env w m
    (.link k) := rfl
  unfold Serves
  rw [hids]
  unfold RemoteNode.registryAfter RemoteNode.received
  dsimp only
  cases hs : w.source k with
  | none => simp
  | some s =>
    dsimp only
    rw [RemoteRegistry.nodeIds_addNodeForSource]
    by_cases hl : o = k ∧ RemoteRegistry.Links w.nodeAlive w.registry (w.nodes m).nodeId k
    · have hvalid : (w.nodes m).nodeId ≠ invalidId := fun h => by
        have hlock := hl.2.1
        rw [h, hi.nodes.get_invalidId] at hlock
        cases hlock
      have hget := (hi.nodes.registered m hm).resolve_left hvalid
      rw [if_pos hl]
      simp only [List.mem_append, List.mem_singleton, hl.1, Option.isSome_some, ne_eq, hvalid,
        not_false_eq_true, and_true]
      constructor
      · rintro ⟨hn, hmem | he⟩
        · exact Or.inr ⟨hn, hmem⟩
        · have hgetn := (hi.nodes.registered n hn).resolve_left (he ▸ hvalid)
          rw [he, hget] at hgetn
          exact Or.inl (Option.some.inj hgetn).symm
      · rintro (rfl | ⟨hn, hmem⟩)
        · exact ⟨hm, Or.inr rfl⟩
        · exact ⟨hn, Or.inl hmem⟩
    · rw [if_neg hl]
      refine ⟨Or.inr, ?_⟩
      rintro (⟨rfl, rfl, -, hvalid⟩ | h)
      · have hlock : ((w.registry.remoteNodesById.get (w.nodes n).nodeId).lock
            w.nodeAlive).isSome := by
          rw [(hi.nodes.registered n hm).resolve_left hvalid, WeakPtr.lock_some, if_pos hm]
          rfl
        refine ⟨hm, ?_⟩
        by_contra hnew
        exact hl ⟨rfl, hlock, mem_entries_of_source hs, hnew⟩
      · exact h

/-- An `Unlink` takes out the node that received it, if the source returns from being told. -/
theorem serves_unlink {env : ServerEnv} {k : ObjectId} (hi : Entered w)
    (hm : w.nodeAlive m = true) :
    Serves (RemoteNode.received env w m (.unlink k)) o n ↔
      Serves w o n ∧ ¬ (n = m ∧ o = k ∧
        ∃ s, w.source k = some s ∧ env.call w.effects (.olinkUnlinked s k) = .ok ()) := by
  have hids : (RemoteNode.received env w m (.unlink k)).registry = RemoteNode.registryAfter env w m
    (.unlink k) := rfl
  have hne : Serves w o n → ((w.nodes n).nodeId ≠ (w.nodes m).nodeId ↔ ¬ n = m) :=
    fun hn => not_congr ⟨hi.nodeId_inj hn hm, fun he => by rw [he]⟩
  unfold Serves at hne ⊢
  rw [hids]
  unfold RemoteNode.registryAfter RemoteNode.received
  dsimp only
  cases hs : w.source k with
  | none => simp
  | some s =>
    dsimp only
    cases hc : env.call w.effects (.olinkUnlinked s k) with
    | error t => simp [hc]
    | ok u =>
      dsimp only
      rw [RemoteRegistry.nodeIds_removeNodeFromSource]
      by_cases ho : o = k
      · rw [if_pos ho, (hi.links.nodup o).mem_erase_iff, and_left_comm]
        constructor
        · rintro ⟨hid, hserves⟩
          exact ⟨hserves, fun h => (hne hserves).mp hid h.1⟩
        · rintro ⟨hserves, hno⟩
          exact ⟨(hne hserves).mpr fun he => hno ⟨he, ho, s, rfl, hc⟩, hserves⟩
      · simp [ho]

/-- The id of a new node is in no list. -/
theorem serves_create (hi : Entered w) : Serves (next lib w .create) o n ↔ Serves w o n := by
  obtain ⟨id, storage, heq, -, hfree⟩ := create_cases lib hi
  rw [heq]
  unfold Serves
  rw [nodeId_created]
  show (if n = w.nextNode then true else w.nodeAlive n) = true ∧ _ ∈ w.registry.nodeIds o ↔ _
  by_cases hn : n = w.nextNode
  · rw [if_pos hn, if_pos hn]
    refine iff_of_false ?_ ?_
    · intro h
      obtain ⟨m, hm⟩ := hi.links.stored o id h.2
      rcases hfree with hid | hfree
      · exact hi.invalidId_notMem o (hid ▸ h.2)
      · rw [hfree] at hm
        cases hm
    · intro h
      have halive := h.1
      rw [hi.nodes.fresh n (hn ▸ Nat.le_refl _)] at halive
      cases halive
  · rw [if_neg hn, if_neg hn]

/-- A message enters the node that received it, takes it out, or does neither. -/
theorem Entered.serves_receive {msg : Json} {env : ServerEnv} (hi : Entered w)
    (hm : w.nodeAlive m = true) : Serves (next lib w (.receive m msg env)) o n ↔
      (Linked lib o n (w, .receive m msg env) ∧ (w.nodes n).nodeId ≠ invalidId) ∨
        (Serves w o n ∧ ¬ Unlinked lib o n (w, .receive m msg env)) := by
  rw [next_receive]
  cases hdec : Protocol.decode? lib msg with
  | none => simp [Linked, Unlinked, hdec]
  | some c =>
    rw [linked_receive hdec, unlinked_receive hdec]
    cases c with
    | link k =>
      dsimp only
      rw [serves_link hi hm, Call.link.injEq]
      simp only [reduceCtorEq, false_and, and_false, not_false_eq_true, and_true]
      refine or_congr_left ?_
      constructor
      · rintro ⟨rfl, rfl, hs, hvalid⟩
        exact ⟨⟨rfl, rfl, hs⟩, hvalid⟩
      · rintro ⟨⟨rfl, rfl, hs⟩, hvalid⟩
        exact ⟨rfl, rfl, hs, hvalid⟩
    | unlink k =>
      dsimp only
      rw [serves_unlink hi hm, Call.unlink.injEq]
      simp only [reduceCtorEq, false_and, and_false, false_or]
      refine and_congr_right fun _ => not_congr (and_congr_right ?_)
      intro _
      constructor <;>
        · rintro ⟨rfl, hs⟩
          exact ⟨rfl, hs⟩
    | _ =>
      simp only [reduceCtorEq, false_and, and_false, false_or, not_false_eq_true, and_true]
      exact serves_congr rfl (fun _ => rfl) rfl

/-- The destructor takes the node out of every list. -/
theorem serves_destroy (hi : Entered w) (hm : w.nodeAlive m = true) :
    Serves (next lib w (.destroy m)) o n ↔ Serves w o n ∧ n ≠ m := by
  have hne : Serves w o n → n ≠ m → (w.nodes n).nodeId ≠ (w.nodes m).nodeId :=
    fun hserves hn he => hn (hi.nodeId_inj hserves hm he)
  unfold Serves at hne ⊢
  rw [next_destroy]
  dsimp only
  by_cases hn : n = m
  · simp [hn]
  · rw [if_neg hn, and_iff_left hn]
    by_cases hid : (w.nodes m).nodeId = invalidId
    · rw [hid, RemoteRegistry.unregisterNode_invalidId]
    · rw [RemoteRegistry.nodeIds_unregisterNode hid, (hi.links.nodup o).mem_erase_iff]
      exact ⟨fun h => ⟨h.1, h.2.2⟩, fun h => ⟨h.1, hne h hn, h.2⟩⟩

/-- **One step** enters the node for the object, or leaves it as it was. -/
theorem Entered.serves_next (hi : Entered w) (a : Action) (hen : Possible w a) :
    Serves (next lib w a) o n ↔ (Linked lib o n (w, a) ∧ (w.nodes n).nodeId ≠ invalidId) ∨
      (Serves w o n ∧ ¬ Unlinked lib o n (w, a)) := by
  cases a with
  | create =>
    rw [serves_create hi]
    simp [Linked, Unlinked]
  | receive m msg env => exact hi.serves_receive hen
  | destroy m =>
    rw [serves_destroy hi hen]
    simp only [Linked, Unlinked, reduceCtorEq, false_and, exists_false, false_or, or_false,
      Action.destroy.injEq]
    exact and_congr_right fun _ => not_congr eq_comm
  | removeSource k =>
    unfold Serves
    show _ ∧ _ ∈ (w.registry.removeSource k).nodeIds o ↔ _
    rw [RemoteRegistry.nodeIds_removeSource]
    by_cases ho : o = k
    · simp [ho, Linked, Unlinked]
    · simp [ho, Linked, Unlinked, Ne.symm ho, next]
  | addSource source =>
    have hiff : Serves (next lib w (.addSource source)) o n ↔ Serves w o n :=
      serves_congr rfl (fun _ => rfl) (RemoteRegistry.nodeIds_addSource source)
    simp [hiff, Linked, Unlinked]
  | onWrite m =>
    have hiff : Serves (next lib w (.onWrite m)) o n ↔ Serves w o n :=
      serves_congr rfl (nodes_next lib Action.noConfusion).2.2 rfl
    simp [hiff, Linked, Unlinked]
  | notifyPropertyChange m p v env =>
    rw [next_notifyPropertyChange]
    simp [Serves, Linked, Unlinked]
  | notifySignal m s args env =>
    rw [next_notifySignal]
    simp [Serves, Linked, Unlinked]
  | sourceExpires s =>
    have hiff : Serves (next lib w (.sourceExpires s)) o n ↔ Serves w o n :=
      serves_congr rfl (fun _ => rfl) rfl
    simp [hiff, Linked, Unlinked]

/-- The same where every node has an id. -/
theorem serves_next (hi : Inv w) (a : Action) (hen : Enabled w a) :
    Serves (next lib w a) o n ↔ Linked lib o n (w, a) ∨
      (Serves w o n ∧ ¬ Unlinked lib o n (w, a)) := by
  rw [hi.toEntered.serves_next a (possible_of_enabled hen)]
  refine or_congr_left (and_iff_left_of_imp fun ha => ?_)
  obtain ⟨msg, env, ha, -⟩ := ha
  have ha : a = .receive n msg env := ha
  subst ha
  exact hi.valid n hen

/-- **The nodes of an object**, told from the messages: a node is among them if it received a
`Link` while there was a source, and since then neither an `Unlink` nor the end of either. -/
theorem serves_run {h : List (Server × Action)} (hr : Run (machine lib) h w) :
    some n ∈ w.registry.getNodes w.nodeAlive o ↔ Since (Linked lib o n) (Unlinked lib o n) h := by
  rw [getNodes_iff (inv_run h w hr).toEntered]
  refine Run.iff_since (M := machine lib) (Q := fun w => Serves w o n) inv_run ?_
    (fun s a hi hen => serves_next hi a hen) hr
  intro s hs hh
  have halive := hh.1
  rw [hs.nodeAlive] at halive
  cases halive

/-- A server side with a new registry, and no node yet. -/
def empty : Server where
  registry := .new
  nodes _ := { nodeId := 0, writeFunc := false }
  nodeAlive _ := false
  sourceAlive _ := true
  nextNode := 0
  effects := []

theorem init_empty : Init empty := ⟨rfl, fun _ => rfl, rfl⟩

/-- A source for the object `"o"`. -/
def someSource : Source := { ref := 0, olinkObjectName := lit "o" }

end Server

end ObjectLink
