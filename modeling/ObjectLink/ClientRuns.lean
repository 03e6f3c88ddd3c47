import ObjectLink.ClientNode
import ObjectLink.Core.Registrations
import ObjectLink.Foundation.Machine

/-!
# Runs of the client side

Any number of `ClientNode`s over one `ClientRegistry`, operation after operation: nodes are
created, link and unlink objects, call methods, handle received messages and are destroyed, while
sinks are added, removed and expire. In `machine` the node storage is not full when a node is
created, in `unboundedMachine` it may be. Code called by a received message may throw; the
operations the user calls are those that return (those that throw are in `ClientCalls.lean`).

Results:
* `Entered`: a node is stored under its own id as long as it lives and no longer, unless it got
  none, and the slot of an object is free or holds the id of a stored node; `Inv`: all nodes have
  ids.
* `getNode_iff`, `holds_next`: the last link wins, as the slot of an object is read as the node with
  that id.
* `lock_getSink_next`: the first live sink stays.
-/

namespace ObjectLink

open Foundation (Machine Run Since run_play)

namespace Client

/-- What can happen on the client side. -/
inductive Action where
  | create
  | onWrite (n : NodeRef)
  | linkRemote (n : NodeRef) (objectId : ObjectId)
  | unlinkRemote (n : NodeRef) (objectId : ObjectId)
  | invokeRemote (n : NodeRef) (methodId : Bytes) (args : Json) (func : Option InvokeReplyFunc)
  | setRemoteProperty (n : NodeRef) (propertyId : Bytes) (value : Json)
  | receive (n : NodeRef) (msg : Json) (env : ClientEnv)
  | destroy (n : NodeRef)
  | addSink (sink : WeakPtr Sink)
  | removeSink (objectId : ObjectId)
  | sinkExpires (s : Sink)

/-- The client after it. What the user's calls call outside returns; a received message comes with
an environment of its own. -/
def next (lib : JsonLibrary) (w : Client) : Action → Client
  | .create => (ClientNode.create w).2
  | .onWrite n => ClientNode.onWrite n w
  | .linkRemote n o => ((ClientNode.linkRemote .returning n o).run w).2
  | .unlinkRemote n o => ((ClientNode.unlinkRemote .returning n o).run w).2
  | .invokeRemote n m args func => ((ClientNode.invokeRemote .returning n m args func).run w).2
  | .setRemoteProperty n p v => ((ClientNode.setRemoteProperty .returning n p v).run w).2
  | .receive n msg env => (ClientNode.handleMessage env n lib msg w).2
  | .destroy n => ((ClientNode.destroy .returning n).run w).2
  | .addSink sink => { w with registry := w.registry.addSink w.sinkAlive sink }
  | .removeSink o => { w with registry := w.registry.removeSink o }
  | .sinkExpires s => { w with sinkAlive := fun x => if x = s then false else w.sinkAlive x }

/-- Operations are called on live nodes, and a node is created only while the storage is not
full. -/
def Enabled (w : Client) : Action → Prop
  | .create => w.registry.clientNodesById.objects.size < 0xFFFFFFFF
  | .onWrite n | .linkRemote n _ | .unlinkRemote n _ | .invokeRemote n _ _ _
  | .setRemoteProperty n _ _ | .receive n _ _ | .destroy n => w.nodeAlive n = true
  | _ => True

instance decidableEnabled (w : Client) : (a : Action) → Decidable (Enabled w a)
  | .create => inferInstanceAs (Decidable (_ < _))
  | .onWrite _ | .linkRemote _ _ | .unlinkRemote _ _ | .invokeRemote _ _ _ _
  | .setRemoteProperty _ _ _ | .receive _ _ _ | .destroy _ => inferInstanceAs (Decidable (_ = _))
  | .addSink _ | .removeSink _ | .sinkExpires _ => inferInstanceAs (Decidable True)

/-- The start: a new registry and no node. -/
structure Init (w : Client) : Prop where
  registry : w.registry = .new
  nodeAlive : ∀ n, w.nodeAlive n = false
  effects : w.effects = []

/-- A client from its start on, while the storage has room for each node that is created. -/
def machine (lib : JsonLibrary) : Machine Client Action where
  init := Init
  enabled := Enabled
  next := next lib

instance (lib : JsonLibrary) (w : Client) (a : Action) : Decidable ((machine lib).enabled w a) :=
  decidableEnabled w a

/-- A node may also be created while the storage is full. -/
def Possible (w : Client) : Action → Prop
  | .create => True
  | a => Enabled w a

/-- The client side without a bound on the number of nodes. -/
def unboundedMachine (lib : JsonLibrary) : Machine Client Action where
  init := Init
  enabled := Possible
  next := next lib

instance decidablePossible (lib : JsonLibrary) (w : Client) :
    (a : Action) → Decidable ((unboundedMachine lib).enabled w a)
  | .create => inferInstanceAs (Decidable True)
  | .onWrite _ | .linkRemote _ _ | .unlinkRemote _ _ | .invokeRemote _ _ _ _
  | .setRemoteProperty _ _ _ | .receive _ _ _ | .destroy _ => inferInstanceAs (Decidable (_ = _))
  | .addSink _ | .removeSink _ | .sinkExpires _ => inferInstanceAs (Decidable True)

/-! ## The invariant -/

/-- The nodes of a client in the storage of its registry. -/
def NodesRegistered (maxCount : Nat) (w : Client) : Prop :=
  Registrations maxCount w.registry.clientNodesById w.nodeAlive (fun n => (w.nodes n).nodeId)
    w.nextNode

/-- What holds also where the storage has been full: a live node is stored under its id or has none,
and nothing else is stored. -/
structure Entered (w : Client) : Prop where
  nodes : NodesRegistered 0xFFFFFFFF w
  /-- A slot is free or taken by a stored node. -/
  slot : ∀ o, w.registry.slot o = invalidId ∨
    ∃ n, w.registry.clientNodesById.get (w.registry.slot o) = some n
  sinkName : ∀ o s, w.registry.getSink o = some s → s.olinkObjectName = o

/-- In addition every live node has an id. -/
structure Inv (w : Client) : Prop extends Entered w where
  valid : ∀ n, w.nodeAlive n = true → (w.nodes n).nodeId ≠ invalidId

variable {lib : JsonLibrary} {w : Client} {o : ObjectId} {n m : NodeRef} {maxCount : Nat}

theorem entered_init (hw : Init w) : Entered w := by
  obtain ⟨hr, halive, -⟩ := hw
  have hfind : ∀ o, w.registry.entries[o]? = none := fun o => by
    rw [hr]
    exact Std.ExtTreeMap.getElem?_empty
  refine ⟨?_, fun o => Or.inl ?_, ?_⟩
  · unfold NodesRegistered
    rw [hr]
    exact .new halive
  · exact ClientRegistry.slot_of_not_mem (hfind o)
  · intro o s hs
    rw [ClientRegistry.getSink_of_not_mem (hfind o)] at hs
    cases hs

theorem inv_init (hw : Init w) : Inv w := by
  refine ⟨entered_init hw, fun n hn => ?_⟩
  rw [hw.nodeAlive] at hn
  cases hn

theorem Entered.wf (hi : Entered w) : w.registry.clientNodesById.Wf := by
  refine hi.nodes.sized.counted.wf ?_
  rw [hi.nodes.sized.maxCount_eq]
  exact Nat.le_refl _

/-- A live node is stored under its id. -/
theorem Inv.registered (hi : Inv w) (hn : w.nodeAlive n = true) :
    w.registry.clientNodesById.get (w.nodes n).nodeId = some n :=
  (hi.nodes.registered n hn).resolve_left (hi.valid n hn)

/-- Whether the slot of the object holds the id of the node. -/
def Holds (w : Client) (o : ObjectId) (n : NodeRef) : Prop :=
  w.nodeAlive n = true ∧ (w.nodes n).nodeId ≠ invalidId ∧ w.registry.slot o = (w.nodes n).nodeId

/-- **`getNode` reads the slot.** -/
theorem getNode_iff (hi : NodesRegistered maxCount w) :
    (w.registry.getNode o).lock w.nodeAlive = some n ↔ Holds w o n := by
  rw [ClientRegistry.getNode_eq_get hi.get_invalidId, WeakPtr.lock_eq_some]
  constructor
  · rintro ⟨hget, hn⟩
    have hid : (w.nodes n).nodeId = w.registry.slot o := (hi.stored _ n hget).2
    exact ⟨hn, hid ▸ hi.sized.valid _ n hget, hid.symm⟩
  · rintro ⟨hn, hvalid, hs⟩
    exact ⟨hs ▸ (hi.registered n hn).resolve_left hvalid, hn⟩

/-- A slot holds at most one node. -/
theorem Holds.eq (hi : NodesRegistered maxCount w) (hn : Holds w o n) (hm : Holds w o m) :
    n = m := by
  have hboth := (getNode_iff hi).mpr hn
  rw [(getNode_iff hi).mpr hm] at hboth
  exact (Option.some.inj hboth).symm

/-! ## What each operation does -/

open ClientEnv (returning_returns)

theorem next_linkRemote : next lib w (.linkRemote n o) = { w with
    registry := (w.registry.unsetNode o).setNode (w.nodes n).nodeId o
    effects := w.effects ++ ClientNode.written w n (Protocol.linkMessage o) } :=
  congrArg Prod.snd (ClientNode.linkRemote_run returning_returns o)

theorem next_unlinkRemote : next lib w (.unlinkRemote n o) = { w with
    registry := w.registry.unsetNode o
    effects := w.effects ++ (ClientNode.released w o ++
      ClientNode.written w n (Protocol.unlinkMessage o)) } :=
  congrArg Prod.snd (ClientNode.unlinkRemote_run returning_returns o)

theorem next_destroy : next lib w (.destroy n) = { w with
    nodeAlive := fun m => if m = n then false else w.nodeAlive m
    registry := ClientNode.unregistered w.registry (w.nodes n).nodeId
    effects := w.effects ++
      ClientNode.unlinkEffects w n (w.registry.getObjectIds (w.nodes n).nodeId) } :=
  congrArg Prod.snd (ClientNode.destroy_run returning_returns)

/-- The operations that have nothing to do with links. -/
def Action.Quiet : Action → Prop
  | .onWrite _ | .invokeRemote _ _ _ _ | .setRemoteProperty _ _ _ | .receive _ _ _ => True
  | _ => False

theorem sameLinks_next {a : Action} (ha : a.Quiet) : ClientNode.SameLinks w (next lib w a) := by
  cases a with
  | onWrite n =>
    have hid : ∀ node : ClientNodeState, { node with writeFunc := true }.nodeId = node.nodeId :=
      fun _ => rfl
    exact ClientNode.sameLinks_updateNode hid
  | invokeRemote n m args func =>
    unfold next
    dsimp only
    rw [ClientNode.invokeRemote_run returning_returns]
    exact ClientNode.sameLinks_updateNode fun _ => rfl
  | setRemoteProperty n p v =>
    unfold next ClientNode.setRemoteProperty
    dsimp only
    rw [ClientNode.emitWrite_run returning_returns]
    exact ⟨rfl, rfl, rfl, rfl, fun _ => rfl⟩
  | receive n msg env => exact ClientNode.sameLinks_handleMessage lib msg
  | _ => exact ha.elim

/-- What an operation calls. -/
def callsOfAction (lib : JsonLibrary) (w : Client) : Action → List ClientEffect
  | .create | .onWrite _ | .addSink _ | .removeSink _ | .sinkExpires _ => []
  | .linkRemote n o => ClientNode.written w n (Protocol.linkMessage o)
  | .unlinkRemote n o =>
    ClientNode.released w o ++ ClientNode.written w n (Protocol.unlinkMessage o)
  | .invokeRemote n methodId args _ => ClientNode.written w n
    (Protocol.invokeMessage ((w.nodes n).nextRequestId + 1) methodId args)
  | .setRemoteProperty n propertyId value =>
    ClientNode.written w n (Protocol.setPropertyMessage propertyId value)
  | .receive n msg env =>
    match ClientNode.handled env lib msg with
    | some c => ClientNode.callsOf w n c
    | none => []
  | .destroy n => ClientNode.unlinkEffects w n (w.registry.getObjectIds (w.nodes n).nodeId)

theorem effects_next (a : Action) :
    (next lib w a).effects = w.effects ++ callsOfAction lib w a := by
  cases a with
  | create =>
    unfold next ClientNode.create
    exact (List.append_nil _).symm
  | linkRemote n o => rw [next_linkRemote]; rfl
  | unlinkRemote n o => rw [next_unlinkRemote]; rfl
  | invokeRemote n methodId args func =>
    unfold next
    dsimp only
    rw [ClientNode.invokeRemote_run ClientEnv.returning_returns]
    rfl
  | setRemoteProperty n propertyId value =>
    unfold next ClientNode.setRemoteProperty
    dsimp only
    rw [ClientNode.emitWrite_run ClientEnv.returning_returns]
    rfl
  | receive n msg env =>
    unfold next callsOfAction
    dsimp only
    rw [ClientNode.handleMessage_state]
    cases ClientNode.handled env lib msg with
    | none => exact (List.append_nil _).symm
    | some c => rfl
  | destroy n => rw [next_destroy]; rfl
  | _ => exact (List.append_nil _).symm

theorem mem_written {msg : Json} {e : ClientEffect} (he : e ∈ ClientNode.written w n msg) :
    e = .write n msg := by
  unfold ClientNode.written at he
  split at he
  · exact List.mem_singleton.mp he
  · cases he

/-- Only the node an operation is called on writes. -/
theorem write_mem_callsOfAction {a : Action} {msg : Json} (hen : Enabled w a)
    (he : .write m msg ∈ callsOfAction lib w a) : w.nodeAlive m = true := by
  have hrelease : ∀ {k}, .write m msg ∉ ClientNode.released w k := fun {k} h => by
    unfold ClientNode.released at h
    split at h
    · cases List.mem_singleton.mp h
    · cases h
  have hwrite : ∀ {k text}, .write m msg ∈ ClientNode.written w k text → m = k := fun h => by
    cases mem_written h
    rfl
  cases a with
  | linkRemote n k => exact hwrite he ▸ hen
  | unlinkRemote n k =>
    rcases List.mem_append.mp he with h | h
    · exact absurd h hrelease
    · exact hwrite h ▸ hen
  | invokeRemote n methodId args func => exact hwrite he ▸ hen
  | setRemoteProperty n p v => exact hwrite he ▸ hen
  | receive n text env =>
    unfold callsOfAction at he
    dsimp only at he
    split at he
    · exact absurd he ClientNode.write_not_mem_callsOf
    · cases he
  | destroy n =>
    obtain ⟨k, -, h⟩ := List.mem_flatMap.mp he
    rcases List.mem_append.mp h with h | h
    · exact absurd h hrelease
    · exact hwrite h ▸ hen
  | _ => cases he

/-- Only `create` makes nodes, and no node loses its write function. -/
theorem nodes_next (lib : JsonLibrary) {a : Action} (ha : a ≠ .create) :
    (next lib w a).nextNode = w.nextNode ∧
    (∀ m, (next lib w a).nodeAlive m = true → w.nodeAlive m = true) ∧
    ∀ m, (w.nodes m).writeFunc = true → ((next lib w a).nodes m).writeFunc = true := by
  have hupdate : ∀ {n f},
      (∀ node : ClientNodeState, node.writeFunc = true → (f node).writeFunc = true) →
      ∀ m, (w.nodes m).writeFunc = true → ((w.updateNode n f).nodes m).writeFunc = true :=
    fun {n f} hf m hm => by
      show (if m = n then f (w.nodes m) else w.nodes m).writeFunc = true
      split
      · exact hf _ hm
      · exact hm
  cases a with
  | create => exact absurd rfl ha
  | onWrite n =>
    refine ⟨rfl, fun _ h => h, ?_⟩
    exact hupdate (n := n) (f := fun node => { node with writeFunc := true }) fun _ _ => rfl
  | linkRemote n k =>
    rw [next_linkRemote]
    exact ⟨rfl, fun _ h => h, fun _ h => h⟩
  | unlinkRemote n k =>
    rw [next_unlinkRemote]
    exact ⟨rfl, fun _ h => h, fun _ h => h⟩
  | invokeRemote n methodId args func =>
    unfold next
    dsimp only
    rw [ClientNode.invokeRemote_run returning_returns]
    refine ⟨rfl, fun _ h => h, ?_⟩
    unfold ClientNode.called
    exact hupdate (n := n) (f := fun node => { node with
      nextRequestId := node.nextRequestId + 1
      invokesPending := node.invokesPending.insert (node.nextRequestId + 1) func }) fun _ h => h
  | setRemoteProperty n p v =>
    unfold next ClientNode.setRemoteProperty
    dsimp only
    rw [ClientNode.emitWrite_run returning_returns]
    exact ⟨rfl, fun _ h => h, fun _ h => h⟩
  | receive n msg env =>
    have hs : ClientNode.SameLinks w (next lib w (.receive n msg env)) := sameLinks_next trivial
    refine ⟨hs.nextNode, ?_, ?_⟩
    · intro m h
      rwa [hs.nodeAlive] at h
    · intro m h
      unfold next
      dsimp only
      rw [ClientNode.handleMessage_state]
      split
      · unfold ClientNode.received
        dsimp only
        split
        · rename_i requestId _
          exact hupdate (n := n) (f := fun node => { node with
            invokesPending := node.invokesPending.erase requestId }) (fun _ h => h) m h
        · exact h
      · exact h
  | destroy n =>
    rw [next_destroy]
    refine ⟨rfl, ?_, fun _ h => h⟩
    intro m h
    dsimp only at h
    split at h
    · cases h
    · exact h
  | addSink sink | removeSink k | sinkExpires x => exact ⟨rfl, fun _ h => h, fun _ h => h⟩

/-- Linking puts the id of the node in the slot of the object, whatever was there. -/
theorem slot_linkRemote {k : ObjectId} : (next lib w (.linkRemote n k)).registry.slot o
    = if o = k then (w.nodes n).nodeId else w.registry.slot o := by
  rw [next_linkRemote]
  dsimp only
  rw [ClientRegistry.slot_setNode, ClientRegistry.slot_unsetNode, ClientRegistry.slot_unsetNode]
  by_cases ho : o = k
  · simp [ho]
  · simp [ho]

/-! ## The invariant is kept -/

/-- What leaves the nodes and their storage alone. -/
theorem NodesRegistered.of_same {w' : Client} (hi : NodesRegistered maxCount w)
    (hst : w'.registry.clientNodesById = w.registry.clientNodesById)
    (halive : w'.nodeAlive = w.nodeAlive) (hnext : w'.nextNode = w.nextNode)
    (hid : ∀ m, (w'.nodes m).nodeId = (w.nodes m).nodeId) : NodesRegistered maxCount w' := by
  unfold NodesRegistered
  rw [hst, halive, hnext, funext hid]
  exact hi

theorem NodesRegistered.of_sameLinks {w' : Client} (hi : NodesRegistered maxCount w)
    (hs : ClientNode.SameLinks w w') : NodesRegistered maxCount w' :=
  hi.of_same (congrArg _ hs.registry) hs.nodeAlive hs.nextNode hs.nodeId

/-- The client with a new node, stored under `id`. -/
def created (w : Client) (id : Nat) (storage : UniqueIdObjectStorage NodeRef) : Client :=
  { w with
    nextNode := w.nextNode + 1
    nodeAlive := fun m => if m = w.nextNode then true else w.nodeAlive m
    registry := { w.registry with clientNodesById := storage }
    nodes := fun m => if m = w.nextNode then
      { nodeId := id, writeFunc := false, nextRequestId := 0, invokesPending := ∅ } else w.nodes m }

theorem nodeId_created (id : Nat) (storage : UniqueIdObjectStorage NodeRef) (m : NodeRef) :
    ((created w id storage).nodes m).nodeId
      = if m = w.nextNode then id else (w.nodes m).nodeId := by
  unfold created
  dsimp only
  split <;> rfl

/-- **A new node**, and nothing else changes. -/
theorem next_create {id : Nat} {storage : UniqueIdObjectStorage NodeRef}
    (hadd : w.registry.clientNodesById.add (fun m => if m = w.nextNode then true else w.nodeAlive m)
      (some w.nextNode) = (id, storage)) : next lib w .create = created w id storage := by
  unfold next ClientNode.create
  dsimp only
  rw [ClientRegistry.registerNode_eq, hadd]
  rfl

/-- It is stored under a free id, or gets none. -/
theorem create_cases (lib : JsonLibrary) (hi : NodesRegistered maxCount w) :
    ∃ id storage, next lib w .create = created w id storage ∧
      NodesRegistered maxCount (created w id storage) ∧
      (id = invalidId ∨ w.registry.clientNodesById.get id = none) ∧
      ∀ k n, w.registry.clientNodesById.get k = some n → storage.get k = some n := by
  obtain ⟨id, storage, hadd, hreg, hfree, hkept⟩ := hi.add_cases
  refine ⟨id, storage, next_create hadd, ?_, hfree, hkept⟩
  unfold NodesRegistered
  rw [funext (nodeId_created id storage)]
  exact hreg

/-- **With room** it gets an id. -/
theorem create_valid (hi : Entered w) (hroom : Enabled w .create) {id : Nat}
    {storage : UniqueIdObjectStorage NodeRef}
    (hcreated : next lib w .create = created w id storage) : id ≠ invalidId := by
  have hroom' : w.registry.clientNodesById.objects.size < w.registry.clientNodesById.maxCount := by
    rw [hi.nodes.sized.maxCount_eq]
    exact hroom
  obtain ⟨id', storage', hadd, hid, -⟩ :=
    UniqueIdObjectStorage.add_created hi.wf hroom' (fun k n hk => (hi.nodes.stored k n hk).1)
      (hi.nodes.fresh w.nextNode (Nat.le_refl _))
  rw [next_create hadd] at hcreated
  have hnode := congrArg (fun w : Client => (w.nodes w.nextNode.pred).nodeId) hcreated
  simp only [created, Nat.pred_succ, if_true] at hnode
  exact hnode ▸ hid

theorem clientNodesById_unregistered_invalidId (hid : (w.nodes n).nodeId = invalidId) :
    (ClientNode.unregistered w.registry (w.nodes n).nodeId).clientNodesById
      = w.registry.clientNodesById := by
  unfold ClientNode.unregistered
  rw [hid, ClientRegistry.unregisterNode_invalidId, ClientNode.clientNodesById_foldl_unsetNode]

/-- The node storage after a destructor. -/
theorem get_unregistered (hi : NodesRegistered maxCount w) (hn : w.nodeAlive n = true) {k : Nat} :
    (ClientNode.unregistered w.registry (w.nodes n).nodeId).clientNodesById.get k = some m ↔
      m ≠ n ∧ w.registry.clientNodesById.get k = some m :=
  hi.get_remove hn clientNodesById_unregistered_invalidId ClientNode.clientNodesById_unregistered

theorem nodesRegistered_next (hi : NodesRegistered maxCount w) (a : Action) (hen : Possible w a) :
    NodesRegistered maxCount (next lib w a) := by
  cases a with
  | create =>
    obtain ⟨id, storage, heq, hreg, -⟩ := create_cases lib hi
    exact heq ▸ hreg
  | destroy n =>
    rw [next_destroy]
    exact hi.remove hen clientNodesById_unregistered_invalidId
      ClientNode.clientNodesById_unregistered
  | linkRemote n o =>
    rw [next_linkRemote]
    exact hi.of_same (by simp) rfl rfl fun _ => rfl
  | unlinkRemote n o =>
    rw [next_unlinkRemote]
    exact hi.of_same (by simp) rfl rfl fun _ => rfl
  | addSink sink =>
    exact hi.of_same (ClientRegistry.clientNodesById_addSink sink) rfl rfl fun _ => rfl
  | removeSink o | sinkExpires s => exact hi.of_same rfl rfl rfl fun _ => rfl
  | _ => exact hi.of_sameLinks (sameLinks_next trivial)

/-- An operation that leaves the nodes alone keeps the invariant if it puts only ids of stored
nodes in the slots and only sinks of that name in the entries. -/
theorem Entered.of_slots {w' : Client} (hi : Entered w) (hnodes : NodesRegistered 0xFFFFFFFF w')
    (hst : w'.registry.clientNodesById = w.registry.clientNodesById)
    (hslot : ∀ o, w'.registry.slot o = invalidId ∨ w'.registry.slot o = w.registry.slot o ∨
      ∃ n, w.registry.clientNodesById.get (w'.registry.slot o) = some n)
    (hsink : ∀ o s, w'.registry.getSink o = some s →
      w.registry.getSink o = some s ∨ s.olinkObjectName = o) : Entered w' := by
  refine ⟨hnodes, ?_, ?_⟩
  · intro o
    rcases hslot o with h | h | h
    · exact Or.inl h
    · rw [hst, h]
      exact hi.slot o
    · exact Or.inr (hst ▸ h)
  · intro o s hs
    rcases hsink o s hs with h | h
    · exact hi.sinkName o s h
    · exact h

theorem Entered.of_sameLinks {w' : Client} (hi : Entered w) (hs : ClientNode.SameLinks w w') :
    Entered w' := by
  have hr := hs.registry
  refine hi.of_slots (hi.nodes.of_sameLinks hs) (by rw [hr]) (fun o => Or.inr (Or.inl ?_)) ?_
  · rw [hr]
  · intro o s h
    rw [hr] at h
    exact Or.inl h

theorem Inv.of_sameLinks {w' : Client} (hi : Inv w) (hs : ClientNode.SameLinks w w') : Inv w' := by
  refine ⟨hi.toEntered.of_sameLinks hs, fun n hn => ?_⟩
  rw [hs.nodeAlive] at hn
  rw [hs.nodeId]
  exact hi.valid n hn

theorem entered_create (hi : Entered w) : Entered (next lib w .create) := by
  obtain ⟨id, storage, heq, hreg, -, hkept⟩ := create_cases lib hi.nodes
  rw [heq]
  refine ⟨hreg, fun o => ?_, hi.sinkName⟩
  rcases hi.slot o with h | ⟨n, hn⟩
  · exact Or.inl h
  · exact Or.inr ⟨n, hkept _ n hn⟩

theorem entered_destroy (hi : Entered w) (hn : w.nodeAlive n = true) :
    Entered (next lib w (.destroy n)) := by
  have hnodes : NodesRegistered 0xFFFFFFFF (next lib w (.destroy n)) :=
    nodesRegistered_next hi.nodes (.destroy n) hn
  refine ⟨hnodes, ?_, ?_⟩
  · intro o
    rw [next_destroy]
    dsimp only
    rw [ClientNode.slot_unregistered]
    split
    · exact Or.inl rfl
    · rename_i hne
      rcases hi.slot o with h | ⟨m, hm⟩
      · exact Or.inl h
      · refine Or.inr ⟨m, (get_unregistered hi.nodes hn).mpr ⟨fun he => hne ?_, hm⟩⟩
        rw [← (hi.nodes.stored _ m hm).2, he]
  · intro o s hs
    rw [next_destroy] at hs
    dsimp only at hs
    rw [ClientNode.getSink_unregistered] at hs
    exact hi.sinkName o s hs

theorem entered_next (hi : Entered w) (a : Action) (hen : Possible w a) :
    Entered (next lib w a) := by
  have hnodes : NodesRegistered 0xFFFFFFFF (next lib w a) := nodesRegistered_next hi.nodes a hen
  cases a with
  | create => exact entered_create hi
  | destroy n => exact entered_destroy hi hen
  | linkRemote n k =>
    refine hi.of_slots hnodes ?_ ?_ ?_
    · rw [next_linkRemote]
      simp
    · intro o
      rw [slot_linkRemote]
      split
      · exact (hi.nodes.registered n hen).imp_right fun h => Or.inr ⟨n, h⟩
      · exact Or.inr (Or.inl rfl)
    · intro o s hs
      rw [next_linkRemote] at hs
      dsimp only at hs
      rw [ClientRegistry.getSink_setNode, ClientRegistry.getSink_unsetNode] at hs
      exact Or.inl hs
  | unlinkRemote n k =>
    refine hi.of_slots hnodes ?_ ?_ ?_
    · rw [next_unlinkRemote]
      simp
    · intro o
      rw [next_unlinkRemote]
      dsimp only
      rw [ClientRegistry.slot_unsetNode]
      split
      · exact Or.inl rfl
      · exact Or.inr (Or.inl rfl)
    · intro o s hs
      rw [next_unlinkRemote] at hs
      dsimp only at hs
      rw [ClientRegistry.getSink_unsetNode] at hs
      exact Or.inl hs
  | addSink sink =>
    refine hi.of_slots hnodes (ClientRegistry.clientNodesById_addSink sink) ?_ ?_
    · intro o
      exact Or.inr (Or.inl (ClientRegistry.slot_addSink sink))
    · intro o s hs
      exact ClientRegistry.getSink_addSink_cases hs
  | removeSink k =>
    refine hi.of_slots hnodes rfl ?_ ?_
    · intro o
      show (w.registry.removeSink k).slot o = _ ∨ (w.registry.removeSink k).slot o = _ ∨ _
      rw [ClientRegistry.slot_removeSink]
      split
      · exact Or.inl rfl
      · exact Or.inr (Or.inl rfl)
    · intro o s hs
      exact Or.inl (ClientRegistry.getSink_of_removeSink hs)
  | sinkExpires s =>
    exact hi.of_slots hnodes rfl (fun _ => Or.inr (Or.inl rfl)) fun _ _ hs => Or.inl hs
  | _ => exact hi.of_sameLinks (sameLinks_next trivial)

theorem possible_of_enabled {a : Action} (hen : Enabled w a) : Possible w a := by
  cases a with
  | create => trivial
  | _ => exact hen

/-- Only `create` gives ids. -/
theorem nodeId_next {a : Action} (ha : a ≠ .create) :
    ((next lib w a).nodes m).nodeId = (w.nodes m).nodeId := by
  cases a with
  | create => exact absurd rfl ha
  | linkRemote n k => rw [next_linkRemote]
  | unlinkRemote n k => rw [next_unlinkRemote]
  | destroy n => rw [next_destroy]
  | addSink sink | removeSink k | sinkExpires s => rfl
  | _ => exact (sameLinks_next (by trivial)).nodeId m

theorem inv_next (hi : Inv w) (a : Action) (hen : Enabled w a) : Inv (next lib w a) := by
  refine ⟨entered_next hi.toEntered a (possible_of_enabled hen), fun n hn => ?_⟩
  by_cases ha : a = .create
  · subst ha
    obtain ⟨id, storage, heq, -⟩ := create_cases lib hi.nodes
    have hid : id ≠ invalidId := create_valid hi.toEntered hen heq
    rw [heq] at hn ⊢
    rw [nodeId_created]
    have hn : (if n = w.nextNode then true else w.nodeAlive n) = true := hn
    split
    · exact hid
    · rename_i hne
      rw [if_neg hne] at hn
      exact hi.valid n hn
  · rw [nodeId_next ha]
    exact hi.valid n ((nodes_next lib ha).2.1 n hn)

theorem inv_run (h : List (Client × Action)) (w : Client) (hr : Run (machine lib) h w) : Inv w :=
  hr.invariant (fun _ hs => inv_init hs) fun _ a hi hen => inv_next hi a hen

/-! ## The last link wins -/

/-- The node links the object. -/
def Linked (o : ObjectId) (n : NodeRef) (x : Client × Action) : Prop := x.2 = .linkRemote n o

/-- Any node links or unlinks the object, its sink is removed, or the node is destroyed. -/
def Unlinked (o : ObjectId) (n : NodeRef) (x : Client × Action) : Prop :=
  match x.2 with
  | .linkRemote _ k | .unlinkRemote _ k | .removeSink k => k = o
  | .destroy m => m = n
  | _ => False

theorem holds_congr {w' : Client} (halive : w'.nodeAlive = w.nodeAlive)
    (hid : ∀ m, (w'.nodes m).nodeId = (w.nodes m).nodeId)
    (hslot : w'.registry.slot o = w.registry.slot o) : Holds w' o n ↔ Holds w o n := by
  unfold Holds
  rw [halive, hid, hslot]

theorem holds_quiet {a : Action} (ha : a.Quiet) : Holds (next lib w a) o n ↔ Holds w o n := by
  have hs : ClientNode.SameLinks w (next lib w a) := sameLinks_next ha
  exact holds_congr hs.nodeAlive hs.nodeId (by rw [hs.registry])

/-- A new node is in no slot. -/
theorem holds_create (hi : Entered w) : Holds (next lib w .create) o n ↔ Holds w o n := by
  obtain ⟨id, storage, heq, -, hfree, -⟩ := create_cases lib hi.nodes
  rw [heq]
  unfold Holds
  rw [nodeId_created]
  show (if n = w.nextNode then true else w.nodeAlive n) = true ∧ _ ∧ w.registry.slot o = _ ↔ _
  by_cases hn : n = w.nextNode
  · rw [if_pos hn, if_pos hn]
    refine iff_of_false ?_ fun h => ?_
    · rintro ⟨-, hvalid, hslot⟩
      rcases hi.slot o with h | ⟨m, hm⟩
      · exact hvalid (hslot.symm.trans h)
      · rw [hslot, hfree.resolve_left hvalid] at hm
        cases hm
    · have halive := h.1
      rw [hi.nodes.fresh n (hn ▸ Nat.le_refl _)] at halive
      cases halive
  · rw [if_neg hn, if_neg hn]

/-- Linking puts the node in the slot, if it has an id. -/
theorem holds_linkRemote {k : ObjectId} (hi : Entered w) (hm : w.nodeAlive m = true) :
    Holds (next lib w (.linkRemote m k)) o n ↔
      if o = k then n = m ∧ (w.nodes m).nodeId ≠ invalidId else Holds w o n := by
  have halive : (next lib w (.linkRemote m k)).nodeAlive = w.nodeAlive := by rw [next_linkRemote]
  have hid : (next lib w (.linkRemote m k)).nodes = w.nodes := by rw [next_linkRemote]
  have hentered : Entered (next lib w (.linkRemote m k)) := entered_next hi (.linkRemote m k) hm
  by_cases ho : o = k
  · have hslot : (next lib w (.linkRemote m k)).registry.slot o = (w.nodes m).nodeId := by
      rw [slot_linkRemote, if_pos ho]
    have hself : (w.nodes m).nodeId ≠ invalidId → Holds (next lib w (.linkRemote m k)) o m :=
      fun hvalid => ⟨halive ▸ hm, hid ▸ hvalid, hid ▸ hslot⟩
    rw [if_pos ho]
    constructor
    · intro hn
      have hvalid : (w.nodes m).nodeId ≠ invalidId := by
        rw [← hslot, hn.2.2]
        exact hn.2.1
      exact ⟨hn.eq hentered.nodes (hself hvalid), hvalid⟩
    · rintro ⟨rfl, hvalid⟩
      exact hself hvalid
  · rw [if_neg ho]
    refine holds_congr halive (fun _ => congrArg _ (congrFun hid _)) ?_
    rw [slot_linkRemote, if_neg ho]

/-- An operation that frees the slot of one object. -/
theorem holds_of_slot_freed {k : ObjectId} {w' : Client} (halive : w'.nodeAlive = w.nodeAlive)
    (hid : ∀ m, (w'.nodes m).nodeId = (w.nodes m).nodeId)
    (hslot : w'.registry.slot o = if o = k then invalidId else w.registry.slot o) :
    Holds w' o n ↔ Holds w o n ∧ o ≠ k := by
  unfold Holds
  rw [halive, hid, hslot]
  by_cases ho : o = k
  · rw [if_pos ho]
    exact iff_of_false (fun h => h.2.1 h.2.2.symm) fun h => h.2 ho
  · rw [if_neg ho]
    exact (and_iff_left ho).symm

theorem holds_unlinkRemote {k : ObjectId} :
    Holds (next lib w (.unlinkRemote m k)) o n ↔ Holds w o n ∧ o ≠ k := by
  rw [next_unlinkRemote]
  exact holds_of_slot_freed rfl (fun _ => rfl) ClientRegistry.slot_unsetNode

/-- The destructor frees the slots that hold the node. -/
theorem holds_destroy (hi : Entered w) (hm : w.nodeAlive m = true) :
    Holds (next lib w (.destroy m)) o n ↔ Holds w o n ∧ n ≠ m := by
  unfold Holds
  rw [next_destroy]
  dsimp only
  rw [ClientNode.slot_unregistered]
  by_cases hn : n = m
  · simp [hn]
  · rw [if_neg hn, and_iff_left hn]
    refine and_congr_right fun hlive => and_congr_right fun hvalid => ?_
    by_cases hs : w.registry.slot o = (w.nodes m).nodeId
    · rw [if_pos hs]
      refine iff_of_false (fun h => hvalid h.symm) fun h => hn ?_
      have hne : (w.nodes m).nodeId ≠ invalidId := fun he => hvalid (h.symm.trans (hs.trans he))
      exact Holds.eq hi.nodes ⟨hlive, hvalid, h⟩ ⟨hm, hne, hs⟩
    · rw [if_neg hs]

/-- **One step** makes the slot of the object hold the node, or leaves it as it was. -/
theorem Entered.holds_next (hi : Entered w) (a : Action) (hen : Possible w a) :
    Holds (next lib w a) o n ↔ (Linked o n (w, a) ∧ (w.nodes n).nodeId ≠ invalidId) ∨
      (Holds w o n ∧ ¬ Unlinked o n (w, a)) := by
  cases a with
  | create =>
    rw [holds_create hi]
    simp [Linked, Unlinked]
  | linkRemote m k =>
    rw [holds_linkRemote hi hen]
    by_cases ho : o = k
    · subst ho
      rw [if_pos rfl]
      simp only [Linked, Unlinked, not_true, and_false, or_false, Action.linkRemote.injEq, and_true]
      constructor
      · rintro ⟨rfl, hvalid⟩
        exact ⟨rfl, hvalid⟩
      · rintro ⟨rfl, hvalid⟩
        exact ⟨rfl, hvalid⟩
    · simp [ho, Linked, Unlinked, Ne.symm ho]
  | unlinkRemote m k =>
    rw [holds_unlinkRemote]
    simp [Linked, Unlinked, eq_comm]
  | destroy m =>
    rw [holds_destroy hi hen]
    simp [Linked, Unlinked, eq_comm]
  | removeSink k =>
    have hiff : Holds (next lib w (.removeSink k)) o n ↔ Holds w o n ∧ o ≠ k :=
      holds_of_slot_freed rfl (fun _ => rfl) ClientRegistry.slot_removeSink
    simp [hiff, Linked, Unlinked, eq_comm]
  | addSink sink =>
    have hiff : Holds (next lib w (.addSink sink)) o n ↔ Holds w o n :=
      holds_congr rfl (fun _ => rfl) (ClientRegistry.slot_addSink sink)
    simp [hiff, Linked, Unlinked]
  | sinkExpires s =>
    have hiff : Holds (next lib w (.sinkExpires s)) o n ↔ Holds w o n :=
      holds_congr rfl (fun _ => rfl) rfl
    simp [hiff, Linked, Unlinked]
  | _ => exact Iff.trans (holds_quiet (by trivial)) (by simp [Linked, Unlinked])

/-- The same where every node has an id. -/
theorem holds_next (hi : Inv w) (a : Action) (hen : Enabled w a) :
    Holds (next lib w a) o n ↔ Linked o n (w, a) ∨ (Holds w o n ∧ ¬ Unlinked o n (w, a)) := by
  rw [hi.toEntered.holds_next a (possible_of_enabled hen)]
  refine or_congr_left (and_iff_left_of_imp fun ha => ?_)
  have ha : a = .linkRemote n o := ha
  subst ha
  exact hi.valid n hen

/-! ## The first live sink stays -/

/-- How the sink registered for an object changes: a live sink is registered while there is none,
and it stays until it is removed or expires. -/
def sinkAfter (o : ObjectId) (cur : Option Sink) (x : Client × Action) : Option Sink :=
  match x.2 with
  | .addSink (some s) =>
    if s.olinkObjectName = o ∧ x.1.sinkAlive s = true ∧ cur = none then some s else cur
  | .removeSink k => if k = o then none else cur
  | .sinkExpires s => if cur = some s then none else cur
  | _ => cur

/-- **The sink registered for an object**, told from what has happened. -/
def registeredSink (o : ObjectId) (h : List (Client × Action)) : Option Sink :=
  h.foldl (sinkAfter o) none

theorem lock_getSink_congr {w' : Client} (halive : w'.sinkAlive = w.sinkAlive)
    (hsink : w'.registry.getSink o = w.registry.getSink o) :
    (w'.registry.getSink o).lock w'.sinkAlive = (w.registry.getSink o).lock w.sinkAlive := by
  rw [halive, hsink]

theorem lock_getSink_quiet {a : Action} (ha : a.Quiet) :
    ((next lib w a).registry.getSink o).lock (next lib w a).sinkAlive
      = (w.registry.getSink o).lock w.sinkAlive := by
  have hs : ClientNode.SameLinks w (next lib w a) := sameLinks_next ha
  exact lock_getSink_congr hs.sinkAlive (by rw [hs.registry])

/-- `addSink` registers a live sink unless a live one is registered. -/
theorem lock_getSink_addSink (sink : WeakPtr Sink) :
    ((next lib w (.addSink sink)).registry.getSink o).lock (next lib w (.addSink sink)).sinkAlive
      = sinkAfter o ((w.registry.getSink o).lock w.sinkAlive) (w, .addSink sink) := by
  show ((w.registry.addSink w.sinkAlive sink).getSink o).lock w.sinkAlive = _
  cases hlock : sink.lock w.sinkAlive with
  | none =>
    rw [ClientRegistry.addSink_expired hlock]
    cases sink with
    | none => rfl
    | some s =>
      have hs : ¬ w.sinkAlive s = true := fun hs => by
        rw [WeakPtr.lock_some, if_pos hs] at hlock
        cases hlock
      simp [sinkAfter, hs]
  | some s =>
    obtain ⟨rfl, hs⟩ := WeakPtr.lock_eq_some.mp hlock
    rw [ClientRegistry.getSink_addSink hs]
    by_cases ho : o = s.olinkObjectName
    · cases hcur : (w.registry.getSink o).lock w.sinkAlive with
      | none =>
        have hexp : (w.registry.getSink o).expired w.sinkAlive = true := by
          rw [WeakPtr.expired, hcur]
          rfl
        rw [if_pos ⟨ho, hexp⟩, hlock]
        simp [sinkAfter, ho, hs]
      | some x =>
        have hexp : (w.registry.getSink o).expired w.sinkAlive = false := by
          rw [WeakPtr.expired, hcur]
          rfl
        rw [if_neg (by simp [hexp]), hcur]
        simp [sinkAfter]
    · rw [if_neg (fun h => ho h.1)]
      simp [sinkAfter, Ne.symm ho]

/-- **One step** changes the sink registered for an object as told. -/
theorem lock_getSink_next (a : Action) :
    ((next lib w a).registry.getSink o).lock (next lib w a).sinkAlive
      = sinkAfter o ((w.registry.getSink o).lock w.sinkAlive) (w, a) := by
  cases a with
  | create =>
    refine lock_getSink_congr rfl ?_
    unfold next ClientNode.create
    dsimp only
    rw [ClientRegistry.getSink_registerNode]
  | linkRemote m k =>
    rw [next_linkRemote]
    refine lock_getSink_congr rfl ?_
    dsimp only
    rw [ClientRegistry.getSink_setNode, ClientRegistry.getSink_unsetNode]
  | unlinkRemote m k =>
    rw [next_unlinkRemote]
    exact lock_getSink_congr rfl ClientRegistry.getSink_unsetNode
  | destroy m =>
    rw [next_destroy]
    exact lock_getSink_congr rfl ClientNode.getSink_unregistered
  | addSink sink => exact lock_getSink_addSink sink
  | removeSink k =>
    show ((w.registry.removeSink k).getSink o).lock w.sinkAlive = _
    rw [ClientRegistry.getSink_removeSink]
    by_cases ho : o = k
    · simp [sinkAfter, ho]
    · simp [sinkAfter, ho, Ne.symm ho]
  | sinkExpires s =>
    show (w.registry.getSink o).lock (fun x => if x = s then false else w.sinkAlive x) = _
    cases hs : w.registry.getSink o with
    | none => rfl
    | some x =>
      simp only [sinkAfter, WeakPtr.lock_some]
      by_cases hx : x = s
      · simp [hx]
      · by_cases hl : w.sinkAlive x = true <;> simp [hx, hl]
  | _ => exact (lock_getSink_quiet (by trivial)).trans rfl

/-! ## Both maps -/

/-- The object an operation is about. -/
def Concerns (o : ObjectId) : Action → Prop
  | .linkRemote _ k | .unlinkRemote _ k | .removeSink k => k = o
  | .addSink (some s) | .sinkExpires s => s.olinkObjectName = o
  | _ => False

/-- An operation about another object changes no sink of this one. -/
theorem sinkAfter_of_not_concerns {a : Action} (ha : ¬ Concerns o a) (hi : Inv w) :
    sinkAfter o ((w.registry.getSink o).lock w.sinkAlive) (w, a)
      = (w.registry.getSink o).lock w.sinkAlive := by
  cases a with
  | addSink sink =>
    cases sink with
    | none => rfl
    | some s =>
      have hne : ¬ s.olinkObjectName = o := ha
      simp [sinkAfter, hne]
  | removeSink k =>
    have hne : ¬ k = o := ha
    simp [sinkAfter, hne]
  | sinkExpires s =>
    have hne : ¬ s.olinkObjectName = o := ha
    refine if_neg fun he => hne ?_
    exact hi.sinkName o s (WeakPtr.lock_eq_some.mp he).1
  | _ => rfl

/-- An operation about another object, other than the destruction of a node, changes no node of
this one. -/
theorem lock_getNode_of_not_concerns (hi : Inv w) {a : Action} (hen : Enabled w a)
    (ha : ¬ Concerns o a) (hd : ∀ n, a ≠ .destroy n) :
    ((next lib w a).registry.getNode o).lock (next lib w a).nodeAlive
      = (w.registry.getNode o).lock w.nodeAlive := by
  refine Option.ext fun n => ?_
  have hno : ¬ Linked o n (w, a) ∧ ¬ Unlinked o n (w, a) := by
    cases a with
    | destroy m => exact absurd rfl (hd m)
    | linkRemote m k =>
      refine ⟨fun h => ha ?_, ha⟩
      cases h
      rfl
    | unlinkRemote m k | removeSink k => exact ⟨Action.noConfusion, ha⟩
    | _ => exact ⟨Action.noConfusion, fun h => h⟩
  rw [getNode_iff (inv_next hi a hen).nodes, getNode_iff hi.nodes, holds_next hi a hen]
  simp [hno]

/-- Destroying a node clears exactly the objects it held. -/
theorem lock_getNode_destroy (hi : Inv w) (hm : w.nodeAlive m = true) :
    ((next lib w (.destroy m)).registry.getNode o).lock (next lib w (.destroy m)).nodeAlive
      = if (w.registry.getNode o).lock w.nodeAlive = some m then none
        else (w.registry.getNode o).lock w.nodeAlive := by
  have hen : Enabled w (.destroy m) := hm
  refine Option.ext ?_
  intro n
  rw [getNode_iff (inv_next hi _ hen).nodes, holds_next hi _ hen, ← getNode_iff hi.nodes]
  by_cases hcur : (w.registry.getNode o).lock w.nodeAlive = some m
  · rw [if_pos hcur, hcur]
    simp [Linked, Unlinked]
  · rw [if_neg hcur]
    simp only [Linked, Unlinked, reduceCtorEq, false_or]
    refine ⟨fun h => h.1, fun h => ⟨h, fun he => hcur ?_⟩⟩
    rw [h, he]

/-- A client side with a new registry, and no node yet. -/
def empty : Client where
  registry := .new
  nodes _ := { nodeId := 0, writeFunc := false, nextRequestId := 0, invokesPending := ∅ }
  nodeAlive _ := false
  sinkAlive _ := true
  nextNode := 0
  effects := []

theorem init_empty : Init empty := ⟨rfl, fun _ => rfl, rfl⟩

end Client

end ObjectLink
