import ObjectLink.Core.UniqueIdObjectStorage

/-!
# The registry of sinks

Model of `ClientRegistry` (`clientregistry.h`, `clientregistry.cpp`), without its log messages. An
entry holds the sink registered for an object id and the id of the one node linked with it;
`invalidId` stands for no node. Which nodes and sinks are alive is an argument of the operations
that lock weak pointers to them.

* `setNode` (`clientregistry.cpp:13-39`) looks the node up, but goes on when it is gone, which
  only costs a warning.
* `addSink` (`:52-80`) and `setNode` both create the entry when there is none.
* `getObjectIds` (`:104-115`) and `unregisterNode` (`:137-150`) find the entries of a node by its
  id.

Results: the node id of an entry (`slot`) and its sink (`getSink`) after each operation
(`slot_setNode` to `getSink_unregisterNode`); `getNode` and `getObjectIds` in terms of `slot`.
-/

namespace ObjectLink

open Foundation (Map keysWhere mem_keysWhere nodup_keysWhere find_insert find_erase insert_insert)

/-- An `IObjectSink`: its identity, and the name it gives itself. -/
structure Sink where
  ref : Nat
  olinkObjectName : ObjectId
  deriving DecidableEq, Repr

/-- `SinkToClientEntry`. -/
structure SinkToClientEntry where
  sink : WeakPtr Sink
  nodeId : Nat

/-- What is registered for each object, and the nodes by their ids. -/
structure ClientRegistry where
  entries : Map ObjectId SinkToClientEntry
  clientNodesById : UniqueIdObjectStorage NodeRef

namespace ClientRegistry

/-- A new registry, with a node storage of the default capacity. -/
def new : ClientRegistry where
  entries := ∅
  clientNodesById := .new 0xFFFFFFFF

section Operations

variable (nodeAlive : NodeRef → Bool) (sinkAlive : Sink → Bool) (r : ClientRegistry)

/-- `setNode`. The lookup of the node has no effect but a log message. -/
def setNode (id : Nat) (objectId : ObjectId) : ClientRegistry :=
  match r.entries[objectId]? with
  | none => { r with entries := r.entries.insert objectId { sink := none, nodeId := id } }
  | some entry =>
    if entry.nodeId = invalidId then
      { r with entries := r.entries.insert objectId { entry with nodeId := id } }
    -- this node already, or another one, which is not changed
    else r

/-- `unsetNode`. -/
def unsetNode (objectId : ObjectId) : ClientRegistry :=
  match r.entries[objectId]? with
  | some entry =>
    { r with entries := r.entries.insert objectId { entry with nodeId := invalidId } }
  | none => r

/-- `addSink`. -/
def addSink (sink : WeakPtr Sink) : ClientRegistry :=
  match sink.lock sinkAlive with
  | none => r
  | some lockedSink =>
    match r.entries[lockedSink.olinkObjectName]? with
    | none =>
      let newEntry := { sink := some lockedSink, nodeId := invalidId }
      { r with entries := r.entries.insert lockedSink.olinkObjectName newEntry }
    | some entry =>
      if entry.sink.expired sinkAlive then
        let entry := { entry with sink := some lockedSink }
        { r with entries := r.entries.insert lockedSink.olinkObjectName entry }
      -- this sink already, or another one, which is not changed
      else r

/-- `removeSink`. -/
def removeSink (objectId : ObjectId) : ClientRegistry :=
  { r with entries := r.entries.erase objectId }

/-- `getSink`. -/
def getSink (objectId : ObjectId) : WeakPtr Sink :=
  match r.entries[objectId]? with
  | some entry => entry.sink
  | none => none

/-- `getObjectIds`. -/
def getObjectIds (nodeId : Nat) : List ObjectId :=
  keysWhere r.entries fun entry => decide (entry.nodeId = nodeId)

/-- `getNode`. -/
def getNode (objectId : ObjectId) : WeakPtr NodeRef :=
  match r.entries[objectId]? with
  | some entry => r.clientNodesById.get entry.nodeId
  | none => none

/-- `registerNode`. -/
def registerNode (node : WeakPtr NodeRef) : Nat × ClientRegistry :=
  match node.lock nodeAlive with
  | none => (invalidId, r)
  | some lockedNode =>
    let (id, storage) := r.clientNodesById.add nodeAlive (some lockedNode)
    (id, { r with clientNodesById := storage })

/-- `unregisterNode`. -/
def unregisterNode (id : Nat) : ClientRegistry :=
  if id = invalidId then r
  else
    { entries := r.entries.map fun _ entry =>
        if entry.nodeId = id then { entry with nodeId := invalidId } else entry
      clientNodesById := r.clientNodesById.remove id }

end Operations

/-! ## The node id of an entry -/

variable {nodeAlive : NodeRef → Bool} {sinkAlive : Sink → Bool} {r : ClientRegistry}
  {o k : ObjectId} {id : Nat} {n : NodeRef} {s : Sink}

/-- The node id in the entry of an object, the invalid one when there is no entry. -/
def slot (r : ClientRegistry) (o : ObjectId) : Nat :=
  match r.entries[o]? with
  | some entry => entry.nodeId
  | none => invalidId

theorem slot_of_find {e : SinkToClientEntry} (h : r.entries[o]? = some e) :
    r.slot o = e.nodeId := by
  unfold slot
  rw [h]

theorem slot_of_not_mem (h : r.entries[o]? = none) : r.slot o = invalidId := by
  unfold slot
  rw [h]

theorem getSink_of_find {e : SinkToClientEntry} (h : r.entries[o]? = some e) :
    r.getSink o = e.sink := by
  unfold getSink
  rw [h]

theorem getSink_of_not_mem (h : r.entries[o]? = none) : r.getSink o = none := by
  unfold getSink
  rw [h]

theorem getNode_eq_get (h : r.clientNodesById.get invalidId = none) :
    r.getNode o = r.clientNodesById.get (r.slot o) := by
  unfold getNode slot
  split
  · rfl
  · exact h.symm

theorem getNode_eq (hw : r.clientNodesById.Wf) :
    r.getNode o = r.clientNodesById.get (r.slot o) := getNode_eq_get hw.get_invalidId

theorem mem_getObjectIds : o ∈ r.getObjectIds id ↔ o ∈ r.entries ∧ r.slot o = id := by
  unfold getObjectIds
  rw [mem_keysWhere, Foundation.mem_iff_find]
  cases h : r.entries[o]? with
  | none => simp
  | some e => simp [slot_of_find h]

/-- For a valid id `slot` says it all. -/
theorem mem_getObjectIds_of_valid (hid : id ≠ invalidId) :
    o ∈ r.getObjectIds id ↔ r.slot o = id := by
  rw [mem_getObjectIds]
  refine ⟨fun h => h.2, fun h => ⟨?_, h⟩⟩
  cases he : r.entries[o]? with
  | none =>
    rw [slot_of_not_mem he] at h
    exact absurd h.symm hid
  | some e => exact (Foundation.mem_iff_find _ _).mpr ⟨e, he⟩

theorem nodup_getObjectIds : (r.getObjectIds id).Nodup := nodup_keysWhere _

theorem slot_insert (e : SinkToClientEntry) :
    slot { r with entries := r.entries.insert k e } o = if o = k then e.nodeId else r.slot o := by
  unfold slot
  rw [find_insert]
  by_cases ho : o = k
  · rw [if_pos ho, if_pos ho]
  · rw [if_neg ho, if_neg ho]

theorem getSink_insert (e : SinkToClientEntry) :
    getSink { r with entries := r.entries.insert k e } o
      = if o = k then e.sink else r.getSink o := by
  unfold getSink
  rw [find_insert]
  by_cases ho : o = k
  · rw [if_pos ho, if_pos ho]
  · rw [if_neg ho, if_neg ho]

/-! ## What the operations do to it -/

/-- `setNode` fills a free slot. -/
theorem slot_setNode : (r.setNode id k).slot o
    = if o = k ∧ r.slot k = invalidId then id else r.slot o := by
  unfold setNode
  cases he : r.entries[k]? with
  | none =>
    dsimp only
    rw [slot_insert]
    by_cases ho : o = k
    · rw [if_pos ho, if_pos ⟨ho, slot_of_not_mem he⟩]
    · rw [if_neg ho, if_neg (fun h => ho h.1)]
  | some e =>
    dsimp only
    by_cases hfree : e.nodeId = invalidId
    · rw [if_pos hfree, slot_insert]
      by_cases ho : o = k
      · rw [if_pos ho, if_pos ⟨ho, (slot_of_find he).trans hfree⟩]
      · rw [if_neg ho, if_neg (fun h => ho h.1)]
    · rw [if_neg hfree, if_neg (fun h => hfree ((slot_of_find he).symm.trans h.2))]

theorem slot_unsetNode : (r.unsetNode k).slot o = if o = k then invalidId else r.slot o := by
  unfold unsetNode
  cases he : r.entries[k]? with
  | none =>
    by_cases ho : o = k
    · rw [if_pos ho, ho]
      exact slot_of_not_mem he
    · rw [if_neg ho]
  | some e => exact slot_insert _

/-- A node that was set before is as if it had not been. -/
theorem relink_setNode (id' : Nat) :
    ((r.setNode id k).unsetNode k).setNode id' k = (r.unsetNode k).setNode id' k := by
  cases he : r.entries[k]? with
  | none => simp [setNode, unsetNode, he, insert_insert]
  | some e =>
    by_cases hfree : e.nodeId = invalidId
    · simp [setNode, unsetNode, he, insert_insert, hfree]
    · simp [setNode, he, hfree]

theorem slot_addSink (sink : WeakPtr Sink) : (r.addSink sinkAlive sink).slot o = r.slot o := by
  unfold addSink
  split
  · rfl
  · rename_i s _
    cases he : r.entries[s.olinkObjectName]? with
    | none =>
      dsimp only
      rw [slot_insert]
      by_cases ho : o = s.olinkObjectName
      · rw [if_pos ho, ho, slot_of_not_mem he]
      · rw [if_neg ho]
    | some e =>
      dsimp only
      split
      · rw [slot_insert]
        by_cases ho : o = s.olinkObjectName
        · rw [if_pos ho, ho, slot_of_find he]
        · rw [if_neg ho]
      · rfl

theorem slot_removeSink : (r.removeSink k).slot o = if o = k then invalidId else r.slot o := by
  unfold removeSink slot
  rw [find_erase]
  by_cases ho : o = k
  · rw [if_pos ho, if_pos ho]
  · rw [if_neg ho, if_neg ho]

theorem slot_unregisterNode (hid : id ≠ invalidId) : (r.unregisterNode id).slot o
    = if r.slot o = id then invalidId else r.slot o := by
  unfold unregisterNode
  rw [if_neg hid]
  cases he : r.entries[o]? with
  | none =>
    rw [slot_of_not_mem he, slot_of_not_mem (by rw [Std.ExtTreeMap.getElem?_map, he]; rfl)]
    split <;> rfl
  | some e =>
    rw [slot_of_find he, slot_of_find (by rw [Std.ExtTreeMap.getElem?_map, he]; rfl)]
    by_cases hid' : e.nodeId = id
    · simp only [if_pos hid']
    · simp only [if_neg hid']

/-! ## What the operations do to the sinks -/

theorem getSink_setNode : (r.setNode id k).getSink o = r.getSink o := by
  unfold setNode
  cases he : r.entries[k]? with
  | none =>
    dsimp only
    rw [getSink_insert]
    by_cases ho : o = k
    · rw [if_pos ho, ho, getSink_of_not_mem he]
    · rw [if_neg ho]
  | some e =>
    dsimp only
    split
    · rw [getSink_insert]
      by_cases ho : o = k
      · rw [if_pos ho, ho, getSink_of_find he]
      · rw [if_neg ho]
    · rfl

theorem getSink_unsetNode : (r.unsetNode k).getSink o = r.getSink o := by
  unfold unsetNode
  cases he : r.entries[k]? with
  | none => rfl
  | some e =>
    dsimp only
    rw [getSink_insert]
    by_cases ho : o = k
    · rw [if_pos ho, ho, getSink_of_find he]
    · rw [if_neg ho]

/-- A live sink is registered if no live one is. -/
theorem getSink_addSink (hs : sinkAlive s = true) : (r.addSink sinkAlive (some s)).getSink o
    = if o = s.olinkObjectName ∧ (r.getSink o).expired sinkAlive then some s else r.getSink o := by
  unfold addSink
  rw [WeakPtr.lock_some, if_pos hs]
  dsimp only
  cases he : r.entries[s.olinkObjectName]? with
  | none =>
    dsimp only
    rw [getSink_insert]
    by_cases ho : o = s.olinkObjectName
    · rw [if_pos ho, if_pos ⟨ho, ho ▸ getSink_of_not_mem he ▸ rfl⟩]
    · rw [if_neg ho, if_neg (fun h => ho h.1)]
  | some e =>
    dsimp only
    by_cases hexp : e.sink.expired sinkAlive
    · rw [if_pos hexp, getSink_insert]
      by_cases ho : o = s.olinkObjectName
      · rw [if_pos ho, if_pos ⟨ho, ho ▸ (getSink_of_find he).symm ▸ hexp⟩]
      · rw [if_neg ho, if_neg (fun h => ho h.1)]
    · rw [if_neg hexp, if_neg]
      rintro ⟨rfl, h⟩
      rw [getSink_of_find he] at h
      exact hexp h

theorem addSink_expired {sink : WeakPtr Sink} (h : sink.lock sinkAlive = none) :
    r.addSink sinkAlive sink = r := by
  unfold addSink
  rw [h]

/-- What `addSink` registers has the name of the object. -/
theorem getSink_addSink_cases {sink : WeakPtr Sink}
    (h : (r.addSink sinkAlive sink).getSink o = some s) :
    r.getSink o = some s ∨ s.olinkObjectName = o := by
  cases hlock : sink.lock sinkAlive with
  | none =>
    rw [addSink_expired hlock] at h
    exact Or.inl h
  | some x =>
    obtain ⟨rfl, hx⟩ := WeakPtr.lock_eq_some.mp hlock
    rw [getSink_addSink hx] at h
    split at h
    · rename_i hname
      cases h
      exact Or.inr hname.1.symm
    · exact Or.inl h

theorem getSink_removeSink : (r.removeSink k).getSink o = if o = k then none else r.getSink o := by
  unfold removeSink getSink
  rw [find_erase]
  by_cases ho : o = k
  · rw [if_pos ho, if_pos ho]
  · rw [if_neg ho, if_neg ho]

theorem getSink_of_removeSink (h : (r.removeSink k).getSink o = some s) :
    r.getSink o = some s := by
  rw [getSink_removeSink] at h
  split at h
  · cases h
  · exact h

theorem getSink_unregisterNode : (r.unregisterNode id).getSink o = r.getSink o := by
  unfold unregisterNode
  split
  · rfl
  · unfold getSink
    rw [Std.ExtTreeMap.getElem?_map]
    cases r.entries[o]? with
    | none => rfl
    | some e =>
      simp only [Option.map_some]
      split <;> rfl

/-! ## The node storage -/

@[simp] theorem clientNodesById_setNode :
    (r.setNode id k).clientNodesById = r.clientNodesById := by
  unfold setNode
  split
  · rfl
  · split <;> rfl

@[simp] theorem clientNodesById_unsetNode :
    (r.unsetNode k).clientNodesById = r.clientNodesById := by
  unfold unsetNode
  split <;> rfl

@[simp] theorem clientNodesById_addSink (sink : WeakPtr Sink) :
    (r.addSink sinkAlive sink).clientNodesById = r.clientNodesById := by
  unfold addSink
  split
  · rfl
  · split
    · rfl
    · split <;> rfl

@[simp] theorem clientNodesById_removeSink :
    (r.removeSink k).clientNodesById = r.clientNodesById := rfl

theorem clientNodesById_unregisterNode (hid : id ≠ invalidId) :
    (r.unregisterNode id).clientNodesById = r.clientNodesById.remove id := by
  unfold unregisterNode
  rw [if_neg hid]

theorem unregisterNode_invalidId : r.unregisterNode invalidId = r := if_pos rfl

/-- `registerNode` is `add`, which makes the same check again. -/
theorem registerNode_eq (node : WeakPtr NodeRef) : r.registerNode nodeAlive node =
    ((r.clientNodesById.add nodeAlive node).1,
      { r with clientNodesById := (r.clientNodesById.add nodeAlive node).2 }) := by
  unfold registerNode
  cases h : node.lock nodeAlive with
  | none =>
    unfold UniqueIdObjectStorage.add
    rw [h]
  | some n =>
    rw [(WeakPtr.lock_eq_some.mp h).1]

@[simp] theorem getSink_registerNode (node : WeakPtr NodeRef) :
    (r.registerNode nodeAlive node).2.getSink o = r.getSink o := by
  rw [registerNode_eq]
  rfl

end ClientRegistry

end ObjectLink
