import ObjectLink.Core.UniqueIdObjectStorage

/-!
# The registry of sources

Model of `RemoteRegistry` (`remoteregistry.h`, `remoteregistry.cpp`), without its log messages. An
entry holds the source registered for an object id and the ids of the nodes linked with it. Which
nodes and which sources are alive is an argument of the operations that lock weak pointers to
them.

* `addSource` (`remoteregistry.cpp:12-39`) creates an entry and never changes one.
* `addNodeForSource` (`:99-124`) needs a live node and an entry; `removeNodeFromSource` and
  `unregisterNode` erase the first occurrence of the id (`:126-141`, `:165-181`).
* `registerNode` and `unregisterNode` hand out and take back node ids.

Results: what each operation does to the list of ids of an object (`nodeIds_addSource` to
`nodeIds_unregisterNode`), to its source (`getSource_addSource_of_some` to
`getSource_unregisterNode`) and to the node storage.
-/

namespace ObjectLink

open Foundation (Map keysWhere mem_keysWhere mem_iff_find find_insert find_erase)

/-- An `IObjectSource`: its identity, and the name it gives itself. -/
structure Source where
  ref : Nat
  olinkObjectName : ObjectId
  deriving DecidableEq, Repr

/-- `SourceToNodesEntry`. -/
structure SourceToNodesEntry where
  source : WeakPtr Source
  nodes : List Nat

/-- What is registered for each object, and the nodes by their ids. -/
structure RemoteRegistry where
  entries : Map ObjectId SourceToNodesEntry
  remoteNodesById : UniqueIdObjectStorage NodeRef

namespace RemoteRegistry

/-- A new registry, with a node storage of the default capacity. -/
def new : RemoteRegistry where
  entries := ∅
  remoteNodesById := .new 0xFFFFFFFF

section Operations

variable (nodeAlive : NodeRef → Bool) (sourceAlive : Source → Bool) (r : RemoteRegistry)

/-- `addSource`. -/
def addSource (source : WeakPtr Source) : RemoteRegistry :=
  match source.lock sourceAlive with
  | none => r
  | some lockedSource =>
    match r.entries[lockedSource.olinkObjectName]? with
    | none =>
      { r with entries :=
          r.entries.insert lockedSource.olinkObjectName { source := source, nodes := [] } }
    -- `alreadyAdded`, `anyAdded`, or an entry whose source has expired
    | some _ => r

/-- `removeSource`, which is `removeEntry`. -/
def removeSource (objectId : ObjectId) : RemoteRegistry :=
  { r with entries := r.entries.erase objectId }

/-- `getSource`. -/
def getSource (objectId : ObjectId) : WeakPtr Source :=
  match r.entries[objectId]? with
  | some found => found.source
  | none => none

/-- `getNodes`. -/
def getNodes (objectId : ObjectId) : List (WeakPtr NodeRef) :=
  match r.entries[objectId]? with
  | some found => (found.nodes.map r.remoteNodesById.get).filter fun node => !node.expired nodeAlive
  | none => []

/-- `getObjectIds`. -/
def getObjectIds (nodeId : Nat) : List ObjectId :=
  keysWhere r.entries fun entry => decide (nodeId ∈ entry.nodes)

/-- `addNodeForSource`. -/
def addNodeForSource (nodeId : Nat) (objectId : ObjectId) : RemoteRegistry :=
  match (r.remoteNodesById.get nodeId).lock nodeAlive with
  | none => r
  | some _ =>
    match r.entries[objectId]? with
    | some found =>
      if nodeId ∈ found.nodes then r
      else
        { r with entries :=
            r.entries.insert objectId { found with nodes := found.nodes ++ [nodeId] } }
    | none => r

/-- `removeNodeFromSource`. -/
def removeNodeFromSource (nodeId : Nat) (objectId : ObjectId) : RemoteRegistry :=
  match r.entries[objectId]? with
  | some found =>
    { r with entries :=
        r.entries.insert objectId { found with nodes := found.nodes.erase nodeId } }
  | none => r

/-- `registerNode`. -/
def registerNode (node : WeakPtr NodeRef) : Nat × RemoteRegistry :=
  match node.lock nodeAlive with
  | none => (invalidId, r)
  | some lockedNode =>
    let (id, storage) := r.remoteNodesById.add nodeAlive (some lockedNode)
    (id, { r with remoteNodesById := storage })

/-- `unregisterNode`. -/
def unregisterNode (id : Nat) : RemoteRegistry :=
  if id = invalidId then r
  else
    { entries := r.entries.map fun _ entry => { entry with nodes := entry.nodes.erase id }
      remoteNodesById := r.remoteNodesById.remove id }

end Operations

/-! ## The ids linked with an object -/

variable {nodeAlive : NodeRef → Bool} {sourceAlive : Source → Bool} {r : RemoteRegistry}
  {o k : ObjectId} {id : Nat} {n : NodeRef}

/-- The ids in the entry of an object. -/
def nodeIds (r : RemoteRegistry) (o : ObjectId) : List Nat :=
  match r.entries[o]? with
  | some found => found.nodes
  | none => []

theorem nodeIds_of_find {e : SourceToNodesEntry} (h : r.entries[o]? = some e) :
    r.nodeIds o = e.nodes := by
  unfold nodeIds
  rw [h]

theorem nodeIds_of_not_mem (h : r.entries[o]? = none) : r.nodeIds o = [] := by
  unfold nodeIds
  rw [h]

theorem mem_getObjectIds : o ∈ r.getObjectIds id ↔ id ∈ r.nodeIds o := by
  unfold getObjectIds
  rw [mem_keysWhere]
  cases h : r.entries[o]? with
  | none => simp [nodeIds_of_not_mem h]
  | some e => simp [nodeIds_of_find h]

theorem getNodes_eq : r.getNodes nodeAlive o
    = ((r.nodeIds o).map r.remoteNodesById.get).filter fun node => !node.expired nodeAlive := by
  unfold getNodes nodeIds
  cases r.entries[o]? <;> rfl

theorem nodeIds_insert (e : SourceToNodesEntry) :
    ({ r with entries := r.entries.insert k e } : RemoteRegistry).nodeIds o
      = if o = k then e.nodes else r.nodeIds o := by
  unfold nodeIds
  rw [find_insert]
  by_cases ho : o = k
  · rw [if_pos ho, if_pos ho]
  · rw [if_neg ho, if_neg ho]

theorem nodeIds_addSource (source : WeakPtr Source) :
    (r.addSource sourceAlive source).nodeIds o = r.nodeIds o := by
  unfold addSource
  split
  · rfl
  · split
    · rename_i hs
      rw [nodeIds_insert]
      split
      · rename_i ho
        rw [ho, nodeIds_of_not_mem hs]
      · rfl
    · rfl

theorem nodeIds_removeSource :
    (r.removeSource k).nodeIds o = if o = k then [] else r.nodeIds o := by
  unfold removeSource nodeIds
  rw [find_erase]
  by_cases ho : o = k
  · rw [if_pos ho, if_pos ho]
  · rw [if_neg ho, if_neg ho]

/-- Whether `addNodeForSource` has an effect: the node is alive, there is an entry, and the node is
not in it yet. -/
def Links (nodeAlive : NodeRef → Bool) (r : RemoteRegistry) (id : Nat) (k : ObjectId) : Prop :=
  ((r.remoteNodesById.get id).lock nodeAlive).isSome ∧ k ∈ r.entries ∧ id ∉ r.nodeIds k

instance : Decidable (Links nodeAlive r id k) := inferInstanceAs (Decidable (_ ∧ _ ∧ _))

/-- Linking appends the id, or changes nothing at all. -/
theorem addNodeForSource_cases (nodeAlive : NodeRef → Bool) (r : RemoteRegistry) (id : Nat)
    (k : ObjectId) :
    (Links nodeAlive r id k ∧ ∃ e, r.entries[k]? = some e ∧ r.addNodeForSource nodeAlive id k
      = { r with entries := r.entries.insert k { e with nodes := e.nodes ++ [id] } }) ∨
    (¬ Links nodeAlive r id k ∧ r.addNodeForSource nodeAlive id k = r) := by
  unfold addNodeForSource Links
  cases hn : (r.remoteNodesById.get id).lock nodeAlive with
  | none => exact Or.inr ⟨by simp, rfl⟩
  | some n =>
    cases he : r.entries[k]? with
    | none => exact Or.inr ⟨by simp [mem_iff_find, he], rfl⟩
    | some e =>
      dsimp only
      by_cases hmem : id ∈ e.nodes
      · exact Or.inr ⟨by simp [nodeIds_of_find he, hmem], if_pos hmem⟩
      · exact Or.inl ⟨by simp [nodeIds_of_find he, hmem, mem_iff_find, he], e, rfl, if_neg hmem⟩

theorem nodeIds_addNodeForSource : (r.addNodeForSource nodeAlive id k).nodeIds o =
    if o = k ∧ Links nodeAlive r id k then r.nodeIds o ++ [id] else r.nodeIds o := by
  rcases addNodeForSource_cases nodeAlive r id k with ⟨hl, e, he, heq⟩ | ⟨hl, heq⟩
  · rw [heq, nodeIds_insert]
    by_cases ho : o = k
    · rw [if_pos ho, if_pos ⟨ho, hl⟩, ho, nodeIds_of_find he]
    · rw [if_neg ho, if_neg (fun h => ho h.1)]
  · rw [heq, if_neg (fun h => hl h.2)]

theorem nodeIds_removeNodeFromSource : (r.removeNodeFromSource id k).nodeIds o =
    if o = k then (r.nodeIds o).erase id else r.nodeIds o := by
  unfold removeNodeFromSource
  split
  · rename_i e he
    rw [nodeIds_insert]
    split
    · rename_i ho
      rw [ho, nodeIds_of_find he]
    · rfl
  · rename_i he
    split
    · rename_i ho
      rw [ho, nodeIds_of_not_mem he, List.erase_nil]
    · rfl

theorem nodeIds_registerNode (node : WeakPtr NodeRef) :
    (r.registerNode nodeAlive node).2.nodeIds o = r.nodeIds o := by
  unfold registerNode
  split <;> rfl

theorem nodeIds_unregisterNode (hid : id ≠ invalidId) :
    (r.unregisterNode id).nodeIds o = (r.nodeIds o).erase id := by
  unfold unregisterNode nodeIds
  rw [if_neg hid, Std.ExtTreeMap.getElem?_map]
  cases r.entries[o]? <;> rfl

theorem unregisterNode_invalidId : r.unregisterNode invalidId = r := if_pos rfl

/-! ## The registered sources -/

theorem getSource_of_find {e : SourceToNodesEntry} (h : r.entries[o]? = some e) :
    r.getSource o = e.source := by
  unfold getSource
  rw [h]

theorem getSource_of_not_mem (h : r.entries[o]? = none) : r.getSource o = none := by
  unfold getSource
  rw [h]

theorem getSource_insert (e : SourceToNodesEntry) :
    ({ r with entries := r.entries.insert k e } : RemoteRegistry).getSource o
      = if o = k then e.source else r.getSource o := by
  unfold getSource
  rw [find_insert]
  by_cases ho : o = k
  · rw [if_pos ho, if_pos ho]
  · rw [if_neg ho, if_neg ho]

/-- An entry, once there, keeps its source. -/
theorem getSource_addSource_of_some {source : WeakPtr Source} {s : Source}
    (hs : r.getSource o = some s) : (r.addSource sourceAlive source).getSource o = some s := by
  unfold addSource
  split
  · exact hs
  · split
    · rename_i hnone
      rw [getSource_insert, if_neg, hs]
      rintro rfl
      rw [getSource_of_not_mem hnone] at hs
      cases hs
    · exact hs

theorem addSource_of_find {s : Source} {e : SourceToNodesEntry}
    (he : r.entries[s.olinkObjectName]? = some e) :
    r.addSource sourceAlive (some s) = r := by
  unfold addSource
  split
  · rfl
  · rename_i t ht
    obtain ⟨⟨rfl⟩, -⟩ := WeakPtr.lock_eq_some.mp ht
    rw [he]

theorem addSource_of_not_mem {s : Source} (hs : sourceAlive s = true)
    (hnone : r.entries[s.olinkObjectName]? = none) :
    r.addSource sourceAlive (some s) = { r with
      entries := r.entries.insert s.olinkObjectName { source := some s, nodes := [] } } := by
  unfold addSource
  rw [WeakPtr.lock_some, if_pos hs]
  dsimp only
  rw [hnone]

/-- The first source of a name is registered. -/
theorem getSource_addSource_of_not_mem {s : Source} (hs : sourceAlive s = true)
    (hnone : r.entries[s.olinkObjectName]? = none) :
    (r.addSource sourceAlive (some s)).getSource s.olinkObjectName = some s := by
  rw [addSource_of_not_mem hs hnone, getSource_insert, if_pos rfl]

/-- A source is registered under its name. -/
theorem getSource_addSource_cases {source : WeakPtr Source} {s : Source}
    (hs : (r.addSource sourceAlive source).getSource o = some s) :
    r.getSource o = some s ∨ s.olinkObjectName = o := by
  unfold addSource at hs
  split at hs
  · exact Or.inl hs
  · rename_i t ht
    split at hs
    · rw [getSource_insert] at hs
      split at hs
      · rename_i ho
        obtain ⟨rfl, -⟩ := WeakPtr.lock_eq_some.mp ht
        cases hs
        exact Or.inr ho.symm
      · exact Or.inl hs
    · exact Or.inl hs

theorem getSource_removeSource :
    (r.removeSource k).getSource o = if o = k then none else r.getSource o := by
  unfold removeSource getSource
  rw [find_erase]
  by_cases ho : o = k
  · rw [if_pos ho, if_pos ho]
  · rw [if_neg ho, if_neg ho]

@[simp] theorem getSource_addNodeForSource :
    (r.addNodeForSource nodeAlive id k).getSource o = r.getSource o := by
  rcases addNodeForSource_cases nodeAlive r id k with ⟨-, e, he, heq⟩ | ⟨-, heq⟩
  · rw [heq, getSource_insert]
    by_cases ho : o = k
    · rw [if_pos ho, ho, getSource_of_find he]
    · rw [if_neg ho]
  · rw [heq]

@[simp] theorem getSource_removeNodeFromSource :
    (r.removeNodeFromSource id k).getSource o = r.getSource o := by
  unfold removeNodeFromSource
  cases he : r.entries[k]? with
  | none => rfl
  | some e =>
    dsimp only
    rw [getSource_insert]
    by_cases ho : o = k
    · rw [if_pos ho, ho, getSource_of_find he]
    · rw [if_neg ho]

@[simp] theorem getSource_registerNode (node : WeakPtr NodeRef) :
    (r.registerNode nodeAlive node).2.getSource o = r.getSource o := by
  unfold registerNode
  split <;> rfl

@[simp] theorem getSource_unregisterNode : (r.unregisterNode id).getSource o = r.getSource o := by
  unfold unregisterNode
  split
  · rfl
  · unfold getSource
    rw [Std.ExtTreeMap.getElem?_map]
    cases r.entries[o]? <;> rfl

/-! ## The node storage -/

@[simp] theorem remoteNodesById_addSource (source : WeakPtr Source) :
    (r.addSource sourceAlive source).remoteNodesById = r.remoteNodesById := by
  unfold addSource
  split
  · rfl
  · split <;> rfl

@[simp] theorem remoteNodesById_removeSource :
    (r.removeSource k).remoteNodesById = r.remoteNodesById := rfl

@[simp] theorem remoteNodesById_addNodeForSource :
    (r.addNodeForSource nodeAlive id k).remoteNodesById = r.remoteNodesById := by
  unfold addNodeForSource
  split
  · rfl
  · split
    · split <;> rfl
    · rfl

@[simp] theorem remoteNodesById_removeNodeFromSource :
    (r.removeNodeFromSource id k).remoteNodesById = r.remoteNodesById := by
  unfold removeNodeFromSource
  split <;> rfl

theorem remoteNodesById_unregisterNode (hid : id ≠ invalidId) :
    (r.unregisterNode id).remoteNodesById = r.remoteNodesById.remove id := by
  unfold unregisterNode
  rw [if_neg hid]

/-- `registerNode` is `add`, which makes the same check again. -/
theorem registerNode_eq (nodeAlive : NodeRef → Bool) (node : WeakPtr NodeRef) :
    r.registerNode nodeAlive node =
    ((r.remoteNodesById.add nodeAlive node).1,
      { r with remoteNodesById := (r.remoteNodesById.add nodeAlive node).2 }) := by
  unfold registerNode
  cases h : node.lock nodeAlive with
  | none =>
    unfold UniqueIdObjectStorage.add
    rw [h]
  | some n =>
    rw [(WeakPtr.lock_eq_some.mp h).1]

end RemoteRegistry

end ObjectLink
