import ObjectLink.Foundation.Roster
import ObjectLink.RemoteRegistry

/-!
# Runs of the registry of sources

Any use of a `RemoteRegistry`, operation after operation, while nodes and sources expire. The node
storage is never full when a node is registered.

Results:
* `Inv`: no list of ids has an id twice, and every id in a list is one the storage knows. The
  first is what `unregisterNode` and `removeNodeFromSource` need, which erase one occurrence; the
  second keeps a reused id from inheriting the links of the node that had it before.
* `rosterStep`: each operation changes the nodes linked with an object like a roster.
* `links_refine`: `getNodes` and `getObjectIds` are the abstract link relation.
* `more_nodes`: a run in which nodes come and go until the ids wrap.
-/

namespace ObjectLink

open Foundation (Machine Run Since Began InOrder RosterStep run_play)

namespace RemoteRegistry

/-- A registry, and which nodes and sources are alive. -/
structure World where
  registry : RemoteRegistry
  nodeAlive : NodeRef → Bool
  sourceAlive : Source → Bool

/-- What can happen. -/
inductive Action where
  | addSource (source : WeakPtr Source)
  | removeSource (objectId : ObjectId)
  | addNodeForSource (nodeId : Nat) (objectId : ObjectId)
  | removeNodeFromSource (nodeId : Nat) (objectId : ObjectId)
  | registerNode (node : WeakPtr NodeRef)
  | unregisterNode (id : Nat)
  | nodeExpires (n : NodeRef)
  | sourceExpires (s : Source)

/-- What it does. -/
def next (w : World) : Action → World
  | .addSource source => { w with registry := w.registry.addSource w.sourceAlive source }
  | .removeSource o => { w with registry := w.registry.removeSource o }
  | .addNodeForSource id o =>
    { w with registry := w.registry.addNodeForSource w.nodeAlive id o }
  | .removeNodeFromSource id o => { w with registry := w.registry.removeNodeFromSource id o }
  | .registerNode node => { w with registry := (w.registry.registerNode w.nodeAlive node).2 }
  | .unregisterNode id => { w with registry := w.registry.unregisterNode id }
  | .nodeExpires n => { w with nodeAlive := fun x => if x = n then false else w.nodeAlive x }
  | .sourceExpires s => { w with sourceAlive := fun x => if x = s then false else w.sourceAlive x }

/-- A node is registered only while the storage is not full. -/
def Enabled (w : World) : Action → Prop
  | .registerNode _ => w.registry.remoteNodesById.objects.size < 0xFFFFFFFF
  | _ => True

/-- Any use of a new registry, with any nodes and sources alive at the start. -/
def machine : Machine World Action where
  init w := w.registry = new
  enabled := Enabled
  next := next

/-- The same with nodes that register also while the storage is full. -/
def unboundedMachine : Machine World Action where
  init w := w.registry = new
  enabled _ _ := True
  next := next

/-! ## The invariant -/

/-- The ids of the linked nodes are ids in the storage, each once for an object. -/
structure Inv (w : World) : Prop where
  wf : w.registry.remoteNodesById.Wf
  maxCount_eq : w.registry.remoteNodesById.maxCount = 0xFFFFFFFF
  distinct : w.registry.remoteNodesById.Distinct
  stored : ∀ o, ∀ id ∈ w.registry.nodeIds o, ∃ n, w.registry.remoteNodesById.get id = some n
  nodup : ∀ o, (w.registry.nodeIds o).Nodup

variable {w : World} {o : ObjectId} {n : NodeRef} {id : Nat}

theorem inv_init (hw : machine.init w) : Inv w := by
  have hnew : w.registry = new := hw
  have hids : ∀ o, w.registry.nodeIds o = [] := fun o => by
    rw [hnew]
    exact nodeIds_of_not_mem Std.ExtTreeMap.getElem?_empty
  refine ⟨?_, by rw [hnew]; rfl, ?_, ?_, ?_⟩
  · rw [hnew]
    exact UniqueIdObjectStorage.wf_new (Nat.le_refl _)
  · rw [hnew]
    exact UniqueIdObjectStorage.distinct_new _
  · intro o id hid
    rw [hids] at hid
    exact absurd hid List.not_mem_nil
  · intro o
    rw [hids]
    exact List.nodup_nil

/-- An operation that leaves the node storage alone keeps the invariant if it keeps the lists
without duplicates and puts only ids of stored nodes in them. -/
theorem Inv.of_nodeIds {r : RemoteRegistry} {nodeAlive : NodeRef → Bool}
    {sourceAlive : Source → Bool} (hi : Inv w)
    (hs : r.remoteNodesById = w.registry.remoteNodesById)
    (hids : ∀ o, ∀ id ∈ r.nodeIds o, id ∈ w.registry.nodeIds o ∨
      ∃ n, w.registry.remoteNodesById.get id = some n)
    (hnodup : ∀ o, (r.nodeIds o).Nodup) : Inv ⟨r, nodeAlive, sourceAlive⟩ := by
  refine ⟨hs ▸ hi.wf, hs ▸ hi.maxCount_eq, hs ▸ hi.distinct, ?_, hnodup⟩
  intro o id hid
  dsimp only
  rw [hs]
  rcases hids o id hid with h | h
  · exact hi.stored o id h
  · exact h

/-- Registering a node keeps the ids of the nodes that are stored. -/
theorem inv_registerNode (hi : Inv w) (node : WeakPtr NodeRef)
    (hen : Enabled w (.registerNode node)) : Inv (next w (.registerNode node)) := by
  have hroom : w.registry.remoteNodesById.objects.size < w.registry.remoteNodesById.maxCount := by
    rw [hi.maxCount_eq]
    exact hen
  have heq := registerNode_eq (r := w.registry) w.nodeAlive node
  unfold next
  dsimp only
  rw [heq]
  refine ⟨UniqueIdObjectStorage.wf_add hi.wf node,
    (UniqueIdObjectStorage.add_maxCount hi.wf node).trans hi.maxCount_eq,
    UniqueIdObjectStorage.distinct_add _ hi.wf hi.distinct node, ?_, hi.nodup⟩
  intro o id hid
  obtain ⟨m, hm⟩ := hi.stored o id hid
  exact ⟨m, UniqueIdObjectStorage.get_add_of_lt hi.wf hroom rfl hm⟩

/-- Unregistering takes the id out of the lists and out of the storage. -/
theorem inv_unregisterNode (hi : Inv w) (j : Nat) : Inv (next w (.unregisterNode j)) := by
  by_cases hj : j = invalidId
  · rw [hj]
    exact hi
  · have hids : ∀ o, (next w (.unregisterNode j)).registry.nodeIds o
        = (w.registry.nodeIds o).erase j := fun o => nodeIds_unregisterNode hj
    have hst : (next w (.unregisterNode j)).registry.remoteNodesById
        = w.registry.remoteNodesById.remove j := remoteNodesById_unregisterNode hj
    refine ⟨hst ▸ UniqueIdObjectStorage.wf_remove hi.wf j, hst ▸ hi.maxCount_eq,
      hst ▸ hi.distinct.of_get fun _ _ => UniqueIdObjectStorage.get_of_get_remove,
      ?_, fun o => hids o ▸ (hi.nodup o).erase j⟩
    intro o id hid
    rw [hids] at hid
    obtain ⟨hne, hid⟩ := (hi.nodup o).mem_erase_iff.mp hid
    obtain ⟨m, hm⟩ := hi.stored o id hid
    exact ⟨m, by rw [hst, UniqueIdObjectStorage.get_remove, if_neg hne, hm]⟩

theorem inv_next (hi : Inv w) (a : Action) (hen : Enabled w a) : Inv (next w a) := by
  cases a with
  | addSource source =>
    refine hi.of_nodeIds (remoteNodesById_addSource source) ?_ ?_
    · intro o id hid
      rw [nodeIds_addSource] at hid
      exact Or.inl hid
    · intro o
      rw [nodeIds_addSource]
      exact hi.nodup o
  | removeSource k =>
    refine hi.of_nodeIds rfl ?_ ?_
    · intro o id hid
      rw [nodeIds_removeSource] at hid
      split at hid
      · exact absurd hid List.not_mem_nil
      · exact Or.inl hid
    · intro o
      rw [nodeIds_removeSource]
      split
      · exact List.nodup_nil
      · exact hi.nodup o
  | addNodeForSource j k =>
    refine hi.of_nodeIds remoteNodesById_addNodeForSource ?_ ?_
    · intro o id hid
      rw [nodeIds_addNodeForSource] at hid
      split at hid
      · rename_i hl
        rcases List.mem_append.mp hid with hid | hid
        · exact Or.inl hid
        · obtain ⟨n, hn⟩ := Option.isSome_iff_exists.mp hl.2.1
          rw [List.mem_singleton.mp hid]
          exact Or.inr ⟨n, (WeakPtr.lock_eq_some.mp hn).1⟩
      · exact Or.inl hid
    · intro o
      rw [nodeIds_addNodeForSource]
      split
      · rename_i hl
        rw [List.nodup_append]
        refine ⟨hi.nodup o, List.pairwise_singleton _ _, fun a ha b hb he => hl.2.2.2 ?_⟩
        rw [← List.mem_singleton.mp hb, ← he, ← hl.1]
        exact ha
      · exact hi.nodup o
  | removeNodeFromSource j k =>
    refine hi.of_nodeIds remoteNodesById_removeNodeFromSource ?_ ?_
    · intro o id hid
      rw [nodeIds_removeNodeFromSource] at hid
      split at hid
      · exact Or.inl (List.mem_of_mem_erase hid)
      · exact Or.inl hid
    · intro o
      rw [nodeIds_removeNodeFromSource]
      split
      · exact (hi.nodup o).erase j
      · exact hi.nodup o
  | registerNode node => exact inv_registerNode hi node hen
  | unregisterNode j => exact inv_unregisterNode hi j
  | nodeExpires m => exact ⟨hi.wf, hi.maxCount_eq, hi.distinct, hi.stored, hi.nodup⟩
  | sourceExpires s => exact ⟨hi.wf, hi.maxCount_eq, hi.distinct, hi.stored, hi.nodup⟩

/-! ## The nodes linked with an object -/

/-- The nodes whose ids are in the entry of an object, expired ones included. -/
def linkedNodes (r : RemoteRegistry) (o : ObjectId) : List NodeRef :=
  (r.nodeIds o).filterMap r.remoteNodesById.get

theorem mem_linkedNodes {r : RemoteRegistry} :
    n ∈ r.linkedNodes o ↔ ∃ id ∈ r.nodeIds o, r.remoteNodesById.get id = some n :=
  List.mem_filterMap

/-- Looking ids up and dropping the expired pointers is the same as dropping the unknown ids and
then the dead nodes. -/
theorem filter_map_get (get : Nat → WeakPtr NodeRef) (alive : NodeRef → Bool) :
    ∀ ids : List Nat, (ids.map get).filter (fun node => !node.expired alive)
      = ((ids.filterMap get).filter alive).map some
  | [] => rfl
  | id :: ids => by
    have ih := filter_map_get get alive ids
    cases hg : get id with
    | none => simpa [hg, WeakPtr.expired] using ih
    | some n => cases ha : alive n <;> simpa [hg, ha, WeakPtr.expired, WeakPtr.lock_some] using ih

/-- `getNodes` gives those that are alive. -/
theorem getNodes_eq_linkedNodes (r : RemoteRegistry) (nodeAlive : NodeRef → Bool) (o : ObjectId) :
    r.getNodes nodeAlive o = ((r.linkedNodes o).filter nodeAlive).map some := by
  rw [getNodes_eq, filter_map_get]
  rfl

/-- `addNodeForSource` is called with the id of the live node `n`, while `o` has an entry. -/
def Linked (o : ObjectId) (n : NodeRef) (x : World × Action) : Prop :=
  match x.2 with
  | .addNodeForSource id k =>
    k = o ∧ x.1.registry.remoteNodesById.get id = some n ∧ x.1.nodeAlive n = true ∧
      o ∈ x.1.registry.entries
  | _ => False

/-- The source is removed, or `removeNodeFromSource` or `unregisterNode` is called with the id of
the node `n`. -/
def Unlinked (o : ObjectId) (n : NodeRef) (x : World × Action) : Prop :=
  match x.2 with
  | .removeSource k => k = o
  | .removeNodeFromSource id k => k = o ∧ x.1.registry.remoteNodesById.get id = some n
  | .unregisterNode id => x.1.registry.remoteNodesById.get id = some n
  | _ => False

/-- Erasing an id strikes the node it belongs to. -/
theorem mem_filterMap_erase {get : Nat → Option NodeRef} {ids : List Nat} (hnodup : ids.Nodup)
    (hinj : ∀ i j m, get i = some m → get j = some m → i = j) :
    n ∈ (ids.erase id).filterMap get ↔ n ∈ ids.filterMap get ∧ get id ≠ some n := by
  rw [List.mem_filterMap, List.mem_filterMap]
  constructor
  · rintro ⟨j, hj, hn⟩
    obtain ⟨hne, hj⟩ := hnodup.mem_erase_iff.mp hj
    exact ⟨⟨j, hj, hn⟩, fun h => hne (hinj j id n hn h)⟩
  · rintro ⟨⟨j, hj, hn⟩, hid⟩
    refine ⟨j, hnodup.mem_erase_iff.mpr ⟨fun he => hid (he ▸ hn), hj⟩, hn⟩

section Operations

variable {r : RemoteRegistry} {nodeAlive : NodeRef → Bool} {sourceAlive : Source → Bool}
  {k : ObjectId}

theorem linkedNodes_addSource (source : WeakPtr Source) :
    (r.addSource sourceAlive source).linkedNodes o = r.linkedNodes o := by
  unfold linkedNodes
  rw [nodeIds_addSource, remoteNodesById_addSource]

theorem linkedNodes_removeSource :
    (r.removeSource k).linkedNodes o = if o = k then [] else r.linkedNodes o := by
  unfold linkedNodes
  rw [nodeIds_removeSource]
  split <;> rfl

theorem linkedNodes_addNodeForSource : (r.addNodeForSource nodeAlive id k).linkedNodes o
    = (if o = k ∧ Links nodeAlive r id k then r.nodeIds o ++ [id]
      else r.nodeIds o).filterMap r.remoteNodesById.get := by
  unfold linkedNodes
  rw [nodeIds_addNodeForSource, remoteNodesById_addNodeForSource]

theorem linkedNodes_removeNodeFromSource : (r.removeNodeFromSource id k).linkedNodes o
    = (if o = k then (r.nodeIds o).erase id
      else r.nodeIds o).filterMap r.remoteNodesById.get := by
  unfold linkedNodes
  rw [nodeIds_removeNodeFromSource, remoteNodesById_removeNodeFromSource]

/-- Registering a node moves none that is stored, as long as there is room. -/
theorem linkedNodes_registerNode (hi : Inv w) (node : WeakPtr NodeRef)
    (hroom : w.registry.remoteNodesById.objects.size < w.registry.remoteNodesById.maxCount) :
    (w.registry.registerNode w.nodeAlive node).2.linkedNodes o = w.registry.linkedNodes o := by
  unfold linkedNodes
  rw [nodeIds_registerNode, registerNode_eq]
  refine List.filterMap_congr ?_
  intro id hid
  obtain ⟨m, hm⟩ := hi.stored o id hid
  rw [hm]
  exact UniqueIdObjectStorage.get_add_of_lt hi.wf hroom rfl hm

theorem linkedNodes_unregisterNode (hi : Inv w) (hid : id ≠ invalidId) :
    (w.registry.unregisterNode id).linkedNodes o
      = ((w.registry.nodeIds o).erase id).filterMap w.registry.remoteNodesById.get := by
  unfold linkedNodes
  rw [nodeIds_unregisterNode hid, remoteNodesById_unregisterNode hid]
  refine List.filterMap_congr ?_
  intro j hj
  rw [UniqueIdObjectStorage.get_remove, if_neg ((hi.nodup o).mem_erase_iff.mp hj).1]

end Operations

/-- Linking appends the node with this id, or finds it linked already. -/
theorem rosterStep_addNodeForSource (hi : Inv w) (j : Nat) (k o : ObjectId) :
    RosterStep (fun n => Linked o n (w, .addNodeForSource j k)) (fun _ => False)
      (w.registry.linkedNodes o)
      ((w.registry.addNodeForSource w.nodeAlive j k).linkedNodes o) := by
  rw [linkedNodes_addNodeForSource]
  by_cases hl : o = k ∧ Links w.nodeAlive w.registry j k
  · rw [if_pos hl, List.filterMap_append]
    obtain ⟨rfl, hlock, hentry, hnew⟩ := hl
    obtain ⟨n, hn⟩ := Option.isSome_iff_exists.mp hlock
    obtain ⟨hget, hlive⟩ := WeakPtr.lock_eq_some.mp hn
    have hone : [j].filterMap w.registry.remoteNodesById.get = [n] := by
      simp [List.filterMap, hget]
    rw [hone]
    refine ⟨?_, Or.inr ⟨n, ?_, ⟨rfl, hget, hlive, hentry⟩, rfl⟩,
      fun _ _ h => h⟩
    · intro m
      constructor
      · intro hm
        rcases List.mem_append.mp hm with hm | hm
        · exact Or.inr ⟨hm, fun h => h⟩
        · rw [List.mem_singleton.mp hm]
          exact Or.inl ⟨rfl, hget, hlive, hentry⟩
      · rintro (⟨-, hgm, -⟩ | ⟨hm, -⟩)
        · rw [hget] at hgm
          cases hgm
          exact List.mem_append_right _ (List.mem_singleton.mpr rfl)
        · exact List.mem_append_left _ hm
    · intro hmem
      obtain ⟨i, hi', hgi⟩ := mem_linkedNodes.mp hmem
      rw [hi.distinct i j n hgi hget] at hi'
      exact hnew hi'
  · rw [if_neg hl]
    refine ⟨?_, Or.inl (List.Sublist.refl _), fun _ _ h => h⟩
    intro m
    constructor
    · exact fun hm => Or.inr ⟨hm, fun h => h⟩
    · rintro (⟨rfl, hget, hlive, hentry⟩ | ⟨hm, -⟩)
      · -- the node is live and the object has an entry: it must be linked already
        have hold : j ∈ w.registry.nodeIds k := by
          by_contra hnew
          refine hl ⟨rfl, ?_, hentry, hnew⟩
          rw [hget, WeakPtr.lock_some, if_pos hlive]
          rfl
        exact List.mem_filterMap.mpr ⟨j, hold, hget⟩
      · exact hm

/-- Erasing an id strikes the node that is stored under it, and establishes nothing. -/
theorem rosterStep_erase (hi : Inv w) {P K : NodeRef → Prop} (hP : ∀ n, ¬ P n)
    (hK : ∀ n, K n ↔ w.registry.remoteNodesById.get id = some n) :
    RosterStep P K (w.registry.linkedNodes o)
      (((w.registry.nodeIds o).erase id).filterMap w.registry.remoteNodesById.get) := by
  refine ⟨?_, Or.inl (List.erase_sublist.filterMap _), fun n h => absurd h (hP n)⟩
  intro n
  rw [mem_filterMap_erase (hi.nodup o) hi.distinct, hK]
  unfold linkedNodes
  simp [hP]

/-- **Each operation** changes the nodes linked with an object like a roster. -/
theorem rosterStep (hi : Inv w) (a : Action) (hen : Enabled w a) (o : ObjectId) :
    RosterStep (fun n => Linked o n (w, a)) (fun n => Unlinked o n (w, a))
      (w.registry.linkedNodes o) ((next w a).registry.linkedNodes o) := by
  cases a with
  | addSource source =>
    have heq : (next w (.addSource source)).registry.linkedNodes o = w.registry.linkedNodes o :=
      linkedNodes_addSource source
    rw [heq]
    exact .refl (fun _ h => h) fun _ _ h => h
  | removeSource k =>
    have heq : (next w (.removeSource k)).registry.linkedNodes o
        = if o = k then [] else w.registry.linkedNodes o := linkedNodes_removeSource
    rw [heq]
    by_cases ho : o = k
    · rw [if_pos ho]
      exact ⟨fun n => by simp [Linked, Unlinked, ho], Or.inl (List.nil_sublist _),
        fun _ h => h.elim⟩
    · rw [if_neg ho]
      exact .refl (fun _ h => h) fun _ _ h => ho h.symm
  | addNodeForSource j k => exact rosterStep_addNodeForSource hi j k o
  | removeNodeFromSource j k =>
    have heq : (next w (.removeNodeFromSource j k)).registry.linkedNodes o
        = (if o = k then (w.registry.nodeIds o).erase j
          else w.registry.nodeIds o).filterMap w.registry.remoteNodesById.get :=
      linkedNodes_removeNodeFromSource
    rw [heq]
    by_cases ho : o = k
    · rw [if_pos ho]
      exact rosterStep_erase hi (fun _ h => h) fun n => and_iff_right ho.symm
    · rw [if_neg ho]
      exact .refl (fun _ h => h) fun _ _ h => ho h.1.symm
  | registerNode node =>
    have hroom : w.registry.remoteNodesById.objects.size < w.registry.remoteNodesById.maxCount := by
      rw [hi.maxCount_eq]
      exact hen
    have heq : (next w (.registerNode node)).registry.linkedNodes o = w.registry.linkedNodes o :=
      linkedNodes_registerNode hi node hroom
    rw [heq]
    exact .refl (fun _ h => h) fun _ _ h => h
  | unregisterNode j =>
    by_cases hj : j = invalidId
    · have heq : (next w (.unregisterNode j)).registry = w.registry := by
        rw [hj]
        exact unregisterNode_invalidId
      rw [heq]
      refine .refl (fun _ h => h) ?_
      intro n _ h
      have hget : w.registry.remoteNodesById.get j = some n := h
      rw [hj, hi.wf.get_invalidId] at hget
      cases hget
    · have heq : (next w (.unregisterNode j)).registry.linkedNodes o
          = ((w.registry.nodeIds o).erase j).filterMap w.registry.remoteNodesById.get :=
        linkedNodes_unregisterNode hi hj
      rw [heq]
      exact rosterStep_erase hi (fun _ h => h) fun _ => Iff.rfl
  | nodeExpires m => exact .refl (fun _ h => h) fun _ _ h => h
  | sourceExpires s => exact .refl (fun _ h => h) fun _ _ h => h

/-! ## Whole runs -/

theorem inv_run (h : List (World × Action)) (w : World) (hr : Run machine h w) : Inv w :=
  hr.invariant (fun _ hs => inv_init hs) fun _ a hi hen => inv_next hi a hen

/-- What is linked with an object at the end of a run: every node that was linked and not unlinked
since, once, in the order of linking. -/
theorem linkedNodes_run {h : List (World × Action)} (hr : Run machine h w) (o : ObjectId) :
    (w.registry.linkedNodes o).Nodup ∧
      (∀ n, n ∈ w.registry.linkedNodes o ↔ Since (Linked o n) (Unlinked o n) h) ∧
      InOrder (Linked o) (Unlinked o) h (w.registry.linkedNodes o) := by
  refine Run.roster (M := machine) (L := fun w => w.registry.linkedNodes o) inv_run ?_
    (fun s a hi hen => rosterStep hi a hen o) hr
  intro s hs
  have hnew : s.registry = new := hs
  rw [hnew]
  rfl

theorem some_mem_getNodes {r : RemoteRegistry} {nodeAlive : NodeRef → Bool} :
    some n ∈ r.getNodes nodeAlive o ↔ n ∈ r.linkedNodes o ∧ nodeAlive n = true := by
  rw [getNodes_eq_linkedNodes]
  simp

/-- **The registry of sources is an abstract link relation.** In every state of every run:
* `getNodes` lists, without duplicates and in the order of linking, the live registered nodes that
  were linked with the object, while it had an entry, and not unlinked since;
* `getObjectIds` of the id of a live registered node lists the objects it is linked with;
* a node that is registered anew is linked with no object, whatever its id was used for before. -/
theorem links_refine {h : List (World × Action)} (hr : Run machine h w) :
    (∀ o, ∃ ns : List NodeRef, w.registry.getNodes w.nodeAlive o = ns.map some ∧ ns.Nodup ∧
      (∀ n, n ∈ ns ↔ w.nodeAlive n = true ∧ (∃ id, w.registry.remoteNodesById.get id = some n) ∧
        Since (Linked o n) (Unlinked o n) h) ∧
      InOrder (Linked o) (Unlinked o) h ns) ∧
    (∀ o n id, w.nodeAlive n = true → w.registry.remoteNodesById.get id = some n →
      (o ∈ w.registry.getObjectIds id ↔ some n ∈ w.registry.getNodes w.nodeAlive o)) ∧
    ∀ n id r', w.nodeAlive n = true → (∀ k, w.registry.remoteNodesById.get k ≠ some n) →
      w.registry.remoteNodesById.objects.size < 0xFFFFFFFF →
      w.registry.registerNode w.nodeAlive (some n) = (id, r') →
      r'.remoteNodesById.get id = some n ∧ r'.getObjectIds id = [] ∧
        ∀ o, some n ∉ r'.getNodes w.nodeAlive o := by
  have hi := inv_run h w hr
  have hlinks := linkedNodes_run hr
  refine ⟨?_, ?_, ?_⟩
  · intro o
    obtain ⟨hnodup, hmem, hord⟩ := hlinks o
    refine ⟨(w.registry.linkedNodes o).filter w.nodeAlive, getNodes_eq_linkedNodes _ _ _,
      hnodup.filter _, ?_, hord.sublist List.filter_sublist⟩
    intro n
    rw [List.mem_filter, hmem]
    constructor
    · rintro ⟨hs, hlive⟩
      obtain ⟨id, -, hget⟩ := mem_linkedNodes.mp ((hmem n).mpr hs)
      exact ⟨hlive, ⟨id, hget⟩, hs⟩
    · rintro ⟨hlive, -, hs⟩
      exact ⟨hs, hlive⟩
  · intro o n id hlive hget
    rw [mem_getObjectIds, some_mem_getNodes, mem_linkedNodes]
    constructor
    · exact fun hid => ⟨⟨id, hid, hget⟩, hlive⟩
    · rintro ⟨⟨j, hj, hgj⟩, -⟩
      rwa [hi.distinct j id n hgj hget] at hj
  · intro n id r' hlive hnew hroom hreg
    rw [← hi.maxCount_eq] at hroom
    obtain ⟨id', storage, hadd, -, hfree, -, -, hget⟩ :=
      UniqueIdObjectStorage.add_fresh _ hi.wf hroom hlive hnew
    have hself : storage.get id' = some n := by rw [hget, if_pos rfl]
    rw [registerNode_eq, hadd] at hreg
    cases hreg
    -- the number was free, so no list holds it, and the lists have not changed
    have hno : ∀ o, id' ∉ w.registry.nodeIds o := fun o hmem => by
      obtain ⟨m, hm⟩ := hi.stored o _ hmem
      rw [hfree] at hm
      cases hm
    refine ⟨hself, ?_, ?_⟩
    · refine List.eq_nil_iff_forall_not_mem.mpr fun o ho => hno o ?_
      exact mem_getObjectIds.mp ho
    · intro o hmem
      obtain ⟨hmem, -⟩ := some_mem_getNodes.mp hmem
      obtain ⟨j, hj, hgj⟩ := mem_linkedNodes.mp hmem
      have hjw : j ∈ w.registry.nodeIds o := hj
      have hdist :=
        UniqueIdObjectStorage.distinct_add w.nodeAlive hi.wf hi.distinct (some n)
      rw [hadd] at hdist
      rw [hdist j id' n hgj hself] at hjw
      exact hno o hjw

/-! ## A run past the wrap -/

theorem unregisterNode_of_unused (hid : id ≠ invalidId) {r : RemoteRegistry}
    (hunused : ∀ o, id ∉ r.nodeIds o) :
    r.unregisterNode id = { r with remoteNodesById := r.remoteNodesById.remove id } := by
  have hentries : (r.entries.map fun _ entry =>
      ({ entry with nodes := entry.nodes.erase id } : SourceToNodesEntry)) = r.entries := by
    refine Foundation.eq_of_find fun o => ?_
    rw [Std.ExtTreeMap.getElem?_map]
    cases he : r.entries[o]? with
    | none => rfl
    | some entry =>
      have hno := hunused o
      rw [nodeIds_of_find he] at hno
      rw [Option.map_some, List.erase_of_not_mem hno]
  unfold unregisterNode
  rw [if_neg hid, hentries]

/-- The world when the counter of the node storage has moved on. -/
def countedTo (w : World) (counter : Nat) : World :=
  { w with registry :=
      { w.registry with remoteNodesById := w.registry.remoteNodesById.countedTo counter } }

/-- **A node that registers and unregisters** moves the counter on. -/
theorem next_unregister_register (hi : Inv w)
    (hroom : w.registry.remoteNodesById.objects.size < 0xFFFFFFFF)
    (hlive : w.nodeAlive n = true) (hnew : ∀ k, w.registry.remoteNodesById.get k ≠ some n)
    (hov : w.registry.remoteNodesById.overflowed = false) :
    next (next w (.registerNode (some n))) (.unregisterNode w.registry.remoteNodesById.counter)
      = countedTo w (w.registry.remoteNodesById.counter + 1) := by
  rw [← hi.maxCount_eq] at hroom
  have hlt := hi.wf.counter_lt (by omega)
  have hle := hi.wf.maxCount_le
  obtain ⟨-, hremoved⟩ := UniqueIdObjectStorage.remove_add_new hi.wf hroom hlive hnew hov
  have hunused : ∀ o, w.registry.remoteNodesById.counter ∉ w.registry.nodeIds o := by
    intro o hmem
    obtain ⟨m, hm⟩ := hi.stored o _ hmem
    have hmem' := UniqueIdObjectStorage.mem_objects_iff.mpr ⟨m, hm⟩
    exact absurd (hi.wf.fresh hov _ hmem') (Nat.lt_irrefl _)
  unfold next countedTo
  dsimp only
  rw [registerNode_eq]
  have hsame := unregisterNode_of_unused (r := { w.registry with
    remoteNodesById := (w.registry.remoteNodesById.add w.nodeAlive (some n)).2 })
    (show w.registry.remoteNodesById.counter ≠ invalidId by omega) hunused
  rw [hsame, hremoved]

/-- As long as the counter has not wrapped, nodes can come and go until it stands anywhere. -/
theorem more_nodes (hr : Run machine h w)
    (hroom : w.registry.remoteNodesById.objects.size < 0xFFFFFFFF)
    (hlive : w.nodeAlive n = true) (hnew : ∀ k, w.registry.remoteNodesById.get k ≠ some n)
    (hov : w.registry.remoteNodesById.overflowed = false) {counter : Nat}
    (hge : w.registry.remoteNodesById.counter ≤ counter) (hle : counter ≤ 0xFFFFFFFF) :
    ∃ turns, Run machine (h ++ turns) (countedTo w counter) := by
  have hmax := (inv_run h w hr).maxCount_eq
  have hlt := (inv_run h w hr).wf.counter_lt (by omega)
  obtain ⟨k, rfl⟩ := Nat.exists_eq_add_of_le hge
  induction k with
  | zero =>
    have hsame : countedTo w (w.registry.remoteNodesById.counter + 0) = w := by
      unfold countedTo UniqueIdObjectStorage.countedTo
      rw [if_neg (by omega)]
      rfl
    exact ⟨[], by rwa [hsame, List.append_nil]⟩
  | succ k ih =>
    obtain ⟨turns, hr'⟩ := ih (Nat.le_add_right _ _) (by omega)
    let v : World := { w with registry :=
      { w.registry with remoteNodesById := { w.registry.remoteNodesById with
          counter := w.registry.remoteNodesById.counter + k } } }
    have hcounted : countedTo w (w.registry.remoteNodesById.counter + k) = v := by
      unfold countedTo UniqueIdObjectStorage.countedTo
      rw [if_neg (by omega)]
    rw [hcounted] at hr'
    have hturn : next (next v (.registerNode (some n)))
        (.unregisterNode (w.registry.remoteNodesById.counter + k))
          = countedTo w (w.registry.remoteNodesById.counter + (k + 1)) :=
      next_unregister_register (inv_run _ _ hr') hroom hlive hnew hov
    have hregistered : Run machine (h ++ turns ++ [(v, .registerNode (some n))])
        (next v (.registerNode (some n))) := hr'.snoc hroom
    have hunregisters : machine.enabled (next v (.registerNode (some n)))
        (.unregisterNode (w.registry.remoteNodesById.counter + k)) := trivial
    have hgone := hregistered.snoc hunregisters
    rw [← hturn]
    refine ⟨turns ++ [(v, .registerNode (some n)), (next v (.registerNode (some n)),
      .unregisterNode (w.registry.remoteNodesById.counter + k))], ?_⟩
    rw [List.append_assoc, List.append_assoc] at hgone
    exact hgone

/-- Two nodes link an object, and the second one unlinks it. A third one that has linked it, too,
unregisters. -/
def linksThree : List Action :=
  [.addSource (some ⟨0, lit "o"⟩), .registerNode (some 7), .registerNode (some 5),
    .registerNode (some 6), .addNodeForSource 0 (lit "o"), .addNodeForSource 1 (lit "o"),
    .addNodeForSource 2 (lit "o"), .removeNodeFromSource 1 (lit "o"), .unregisterNode 2]

instance decidableEnabled (w : World) : (a : Action) → Decidable (machine.enabled w a)
  | .registerNode _ => inferInstanceAs (Decidable (_ < _))
  | .addSource _ | .removeSource _ | .addNodeForSource _ _ | .removeNodeFromSource _ _
  | .unregisterNode _ | .nodeExpires _ | .sourceExpires _ => inferInstanceAs (Decidable True)

/-- Nothing is registered yet. -/
def start : World := ⟨new, fun _ => true, fun _ => true⟩

/-- The ids have wrapped. -/
def wrapped : World := countedTo (machine.exec start linksThree) 0xFFFFFFFF

/-- A node that registers then gets the id of the third one, and is not linked. -/
theorem links_refine_reused : ∃ h, Run machine h wrapped ∧
    Since (Linked (lit "o") 7) (Unlinked (lit "o") 7) h ∧
    ¬ Since (Linked (lit "o") 5) (Unlinked (lit "o") 5) h ∧
    (wrapped.registry.registerNode wrapped.nodeAlive (some 8)).1 = 2 ∧
    some 8 ∉ (wrapped.registry.registerNode wrapped.nodeAlive (some 8)).2.getNodes
      wrapped.nodeAlive (lit "o") := by
  have hfree (n : NodeRef) (h : wrapped.registry.remoteNodesById.findObject wrapped.nodeAlive n
      = none) (k : Nat) : wrapped.registry.remoteNodesById.get k ≠ some n :=
    UniqueIdObjectStorage.findObject_eq_none rfl h
  obtain ⟨turns, hr⟩ := more_nodes (n := 9)
    (run_play (M := machine) (s := start) linksThree rfl (by decide +kernel)) (by decide +kernel)
    rfl (hfree 9 (by decide +kernel)) (by decide +kernel) (by decide +kernel) le_rfl
  obtain ⟨hnodes, -, hanew⟩ := links_refine (w := wrapped) hr
  obtain ⟨ns, hlisted, -, hmem, -⟩ := hnodes (lit "o")
  have hseven : [some 7] = ns.map some := by
    rw [← hlisted]
    decide +kernel
  have hns : [7] = ns := List.map_injective_iff.mpr (fun _ _ => Option.some.inj) hseven
  have hid : (wrapped.registry.registerNode wrapped.nodeAlive (some 8)).1 = 2 := by decide +kernel
  refine ⟨_, hr, ((hmem 7).mp (hns ▸ List.mem_singleton_self 7)).2.2, fun hs => ?_, hid, ?_⟩
  · have hfive := (hmem 5).mpr ⟨rfl, ⟨1, by decide +kernel⟩, hs⟩
    rw [← hns] at hfive
    exact absurd hfive (by decide)
  · obtain ⟨-, -, hnotListed⟩ := hanew 8 2 _ rfl (hfree 8 (by decide +kernel)) (by decide +kernel)
      (Prod.ext hid rfl)
    exact hnotListed _

end RemoteRegistry

end ObjectLink
