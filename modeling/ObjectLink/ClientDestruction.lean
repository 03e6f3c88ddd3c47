import ObjectLink.ClientRuns
import ObjectLink.Core.Registrations

/-!
# What the destructor of a client node touches

`~ClientNode` (`clientnode.cpp:76-84`) unlinks the objects that `getObjectIds` finds for the id of
the node. The same number marks an entry without a node and a node that could not be registered, and
`unregisterNode` looks out for it (`clientregistry.cpp:137-150`), but the loop does not: the
destructor of a node without a registration unlinks every object that has no node.

The registry is used here through its nodes and directly, with a node storage of any capacity; as
`clientnode.h:29` asks, nodes are registered and unregistered only by themselves.

Results:
* `find_unregistered`: what a destructor leaves of each entry.
* `nodesRegistered_run`: a live node is stored under its id, or it has the invalid one.
* `touchesOwn_iff`: a destructor touches exactly the objects linked through its node, exactly if
  the node has a valid id or finds nothing to do; `destroy_own_iff` the same over whole runs.
* `unregistered_node_unlinks`: a second node in a storage for one.
-/

namespace ObjectLink

open Foundation (Machine Run run_play)

/-! ## The entries after a destructor -/

namespace ClientNode

variable {r : ClientRegistry} {id : Nat} {o : ObjectId}

/-- An entry that is freed if its node has this id. -/
def freed (id : Nat) (entry : SinkToClientEntry) : SinkToClientEntry :=
  if entry.nodeId = id then { entry with nodeId := invalidId } else entry

theorem find_unsetNode {k : ObjectId} : (r.unsetNode k).entries[o]? =
    if o = k then (r.entries[o]?).map fun entry => { entry with nodeId := invalidId }
    else r.entries[o]? := by
  unfold ClientRegistry.unsetNode
  cases hk : r.entries[k]? with
  | none =>
    dsimp only
    split
    · rename_i ho
      rw [ho, hk]
      rfl
    · rfl
  | some entry =>
    dsimp only
    rw [Foundation.find_insert]
    split
    · rename_i ho
      rw [ho, hk]
      rfl
    · rfl

/-- The loop frees the entries of the objects it goes through. -/
theorem find_foldl_unsetNode : ∀ (ids : List ObjectId) (r : ClientRegistry),
    (ids.foldl ClientRegistry.unsetNode r).entries[o]? =
      if o ∈ ids then (r.entries[o]?).map fun entry => { entry with nodeId := invalidId }
      else r.entries[o]?
  | [], r => by simp
  | k :: ids, r => by
    rw [List.foldl_cons, find_foldl_unsetNode ids, find_unsetNode]
    by_cases ho : o = k
    · subst ho
      simp only [if_true, List.mem_cons_self]
      cases r.entries[o]? <;> simp
    · simp only [List.mem_cons, ho, false_or, if_false]

/-- **The entries after a destructor**: those with the id of the node are freed. For the invalid id
that is nothing. -/
theorem find_unregistered :
    (unregistered r id).entries[o]? = (r.entries[o]?).map (freed id) := by
  have hmem : o ∈ r.getObjectIds id ↔ ∃ entry, r.entries[o]? = some entry ∧ entry.nodeId = id := by
    unfold ClientRegistry.getObjectIds
    rw [Foundation.mem_keysWhere]
    simp only [decide_eq_true_eq]
  have hloop : ((r.getObjectIds id).foldl ClientRegistry.unsetNode r).entries[o]? =
      (r.entries[o]?).map (freed id) := by
    rw [find_foldl_unsetNode]
    cases he : r.entries[o]? with
    | none => exact ite_self _
    | some entry =>
      have hmem' : o ∈ r.getObjectIds id ↔ entry.nodeId = id := by
        rw [hmem, he]
        simp
      unfold freed
      simp only [hmem', Option.map_some]
      split <;> rfl
  unfold unregistered ClientRegistry.unregisterNode
  split
  · exact hloop
  · rw [Std.ExtTreeMap.getElem?_map, hloop]
    unfold freed
    cases r.entries[o]? with
    | none => rfl
    | some entry =>
      simp only [Option.map_some, Option.some.injEq]
      by_cases hid : entry.nodeId = id
      · rw [if_pos hid]
        split <;> rfl
      · rw [if_neg hid, if_neg hid]

theorem freed_invalidId (entry : SinkToClientEntry) : freed invalidId entry = entry := by
  unfold freed
  split
  · rename_i h
    rw [← h]
  · rfl

end ClientNode

/-! ## Any use of a registry -/

namespace Client

variable {lib : JsonLibrary} {w : Client} {n m : NodeRef} {o : ObjectId} {maxCount : Nat}

/-- What a client can do, and what can be done to its registry directly. -/
inductive Use where
  | node (a : Action)
  | setNode (id : Nat) (objectId : ObjectId)
  | unsetNode (objectId : ObjectId)

/-- The client after it. -/
def nextUse (lib : JsonLibrary) (w : Client) : Use → Client
  | .node a => next lib w a
  | .setNode id o => w.updateRegistry fun r => r.setNode id o
  | .unsetNode o => w.updateRegistry fun r => r.unsetNode o

/-- Any use of a new registry with room for `maxCount` nodes. -/
def useMachine (lib : JsonLibrary) (maxCount : Nat) : Machine Client Use where
  init w := w.registry = { entries := ∅, clientNodesById := .new maxCount } ∧
    ∀ n, w.nodeAlive n = false
  enabled
    | w, .node a => (unboundedMachine lib).enabled w a
    | _, _ => True
  next := nextUse lib

instance decidableUse (lib : JsonLibrary) (maxCount : Nat) (w : Client) :
    (u : Use) → Decidable ((useMachine lib maxCount).enabled w u)
  | .node a => inferInstanceAs (Decidable ((unboundedMachine lib).enabled w a))
  | .setNode _ _ | .unsetNode _ => inferInstanceAs (Decidable True)

theorem nodesRegistered_init (hw : (useMachine lib maxCount).init w) :
    NodesRegistered maxCount w := by
  obtain ⟨hr, halive⟩ := hw
  unfold NodesRegistered
  rw [hr]
  exact .new halive

theorem nodesRegistered_run (h : List (Client × Use)) (w : Client)
    (hr : Run (useMachine lib maxCount) h w) : NodesRegistered maxCount w := by
  refine hr.invariant (fun _ hw => nodesRegistered_init hw) ?_
  intro w u hi hen
  cases u with
  | node a => exact nodesRegistered_next hi a hen
  | setNode id o => exact hi.of_same ClientRegistry.clientNodesById_setNode rfl rfl fun _ => rfl
  | unsetNode o => exact hi.of_same ClientRegistry.clientNodesById_unsetNode rfl rfl fun _ => rfl

/-! ## The destructor -/

/-- The object is linked through the node. -/
def LinkedThrough (w : Client) (n : NodeRef) (o : ObjectId) : Prop :=
  (w.registry.getNode o).lock w.nodeAlive = some n

/-- **What a destructor should touch**: for each object linked through the node it releases the
live sink and writes an `Unlink`, once each, and it calls nothing else; the entries of the other
objects and the registrations of the other nodes stay, and no entry refers to the node. -/
structure TouchesOwn (w w' : Client) (n : NodeRef) : Prop where
  calls : ∃ ids : List ObjectId, ids.Nodup ∧ (∀ o, o ∈ ids ↔ LinkedThrough w n o) ∧
    w'.effects = w.effects ++ ids.flatMap fun o => ClientNode.released w o ++
      ClientNode.written w n (Protocol.unlinkMessage o)
  entries : ∀ o, ¬ LinkedThrough w n o → w'.registry.entries[o]? = w.registry.entries[o]?
  nodes : ∀ k m, m ≠ n → (w'.registry.clientNodesById.get k = some m ↔
    w.registry.clientNodesById.get k = some m)
  gone : ∀ o, w'.registry.getNode o ≠ some n ∧
    ((w.nodes n).nodeId ≠ invalidId → w'.registry.slot o ≠ (w.nodes n).nodeId)

/-- **The condition**: the node has a valid id, or no live sink is without a node, and if there is
an entry without a node the node has no write function. -/
def NothingStray (w : Client) (n : NodeRef) : Prop :=
  (w.nodes n).nodeId = invalidId → ∀ o, o ∈ w.registry.entries → w.registry.slot o = invalidId →
    (w.registry.getSink o).lock w.sinkAlive = none ∧ (w.nodes n).writeFunc = false

/-- An object is linked through the node whose valid id is in its slot. -/
theorem linkedThrough_iff (hi : NodesRegistered maxCount w) (hn : w.nodeAlive n = true) :
    LinkedThrough w n o ↔
      (w.nodes n).nodeId ≠ invalidId ∧ w.registry.slot o = (w.nodes n).nodeId :=
  (getNode_iff hi).trans (and_iff_right hn)

theorem released_eq_nil_iff :
    ClientNode.released w o = [] ↔ (w.registry.getSink o).lock w.sinkAlive = none := by
  unfold ClientNode.released
  cases (w.registry.getSink o).lock w.sinkAlive <;> simp

theorem written_eq_nil_iff {msg : Json} :
    ClientNode.written w n msg = [] ↔ (w.nodes n).writeFunc = false := by
  unfold ClientNode.written
  cases (w.nodes n).writeFunc <;> simp

/-- The loop calls nothing exactly if there is nothing stray. -/
theorem unlinkEffects_eq_nil_iff (hid : (w.nodes n).nodeId = invalidId) :
    ClientNode.unlinkEffects w n (w.registry.getObjectIds invalidId) = [] ↔ NothingStray w n := by
  unfold ClientNode.unlinkEffects NothingStray
  rw [List.flatMap_eq_nil_iff, forall_prop_of_true hid]
  simp only [ClientRegistry.mem_getObjectIds, List.append_eq_nil_iff, released_eq_nil_iff,
    written_eq_nil_iff, and_imp]

/-- **A destructor** touches exactly the objects linked through its node, exactly if the condition
holds. -/
theorem touchesOwn_iff {env : ClientEnv} (henv : env.Returns) (hi : NodesRegistered maxCount w)
    (hn : w.nodeAlive n = true) :
    TouchesOwn w ((ClientNode.destroy env n).run w).2 n ↔ NothingStray w n := by
  have hlinked : ∀ o, LinkedThrough w n o ↔
      (w.nodes n).nodeId ≠ invalidId ∧ w.registry.slot o = (w.nodes n).nodeId :=
    fun o => linkedThrough_iff hi hn
  rw [ClientNode.destroy_run henv]
  constructor
  · intro ht hid
    refine (unlinkEffects_eq_nil_iff hid).mp ?_ hid
    obtain ⟨ids, -, hids, heffects⟩ := ht.calls
    have hnil : ids = [] := List.eq_nil_iff_forall_not_mem.mpr fun o ho =>
      ((hlinked o).mp ((hids o).mp ho)).1 hid
    rw [hnil, List.flatMap_nil, hid] at heffects
    exact List.append_cancel_left heffects
  · intro hstray
    refine ⟨?_, ?_, ?_, ?_⟩
    · by_cases hid : (w.nodes n).nodeId = invalidId
      · refine ⟨[], List.nodup_nil, ?_, ?_⟩
        · intro o
          rw [hlinked]
          exact iff_of_false List.not_mem_nil fun h => h.1 hid
        · rw [hid, (unlinkEffects_eq_nil_iff hid).mpr hstray]
          rfl
      · have hnodup : (w.registry.getObjectIds (w.nodes n).nodeId).Nodup :=
          ClientRegistry.nodup_getObjectIds
        refine ⟨_, hnodup, ?_, rfl⟩
        intro o
        rw [hlinked, ClientRegistry.mem_getObjectIds_of_valid hid, and_iff_right hid]
    · intro o ho
      dsimp only
      rw [ClientNode.find_unregistered]
      cases he : w.registry.entries[o]? with
      | none => rfl
      | some entry =>
        rw [Option.map_some, Option.some.injEq]
        by_cases hid : (w.nodes n).nodeId = invalidId
        · rw [hid]
          exact ClientNode.freed_invalidId entry
        · rw [hlinked, ClientRegistry.slot_of_find he, and_iff_right hid] at ho
          exact if_neg ho
    · intro k m hm
      exact (get_unregistered hi hn).trans (and_iff_right hm)
    · intro o
      have hnone : (ClientNode.unregistered w.registry (w.nodes n).nodeId).clientNodesById.get
          invalidId = none := by
        rw [Option.eq_none_iff_forall_ne_some]
        intro m hm
        have hget := ((get_unregistered hi hn).mp hm).2
        rw [hi.get_invalidId] at hget
        cases hget
      refine ⟨?_, ?_⟩
      · dsimp only
        rw [ClientRegistry.getNode_eq_get hnone]
        intro hget
        exact ((get_unregistered hi hn).mp hget).1 rfl
      · intro hid
        dsimp only
        rw [ClientNode.slot_unregistered]
        split
        · exact Ne.symm hid
        · assumption

/-- **Destruction over whole runs.** In every state that a client and its registry can reach, with a
node storage of any capacity, destroying a live node touches exactly the objects linked through it,
exactly if the node has a valid id or finds nothing to do: no live sink without a node, and no entry
without a node if it has a write function. -/
theorem destroy_own_iff {env : ClientEnv} (henv : env.Returns) {h : List (Client × Use)}
    (hr : Run (useMachine lib maxCount) h w) (hn : w.nodeAlive n = true) :
    TouchesOwn w ((ClientNode.destroy env n).run w).2 n ↔
      ((w.nodes n).nodeId = invalidId → ∀ o, o ∈ w.registry.entries →
        w.registry.slot o = invalidId →
        (w.registry.getSink o).lock w.sinkAlive = none ∧ (w.nodes n).writeFunc = false) :=
  touchesOwn_iff henv (nodesRegistered_run h w hr) hn

/-- A client before its first node, with room for `maxCount` nodes. -/
def emptyOf (maxCount : Nat) : Client :=
  { empty with registry := { entries := ∅, clientNodesById := .new maxCount } }

/-- A node and a sink that is linked through it. -/
def linkedNode : List Use :=
  [.node .create, .node (.onWrite 0), .node (.addSink (some { ref := 0, olinkObjectName := [] })),
    .node (.linkRemote 0 [])]

theorem destroy_own_iff_linkedNode :
    let w := (useMachine .truncating 1).exec (emptyOf 1) linkedNode
    TouchesOwn w ((ClientNode.destroy .returning 0).run w).2 0 := by
  have hr : Run (useMachine .truncating 1) _ _ := run_play linkedNode (s := emptyOf 1)
    ⟨rfl, fun _ => rfl⟩ (by decide +kernel)
  refine (destroy_own_iff ClientEnv.returning_returns hr (by decide +kernel)).mpr ?_
  intro hid
  exact absurd hid (by decide +kernel)

/-- Two nodes in a storage for one, and a sink that is linked through neither. -/
def secondNode : List Use :=
  [.node .create, .node .create, .node (.addSink (some { ref := 0, olinkObjectName := [] }))]

/-- **A node without a registration** releases the sinks that are linked through no node. -/
theorem unregistered_node_unlinks : ¬ ∀ (maxCount : Nat) (h : List (Client × Use)) (w : Client),
    Run (useMachine .truncating maxCount) h w → ∀ n, w.nodeAlive n = true →
      TouchesOwn w ((ClientNode.destroy .returning n).run w).2 n := by
  intro hall
  have hr : Run (useMachine .truncating 1) _ _ := run_play secondNode (s := emptyOf 1)
    ⟨rfl, fun _ => rfl⟩ (by decide +kernel)
  have htouches := hall 1 _ _ hr 1 (by decide +kernel)
  have hstray := (touchesOwn_iff ClientEnv.returning_returns (nodesRegistered_run _ _ hr)
    (by decide +kernel)).mp htouches
  have hnone := (hstray (by decide +kernel) [] (by decide +kernel) (by decide +kernel)).1
  exact absurd hnone (by decide +kernel)

end Client

end ObjectLink
