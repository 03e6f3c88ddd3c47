import ObjectLink.Core.AnyCapacity
import ObjectLink.ClientRegistryRuns
import ObjectLink.RemoteRegistryRuns

/-!
# Adding what is stored already

"One object is stored only once, if it already exists in the storage then no new id is generated
and old one is used" (`uniqueidobjectstorage.h:34`). `add` looks for the object, but only after it
has looked for room (`:45-56`): in a storage full of live objects the second `add` of one of them
returns the invalid id.

Results:
* `readds_iff`: `add` finds a stored live object exactly if fewer than `maxCount` live objects are
  stored.
* `nodes_run`: the node storage of either registry makes a run of a storage.
* `add_again_iff`: the same over whole runs, for the storage and for the `registerNode` of both
  registries.
* `add_again_full`: a storage for one object.
-/

namespace ObjectLink

open Foundation (Machine Run run_play)

namespace UniqueIdObjectStorage

variable {Obj : Type} [DecidableEq Obj] {alive : Obj → Bool} {s : UniqueIdObjectStorage Obj}
  {o : Obj} {k maxCount : Nat}

/-! ## The second `add` -/

/-- **A stored live object** that is added again is found, if the search is made at all. -/
theorem add_stored (hs : s.Sized maxCount) (ho : alive o = true) (hk : s.get k = some o) :
    s.add alive (some o) =
      (if s.liveCount alive < maxCount then k else invalidId, s.room alive) := by
  have hroom : (s.room alive).get k = some o := (get_room_iff ho).mpr hk
  have hlive : (s.room alive).objects.size < s.maxCount ↔ s.liveCount alive < maxCount := by
    rw [← hs.maxCount_eq]
    exact room_size_lt_iff hs.counted.size_le
  rcases add_locked hs ho with ⟨hfull, heq⟩ | ⟨hlt, hout⟩
  · rw [heq, if_neg (fun h => Nat.ne_of_lt (hlive.mpr h) hfull)]
  · rw [if_pos (hlive.mp hlt)]
    generalize s.add alive (some o) = r at hout
    cases hout with
    | found hid => rw [hs.distinct _ k o (get_of_get_room hid) hk]
    | refused hnew _ _ _ => exact absurd hroom (hnew k)
    | stored hnew _ _ _ _ _ => exact absurd hroom (hnew k)

/-- **What adding again should do**: return the number the object has, and leave the live objects
where they are. -/
structure Readds (alive : Obj → Bool) (s : UniqueIdObjectStorage Obj) (k : Nat) (o : Obj) : Prop
    where
  id_eq : (s.add alive (some o)).1 = k
  get_eq : ∀ j x, (s.get j).lock alive = some x → (s.add alive (some o)).2.get j = s.get j

/-- It returns the number exactly if it finds room. -/
theorem add_stored_fst_iff (hs : s.Sized maxCount) (hk : (s.get k).lock alive = some o) :
    (s.add alive (some o)).1 = k ↔ s.liveCount alive < maxCount := by
  obtain ⟨hget, ho⟩ := WeakPtr.lock_eq_some.mp hk
  rw [add_stored hs ho hget]
  dsimp only
  split
  · rename_i hlt
    exact iff_of_true rfl hlt
  · rename_i hge
    exact iff_of_false (hs.valid k o hget).symm hge

/-- **Adding again** does what it should exactly if fewer than `maxCount` live objects are stored:
the purge that makes room never moves a live one. -/
theorem readds_iff (hs : s.Sized maxCount) (hk : (s.get k).lock alive = some o) :
    Readds alive s k o ↔ s.liveCount alive < maxCount := by
  rw [← add_stored_fst_iff hs hk]
  refine ⟨fun h => h.id_eq, fun hid => ⟨hid, ?_⟩⟩
  intro j x hx
  obtain ⟨hget, ho⟩ := WeakPtr.lock_eq_some.mp hk
  obtain ⟨hj, hx⟩ := WeakPtr.lock_eq_some.mp hx
  rw [add_stored hs ho hget, hj]
  exact (get_room_iff hx).mpr hj

end UniqueIdObjectStorage

/-! ## The storages of the registries -/

namespace ClientRegistry

/-- The node storage and the nodes that are alive. -/
def World.nodes (w : World) : UniqueIdObjectStorage.Holding NodeRef :=
  ⟨w.registry.clientNodesById, w.nodeAlive⟩

/-- **The node storage of a client registry** makes a run of a storage. -/
theorem nodes_run {h : List (World × Action)} {w : World} (hr : Run machine h w) :
    ∃ h', Run (UniqueIdObjectStorage.machine NodeRef 0xFFFFFFFF) h' w.nodes := by
  refine hr.simulate World.nodes ?_ ?_
  · intro w hw
    have hnew : w.registry = new := hw
    exact congrArg ClientRegistry.clientNodesById hnew
  · intro w a _
    -- the next storage, for an action that leaves the nodes alive as they are
    have hof : ∀ {r : ClientRegistry} {st sa}, r.clientNodesById = st →
        (⟨r, w.nodeAlive, sa⟩ : World).nodes = ⟨st, w.nodeAlive⟩ := fun h => h ▸ rfl
    cases a with
    | setNode id o => exact Or.inl (hof clientNodesById_setNode)
    | unsetNode o => exact Or.inl (hof clientNodesById_unsetNode)
    | addSink sink => exact Or.inl (hof (clientNodesById_addSink sink))
    | removeSink o | sinkExpires s => exact Or.inl rfl
    | nodeExpires n => exact Or.inr ⟨.expire n, trivial, rfl⟩
    | registerNode node =>
      have heq : w.registry.registerNode w.nodeAlive node = _ := registerNode_eq node
      exact Or.inr ⟨.add node, trivial, hof (congrArg (fun x => x.2.clientNodesById) heq)⟩
    | unregisterNode id =>
      by_cases hid : id = invalidId
      · rw [hid]
        exact Or.inl (hof (congrArg _ unregisterNode_invalidId))
      · exact Or.inr ⟨.remove id, trivial, hof (clientNodesById_unregisterNode hid)⟩

end ClientRegistry

namespace RemoteRegistry

/-- The node storage and the nodes that are alive. -/
def World.nodes (w : World) : UniqueIdObjectStorage.Holding NodeRef :=
  ⟨w.registry.remoteNodesById, w.nodeAlive⟩

/-- **The node storage of a remote registry** makes a run of a storage. -/
theorem nodes_run {h : List (World × Action)} {w : World} (hr : Run unboundedMachine h w) :
    ∃ h', Run (UniqueIdObjectStorage.machine NodeRef 0xFFFFFFFF) h' w.nodes := by
  refine hr.simulate World.nodes ?_ ?_
  · intro w hw
    have hnew : w.registry = new := hw
    exact congrArg RemoteRegistry.remoteNodesById hnew
  · intro w a _
    have hof : ∀ {r : RemoteRegistry} {st sa}, r.remoteNodesById = st →
        (⟨r, w.nodeAlive, sa⟩ : World).nodes = ⟨st, w.nodeAlive⟩ := fun h => h ▸ rfl
    cases a with
    | addSource source => exact Or.inl (hof (remoteNodesById_addSource source))
    | addNodeForSource id o => exact Or.inl (hof remoteNodesById_addNodeForSource)
    | removeNodeFromSource id o => exact Or.inl (hof remoteNodesById_removeNodeFromSource)
    | removeSource o | sourceExpires s => exact Or.inl rfl
    | nodeExpires n => exact Or.inr ⟨.expire n, trivial, rfl⟩
    | registerNode node =>
      have heq := registerNode_eq (r := w.registry) w.nodeAlive node
      exact Or.inr ⟨.add node, trivial, hof (congrArg (fun x => x.2.remoteNodesById) heq)⟩
    | unregisterNode id =>
      by_cases hid : id = invalidId
      · rw [hid]
        exact Or.inl (hof (congrArg _ unregisterNode_invalidId))
      · exact Or.inr ⟨.remove id, trivial, hof (remoteNodesById_unregisterNode hid)⟩

end RemoteRegistry

/-! ## Runs -/

open UniqueIdObjectStorage (Holding Readds)

/-- **Adding again over whole runs.** In every state a storage of any capacity can reach, and for
every live object in it, `add` of that object returns its number and moves no live object exactly if
fewer than `maxCount` live objects are stored; `registerNode` of a registered live node returns the
id it has under the same condition, in every state either registry can reach. -/
theorem add_again_iff (Obj : Type) [DecidableEq Obj] (maxCount : Nat) :
    (∀ (h : List (Holding Obj × UniqueIdObjectStorage.Action Obj)) (t : Holding Obj),
      Run (UniqueIdObjectStorage.machine Obj maxCount) h t →
      ∀ k o, (t.storage.get k).lock t.alive = some o →
        (Readds t.alive t.storage k o ↔ t.storage.liveCount t.alive < maxCount)) ∧
    (∀ (h : List (ClientRegistry.World × ClientRegistry.Action)) (w : ClientRegistry.World),
      Run ClientRegistry.machine h w →
      ∀ id n, (w.registry.clientNodesById.get id).lock w.nodeAlive = some n →
        ((w.registry.registerNode w.nodeAlive (some n)).1 = id ↔
          w.registry.clientNodesById.liveCount w.nodeAlive < 0xFFFFFFFF)) ∧
    (∀ (h : List (RemoteRegistry.World × RemoteRegistry.Action)) (w : RemoteRegistry.World),
      Run RemoteRegistry.unboundedMachine h w →
      ∀ id n, (w.registry.remoteNodesById.get id).lock w.nodeAlive = some n →
        ((w.registry.registerNode w.nodeAlive (some n)).1 = id ↔
          w.registry.remoteNodesById.liveCount w.nodeAlive < 0xFFFFFFFF)) := by
  refine ⟨?_, ?_, ?_⟩
  · intro h t hr k o hk
    exact UniqueIdObjectStorage.readds_iff (UniqueIdObjectStorage.sized_run hr) hk
  · intro h w hr id n hn
    obtain ⟨h', hr'⟩ := ClientRegistry.nodes_run hr
    rw [ClientRegistry.registerNode_eq]
    exact UniqueIdObjectStorage.add_stored_fst_iff (UniqueIdObjectStorage.sized_run hr') hn
  · intro h w hr id n hn
    obtain ⟨h', hr'⟩ := RemoteRegistry.nodes_run hr
    rw [RemoteRegistry.registerNode_eq]
    exact UniqueIdObjectStorage.add_stored_fst_iff (UniqueIdObjectStorage.sized_run hr') hn

namespace UniqueIdObjectStorage

/-- With a slot left the object `0` keeps its number. -/
theorem add_again_iff_twoSlots :
    Readds (fun _ => true) (next twoSlots (.add (some 0))).storage 0 0 :=
  have hr : Run (machine Nat 2) _ (next twoSlots (.add (some 0))) :=
    run_play (M := machine Nat 2) (s := twoSlots) [.add (some 0)] rfl (plays _ _)
  ((add_again_iff Nat 2).1 _ _ hr 0 0 (by decide +kernel)).mpr (by decide +kernel)

/-- **A full storage.** The one object in a storage for one object gets no number when it is added
again. -/
theorem add_again_full :
    ¬ ∀ (maxCount : Nat) (h : List (Holding Nat × Action Nat)) (t : Holding Nat),
      Run (machine Nat maxCount) h t → ∀ k o, (t.storage.get k).lock t.alive = some o →
        Readds t.alive t.storage k o := by
  intro hall
  have hid := (hall 1 _ _ run_oneSlot 0 0 (by decide +kernel)).id_eq
  exact absurd hid (by decide +kernel)

end UniqueIdObjectStorage

end ObjectLink
