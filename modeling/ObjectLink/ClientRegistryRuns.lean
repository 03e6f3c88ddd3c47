import ObjectLink.ClientRegistry
import ObjectLink.Foundation.Machine

/-!
# Node ids in the client registry

Any use of a `ClientRegistry` through its public operations, with nodes and sinks that expire at
any time. An entry names its node by a number, which says something only as long as the node
storage has an entry under that number.

`setNode` (`clientregistry.cpp:13-39`) looks the node up, logs "Node NOT added" when it is gone, and
then stores the number all the same, where `addNodeForSource` of the other registry returns
(`remoteregistry.cpp:99-124`). The number may be given to another node later, which then has the
object without ever being set for it.

Results:
* `Registered`: every entry holds the invalid id or the id of a registered node.
* `sound_iff`: one operation keeps to that, and to what it says of itself, exactly if it `Resolves`.
* `getNode_of_next`: only `setNode` gives a node an object.
* `entries_registered`: the same over whole runs.
* `setNode_unregistered`: an id that was never handed out.
-/

namespace ObjectLink

open Foundation (Machine Run run_play)

namespace ClientRegistry

/-- A registry, and which nodes and sinks are alive. -/
structure World where
  registry : ClientRegistry
  nodeAlive : NodeRef → Bool
  sinkAlive : Sink → Bool

/-- What can happen. -/
inductive Action where
  | setNode (id : Nat) (objectId : ObjectId)
  | unsetNode (objectId : ObjectId)
  | addSink (sink : WeakPtr Sink)
  | removeSink (objectId : ObjectId)
  | registerNode (node : WeakPtr NodeRef)
  | unregisterNode (id : Nat)
  | nodeExpires (n : NodeRef)
  | sinkExpires (s : Sink)

/-- What it does. -/
def next (w : World) : Action → World
  | .setNode id o => { w with registry := w.registry.setNode id o }
  | .unsetNode o => { w with registry := w.registry.unsetNode o }
  | .addSink sink => { w with registry := w.registry.addSink w.sinkAlive sink }
  | .removeSink o => { w with registry := w.registry.removeSink o }
  | .registerNode node => { w with registry := (w.registry.registerNode w.nodeAlive node).2 }
  | .unregisterNode id => { w with registry := w.registry.unregisterNode id }
  | .nodeExpires n => { w with nodeAlive := fun x => if x = n then false else w.nodeAlive x }
  | .sinkExpires s => { w with sinkAlive := fun x => if x = s then false else w.sinkAlive x }

/-- Any use of a new registry, with any nodes and sinks alive at the start. -/
def machine : Machine World Action where
  init w := w.registry = new
  enabled _ _ := True
  next := next

variable {w : World} {a : Action} {o k : ObjectId} {n : NodeRef} {id : Nat}

/-- Registering a node is adding it to the storage. -/
theorem next_registerNode (node : WeakPtr NodeRef) : next w (.registerNode node) = { w with
    registry := { w.registry with
      clientNodesById := (w.registry.clientNodesById.add w.nodeAlive node).2 } } := by
  unfold next
  dsimp only
  rw [registerNode_eq]

/-- The node storage keeps its invariant. -/
theorem wf_next (hw : w.registry.clientNodesById.Wf) (a : Action) :
    (next w a).registry.clientNodesById.Wf := by
  cases a with
  | setNode id o => exact clientNodesById_setNode (r := w.registry) ▸ hw
  | unsetNode o => exact clientNodesById_unsetNode (r := w.registry) ▸ hw
  | addSink sink => exact (clientNodesById_addSink (r := w.registry) sink).symm ▸ hw
  | removeSink o => exact hw
  | registerNode node =>
    rw [next_registerNode]
    exact UniqueIdObjectStorage.wf_add hw node
  | unregisterNode id =>
    by_cases hid : id = invalidId
    · rw [hid]
      exact unregisterNode_invalidId (r := w.registry) ▸ hw
    · have hst := clientNodesById_unregisterNode (r := w.registry) hid
      exact hst ▸ UniqueIdObjectStorage.wf_remove hw id
  | nodeExpires n | sinkExpires s => exact hw

theorem wf_run (h : List (World × Action)) (w : World) (hr : Run machine h w) :
    w.registry.clientNodesById.Wf := by
  induction hr with
  | @init w hw =>
    have hnew : w.registry = new := hw
    rw [hnew]
    exact UniqueIdObjectStorage.wf_new (Nat.le_refl _)
  | snoc _ _ ih => exact wf_next ih _

/-! ## What an operation should do -/

/-- **Every entry holds the invalid id or the id of a registered node.** -/
def Registered (w : World) : Prop :=
  ∀ o, w.registry.slot o = invalidId ∨
    ∃ n, w.registry.clientNodesById.get (w.registry.slot o) = some n

/-- The id belongs to a live registered node. -/
def Resolved (w : World) (id : Nat) : Prop :=
  ((w.registry.clientNodesById.get id).lock w.nodeAlive).isSome

/-- **What an operation should do**: leave only ids of registered nodes in the entries; leave all
entries alone when the node to set is gone; give a node that registers no object. -/
structure Sound (w : World) (a : Action) : Prop where
  registered : Registered (next w a)
  unchanged : ∀ id o, a = .setNode id o → ¬ Resolved w id →
    (next w a).registry.entries = w.registry.entries
  inheritsNothing : ∀ node, a = .registerNode node → ∀ o n,
    (next w a).registry.getNode o = some n → w.registry.getNode o = some n

/-- The entry of the object is taken, or it is free and is set to the invalid id. -/
def Untouched (r : ClientRegistry) (id : Nat) (o : ObjectId) : Prop :=
  ∃ entry, r.entries[o]? = some entry ∧ (entry.nodeId = invalidId → id = invalidId)

/-- **The condition on an operation**: `setNode` gets the id of a live registered node, or does not
touch the entry; a full storage is not purged of a node that an entry still refers to. -/
def Resolves (w : World) : Action → Prop
  | .setNode id o => Resolved w id ∨ Untouched w.registry id o
  | .registerNode node => (node.lock w.nodeAlive).isSome → ∀ o, w.registry.slot o = invalidId ∨
    ∃ n, (w.registry.clientNodesById.room w.nodeAlive).get (w.registry.slot o) = some n
  | _ => True

/-! ## One operation -/

/-- `setNode` leaves the entries alone exactly if it does not touch the entry of the object. -/
theorem entries_setNode_iff {r : ClientRegistry} :
    (r.setNode id o).entries = r.entries ↔ Untouched r id o := by
  unfold setNode Untouched
  cases he : r.entries[o]? with
  | none =>
    simp only [reduceCtorEq, false_and, exists_false, iff_false]
    intro h
    have hfind := congrArg (·[o]?) h
    simp [he] at hfind
  | some entry =>
    simp only [Option.some.injEq, exists_eq_left']
    by_cases hfree : entry.nodeId = invalidId
    · rw [if_pos hfree]
      constructor
      · intro h _
        have hfind := congrArg (·[o]?) h
        simp only [Foundation.find_insert, if_true, he, Option.some.injEq] at hfind
        rw [← hfree, ← hfind]
      · intro h
        have hid : { entry with nodeId := id } = entry := by
          rw [h hfree, ← hfree]
        refine Std.ExtTreeMap.ext_getElem? fun j => ?_
        rw [hid, Foundation.find_insert]
        split
        · rename_i hj
          rw [hj, he]
        · rfl
    · simp [hfree]

/-- An operation on other entries, or one that frees a slot. -/
theorem Registered.of_slots {w' : World} (hw : Registered w)
    (hst : w'.registry.clientNodesById = w.registry.clientNodesById)
    (hs : ∀ o, w'.registry.slot o = w.registry.slot o ∨ w'.registry.slot o = invalidId) :
    Registered w' := by
  intro o
  rw [hst]
  rcases hs o with h | h
  · rw [h]
    exact hw o
  · exact Or.inl h

theorem registered_setNode (hw : Registered w) (hr : Resolved w id) :
    Registered (next w (.setNode id k)) := by
  intro o
  show (w.registry.setNode id k).slot o = invalidId ∨ ∃ n,
    (w.registry.setNode id k).clientNodesById.get ((w.registry.setNode id k).slot o) = some n
  rw [clientNodesById_setNode, slot_setNode]
  split
  · obtain ⟨n, hn⟩ := Option.isSome_iff_exists.mp hr
    exact Or.inr ⟨n, (WeakPtr.lock_eq_some.mp hn).1⟩
  · exact hw o

/-- **`setNode`** does what it should exactly if it `Resolves`. -/
theorem sound_setNode (hw : Registered w) :
    Sound w (.setNode id k) ↔ Resolves w (.setNode id k) := by
  constructor
  · intro hs
    by_cases hr : Resolved w id
    · exact Or.inl hr
    · exact Or.inr (entries_setNode_iff.mp (hs.unchanged id k rfl hr))
  · intro hg
    have hregistered : Registered (next w (.setNode id k)) := by
      rcases hg with hr | hu
      · exact registered_setNode hw hr
      · have he := entries_setNode_iff.mpr hu
        refine hw.of_slots clientNodesById_setNode fun o => Or.inl ?_
        simp only [slot, next, he]
    refine ⟨hregistered, ?_, fun node hn => by cases hn⟩
    intro id' o ha hr
    cases ha
    exact entries_setNode_iff.mpr (hg.resolve_left hr)

/-- What registering a node does to the node of an object. -/
theorem getNode_registerNode (hw : w.registry.clientNodesById.Wf) (node : WeakPtr NodeRef) :
    (next w (.registerNode node)).registry.getNode o
      = (w.registry.clientNodesById.add w.nodeAlive node).2.get (w.registry.slot o) := by
  have hwf := wf_next hw (.registerNode node)
  rw [getNode_eq hwf, next_registerNode]
  rfl

theorem registered_registerNode (node : WeakPtr NodeRef) :
    Registered (next w (.registerNode node)) ↔ ∀ o, w.registry.slot o = invalidId ∨ ∃ n,
      (w.registry.clientNodesById.add w.nodeAlive node).2.get (w.registry.slot o) = some n := by
  unfold Registered
  rw [next_registerNode]
  rfl

/-- **`registerNode`** does what it should exactly if the purge that a full storage makes takes no
node away that an entry refers to. A number that is taken away can come back at once, as that of the
new node. -/
theorem sound_registerNode (hst : w.registry.clientNodesById.Wf) (hw : Registered w)
    (node : WeakPtr NodeRef) : Sound w (.registerNode node) ↔ Resolves w (.registerNode node) := by
  have hsound : Sound w (.registerNode node) ↔ Registered (next w (.registerNode node)) ∧
      ∀ o n, (next w (.registerNode node)).registry.getNode o = some n →
        w.registry.getNode o = some n := by
    constructor
    · exact fun h => ⟨h.registered, h.inheritsNothing node rfl⟩
    · rintro ⟨hr, hi⟩
      refine ⟨hr, ?_, ?_⟩
      · intro id o ha
        cases ha
      · intro node' ha
        cases ha
        exact hi
  have hout := UniqueIdObjectStorage.add_outcome w.nodeAlive hst node
  rw [hsound, registered_registerNode]
  simp only [getNode_registerNode hst, getNode_eq hst]
  dsimp only [Resolves]
  generalize w.registry.clientNodesById.add w.nodeAlive node = result at hout
  cases hout with
  | expired hnone =>
    rw [hnone]
    simp only [Option.isSome_none, Bool.false_eq_true, false_implies, iff_true]
    exact ⟨hw, fun _ _ h => h⟩
  | full hsome _ | found hsome _ =>
    rw [hsome]
    simp only [Option.isSome_some, true_implies, and_iff_left_iff_imp]
    exact fun _ o n h => UniqueIdObjectStorage.get_of_get_room h
  | @stored m id s' hsome hnew hlt hfree hwf hmax hget =>
    rw [hsome]
    simp only [Option.isSome_some, true_implies, hget]
    constructor
    · rintro ⟨hr, hi⟩ o
      have ho := hr o
      by_cases hid : w.registry.slot o = id
      · -- the new node has the number of a purged one
        exact absurd (hi o m (by rw [if_pos hid])) (hnew _)
      · rwa [if_neg hid] at ho
    · intro hroom
      have hne : ∀ o, w.registry.slot o ≠ invalidId → w.registry.slot o ≠ id := by
        rintro o hvalid rfl
        obtain ⟨x, hx⟩ := (hroom o).resolve_left hvalid
        rw [hfree] at hx
        cases hx
      refine ⟨fun o => ?_, fun o x hx => ?_⟩
      · by_cases hvalid : w.registry.slot o = invalidId
        · exact Or.inl hvalid
        · rw [if_neg (hne o hvalid)]
          exact hroom o
      · by_cases hid : w.registry.slot o = id
        · have hle := hst.maxCount_le
          exact absurd hid (hne o (by omega))
        · rw [if_neg hid] at hx
          exact UniqueIdObjectStorage.get_of_get_room hx

/-- **One operation** does what it should exactly if it `Resolves`. -/
theorem sound_iff (hst : w.registry.clientNodesById.Wf) (hw : Registered w) (a : Action) :
    Sound w a ↔ Resolves w a := by
  have hother : Registered (next w a) → (∀ id o, a ≠ .setNode id o) →
      (∀ node, a ≠ .registerNode node) → Sound w a := fun hr hset hreg =>
    ⟨hr, fun id o ha => absurd ha (hset id o), fun node ha => absurd ha (hreg node)⟩
  cases a with
  | setNode id o => exact sound_setNode hw
  | registerNode node => exact sound_registerNode hst hw node
  | unsetNode k =>
    refine iff_of_true (hother ?_ (by simp) (by simp)) trivial
    refine hw.of_slots clientNodesById_unsetNode fun o => ?_
    show (w.registry.unsetNode k).slot o = _ ∨ (w.registry.unsetNode k).slot o = _
    rw [slot_unsetNode]
    split
    · exact Or.inr rfl
    · exact Or.inl rfl
  | addSink sink =>
    exact iff_of_true (hother (hw.of_slots (clientNodesById_addSink sink)
      fun o => Or.inl (slot_addSink sink)) (by simp) (by simp)) trivial
  | removeSink k =>
    refine iff_of_true (hother ?_ (by simp) (by simp)) trivial
    refine hw.of_slots rfl fun o => ?_
    show (w.registry.removeSink k).slot o = _ ∨ (w.registry.removeSink k).slot o = _
    rw [slot_removeSink]
    split
    · exact Or.inr rfl
    · exact Or.inl rfl
  | unregisterNode id =>
    refine iff_of_true (hother ?_ (by simp) (by simp)) trivial
    by_cases hid : id = invalidId
    · intro o
      have heq : (next w (.unregisterNode id)).registry = w.registry := by
        rw [hid]
        exact unregisterNode_invalidId
      rw [heq]
      exact hw o
    · intro o
      show (w.registry.unregisterNode id).slot o = invalidId ∨ ∃ n,
        (w.registry.unregisterNode id).clientNodesById.get
          ((w.registry.unregisterNode id).slot o) = some n
      rw [slot_unregisterNode hid, clientNodesById_unregisterNode hid]
      by_cases hs : w.registry.slot o = id
      · rw [if_pos hs]
        exact Or.inl rfl
      · rw [if_neg hs, UniqueIdObjectStorage.get_remove, if_neg hs]
        exact hw o
  | nodeExpires n | sinkExpires s =>
    exact iff_of_true (hother hw (by simp) (by simp)) trivial

/-! ## Who has an object -/

/-- `setNode` is called for the object with the id of the node. -/
def SetFor (o : ObjectId) (n : NodeRef) (x : World × Action) : Prop :=
  ∃ id, x.2 = .setNode id o ∧ x.1.registry.clientNodesById.get id = some n

/-- **Only `setNode` gives a node an object**, as long as the operations do what they should. -/
theorem getNode_of_next (hst : w.registry.clientNodesById.Wf) (hs : Sound w a)
    (hn : (next w a).registry.getNode o = some n) :
    w.registry.getNode o = some n ∨ SetFor o n (w, a) := by
  have hst' := wf_next hst a
  rw [getNode_eq hst]
  cases a with
  | setNode id k =>
    rw [getNode_eq hst'] at hn
    have hn : (w.registry.setNode id k).clientNodesById.get
        ((w.registry.setNode id k).slot o) = some n := hn
    rw [clientNodesById_setNode, slot_setNode] at hn
    split at hn
    · rename_i ho
      exact Or.inr ⟨id, by rw [ho.1], hn⟩
    · exact Or.inl hn
  | unsetNode k =>
    rw [getNode_eq hst'] at hn
    have hn : (w.registry.unsetNode k).clientNodesById.get
        ((w.registry.unsetNode k).slot o) = some n := hn
    rw [clientNodesById_unsetNode, slot_unsetNode] at hn
    split at hn
    · rw [hst.get_invalidId] at hn
      cases hn
    · exact Or.inl hn
  | addSink sink =>
    rw [getNode_eq hst'] at hn
    have hn : (w.registry.addSink w.sinkAlive sink).clientNodesById.get
        ((w.registry.addSink w.sinkAlive sink).slot o) = some n := hn
    rw [clientNodesById_addSink, slot_addSink] at hn
    exact Or.inl hn
  | removeSink k =>
    rw [getNode_eq hst'] at hn
    have hn : w.registry.clientNodesById.get ((w.registry.removeSink k).slot o) = some n := hn
    rw [slot_removeSink] at hn
    split at hn
    · rw [hst.get_invalidId] at hn
      cases hn
    · exact Or.inl hn
  | registerNode node =>
    have h := hs.inheritsNothing node rfl o n hn
    rw [getNode_eq hst] at h
    exact Or.inl h
  | unregisterNode id =>
    rw [getNode_eq hst'] at hn
    have hn : (w.registry.unregisterNode id).clientNodesById.get
        ((w.registry.unregisterNode id).slot o) = some n := hn
    by_cases hid : id = invalidId
    · rw [hid, unregisterNode_invalidId] at hn
      exact Or.inl hn
    · rw [slot_unregisterNode hid, clientNodesById_unregisterNode hid] at hn
      split at hn
      · have h := UniqueIdObjectStorage.get_of_get_remove hn
        rw [hst.get_invalidId] at h
        cases h
      · exact Or.inl (UniqueIdObjectStorage.get_of_get_remove hn)
  | nodeExpires m | sinkExpires s =>
    rw [getNode_eq hst'] at hn
    exact Or.inl hn

/-! ## Runs -/

theorem registered_init (hw : machine.init w) : Registered w := by
  intro o
  have hnew : w.registry = new := hw
  rw [hnew]
  exact Or.inl (slot_of_not_mem Std.ExtTreeMap.getElem?_empty)

/-- In a run whose steps all `Resolve`, all operations do what they should, and the entries hold
ids of registered nodes in every state. -/
theorem registered_run {h : List (World × Action)} (hr : Run machine h w)
    (hg : ∀ x ∈ h, Resolves x.1 x.2) : Registered w :=
  (hr.invariant_of_guard (I := fun w => w.registry.clientNodesById.Wf ∧ Registered w)
    (fun w hw => ⟨wf_run [] w (.init hw), registered_init hw⟩)
    (fun _ a hi _ hg => ⟨wf_next hi.1 a, ((sound_iff hi.1 hi.2 a).mpr hg).registered⟩) hg).2

/-- What the operations do that do what they should, in terms of what has been set: a node that
has an object had it set since it registered anew. -/
theorem setFor_of_getNode {h h' : List (World × Action)} (hr : Run machine (h ++ h') w)
    (hg : ∀ x ∈ h ++ h', Resolves x.1 x.2) (hn : w.registry.getNode o = some n)
    (hno : ∀ u, Run machine h u → u.registry.getNode o ≠ some n) : ∃ x ∈ h', SetFor o n x := by
  induction h' using List.reverseRecOn generalizing w with
  | nil =>
    rw [List.append_nil] at hr
    exact absurd hn (hno w hr)
  | append_singleton l x ih =>
    rw [← List.append_assoc] at hr hg
    have hlast : x ∈ h ++ l ++ [x] := List.mem_append_right _ (List.mem_singleton.mpr rfl)
    have hg' : ∀ y ∈ h ++ l, Resolves y.1 y.2 := fun y hy => hg y (List.mem_append_left _ hy)
    obtain ⟨v, a⟩ := x
    generalize hl : h ++ l ++ [(v, a)] = whole at hr
    cases hr with
    | init _ => simp at hl
    | @snoc h'' s b hr _ =>
      obtain ⟨rfl, hx⟩ := List.append_inj' hl rfl
      cases hx
      have hsound := (sound_iff (wf_run _ _ hr) (registered_run hr hg') a).mpr (hg _ hlast)
      rcases getNode_of_next (wf_run _ _ hr) hsound hn with hn | hset
      · obtain ⟨y, hy, hset⟩ := ih hr hg' hn
        exact ⟨y, List.mem_append_left _ hy, hset⟩
      · exact ⟨_, List.mem_append_right _ (List.mem_singleton.mpr rfl), hset⟩

/-- **Runs.** All operations of a run do what they should exactly if they all `Resolve`; then every
entry holds the invalid id or the id of a registered node in every state, and a node has only
objects that `setNode` was called for since the node was last registered anew. -/
theorem entries_registered {h : List (World × Action)} (hr : Run machine h w) :
    ((∀ x ∈ h, Resolves x.1 x.2) ↔ ∀ x ∈ h, Sound x.1 x.2) ∧
    ((∀ x ∈ h, Resolves x.1 x.2) → (∀ x ∈ h, Registered x.1) ∧ Registered w ∧
      ∀ h₁ v n h₂, h = h₁ ++ (v, .registerNode (some n)) :: h₂ →
        (∀ k, v.registry.clientNodesById.get k ≠ some n) →
        ∀ o, w.registry.getNode o = some n → ∃ x ∈ h₂, SetFor o n x) := by
  refine ⟨?_, fun hg => ⟨?_, registered_run hr hg, ?_⟩⟩
  · induction hr with
    | init _ => simp
    | @snoc h s a hr _ ih =>
      simp only [List.forall_mem_append, List.forall_mem_singleton]
      constructor
      · rintro ⟨hg, ha⟩
        exact ⟨ih.mp hg, (sound_iff (wf_run _ _ hr) (registered_run hr hg) a).mpr ha⟩
      · rintro ⟨hs, ha⟩
        have hg := ih.mpr hs
        exact ⟨hg, (sound_iff (wf_run _ _ hr) (registered_run hr hg) a).mp ha⟩
  · intro x hx
    obtain ⟨h₁, h₂, rfl⟩ := List.append_of_mem hx
    exact registered_run hr.split.1 fun y hy => hg y (List.mem_append_left _ hy)
  · rintro h₁ v n h₂ rfl hnew o hn
    have hcons : h₁ ++ (v, Action.registerNode (some n)) :: h₂
        = h₁ ++ [(v, .registerNode (some n))] ++ h₂ := by simp
    rw [hcons] at hr hg
    refine setFor_of_getNode hr hg hn ?_
    intro u hu hcontra
    generalize hl : h₁ ++ [(v, Action.registerNode (some n))] = whole at hu
    cases hu with
    | init _ => simp at hl
    | @snoc h'' s b hr' _ =>
      obtain ⟨rfl, hx⟩ := List.append_inj' hl rfl
      cases hx
      have hg₁ : ∀ y ∈ h₁, Resolves y.1 y.2 := fun y hy =>
        hg y (List.mem_append_left _ (List.mem_append_left _ hy))
      have hlast := hg (v, .registerNode (some n)) (by simp)
      have hst := wf_run _ _ hr'
      have hsound := (sound_iff hst (registered_run hr' hg₁) _).mpr hlast
      have h := hsound.inheritsNothing _ rfl o n hcontra
      rw [getNode_eq hst] at h
      exact hnew _ h

/-! ## An id that was never handed out -/

/-- A new registry, with everything alive. -/
def fresh : World := ⟨new, fun _ => true, fun _ => true⟩

/-- A node registers and is set for an object. -/
def regular : List Action := [.registerNode (some 0), .setNode 0 (lit "o")]

theorem run_regular : Run machine (machine.history fresh regular) (machine.exec fresh regular) :=
  run_play regular rfl ⟨trivial, trivial, trivial⟩

theorem resolves_regular : ∀ x ∈ machine.history fresh regular, Resolves x.1 x.2 := by
  have hfirst : Resolves fresh (.registerNode (some 0)) := fun _ o =>
    Or.inl (slot_of_not_mem Std.ExtTreeMap.getElem?_empty)
  have hsecond : Resolves (next fresh (.registerNode (some 0))) (.setNode 0 (lit "o")) :=
    Or.inl (by unfold Resolved; decide +kernel)
  intro x hx
  rcases List.mem_cons.mp hx with rfl | hx
  · exact hfirst
  · obtain rfl := List.mem_singleton.mp hx
    exact hsecond

theorem entries_registered_regular :
    (∀ x ∈ machine.history fresh regular, Sound x.1 x.2) ∧
      Registered (machine.exec fresh regular) :=
  have h := entries_registered run_regular
  ⟨h.1.mp resolves_regular, (h.2 resolves_regular).2.1⟩

theorem setNode_unregistered : ¬ ∀ (h : List (World × Action)) (w : World),
    Run machine h w → Registered w := by
  intro hall
  have hr : Run machine _ _ := run_play [.setNode 5 (lit "o")] (s := fresh) rfl ⟨trivial, trivial⟩
  rcases hall _ _ hr (lit "o") with h | ⟨n, h⟩
  · exact absurd h (by decide +kernel)
  · cases h

end ClientRegistry

end ObjectLink
