import ObjectLink.ClientRegistry
import ObjectLink.RemoteRegistryRuns

/-!
# Registering sources

`addSource` (`remoteregistry.cpp:12-39`) works out whether the entry of the object has a live source
(`anyAdded`), and then handles no entry, this source and another live one. An entry whose source has
expired falls through: the new source is not registered, where `addSink` of the other registry
refills the entry (`clientregistry.cpp:68-80`).

Only `addSource` creates entries. `addNodeForSource` (`:99-124`) drops the node when there is none,
though "the node is still going to be added" (`remoteregistry.h:77`) and "the order of registration
is not relevant" (`:29`).

Results:
* `fills_addSource_iff`, `fills_addSink`: what registering an object leaves under its id.
* `registers_iff`: a source can be registered whenever none is alive, exactly if the entry of the
  object, if any, has a live source; in runs without a source that expires before it is removed
  that is always so, and for sinks it is so in any case.
* `expired_source_stays`: a second source after the first has expired.
* `order_irrelevant_iff`: a source and a node may be entered in either order exactly if the object
  has an entry already.
* `node_before_source`: the node first, in a new registry.
-/

namespace ObjectLink

open Foundation (Machine Run run_play find_insert mem_iff_find)

/-- **What registering an object should leave under its id**: a live object, which is the one that
was registered and alive before, or else the new one. -/
structure Fills {Obj : Type} (alive : Obj → Bool) (before : WeakPtr Obj) (x : Obj)
    (after : WeakPtr Obj) : Prop where
  live : after.expired alive = false
  kept : ∀ y, before.lock alive = some y → after = some y
  taken : before.lock alive = none → after = some x

section Fills

variable {Obj : Type} {alive : Obj → Bool} {x : Obj} {before : WeakPtr Obj}

/-- Leaving alone what is there is right exactly if it is alive. -/
theorem fills_self_iff : Fills alive before x before ↔ before.expired alive = false := by
  constructor
  · exact fun h => h.live
  · intro hlive
    refine ⟨hlive, fun y hy => (WeakPtr.lock_eq_some.mp hy).1, fun hdead => ?_⟩
    obtain ⟨y, hy⟩ := WeakPtr.expired_eq_false_iff.mp hlive
    rw [hdead] at hy
    cases hy

/-- The new object is right if it is alive and no other one was. -/
theorem fills_new (hx : alive x = true) (hdead : before.expired alive = true) :
    Fills alive before x (some x) := by
  refine ⟨?_, fun y hy => ?_, fun _ => rfl⟩
  · exact WeakPtr.expired_eq_false_iff.mpr ⟨x, WeakPtr.lock_eq_some.mpr ⟨rfl, hx⟩⟩
  · rw [WeakPtr.expired_eq_true_iff.mp hdead] at hy
    cases hy

end Fills

/-! ## One registration -/

/-- **A live sink** is registered if none is, in any case. -/
theorem ClientRegistry.fills_addSink {r : ClientRegistry} {sinkAlive : Sink → Bool} {s : Sink}
    (hs : sinkAlive s = true) : Fills sinkAlive (r.getSink s.olinkObjectName) s
      ((r.addSink sinkAlive (some s)).getSink s.olinkObjectName) := by
  rw [ClientRegistry.getSink_addSink hs]
  split
  · rename_i h
    exact fills_new hs h.2
  · rename_i h
    rw [fills_self_iff]
    exact Bool.eq_false_iff.mpr fun hdead => h ⟨rfl, hdead⟩

namespace RemoteRegistry

variable {r : RemoteRegistry} {nodeAlive : NodeRef → Bool} {sourceAlive : Source → Bool}
  {s : Source} {n : NodeRef} {o : ObjectId} {id : Nat}

/-- The entry of the object, if there is one, has a live source. -/
def Unexpired (sourceAlive : Source → Bool) (r : RemoteRegistry) (o : ObjectId) : Prop :=
  ∀ e, r.entries[o]? = some e → e.source.expired sourceAlive = false

/-- **A live source** is registered if none is, exactly if the entry of its object, if any, has a
live source. -/
theorem fills_addSource_iff (hs : sourceAlive s = true) :
    Fills sourceAlive (r.getSource s.olinkObjectName) s
      ((r.addSource sourceAlive (some s)).getSource s.olinkObjectName) ↔
      Unexpired sourceAlive r s.olinkObjectName := by
  unfold Unexpired
  cases he : r.entries[s.olinkObjectName]? with
  | none =>
    rw [getSource_addSource_of_not_mem hs he, getSource_of_not_mem he]
    refine iff_of_true (fills_new hs rfl) ?_
    intro e h
    cases h
  | some e =>
    rw [addSource_of_find he, fills_self_iff, getSource_of_find he]
    simp only [Option.some.injEq, forall_eq']

/-! ## Runs -/

/-- No source expires while it is registered: "source object implementation should always be removed
from registry before destroying it" (`remoteregistry.h:32`). -/
def RemovedFirst (w : World) : Action → Prop
  | .sourceExpires s => ∀ o, w.registry.getSource o ≠ some s
  | _ => True

/-- What creates no entry, and changes the source of none, keeps that so. -/
theorem Unexpired.of_find {r' : RemoteRegistry} (hlive : Unexpired sourceAlive r o)
    (h : ∀ e', r'.entries[o]? = some e' → ∃ e, r.entries[o]? = some e ∧ e'.source = e.source) :
    Unexpired sourceAlive r' o := by
  intro e' he'
  obtain ⟨e, he, hsource⟩ := h e' he'
  rw [hsource]
  exact hlive e he

theorem source_of_find_insert {e e' : SourceToNodesEntry} {k : ObjectId}
    (he : r.entries[k]? = some e) {nodes : List Nat}
    (h : (r.entries.insert k { e with nodes := nodes })[o]? = some e') :
    ∃ e, r.entries[o]? = some e ∧ e'.source = e.source := by
  rw [find_insert] at h
  split at h
  · rename_i ho
    cases h
    exact ⟨e, ho ▸ he, rfl⟩
  · exact ⟨e', h, rfl⟩

/-- **One step** leaves no entry with an expired source, if sources are removed first. -/
theorem unexpired_next {w : World} (hi : ∀ o, Unexpired w.sourceAlive w.registry o) {a : Action}
    (ha : RemovedFirst w a) (o : ObjectId) :
    Unexpired (next w a).sourceAlive (next w a).registry o := by
  cases a with
  | addSource source =>
    show Unexpired w.sourceAlive (w.registry.addSource w.sourceAlive source) o
    cases hl : source.lock w.sourceAlive with
    | none =>
      unfold addSource
      rw [hl]
      exact hi o
    | some s =>
      obtain ⟨rfl, hs⟩ := WeakPtr.lock_eq_some.mp hl
      cases he : w.registry.entries[s.olinkObjectName]? with
      | some e =>
        rw [addSource_of_find he]
        exact hi o
      | none =>
        rw [addSource_of_not_mem hs he]
        intro e hfind
        rw [find_insert] at hfind
        split at hfind
        · cases hfind
          exact WeakPtr.expired_eq_false_iff.mpr ⟨s, hl⟩
        · exact hi o e hfind
  | removeSource k =>
    intro e he
    have he : (w.registry.entries.erase k)[o]? = some e := he
    rw [Foundation.find_erase] at he
    split at he
    · cases he
    · exact hi o e he
  | addNodeForSource id k =>
    refine (hi o).of_find fun e' he' => ?_
    have he' : (w.registry.addNodeForSource w.nodeAlive id k).entries[o]? = some e' := he'
    rcases addNodeForSource_cases w.nodeAlive w.registry id k with ⟨-, e, he, heq⟩ | ⟨-, heq⟩
    · rw [heq] at he'
      exact source_of_find_insert he he'
    · rw [heq] at he'
      exact ⟨e', he', rfl⟩
  | removeNodeFromSource id k =>
    refine (hi o).of_find fun e' he' => ?_
    have he' : (w.registry.removeNodeFromSource id k).entries[o]? = some e' := he'
    unfold removeNodeFromSource at he'
    split at he'
    · rename_i e he
      exact source_of_find_insert he he'
    · exact ⟨e', he', rfl⟩
  | registerNode node =>
    refine (hi o).of_find fun e' he' => ⟨e', ?_, rfl⟩
    have he' : (w.registry.registerNode w.nodeAlive node).2.entries[o]? = some e' := he'
    rwa [registerNode_eq] at he'
  | unregisterNode id =>
    refine (hi o).of_find fun e' he' => ?_
    have he' : (w.registry.unregisterNode id).entries[o]? = some e' := he'
    unfold unregisterNode at he'
    split at he'
    · exact ⟨e', he', rfl⟩
    · rw [Std.ExtTreeMap.getElem?_map, Option.map_eq_some_iff] at he'
      obtain ⟨e, he, rfl⟩ := he'
      exact ⟨e, he, rfl⟩
  | nodeExpires n => exact hi o
  | sourceExpires s =>
    intro e he
    have hlive : e.source.expired w.sourceAlive = false := hi o e he
    have hne : e.source ≠ some s := getSource_of_find he ▸ ha o
    obtain ⟨t, ht⟩ := WeakPtr.expired_eq_false_iff.mp hlive
    obtain ⟨hsource, halive⟩ := WeakPtr.lock_eq_some.mp ht
    have hts : t ≠ s := fun h => hne (h ▸ hsource)
    refine WeakPtr.expired_eq_false_iff.mpr ⟨t, WeakPtr.lock_eq_some.mpr ⟨hsource, ?_⟩⟩
    show (if t = s then false else w.sourceAlive t) = true
    rw [if_neg hts, halive]

/-- No source ever expires under its id, if sources are removed first. -/
theorem unexpired_run {h : List (World × Action)} {w : World} (hr : Run unboundedMachine h w)
    (hh : ∀ x ∈ h, RemovedFirst x.1 x.2) (o : ObjectId) :
    Unexpired w.sourceAlive w.registry o := by
  refine hr.invariant_of_guard (I := fun w => ∀ o, Unexpired w.sourceAlive w.registry o) ?_ ?_ hh o
  · intro w hw o e he
    have hnew : w.registry = new := hw
    rw [hnew] at he
    cases Std.ExtTreeMap.getElem?_empty.symm.trans he
  · exact fun _ _ hi _ ha => unexpired_next hi ha

/-- **Registering a source whenever none is alive.** `addSource` of a live source leaves a live
source under its id, the one that was there or else the new one, exactly if the entry of its object,
if there is one, has a live source. That is so in every state of a run in which every source is
removed before it expires. `addSink` of a live sink always does the same for sinks. -/
theorem registers_iff (sourceAlive : Source → Bool) (r : RemoteRegistry) {s : Source}
    (hs : sourceAlive s = true) :
    (Fills sourceAlive (r.getSource s.olinkObjectName) s
      ((r.addSource sourceAlive (some s)).getSource s.olinkObjectName) ↔
      Unexpired sourceAlive r s.olinkObjectName) ∧
    (∀ (h : List (World × Action)) (w : World), Run unboundedMachine h w →
      (∀ x ∈ h, RemovedFirst x.1 x.2) → ∀ s, w.sourceAlive s = true →
      Fills w.sourceAlive (w.registry.getSource s.olinkObjectName) s
        ((next w (.addSource (some s))).registry.getSource s.olinkObjectName)) ∧
    (∀ (sinkAlive : Sink → Bool) (r : ClientRegistry) (s : Sink), sinkAlive s = true →
      Fills sinkAlive (r.getSink s.olinkObjectName) s
        ((r.addSink sinkAlive (some s)).getSink s.olinkObjectName)) := by
  refine ⟨?_, ?_, ?_⟩
  · exact fills_addSource_iff hs
  · exact fun h w hr hh s hs => (fills_addSource_iff hs).mpr (unexpired_run hr hh _)
  · exact fun _ _ _ hs => ClientRegistry.fills_addSink hs

/-- A source that expires while it is registered, in a new registry. -/
def expiring : List Action :=
  [.addSource (some ⟨0, lit "o"⟩), .sourceExpires ⟨0, lit "o"⟩]

/-- A source that is removed before it expires. -/
def replaced : List Action :=
  [.addSource (some ⟨0, lit "o"⟩), .removeSource (lit "o"), .sourceExpires ⟨0, lit "o"⟩]

/-- A new registry, with all nodes and sources alive. -/
def fresh : World := ⟨new, fun _ => true, fun _ => true⟩

theorem registers_iff_replaced :
    let w := unboundedMachine.exec fresh replaced
    Fills w.sourceAlive (w.registry.getSource (lit "o")) ⟨1, lit "o"⟩
      ((next w (.addSource (some ⟨1, lit "o"⟩))).registry.getSource (lit "o")) := by
  have hr : Run unboundedMachine (unboundedMachine.history fresh replaced) _ :=
    run_play replaced rfl ⟨trivial, trivial, trivial, trivial⟩
  refine (registers_iff (s := ⟨1, lit "o"⟩) (fun _ => true) new rfl).2.1 _ _ hr ?_ _ rfl
  intro x hx
  rcases List.mem_cons.mp hx with rfl | hx
  · trivial
  rcases List.mem_cons.mp hx with rfl | hx
  · trivial
  rw [List.mem_singleton.mp hx]
  intro o
  show ((new.addSource (fun _ => true) (some ⟨0, lit "o"⟩)).removeSource (lit "o")).getSource o ≠ _
  rw [getSource_removeSource]
  split
  · exact nofun
  · rename_i ho
    rw [addSource_of_not_mem rfl Std.ExtTreeMap.getElem?_empty, getSource_insert, if_neg ho,
      getSource_of_not_mem Std.ExtTreeMap.getElem?_empty]
    exact nofun

/-- **An expired source stays.** The second source of the object is not registered. -/
theorem expired_source_stays : ¬ ∀ (h : List (World × Action)) (w : World),
    Run unboundedMachine h w → ∀ s, w.sourceAlive s = true →
      Fills w.sourceAlive (w.registry.getSource s.olinkObjectName) s
        ((next w (.addSource (some s))).registry.getSource s.olinkObjectName) := by
  intro hall
  have hr : Run unboundedMachine (unboundedMachine.history fresh expiring) _ :=
    run_play expiring rfl ⟨trivial, trivial, trivial⟩
  have hlive := (hall _ _ hr ⟨1, lit "o"⟩ rfl).live
  exact absurd hlive (by decide +kernel)

/-! ## Two orders -/

/-- The same source and nodes of an object, and the same objects of every node. -/
structure SameLinks (nodeAlive : NodeRef → Bool) (o : ObjectId) (r r' : RemoteRegistry) : Prop where
  source : r.getSource o = r'.getSource o
  nodes : r.getNodes nodeAlive o = r'.getNodes nodeAlive o
  objectIds : ∀ id, r.getObjectIds id = r'.getObjectIds id

/-- With an entry there is nothing left for `addSource` to do, before or after. -/
theorem addSource_comm_of_mem (ho : s.olinkObjectName ∈ r.entries) :
    (r.addNodeForSource nodeAlive id s.olinkObjectName).addSource sourceAlive (some s)
      = (r.addSource sourceAlive (some s)).addNodeForSource nodeAlive id s.olinkObjectName := by
  obtain ⟨e, he⟩ := (mem_iff_find _ _).mp ho
  rw [addSource_of_find he]
  rcases addNodeForSource_cases nodeAlive r id s.olinkObjectName with
    ⟨-, e', -, heq⟩ | ⟨-, heq⟩
  · rw [heq]
    exact addSource_of_find (by rw [find_insert, if_pos rfl])
  · rw [heq, addSource_of_find he]

/-- Without one, a node that comes first is dropped. -/
theorem nodeIds_node_first (ho : s.olinkObjectName ∉ r.entries) :
    ((r.addNodeForSource nodeAlive id s.olinkObjectName).addSource sourceAlive
      (some s)).nodeIds s.olinkObjectName = [] := by
  rw [nodeIds_addSource, nodeIds_addNodeForSource, if_neg (fun h => ho h.2.2.1)]
  exact nodeIds_of_not_mem (Std.ExtTreeMap.getElem?_eq_none ho)

/-- A node that comes second is entered. -/
theorem nodeIds_source_first (hs : sourceAlive s = true) (ho : s.olinkObjectName ∉ r.entries)
    (hn : (r.remoteNodesById.get id).lock nodeAlive = some n) :
    ((r.addSource sourceAlive (some s)).addNodeForSource nodeAlive id
      s.olinkObjectName).nodeIds s.olinkObjectName = [id] := by
  have hnone := Std.ExtTreeMap.getElem?_eq_none ho
  have hids : (r.addSource sourceAlive (some s)).nodeIds s.olinkObjectName = [] := by
    rw [nodeIds_addSource, nodeIds_of_not_mem hnone]
  have hlinks : Links nodeAlive (r.addSource sourceAlive (some s)) id s.olinkObjectName := by
    refine ⟨?_, ?_, ?_⟩
    · rw [remoteNodesById_addSource, hn]
      rfl
    · rw [addSource_of_not_mem hs hnone]
      exact (Foundation.mem_insert_iff _ _ _ _).mpr (Or.inl rfl)
    · rw [hids]
      exact List.not_mem_nil
  rw [nodeIds_addNodeForSource, if_pos ⟨rfl, hlinks⟩, hids]
  rfl

/-- **A source and a node in either order.** For every registry, every live registered node and
every live source, entering the node and then adding the source ends with the same source, nodes
and object ids as the other order exactly if the object has an entry already. -/
theorem order_irrelevant_iff (nodeAlive : NodeRef → Bool) (sourceAlive : Source → Bool)
    (r : RemoteRegistry) {id : Nat} {n : NodeRef} {s : Source}
    (hn : (r.remoteNodesById.get id).lock nodeAlive = some n) (hs : sourceAlive s = true) :
    SameLinks nodeAlive s.olinkObjectName
      ((r.addNodeForSource nodeAlive id s.olinkObjectName).addSource sourceAlive (some s))
      ((r.addSource sourceAlive (some s)).addNodeForSource nodeAlive id s.olinkObjectName) ↔
    s.olinkObjectName ∈ r.entries := by
  constructor
  · intro hsame
    by_contra ho
    have hmem : s.olinkObjectName ∈ ((r.addSource sourceAlive (some s)).addNodeForSource nodeAlive
        id s.olinkObjectName).getObjectIds id := by
      rw [mem_getObjectIds, nodeIds_source_first hs ho hn]
      exact List.mem_singleton.mpr rfl
    rw [← hsame.objectIds, mem_getObjectIds, nodeIds_node_first ho] at hmem
    cases hmem
  · intro ho
    rw [addSource_comm_of_mem ho]
    exact ⟨rfl, rfl, fun _ => rfl⟩

/-- A registered node. -/
def oneNode : RemoteRegistry := (new.registerNode (fun _ => true) (some 7)).2

/-- The object has a source already. -/
theorem order_irrelevant_iff_entry :
    let r := oneNode.addSource (fun _ => true) (some ⟨0, lit "o"⟩)
    SameLinks (fun _ => true) (lit "o")
      ((r.addNodeForSource (fun _ => true) 0 (lit "o")).addSource (fun _ => true)
        (some ⟨1, lit "o"⟩))
      ((r.addSource (fun _ => true) (some ⟨1, lit "o"⟩)).addNodeForSource (fun _ => true) 0
        (lit "o")) :=
  (order_irrelevant_iff (n := 7) (s := ⟨1, lit "o"⟩) _ _ _ (by decide +kernel) rfl).mpr
    (by decide +kernel)

/-- **The node first.** In a registry without the object the node is not entered. -/
theorem node_before_source : ¬ ∀ (h : List (World × Action)) (w : World),
    Run unboundedMachine h w → ∀ id n s,
      (w.registry.remoteNodesById.get id).lock w.nodeAlive = some n → w.sourceAlive s = true →
      SameLinks w.nodeAlive s.olinkObjectName
        ((w.registry.addNodeForSource w.nodeAlive id s.olinkObjectName).addSource w.sourceAlive
          (some s))
        ((w.registry.addSource w.sourceAlive (some s)).addNodeForSource w.nodeAlive id
          s.olinkObjectName) := by
  intro hall
  have hr : Run unboundedMachine _ (next fresh (.registerNode (some 7))) :=
    run_play (M := unboundedMachine) (s := fresh) [.registerNode (some 7)] rfl ⟨trivial, trivial⟩
  have hnodes := (hall _ _ hr 0 7 ⟨0, lit "o"⟩ (by decide +kernel) rfl).nodes
  exact absurd hnodes (by decide +kernel)

end RemoteRegistry

end ObjectLink
