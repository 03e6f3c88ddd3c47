import ObjectLink.ClientRegistry

/-!
# The order of independent edits

`addSink` and `setNode` may both create the entry of an object, each with the value in the other's
field that the other takes for nothing: an empty sink (`clientregistry.cpp:28-30`) and the
invalid id (`:64-66`).

Results:
* `edit_eq_of_some`, `edit_eq_of_none`: each operation changes the entry of the object it concerns,
  and nothing else.
* `withSink_withNode`: `addSink` and `setNode` of the same object commute.
* `edits_commute`: so do any two operations that concern different objects.
-/

namespace ObjectLink

open Foundation (insert_eq_alter erase_eq_alter self_eq_alter alter_comm)

namespace ClientRegistry

/-- The operations that change entries. -/
inductive Edit where
  | addSink (sink : WeakPtr Sink)
  | removeSink (objectId : ObjectId)
  | setNode (id : Nat) (objectId : ObjectId)
  | unsetNode (objectId : ObjectId)

section Edits

variable (sinkAlive : Sink → Bool) (r : ClientRegistry)

/-- The registry after one of them. -/
def edit : Edit → ClientRegistry
  | .addSink sink => r.addSink sinkAlive sink
  | .removeSink o => r.removeSink o
  | .setNode id o => r.setNode id o
  | .unsetNode o => r.unsetNode o

/-- The object an operation concerns; an expired sink concerns none. -/
def Edit.objectId : Edit → Option ObjectId
  | .addSink sink => (sink.lock sinkAlive).map Sink.olinkObjectName
  | .removeSink o | .setNode _ o | .unsetNode o => some o

/-- An entry once a live sink has been added. -/
def withSink (s : Sink) : Option SinkToClientEntry → Option SinkToClientEntry
  | none => some { sink := some s, nodeId := invalidId }
  | some entry =>
    some { entry with sink := if entry.sink.expired sinkAlive then some s else entry.sink }

/-- An entry once a node has been set. -/
def withNode (id : Nat) : Option SinkToClientEntry → Option SinkToClientEntry
  | none => some { sink := none, nodeId := id }
  | some entry =>
    some { entry with nodeId := if entry.nodeId = invalidId then id else entry.nodeId }

/-- An entry once its node has been unset. -/
def withoutNode : Option SinkToClientEntry → Option SinkToClientEntry :=
  Option.map fun entry => { entry with nodeId := invalidId }

/-- What an operation makes of the entry it concerns. -/
def Edit.change : Edit → Option SinkToClientEntry → Option SinkToClientEntry
  | .addSink sink => (sink.lock sinkAlive).elim id (withSink sinkAlive)
  | .removeSink _ => fun _ => none
  | .setNode id _ => withNode id
  | .unsetNode _ => withoutNode

end Edits

/-! ## One entry is changed -/

variable {sinkAlive : Sink → Bool} {r : ClientRegistry} {o k : ObjectId} {id : Nat} {s : Sink}

theorem addSink_eq_alter (hs : sinkAlive s = true) : r.addSink sinkAlive (some s) = { r with
    entries := r.entries.alter s.olinkObjectName (withSink sinkAlive s) } := by
  unfold addSink
  rw [WeakPtr.lock_some, if_pos hs]
  dsimp only
  cases he : r.entries[s.olinkObjectName]? with
  | none =>
    dsimp only
    rw [insert_eq_alter (f := withSink sinkAlive s) (by rw [he]; rfl)]
  | some entry =>
    dsimp only
    by_cases hexp : entry.sink.expired sinkAlive
    · rw [if_pos hexp, insert_eq_alter (f := withSink sinkAlive s)]
      rw [he]
      simp only [withSink, if_pos hexp]
    · rw [if_neg hexp, ← self_eq_alter]
      rw [he]
      simp only [withSink, if_neg hexp]

theorem setNode_eq_alter : r.setNode id k = { r with
    entries := r.entries.alter k (withNode id) } := by
  unfold setNode
  cases he : r.entries[k]? with
  | none =>
    dsimp only
    rw [insert_eq_alter (f := withNode id) (by rw [he]; rfl)]
  | some entry =>
    dsimp only
    by_cases hfree : entry.nodeId = invalidId
    · rw [if_pos hfree, insert_eq_alter (f := withNode id)]
      rw [he]
      simp only [withNode, if_pos hfree]
    · rw [if_neg hfree, ← self_eq_alter]
      rw [he]
      simp only [withNode, if_neg hfree]

theorem unsetNode_eq_alter : r.unsetNode k = { r with
    entries := r.entries.alter k withoutNode } := by
  unfold unsetNode
  cases he : r.entries[k]? with
  | none =>
    dsimp only
    rw [← self_eq_alter (by rw [he]; rfl)]
  | some entry =>
    dsimp only
    rw [insert_eq_alter]
    rw [he]
    rfl

theorem change_addSink {sink : WeakPtr Sink} (hs : sink.lock sinkAlive = some s) :
    (Edit.addSink sink).change sinkAlive = withSink sinkAlive s := by
  unfold Edit.change
  dsimp only
  rw [hs, Option.elim_some]

/-- **Each operation** changes the entry of the object it concerns, and nothing else. -/
theorem edit_eq_of_some {e : Edit} (he : e.objectId sinkAlive = some k) :
    r.edit sinkAlive e = { r with entries := r.entries.alter k (e.change sinkAlive) } := by
  cases e with
  | addSink sink =>
    obtain ⟨s, hlock, rfl⟩ := Option.map_eq_some_iff.mp he
    obtain ⟨rfl, hs⟩ := WeakPtr.lock_eq_some.mp hlock
    rw [change_addSink hlock]
    exact addSink_eq_alter hs
  | removeSink o =>
    cases he
    show { r with entries := r.entries.erase k } = _
    rw [erase_eq_alter (f := fun _ => none) rfl]
    rfl
  | setNode id o =>
    cases he
    exact setNode_eq_alter
  | unsetNode o =>
    cases he
    exact unsetNode_eq_alter

/-- The sink has expired. -/
theorem edit_eq_of_none {e : Edit} (he : e.objectId sinkAlive = none) : r.edit sinkAlive e = r := by
  cases e with
  | addSink sink => exact addSink_expired (Option.map_eq_none_iff.mp he)
  | removeSink o | setNode id o | unsetNode o => cases he

/-! ## Two orders -/

/-- Operations commute if their changes of the same entry do. -/
theorem edit_comm {a b : Edit} (h : ∀ k, a.objectId sinkAlive = some k →
    b.objectId sinkAlive = some k →
      ∀ v, b.change sinkAlive (a.change sinkAlive v) = a.change sinkAlive (b.change sinkAlive v)) :
    (r.edit sinkAlive a).edit sinkAlive b = (r.edit sinkAlive b).edit sinkAlive a := by
  cases ha : a.objectId sinkAlive with
  | none => rw [edit_eq_of_none ha, edit_eq_of_none ha]
  | some j =>
    cases hb : b.objectId sinkAlive with
    | none => rw [edit_eq_of_none hb, edit_eq_of_none hb]
    | some k =>
      rw [edit_eq_of_some ha, edit_eq_of_some hb, edit_eq_of_some ha, edit_eq_of_some hb]
      dsimp only
      rw [alter_comm]
      rintro rfl
      exact h j ha hb

/-- The sink goes into a free field, and so does the node id, whichever comes first. -/
theorem withSink_withNode (v : Option SinkToClientEntry) :
    withNode id (withSink sinkAlive s v) = withSink sinkAlive s (withNode id v) := by
  cases v with
  | none => simp [withNode, withSink, WeakPtr.expired]
  | some entry => rfl

/-- The same sink and node of every object, and the same objects of every node. -/
structure SameView (r r' : ClientRegistry) : Prop where
  sink : ∀ o, r.getSink o = r'.getSink o
  node : ∀ o, r.getNode o = r'.getNode o
  objectIds : ∀ id o, o ∈ r.getObjectIds id ↔ o ∈ r'.getObjectIds id

theorem SameView.of_eq {r' : ClientRegistry} (h : r = r') : SameView r r' :=
  h ▸ ⟨fun _ => rfl, fun _ => rfl, fun _ _ => Iff.rfl⟩

/-- **Independent edits in either order.** In every registry, `addSink` and `setNode` commute,
whatever the object, and so do any two of `addSink`, `removeSink`, `setNode` and `unsetNode` that do
not concern the same object: both orders end with the same sinks, nodes and object ids. -/
theorem edits_commute (sinkAlive : Sink → Bool) (r : ClientRegistry) :
    (∀ (sink : WeakPtr Sink) (id : Nat) (o : ObjectId),
      SameView ((r.addSink sinkAlive sink).setNode id o)
        ((r.setNode id o).addSink sinkAlive sink)) ∧
    ∀ a b : Edit, (∀ k, a.objectId sinkAlive = some k → b.objectId sinkAlive ≠ some k) →
      SameView ((r.edit sinkAlive a).edit sinkAlive b)
        ((r.edit sinkAlive b).edit sinkAlive a) := by
  constructor
  · intro sink id o
    have hcomm : (r.edit sinkAlive (.addSink sink)).edit sinkAlive (.setNode id o)
        = (r.edit sinkAlive (.setNode id o)).edit sinkAlive (.addSink sink) :=
      edit_comm fun k hs _ v => by
        obtain ⟨s, hlock, -⟩ := Option.map_eq_some_iff.mp hs
        rw [change_addSink hlock]
        exact withSink_withNode v
    exact .of_eq hcomm
  · intro a b hne
    exact .of_eq (edit_comm fun k ha hb => absurd hb (hne k ha))

/-- A sink for one object and the end of another. -/
theorem edits_commute_twoObjects :
    let s : Sink := { ref := 0, olinkObjectName := lit "a" }
    SameView (((new.setNode 3 (lit "b")).addSink (fun _ => true) (some s)).removeSink (lit "b"))
      (((new.setNode 3 (lit "b")).removeSink (lit "b")).addSink (fun _ => true) (some s)) := by
  intro s
  refine (edits_commute (fun _ => true) (new.setNode 3 (lit "b"))).2 (.addSink (some s))
    (.removeSink (lit "b")) ?_
  intro k ha hb
  cases ha
  exact absurd hb (by decide)

end ClientRegistry

end ObjectLink
