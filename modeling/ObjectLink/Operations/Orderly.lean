import ObjectLink.Operations.Sections

/-!
# The operations keep to the discipline

Every public operation acquires its mutexes in their order, changes what a mutex protects only
while it has the mutex, leaves the effect of whole critical sections behind, and calls code outside
without a mutex, where its accesses are clear (`LockDiscipline.Clear`).

* `leaves_emitLog` to `leaves_release`: the pieces of code that all operations use.
* `edits_add`: the critical section of `add`, which goes to the storage three times. Nobody else
  comes in between, so there is still room when the object is stored.
* `leaves_setNode` to `leaves_unregisterRemoteNode`: the registries.
* `leaves_emitWrite` to `leaves_handle`: the nodes.
* `leaves_code`: all operations.
-/

namespace ObjectLink

open Foundation (Program Discipline)
open Foundation.Discipline (leaves_bind leaves_done leaves_exchange leaves_outside leaves_pure
  leaves_read leaves_read_bind leaves_tryCatch leaves_withLock leaves_withLock_read_bind
  edits_bind edits_exchange edits_of_leaves)
open LoggerBase (emitLog emitLogWithPayload logged onLog setLogLevel LogParameter)
open Routine (readLibrary updateLibrary exchangeLibrary locked call ask release)
open LockDiscipline (Clear Operation code dropped)

namespace Sections

variable {start : Process} {held : List Mutex} {α β : Type}

/-! ## Pieces of code -/

theorem ranked_nil {m : Mutex} : ∀ m' ∈ ([] : List Mutex), rank m' < rank m :=
  fun _ h => absurd h List.not_mem_nil

/-- The mutex of the entries comes before any other kind of mutex. -/
theorem ranked_entries {side : Side} {m : Mutex} (hm : rank m = 1) :
    ∀ m' ∈ [Mutex.entries side], rank m' < rank m := by
  intro m' h
  rw [List.mem_singleton.mp h, hm]
  exact Nat.zero_lt_one

theorem leaves_readLibrary (f : Library → α) : Orderly start held (readLibrary f) :=
  leaves_exchange fun _ _ => rfl

/-- An access to members that no mutex protects. -/
theorem leaves_exchangeLibrary {f : Library → α × Library}
    (hf : ∀ p m, part m { p with library := (f p.library).2 } = part m p) :
    Orderly start held (exchangeLibrary f) := leaves_exchange hf

theorem leaves_ofExcept (r : Except Thrown α) : Orderly start held (Routine.ofExcept r) :=
  leaves_done (P := platform) r

theorem leaves_return (a : α) : Orderly start held (return a) := leaves_pure a

theorem leaves_ask (c : OutsideCall) : Orderly start [] (ask c) := leaves_outside _

theorem leaves_call (c : OutsideCall) : Orderly start [] (call c) :=
  leaves_bind (leaves_ask c) fun _ => leaves_return _

theorem leaves_dropped {p : Routine α} (hp : Orderly start [] p) : Orderly start [] (dropped p) :=
  leaves_bind hp fun _ => leaves_return _

theorem leaves_locked {m : Mutex} {p : Routine α} (hrank : ∀ m' ∈ held, rank m' < rank m)
    (hp : Edits start m held p) : Orderly start held (locked m p) :=
  leaves_withLock hrank hp

/-- A critical section that only reads. -/
theorem leaves_lockedRead {m : Mutex} (f : Library → α)
    (hrank : ∀ m' ∈ held, rank m' < rank m) : Orderly start held (locked m (readLibrary f)) :=
  leaves_locked hrank (edits_of_leaves (leaves_readLibrary f))

/-- One access to what a mutex protects, with the effect of an operation or none. -/
theorem edits_access {m : Mutex} {f : Process → α × Process} (hm : m ∉ held)
    (hframe : ∀ p, ∀ m' ≠ m, part m' (f p).2 = part m' p)
    (hstep : ∀ p, part m (f p).2 = part m p ∨ Step m (part m p) (part m (f p).2)) :
    Edits start m held (Foundation.Program.exchange (P := platform) f) := by
  refine edits_exchange hm hframe fun p hp => ?_
  change Relation.ReflTransGen (Step m) (part m start) (part m (f p).2)
  rcases hstep p with h | h
  · rw [h]
    exact hp
  · exact hp.tail h

/-- A critical section that is one access to the library's objects. -/
theorem leaves_section {m : Mutex} {f : Library → α × Library}
    (hframe : ∀ p, ∀ m' ≠ m, part m' { p with library := (f p.library).2 } = part m' p)
    (hstep : ∀ p, part m { p with library := (f p.library).2 } = part m p ∨
      Step m (part m p) (part m { p with library := (f p.library).2 })) :
    Orderly start [] (locked m (exchangeLibrary f)) :=
  leaves_locked ranked_nil (edits_access List.not_mem_nil hframe hstep)

/-- What comes after a statement that is skipped where a test fails. -/
theorem leaves_ite_bind {b : Prop} [Decidable b] {p : Routine Unit} {f : Unit → Routine α}
    (hp : Orderly start held p) (hf : ∀ u, Orderly start held (f u)) :
    Orderly start held (if b then p >>= f else f ()) := by
  split
  · exact leaves_bind hp hf
  · exact hf ()

/-! ## Logging -/

theorem leaves_logged (l : LoggerId) (level : LogLevel) : Orderly start [] (logged l level) :=
  leaves_locked ranked_nil (edits_of_leaves (leaves_read _))

theorem leaves_emitLog (l : LoggerId) (level : LogLevel) (params : List LogParameter) :
    Orderly start [] (emitLog l level params) := by
  refine leaves_bind (leaves_logged l level) fun logs => ?_
  cases logs with
  | false => exact leaves_return _
  | true => exact leaves_bind (leaves_ofExcept _) fun message => leaves_call _

theorem leaves_emitLogWithPayload (lib : Codecs) (l : LoggerId) (level : LogLevel) (payload : Json)
    (params : List LogParameter) :
    Orderly start [] (emitLogWithPayload lib l level payload params) := by
  refine leaves_bind (leaves_logged l level) fun logs => ?_
  cases logs with
  | false => exact leaves_return _
  | true => exact leaves_bind (leaves_ofExcept _) fun text => leaves_emitLog _ _ _

/-- The log message of `addSource` in its critical section, which is not logged. -/
theorem leaves_emitLog_entries (params : List LogParameter) :
    Orderly start [.entries .remote] (emitLog .remoteRegistry .info params) := by
  have hrank : ∀ m' ∈ [Mutex.entries .remote], rank m' < rank (.log .remoteRegistry) :=
    ranked_entries rfl
  refine leaves_withLock_read_bind hrank fun s hs => ?_
  have hquiet := hs.quiet List.mem_cons_self (List.mem_cons_of_mem _ List.mem_cons_self)
  rw [hquiet]
  exact leaves_return _

/-- What is released under a mutex is not the last reference. -/
theorem leaves_release (object : Referent) (hm : held ≠ []) :
    Orderly start held (release object) := by
  refine leaves_read_bind fun s hs => ?_
  have hshared : s.library.lastReference object = false := hs.shared hm object .lastReference
  simp only [hshared]
  exact leaves_return _

/-- A critical section that replaces a function, and releases the old one if there was one. -/
theorem leaves_replace {m : Mutex} {replace : Routine Bool} {object : Referent}
    (hreplace : Edits start m [] replace) :
    Orderly start [] (locked m do if ← replace then release object) := by
  refine leaves_locked ranked_nil (edits_bind hreplace fun replaced => edits_of_leaves ?_)
  cases replaced with
  | false => exact leaves_return _
  | true => exact leaves_release object (List.cons_ne_nil _ _)

theorem leaves_onLog (l : LoggerId) (logFunc : Bool) : Orderly start [] (onLog l logFunc) := by
  refine leaves_replace (edits_access List.not_mem_nil (fun p m hm => ?_) fun p => ?_)
  · exact part_loggers p _ hm
  · right
    have hpart : part (.log l) { p with loggers := fun l' =>
        if l' = l then { p.loggers l with logFunc := logFunc } else p.loggers l' }
          = { p.loggers l with logFunc := logFunc } := if_pos rfl
    change LoggerStep (p.loggers l) (part (.log l) _)
    rw [hpart]
    exact .onLog _ _

theorem leaves_setLogLevel (l : LoggerId) (level : LogLevel) :
    Orderly start [] (setLogLevel l level) := by
  refine leaves_locked ranked_nil (edits_access List.not_mem_nil (fun p m hm => ?_) fun p => ?_)
  · exact part_loggers p _ hm
  · right
    have hpart : part (.log l) { p with loggers := fun l' =>
        if l' = l then { p.loggers l with logLevel := level } else p.loggers l' }
          = { p.loggers l with logLevel := level } := if_pos rfl
    change LoggerStep (p.loggers l) (part (.log l) _)
    rw [hpart]
    exact .setLogLevel _ _

/-! ## The node storages -/

section Storage

variable {side : Side}

theorem part_storage (p : Process) (s : UniqueIdObjectStorage NodeRef) :
    part (.storage side) { p with library := p.library.setStorage s side } = s :=
  Library.storage_setStorage _ _ _

theorem leaves_get (id : Nat) (hrank : ∀ m' ∈ held, rank m' < rank (.storage side)) :
    Orderly start held (Operations.UniqueIdObjectStorage.get side id) :=
  leaves_lockedRead _ hrank

theorem leaves_remove (id : Nat) :
    Orderly start [] (Operations.UniqueIdObjectStorage.remove side id) := by
  refine leaves_section (fun p m hm => part_setStorage p _ hm) fun p => Or.inr ?_
  change StorageStep (p.library.storage side) (part (.storage side) _)
  rw [part_storage]
  exact .remove _ id

theorem leaves_scan (object : NodeRef) (entries : List NodeRef) :
    Orderly start [.storage side]
      (Operations.UniqueIdObjectStorage.scan side object entries) := by
  induction entries with
  | nil => exact leaves_return _
  | cons current rest ih =>
    refine leaves_bind (leaves_readLibrary _) fun alive => ?_
    cases alive with
    | false => exact ih
    | true =>
      refine leaves_bind (leaves_release _ (by simp)) fun _ => ?_
      split
      · exact leaves_return _
      · exact ih

/-- **The critical section of `add`**: nobody else can use the room that it has made. -/
theorem edits_add (object : NodeRef) : Edits start (.storage side) [] (do
    let full ← exchangeLibrary fun l =>
      let s := (l.storage side).room (l.nodeAlive side)
      (decide (s.objects.size = s.maxCount), l.setStorage s side)
    if full then return invalidId
    let entries ← readLibrary fun l => (l.storage side).objects.values
    Operations.UniqueIdObjectStorage.scan side object entries
    exchangeLibrary fun l =>
      let (id, s) := (l.storage side).addLocked (l.nodeAlive side) object
      (id, l.setStorage s side)) := by
  intro known hknown p hp _
  have hp' : p.library.storage side = known.library.storage side := hp _ List.mem_cons_self
  have hne : ∀ m ∉ [Mutex.storage side], m ≠ .storage side := fun m hm h =>
    hm (h ▸ List.mem_cons_self)
  refine ⟨fun m hm => part_setStorage p _ (hne m hm), ?_⟩
  by_cases hfull : ((p.library.storage side).room (p.library.nodeAlive side)).objects.size
      = ((p.library.storage side).room (p.library.nodeAlive side)).maxCount
  · change (discipline start).Guarded ((if decide _ = true then return invalidId else _ :
      Routine Nat)) _ _ _
    rw [if_pos (decide_eq_true hfull)]
    refine ⟨rfl, fun m hm => absurd hm List.not_mem_nil, hknown.tail ?_⟩
    change StorageStep (known.library.storage side) (part (.storage side) _)
    rw [part_storage, ← hp']
    exact .full _ _
  · change (discipline start).Guarded ((if decide _ = true then return invalidId else _ :
      Routine Nat)) _ _ _
    rw [if_neg (by simpa using hfull)]
    -- the storage while the entries are compared, and what is left if that throws
    have hroom : ∀ s : Process, (discipline start).Agree [.storage side] s (_ : Process) →
        part (.storage side) s
          = (p.library.storage side).room (p.library.nodeAlive side) := fun s hs =>
      (hs _ List.mem_cons_self).trans (part_storage p _)
    have herror : ∀ s : Process, part (.storage side) s
        = (p.library.storage side).room (p.library.nodeAlive side) →
        Relation.ReflTransGen (Step (.storage side)) (part (.storage side) start)
          (part (.storage side) s) := by
      intro s hs
      refine hknown.tail ?_
      change StorageStep (known.library.storage side) (part (.storage side) s)
      rw [hs, ← hp']
      exact .full _ _
    refine (leaves_readLibrary _).guarded_bind (fun entries s hs => ?_) fun e s hs =>
      ⟨rfl, .nil, herror s (hroom s hs)⟩
    refine (leaves_scan object entries).guarded_bind (fun _ s' hs' => ?_) fun e s' hs' =>
      ⟨rfl, .nil, herror s' (hroom s' (hs'.trans hs))⟩
    intro q hq _
    have hq' : q.library.storage side = _ := hroom q (hq.trans (hs'.trans hs))
    refine ⟨fun m hm => part_setStorage q _ (hne m hm), rfl, .nil, hknown.tail ?_⟩
    change StorageStep (known.library.storage side) (part (.storage side) _)
    rw [part_storage, hq', ← hp']
    exact .add _ _ _ _ fun h => hfull (h.trans UniqueIdObjectStorage.room_maxCount.symm)

theorem leaves_add (object : WeakPtr NodeRef) :
    Orderly start [] (Operations.UniqueIdObjectStorage.add side object) := by
  refine leaves_bind (leaves_readLibrary _) fun lockedObject => ?_
  cases lockedObject with
  | none => exact leaves_return _
  | some lockedObject => exact leaves_locked ranked_nil (edits_add lockedObject)

end Storage

/-! ## The registries -/

section Registries

variable (id : Nat) (o : ObjectId)

/-- An operation of `ClientRegistry` on its entries. -/
theorem edits_sinks {f : Library → α × Library} (g : Library → ClientRegistry → ClientRegistry)
    (hf : ∀ l, (f l).2 = l.updateClientRegistry (g l))
    (hids : ∀ l r, (g l r).clientNodesById = r.clientNodesById)
    (hstep : ∀ l r, SinkStep r.entries (g l r).entries) :
    Edits start (.entries .client) [] (exchangeLibrary f) := by
  refine edits_access List.not_mem_nil (fun p m hm => ?_) fun p => Or.inr ?_
  · change part m { p with library := (f p.library).2 } = _
    rw [hf]
    exact part_updateClientRegistry p (hids p.library) hm
  · change SinkStep p.library.client.registry.entries (f p.library).2.client.registry.entries
    rw [hf]
    exact hstep p.library _

/-- An operation of `RemoteRegistry` on its entries. -/
theorem edits_sources {f : Library → α × Library} (g : Library → RemoteRegistry → RemoteRegistry)
    (hf : ∀ l, (f l).2 = l.updateRemoteRegistry (g l))
    (hids : ∀ l r, (g l r).remoteNodesById = r.remoteNodesById)
    (hstep : ∀ l r, SourceStep r.entries (g l r).entries) :
    Edits start (.entries .remote) [] (exchangeLibrary f) := by
  refine edits_access List.not_mem_nil (fun p m hm => ?_) fun p => Or.inr ?_
  · change part m { p with library := (f p.library).2 } = _
    rw [hf]
    exact part_updateRemoteRegistry p (hids p.library) hm
  · change SourceStep p.library.server.registry.entries (f p.library).2.server.registry.entries
    rw [hf]
    exact hstep p.library _

theorem leaves_setNode : Orderly start [] (Operations.ClientRegistry.setNode id o) := by
  refine leaves_bind (leaves_get id ranked_nil) fun node => ?_
  refine leaves_bind (leaves_readLibrary _) fun lockedNode => ?_
  refine leaves_ite_bind (leaves_emitLog _ _ _) fun _ => ?_
  refine leaves_bind (leaves_emitLog _ _ _) fun _ => ?_
  refine leaves_bind (leaves_locked ranked_nil ?_) fun other => ?_
  · exact edits_sinks (fun _ => (·.setNode id o)) (fun l => rfl)
      (fun _ r => ClientRegistry.clientNodesById_setNode) fun _ r => .setNode r id o
  · split
    · exact leaves_emitLog _ _ _
    · exact leaves_return _

theorem leaves_unsetNode : Orderly start [] (Operations.ClientRegistry.unsetNode o) := by
  refine leaves_bind (leaves_emitLog _ _ _) fun _ => leaves_locked ranked_nil ?_
  exact edits_sinks (fun _ => (·.unsetNode o)) (fun l => rfl)
    (fun _ r => ClientRegistry.clientNodesById_unsetNode) fun _ r => .unsetNode r o

theorem edits_enterSink (lockedSink : Sink) :
    Edits start (.entries .client) [] (Operations.ClientRegistry.enterSink lockedSink) := by
  have hadd : Edits start (.entries .client) [] (do
      updateLibrary fun l =>
        l.updateClientRegistry (·.addSink l.client.sinkAlive (some lockedSink))
      return false) := by
    refine edits_bind ?_ fun _ => edits_of_leaves (leaves_return _)
    exact edits_sinks (fun l => (·.addSink l.client.sinkAlive (some lockedSink))) (fun l => rfl)
      (fun _ r => ClientRegistry.clientNodesById_addSink _)
      fun l r => .addSink r l.client.sinkAlive (some lockedSink)
  refine edits_bind (edits_of_leaves (leaves_readLibrary _)) fun found => ?_
  cases found with
  | none => exact hadd
  | some entry =>
    refine edits_bind (edits_of_leaves (leaves_readLibrary _)) fun expired => ?_
    cases expired with
    | true => exact hadd
    | false =>
      refine edits_of_leaves (leaves_bind (leaves_readLibrary _) fun current => ?_)
      cases current with
      | none => exact leaves_return _
      | some current =>
        exact leaves_bind (leaves_release _ (by simp)) fun _ => leaves_return _

theorem leaves_addSink (sink : WeakPtr Sink) :
    Orderly start [] (Operations.ClientRegistry.addSink sink) := by
  refine leaves_bind (leaves_readLibrary _) fun lockedSink => ?_
  cases lockedSink with
  | none => exact leaves_emitLog _ _ _
  | some lockedSink =>
    refine leaves_bind (leaves_call _) fun _ => leaves_bind (leaves_emitLog _ _ _) fun _ => ?_
    refine leaves_bind (leaves_locked ranked_nil (edits_enterSink lockedSink)) fun other => ?_
    split
    · exact leaves_emitLog _ _ _
    · exact leaves_return _

theorem leaves_removeSink : Orderly start [] (Operations.ClientRegistry.removeSink o) := by
  refine leaves_bind (leaves_emitLog _ _ _) fun _ => leaves_locked ranked_nil ?_
  exact edits_sinks (fun _ => (·.removeSink o)) (fun l => rfl) (fun _ r => rfl)
    fun _ r => .removeSink r o

theorem leaves_getSink : Orderly start [] (Operations.ClientRegistry.getSink o) :=
  leaves_bind (leaves_emitLog _ _ _) fun _ => leaves_lockedRead _ ranked_nil

theorem leaves_getClientObjectIds :
    Orderly start [] (Operations.ClientRegistry.getObjectIds id) :=
  leaves_bind (leaves_readLibrary _) fun _ => leaves_lockedRead _ ranked_nil

theorem leaves_getNode : Orderly start [] (Operations.ClientRegistry.getNode o) := by
  refine leaves_bind (leaves_emitLog _ _ _) fun _ => leaves_locked ranked_nil (edits_of_leaves ?_)
  refine leaves_bind (leaves_readLibrary _) fun found => ?_
  cases found with
  | none => exact leaves_return _
  | some entry => exact leaves_get entry.nodeId (ranked_entries rfl)

theorem leaves_registerClientNode (node : WeakPtr NodeRef) :
    Orderly start [] (Operations.ClientRegistry.registerNode node) := by
  refine leaves_bind (leaves_readLibrary _) fun lockedNode => ?_
  cases lockedNode with
  | none => exact leaves_bind (leaves_emitLog _ _ _) fun _ => leaves_return _
  | some lockedNode => exact leaves_add _

theorem leaves_unregisterClientNode :
    Orderly start [] (Operations.ClientRegistry.unregisterNode id) := by
  unfold Operations.ClientRegistry.unregisterNode
  split
  · refine leaves_bind (leaves_locked ranked_nil ?_) fun _ => leaves_remove id
    exact edits_sinks (fun _ => Operations.ClientRegistry.freeSlots id) (fun l => rfl)
      (fun _ r => rfl) fun _ r => .unregisterNode r id
  · exact leaves_return _

theorem edits_enterSource (lockedSource : Source) :
    Edits start (.entries .remote) [] (Operations.RemoteRegistry.enterSource lockedSource) := by
  refine edits_bind (edits_of_leaves (leaves_readLibrary _)) fun found => ?_
  cases found with
  | none =>
    exact edits_sources (fun l => (·.addSource l.server.sourceAlive (some lockedSource)))
      (fun l => rfl) (fun _ r => RemoteRegistry.remoteNodesById_addSource _)
      fun l r => .addSource r l.server.sourceAlive (some lockedSource)
  | some found =>
    refine edits_of_leaves (leaves_bind (leaves_readLibrary _) fun expired => ?_)
    cases expired with
    | true => exact leaves_return _
    | false =>
      refine leaves_bind (leaves_readLibrary _) fun current => ?_
      cases current with
      | none => exact leaves_emitLog_entries _
      | some current =>
        refine leaves_bind (leaves_release _ (by simp)) fun _ => ?_
        split
        · exact leaves_return _
        · exact leaves_emitLog_entries _

theorem leaves_addSource (source : WeakPtr Source) :
    Orderly start [] (Operations.RemoteRegistry.addSource source) := by
  refine leaves_bind (leaves_readLibrary _) fun lockedSource => ?_
  cases lockedSource with
  | none => exact leaves_emitLog _ _ _
  | some lockedSource =>
    refine leaves_bind (leaves_call _) fun _ => leaves_bind (leaves_emitLog _ _ _) fun _ => ?_
    exact leaves_locked ranked_nil (edits_enterSource lockedSource)

theorem leaves_removeSource : Orderly start [] (Operations.RemoteRegistry.removeSource o) := by
  refine leaves_bind (leaves_emitLog _ _ _) fun _ => leaves_locked ranked_nil ?_
  exact edits_sources (fun _ => (·.removeSource o)) (fun l => rfl) (fun _ r => rfl)
    fun _ r => .removeSource r o

theorem leaves_getSource : Orderly start [] (Operations.RemoteRegistry.getSource o) :=
  leaves_bind (leaves_emitLog _ _ _) fun _ => leaves_lockedRead _ ranked_nil

theorem leaves_liveNodes (ids : List Nat) :
    Orderly start [.entries .remote] (Operations.RemoteRegistry.liveNodes ids) := by
  induction ids with
  | nil => exact leaves_return _
  | cons id ids ih =>
    refine leaves_bind (leaves_get id (ranked_entries rfl)) fun node => ?_
    refine leaves_bind (leaves_readLibrary _) fun expired => ?_
    exact leaves_bind ih fun nodes => leaves_return _

theorem leaves_getNodes : Orderly start [] (Operations.RemoteRegistry.getNodes o) := by
  refine leaves_bind (leaves_emitLog _ _ _) fun _ => leaves_locked ranked_nil (edits_of_leaves ?_)
  refine leaves_bind (leaves_readLibrary _) fun found => ?_
  cases found with
  | none => exact leaves_return _
  | some found => exact leaves_liveNodes found.nodes

theorem leaves_getRemoteObjectIds : Orderly start [] (Operations.RemoteRegistry.getObjectIds id) :=
  leaves_lockedRead _ ranked_nil

theorem remoteNodesById_enterNode (r : RemoteRegistry) :
    (Operations.RemoteRegistry.enterNode id o r).remoteNodesById = r.remoteNodesById := by
  unfold Operations.RemoteRegistry.enterNode
  split
  · split <;> rfl
  · rfl

theorem leaves_addNodeForSource :
    Orderly start [] (Operations.RemoteRegistry.addNodeForSource id o) := by
  refine leaves_bind (leaves_get id ranked_nil) fun node => ?_
  refine leaves_bind (leaves_readLibrary _) fun lockedNode => ?_
  cases lockedNode with
  | none => exact leaves_emitLog _ _ _
  | some lockedNode =>
    refine leaves_bind (leaves_emitLog _ _ _) fun _ => leaves_locked ranked_nil ?_
    exact edits_sources (fun _ => Operations.RemoteRegistry.enterNode id o) (fun l => rfl)
      (fun _ => remoteNodesById_enterNode id o) fun _ r => .addNodeForSource r id o

theorem leaves_removeNodeFromSource :
    Orderly start [] (Operations.RemoteRegistry.removeNodeFromSource id o) := by
  refine leaves_bind (leaves_emitLog _ _ _) fun _ => leaves_locked ranked_nil ?_
  exact edits_sources (fun _ => (·.removeNodeFromSource id o)) (fun l => rfl)
    (fun _ r => RemoteRegistry.remoteNodesById_removeNodeFromSource)
    fun _ r => .removeNodeFromSource r id o

theorem leaves_registerRemoteNode (node : WeakPtr NodeRef) :
    Orderly start [] (Operations.RemoteRegistry.registerNode node) := by
  refine leaves_bind (leaves_readLibrary _) fun lockedNode => ?_
  cases lockedNode with
  | none => exact leaves_bind (leaves_emitLog _ _ _) fun _ => leaves_return _
  | some lockedNode => exact leaves_add _

theorem leaves_unregisterRemoteNode :
    Orderly start [] (Operations.RemoteRegistry.unregisterNode id) := by
  unfold Operations.RemoteRegistry.unregisterNode
  split
  · refine leaves_bind (leaves_locked ranked_nil ?_) fun _ => leaves_remove id
    exact edits_sources (fun _ => Operations.RemoteRegistry.withoutNode id) (fun l => rfl)
      (fun _ r => rfl) fun _ r => .unregisterNode r id
  · exact leaves_return _

end Registries

/-! ## The nodes -/

section Nodes

variable (lib : Codecs)

theorem leaves_convert (n : NodeId) (msg : Json) :
    Orderly start [.node n] (Operations.BaseNode.convert lib n msg) := by
  refine leaves_bind (leaves_readLibrary _) fun writeFunc => ?_
  cases writeFunc with
  | false => exact leaves_return _
  | true =>
    refine leaves_bind (leaves_readLibrary _) fun converter => ?_
    exact leaves_bind (leaves_ofExcept _) fun converted => leaves_return _

theorem leaves_emitWrite (n : NodeId) (msg : Json) :
    Orderly start [] (Operations.BaseNode.emitWrite lib n msg) := by
  refine leaves_bind (leaves_emitLogWithPayload lib _ _ _ _) fun _ => ?_
  refine leaves_bind (leaves_locked ranked_nil (edits_of_leaves (leaves_convert lib n msg)))
    fun converted => ?_
  cases converted with
  | none => exact leaves_emitLog _ _ _
  | some converted => exact leaves_call _

theorem leaves_tryBlock (msg : Json) {handle : Call → Routine Unit}
    (hh : ∀ c, Orderly start [] (handle c)) :
    Orderly start [] (Protocol.tryBlock lib msg handle) := by
  cases hc : Protocol.decode? lib.toJsonLibrary msg with
  | some c =>
    rw [Protocol.tryBlock_of_decode hc]
    exact hh c
  | none =>
    rw [Protocol.tryBlock_of_reject hc]
    split
    · split
      · exact leaves_return _
      · exact leaves_ofExcept _
    · exact leaves_return _

theorem leaves_dispatch (x : HasExceptions) (msg : Json) {handle : Call → Routine Unit}
    (hh : ∀ c, Orderly start [] (handle c)) :
    Orderly start [] (Protocol.dispatch lib msg x handle) := by
  cases x with
  | false => exact leaves_tryBlock lib msg hh
  | true =>
    refine leaves_tryCatch (leaves_tryBlock lib msg hh) fun e => ?_
    cases e with
    | json what => exact leaves_return _
    | _ => exact leaves_ofExcept _

theorem leaves_handleMessage (x : HasExceptions) (n : NodeId) (data : Bytes)
    {handle : Call → Routine Unit} (hh : ∀ c, Orderly start [] (handle c)) :
    Orderly start [] (Operations.BaseNode.handleMessage lib n x handle data) := by
  refine leaves_bind (leaves_lockedRead _ ranked_nil) fun parsed => ?_
  cases x with
  | false => exact leaves_dispatch lib false parsed hh
  | true =>
    refine leaves_tryCatch (leaves_dispatch lib true parsed hh) fun e => ?_
    cases e with
    | other => exact leaves_ofExcept _
    | _ => exact leaves_emitLog _ _ _

theorem leaves_baseHandle (n : NodeId) (c : Call) :
    Orderly start [] (Operations.BaseNode.handle lib n c) := by
  cases c with
  | link _ | unlink _ | invokeReply _ _ _ | error _ _ _ => exact leaves_emitLog _ _ _
  | _ => exact leaves_emitLogWithPayload lib _ _ _ _

theorem leaves_onWrite (n : NodeId) (w : Bool) :
    Orderly start [] (Operations.BaseNode.onWrite n w) := by
  refine leaves_replace (edits_access List.not_mem_nil (fun p m hm => part_setWriteFunc p w hm)
    fun p => Or.inr ?_)
  have hconverter : (p.library.setWriteFunc w n).converters = p.library.converters := by
    cases n <;> rfl
  change NodeStep (_, p.library.converters n) (_, (p.library.setWriteFunc w n).converters n)
  rw [hconverter]
  exact .onWrite _ _ _

/-- What `setMessageFormat` and `setMaxMessageSize` do. -/
theorem leaves_updateConverter (n : NodeId) {f : MessageConverter → MessageConverter}
    (hf : ∀ w c, NodeStep (w, c) (w, f c)) :
    Orderly start [] (locked (.node n) (updateLibrary fun l => l.updateConverter n f)) := by
  refine leaves_section (fun p m hm => part_updateConverter p f hm) fun p => Or.inr ?_
  have hfunc : writeFunc (p.library.updateConverter n f) n = writeFunc p.library n := by
    cases n <;> rfl
  have hself : (p.library.updateConverter n f).converters n = f (p.library.converters n) :=
    Function.update_self _ _ _
  change NodeStep (writeFunc p.library n, p.library.converters n)
    (writeFunc (p.library.updateConverter n f) n, (p.library.updateConverter n f).converters n)
  rw [hfunc, hself]
  exact hf _ _

end Nodes

section ClientNodes

variable (lib : Codecs) (n : NodeRef) (o : Bytes)

theorem leaves_create : Orderly start [] Operations.ClientNode.create := by
  refine leaves_bind (leaves_exchangeLibrary fun p m => part_clientConstructed p) fun n => ?_
  refine leaves_bind (leaves_registerClientNode _) fun id => ?_
  exact leaves_exchangeLibrary fun p m => part_clientNodeId p n id

theorem leaves_linkRemote : Orderly start [] (Operations.ClientNode.linkRemote lib n o) := by
  refine leaves_bind (leaves_emitLog _ _ _) fun _ => ?_
  refine leaves_bind (leaves_emitWrite lib _ _) fun _ => ?_
  refine leaves_bind (leaves_unsetNode o) fun _ => ?_
  exact leaves_bind (leaves_readLibrary _) fun id => leaves_setNode id o

theorem leaves_sinkOf : Orderly start [] (Operations.ClientNode.sinkOf o) :=
  leaves_bind (leaves_getSink o) fun _ => leaves_readLibrary _

theorem leaves_unlinkRemote : Orderly start [] (Operations.ClientNode.unlinkRemote lib n o) := by
  have hrest : Orderly start [] (do
      Operations.BaseNode.emitWrite lib (.client n) (Protocol.unlinkMessage o)
      Operations.ClientRegistry.unsetNode o) :=
    leaves_bind (leaves_emitWrite lib _ _) fun _ => leaves_unsetNode o
  refine leaves_bind (leaves_emitLog _ _ _) fun _ => leaves_bind (leaves_sinkOf o) fun sink => ?_
  cases sink with
  | none => exact hrest
  | some sink => exact leaves_bind (leaves_call _) fun _ => hrest

/-- An access to the counter and the table of a node. -/
theorem edits_pending {f : Library → α × Library} (g : ClientNodeState → ClientNodeState)
    (hf : ∀ l, (f l).2 = { l with client := l.client.updateNode n g })
    (hwrite : ∀ s, (g s).writeFunc = s.writeFunc)
    (hstep : ∀ s, PendingStep (s.nextRequestId, s.invokesPending)
      ((g s).nextRequestId, (g s).invokesPending)) :
    Edits start (.pendingInvokes n) [] (exchangeLibrary f) := by
  refine edits_access List.not_mem_nil (fun p m hm => ?_) fun p => ?_
  · change part m { p with library := (f p.library).2 } = part m p
    rw [hf]
    exact part_updatePending p hwrite hm
  · change pending (f p.library).2.client n = pending p.library.client n ∨
      PendingStep (pending p.library.client n) (pending (f p.library).2.client n)
    rw [hf]
    unfold pending Client.updateNode
    dsimp only
    by_cases hn : n < p.library.client.nextNode
    · rw [if_pos hn, if_pos hn, if_pos rfl]
      exact Or.inr (hstep _)
    · rw [if_neg hn, if_neg hn]
      exact Or.inl rfl

/-- A call is entered, and the callback that is replaced is released. -/
theorem edits_enterPending (func : Option InvokeReplyFunc) :
    Edits start (.pendingInvokes n) [] (Operations.ClientNode.enterPending n func) := by
  refine edits_bind (edits_pending n (fun node => { node with
    nextRequestId := node.nextRequestId + 1
    invokesPending := node.invokesPending.insert (node.nextRequestId + 1) func })
    (fun _ => rfl) (fun _ => rfl) fun _ => .invoke _ _ func) fun entered => edits_of_leaves ?_
  match entered with
  | (requestId, some (some callback)) =>
    exact leaves_bind (leaves_release _ (List.cons_ne_nil _ _)) fun _ => leaves_return _
  | (requestId, none) => exact leaves_return _
  | (requestId, some none) => exact leaves_return _

theorem leaves_invokeRemote (args : Json) (func : Option InvokeReplyFunc) :
    Orderly start [] (Operations.ClientNode.invokeRemote lib n o args func) := by
  have henter : Orderly start []
      (locked (.pendingInvokes n) (Operations.ClientNode.enterPending n func)) :=
    leaves_locked ranked_nil (edits_enterPending n func)
  refine leaves_bind (leaves_emitLog _ _ _) fun _ => ?_
  exact leaves_bind henter fun requestId => leaves_emitWrite lib _ _

theorem leaves_setRemoteProperty (value : Json) :
    Orderly start [] (Operations.ClientNode.setRemoteProperty lib n o value) :=
  leaves_bind (leaves_emitLog _ _ _) fun _ => leaves_emitWrite lib _ _

theorem leaves_unlinkAll (ids : List ObjectId) :
    Orderly start [] (Operations.ClientNode.unlinkAll lib n ids) := by
  induction ids with
  | nil => exact leaves_return _
  | cons id ids ih => exact leaves_bind (leaves_unlinkRemote lib n id) fun _ => ih

theorem leaves_destroyClientNode : Orderly start [] (Operations.ClientNode.destroy lib n) := by
  refine leaves_bind (leaves_exchangeLibrary fun p m => part_clientNodeAlive p _) fun _ => ?_
  refine leaves_bind (leaves_readLibrary _) fun id => ?_
  refine leaves_bind (leaves_getClientObjectIds id) fun ids => ?_
  refine leaves_bind (leaves_unlinkAll lib n ids) fun _ => ?_
  exact leaves_bind (leaves_readLibrary _) fun id => leaves_unregisterClientNode id

/-- What is passed on to a sink, if there is one. -/
theorem leaves_passOn (c : Sink → OutsideCall) (l : LoggerId) (level : LogLevel)
    (params : List LogParameter) : Orderly start [] (do
      match ← Operations.ClientNode.sinkOf o with
      | some sink => call (c sink)
      | none => emitLog l level params) := by
  refine leaves_bind (leaves_sinkOf o) fun sink => ?_
  cases sink with
  | none => exact leaves_emitLog _ _ _
  | some sink => exact leaves_call _

theorem leaves_takePending (requestId : UInt32) :
    Orderly start [] (Operations.ClientNode.takePending n requestId) :=
  leaves_locked ranked_nil (edits_pending n (fun node => { node with
    invokesPending := node.invokesPending.erase requestId })
    (fun _ => rfl) (fun _ => rfl) fun _ => .take _ _ requestId)

theorem leaves_clientHandle (c : Call) :
    Orderly start [] (Operations.ClientNode.handle lib n c) := by
  cases c with
  | init o props =>
    exact leaves_bind (leaves_emitLogWithPayload lib _ _ _ _) fun _ => leaves_passOn o _ _ _ _
  | propertyChange p v =>
    exact leaves_bind (leaves_emitLogWithPayload lib _ _ _ _) fun _ => leaves_passOn _ _ _ _ _
  | signal s args => exact leaves_bind (leaves_emitLog _ _ _) fun _ => leaves_passOn _ _ _ _ _
  | invokeReply id m v =>
    refine leaves_bind (leaves_emitLogWithPayload lib _ _ _ _) fun _ => ?_
    refine leaves_bind (leaves_takePending n id) fun found => ?_
    match found with
    | none => exact leaves_emitLog _ _ _
    | some none => exact leaves_emitLog _ _ _
    | some (some callback) => exact leaves_call _
  | error t id e =>
    refine leaves_bind (leaves_emitLog _ _ _) fun _ => ?_
    split
    · refine leaves_bind (leaves_takePending n id.toUInt32) fun found => ?_
      match found with
      | none => exact leaves_return _
      | some none => exact leaves_return _
      | some (some callback) => exact leaves_call _
    · exact leaves_return _
  | link o => exact leaves_baseHandle lib _ (.link o)
  | unlink o => exact leaves_baseHandle lib _ (.unlink o)
  | setProperty p v => exact leaves_baseHandle lib _ (.setProperty p v)
  | invoke id m args => exact leaves_baseHandle lib _ (.invoke id m args)

end ClientNodes

section RemoteNodes

variable (lib : Codecs) (n : NodeRef) (o : Bytes)

theorem leaves_createRemoteNode : Orderly start [] Operations.RemoteNode.createRemoteNode := by
  refine leaves_bind (leaves_exchangeLibrary fun p m => part_remoteConstructed p) fun n => ?_
  refine leaves_bind (leaves_registerRemoteNode _) fun id => ?_
  exact leaves_exchangeLibrary fun p m => part_remoteNodeId p n id

theorem leaves_destroyRemoteNode : Orderly start [] (Operations.RemoteNode.destroy n) := by
  refine leaves_bind (leaves_exchangeLibrary fun p m => part_remoteNodeAlive p _) fun _ => ?_
  exact leaves_bind (leaves_readLibrary _) fun id => leaves_unregisterRemoteNode id

theorem leaves_sourceOf : Orderly start [] (Operations.RemoteNode.sourceOf o) :=
  leaves_bind (leaves_getSource o) fun _ => leaves_readLibrary _

theorem leaves_handleLink : Orderly start [] (Operations.RemoteNode.handleLink lib n o) := by
  refine leaves_bind (leaves_emitLog _ _ _) fun _ => ?_
  refine leaves_bind (leaves_sourceOf o) fun source => ?_
  cases source with
  | none => exact leaves_emitLog _ _ _
  | some source =>
    refine leaves_bind (leaves_readLibrary _) fun id => ?_
    refine leaves_bind (leaves_addNodeForSource id o) fun _ => ?_
    refine leaves_bind (leaves_call _) fun _ => ?_
    exact leaves_bind (leaves_ask _) fun props => leaves_emitWrite lib _ _

theorem leaves_handleUnlink : Orderly start [] (Operations.RemoteNode.handleUnlink n o) := by
  refine leaves_bind (leaves_sourceOf o) fun source => ?_
  cases source with
  | none => exact leaves_return _
  | some source =>
    refine leaves_bind (leaves_call _) fun _ => leaves_bind (leaves_readLibrary _) fun id => ?_
    exact leaves_removeNodeFromSource id o

theorem leaves_handleSetProperty (value : Json) :
    Orderly start [] (Operations.RemoteNode.handleSetProperty o value) := by
  refine leaves_bind (leaves_sourceOf _) fun source => ?_
  cases source with
  | none => exact leaves_return _
  | some source => exact leaves_call _

theorem leaves_handleInvoke (requestId : UInt32) (args : Json) :
    Orderly start [] (Operations.RemoteNode.handleInvoke lib n requestId o args) := by
  refine leaves_bind (leaves_sourceOf _) fun source => ?_
  cases source with
  | none => exact leaves_return _
  | some source => exact leaves_bind (leaves_ask _) fun value => leaves_emitWrite lib _ _

theorem leaves_remoteHandle (c : Call) :
    Orderly start [] (Operations.RemoteNode.handle lib n c) := by
  cases c with
  | link o => exact leaves_handleLink lib n o
  | unlink o => exact leaves_handleUnlink n o
  | setProperty p v => exact leaves_handleSetProperty p v
  | invoke id m args => exact leaves_handleInvoke lib n m id args
  | init o props => exact leaves_baseHandle lib _ (.init o props)
  | propertyChange p v => exact leaves_baseHandle lib _ (.propertyChange p v)
  | invokeReply id m v => exact leaves_baseHandle lib _ (.invokeReply id m v)
  | signal s args => exact leaves_baseHandle lib _ (.signal s args)
  | error t id e => exact leaves_baseHandle lib _ (.error t id e)

end RemoteNodes

theorem leaves_handle (lib : Codecs) (n : NodeId) (c : Call) :
    Orderly start [] (Operations.handle lib n c) := by
  cases n with
  | base n => exact leaves_baseHandle lib (.base n) c
  | client n => exact leaves_clientHandle lib n c
  | remote n => exact leaves_remoteHandle lib n c

/-! ## All operations -/

/-- **Each operation** keeps to the discipline. -/
theorem leaves_code (start : Process) (lib : Codecs) (op : Operation) :
    Orderly start [] (code lib op) := by
  cases op with
  | onLog l logFunc => exact leaves_onLog l logFunc
  | setLogLevel l level => exact leaves_setLogLevel l level
  | setNode id o => exact leaves_setNode id o
  | unsetNode o => exact leaves_unsetNode o
  | addSink sink => exact leaves_addSink sink
  | removeSink o => exact leaves_removeSink o
  | getSink o => exact leaves_dropped (leaves_getSink o)
  | getClientObjectIds id => exact leaves_dropped (leaves_getClientObjectIds id)
  | getNode o => exact leaves_dropped (leaves_getNode o)
  | registerClientNode node => exact leaves_dropped (leaves_registerClientNode node)
  | unregisterClientNode id => exact leaves_unregisterClientNode id
  | addSource source => exact leaves_addSource source
  | removeSource o => exact leaves_removeSource o
  | getSource o => exact leaves_dropped (leaves_getSource o)
  | getNodes o => exact leaves_dropped (leaves_getNodes o)
  | getRemoteObjectIds id => exact leaves_dropped (leaves_getRemoteObjectIds id)
  | addNodeForSource id o => exact leaves_addNodeForSource id o
  | removeNodeFromSource id o => exact leaves_removeNodeFromSource id o
  | registerRemoteNode node => exact leaves_dropped (leaves_registerRemoteNode node)
  | unregisterRemoteNode id => exact leaves_unregisterRemoteNode id
  | onWrite n writeFunc => exact leaves_onWrite n writeFunc
  | setMessageFormat n format =>
    exact leaves_updateConverter n fun w c => .setMessageFormat w c format
  | setMaxMessageSize n size =>
    exact leaves_updateConverter n fun w c => .setMaxMessageSize w c size
  | emitWrite n msg => exact leaves_emitWrite lib n msg
  | handleMessage x n data => exact leaves_handleMessage lib x n data (leaves_handle lib n)
  | handle n c => exact leaves_handle lib n c
  | handleBase n c => exact leaves_baseHandle lib n c
  | create => exact leaves_create
  | destroyClientNode n => exact leaves_destroyClientNode lib n
  | linkRemote n o => exact leaves_linkRemote lib n o
  | unlinkRemote n o => exact leaves_unlinkRemote lib n o
  | invokeRemote n m args func => exact leaves_invokeRemote lib n m args func
  | setRemoteProperty n p value => exact leaves_setRemoteProperty lib n p value
  | createRemoteNode => exact leaves_createRemoteNode
  | destroyRemoteNode n => exact leaves_destroyRemoteNode n
  | notifyPropertyChange n p value => exact leaves_emitWrite lib _ _
  | notifySignal n s args => exact leaves_emitWrite lib _ _

end Sections

end ObjectLink
