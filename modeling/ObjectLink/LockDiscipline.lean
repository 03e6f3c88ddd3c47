import ObjectLink.Operations.Nodes

/-!
# Which mutexes are held outside

A thread runs the public operations of the registries and the nodes. Wherever one calls code
outside (a log function, a write function, a sink, a source or a callback, or the destructor of an
object), that code may call any operation again, and other threads may change the state at any time.
The library means to hold no mutex of its own meanwhile, and so to let that code call what it likes.

* `Clear`: the condition on what is accessed under a mutex. It is about what is released under one
  (the temporary references that the scans and comparisons take, and the functions that `onLog`,
  `onWrite` and `invokeRemote` replace) and about the log message in the critical section of
  `addSource`.
* `not_free_release`, `not_free_emitLog`: where the condition fails, code outside runs under a
  mutex.
* `keeps_code`: under the condition, each operation calls code outside only with no mutex held, asks
  for no mutex it holds, and ends with none.
* `outside_free`: in every run whose accesses meet the condition, however calls of the operations
  are nested, code outside runs with no mutex held, and the thread never waits for itself.
* `addSource_not_free`: a run in which `addSource` calls the log function under the mutex of the
  entries.
-/

namespace ObjectLink

open Foundation (Program Run Thread ThreadAction threads)
open Foundation.Program
open LoggerBase (emitLog emitLogWithPayload logged onLog setLogLevel LogParameter)
open Routine (readLibrary updateLibrary exchangeLibrary locked call ask release)

namespace LockDiscipline

/-! ## The operations -/

/-- What code outside can call. -/
inductive Operation where
  | onLog (l : LoggerId) (logFunc : Bool)
  | setLogLevel (l : LoggerId) (level : LogLevel)
  /-- Of the client registry. -/
  | setNode (id : Nat) (o : ObjectId)
  | unsetNode (o : ObjectId)
  | addSink (sink : WeakPtr Sink)
  | removeSink (o : ObjectId)
  | getSink (o : ObjectId)
  | getClientObjectIds (id : Nat)
  | getNode (o : ObjectId)
  | registerClientNode (node : WeakPtr NodeRef)
  | unregisterClientNode (id : Nat)
  /-- Of the remote registry. -/
  | addSource (source : WeakPtr Source)
  | removeSource (o : ObjectId)
  | getSource (o : ObjectId)
  | getNodes (o : ObjectId)
  | getRemoteObjectIds (id : Nat)
  | addNodeForSource (id : Nat) (o : ObjectId)
  | removeNodeFromSource (id : Nat) (o : ObjectId)
  | registerRemoteNode (node : WeakPtr NodeRef)
  | unregisterRemoteNode (id : Nat)
  /-- Of any node. -/
  | onWrite (n : NodeId) (writeFunc : Bool)
  | setMessageFormat (n : NodeId) (format : MessageFormat)
  | setMaxMessageSize (n : NodeId) (size : Nat)
  | emitWrite (n : NodeId) (msg : Json)
  | handleMessage (x : HasExceptions) (n : NodeId) (data : Bytes)
  | handle (n : NodeId) (c : Call)
  /-- The handler of `BaseNode`, for a node that overrides it. -/
  | handleBase (n : NodeId) (c : Call)
  /-- Of a client node. -/
  | create
  | destroyClientNode (n : NodeRef)
  | linkRemote (n : NodeRef) (o : ObjectId)
  | unlinkRemote (n : NodeRef) (o : ObjectId)
  | invokeRemote (n : NodeRef) (m : Bytes) (args : Json) (func : Option InvokeReplyFunc)
  | setRemoteProperty (n : NodeRef) (p : Bytes) (value : Json)
  /-- Of a remote node. -/
  | createRemoteNode
  | destroyRemoteNode (n : NodeRef)
  | notifyPropertyChange (n : NodeRef) (p : Bytes) (value : Json)
  | notifySignal (n : NodeRef) (s : Bytes) (args : Json)

/-- What becomes of the value an operation returns is up to its caller. -/
def dropped {α : Type} (p : Routine α) : Routine Unit := do
  let _ ← p
  return ()

/-- What the operations run. -/
def code (lib : Codecs) : Operation → Routine Unit
  | .onLog l logFunc => onLog l logFunc
  | .setLogLevel l level => setLogLevel l level
  | .setNode id o => Operations.ClientRegistry.setNode id o
  | .unsetNode o => Operations.ClientRegistry.unsetNode o
  | .addSink sink => Operations.ClientRegistry.addSink sink
  | .removeSink o => Operations.ClientRegistry.removeSink o
  | .getSink o => dropped (Operations.ClientRegistry.getSink o)
  | .getClientObjectIds id => dropped (Operations.ClientRegistry.getObjectIds id)
  | .getNode o => dropped (Operations.ClientRegistry.getNode o)
  | .registerClientNode node => dropped (Operations.ClientRegistry.registerNode node)
  | .unregisterClientNode id => Operations.ClientRegistry.unregisterNode id
  | .addSource source => Operations.RemoteRegistry.addSource source
  | .removeSource o => Operations.RemoteRegistry.removeSource o
  | .getSource o => dropped (Operations.RemoteRegistry.getSource o)
  | .getNodes o => dropped (Operations.RemoteRegistry.getNodes o)
  | .getRemoteObjectIds id => dropped (Operations.RemoteRegistry.getObjectIds id)
  | .addNodeForSource id o => Operations.RemoteRegistry.addNodeForSource id o
  | .removeNodeFromSource id o => Operations.RemoteRegistry.removeNodeFromSource id o
  | .registerRemoteNode node => dropped (Operations.RemoteRegistry.registerNode node)
  | .unregisterRemoteNode id => Operations.RemoteRegistry.unregisterNode id
  | .onWrite n writeFunc => Operations.BaseNode.onWrite n writeFunc
  | .setMessageFormat n format => Operations.BaseNode.setMessageFormat n format
  | .setMaxMessageSize n size => Operations.BaseNode.setMaxMessageSize n size
  | .emitWrite n msg => Operations.BaseNode.emitWrite lib n msg
  | .handleMessage x n data => Operations.handleMessage lib x n data
  | .handle n c => Operations.handle lib n c
  | .handleBase n c => Operations.BaseNode.handle lib n c
  | .create => Operations.ClientNode.create
  | .destroyClientNode n => Operations.ClientNode.destroy lib n
  | .linkRemote n o => Operations.ClientNode.linkRemote lib n o
  | .unlinkRemote n o => Operations.ClientNode.unlinkRemote lib n o
  | .invokeRemote n m args func => Operations.ClientNode.invokeRemote lib n m args func
  | .setRemoteProperty n p value => Operations.ClientNode.setRemoteProperty lib n p value
  | .createRemoteNode => Operations.RemoteNode.createRemoteNode
  | .destroyRemoteNode n => Operations.RemoteNode.destroy n
  | .notifyPropertyChange n p value => Operations.RemoteNode.notifyPropertyChange lib n p value
  | .notifySignal n s args => Operations.RemoteNode.notifySignal lib n s args

/-! ## The condition -/

/-- The access by which `release` finds out whether the reference is the last one. -/
inductive Releases (object : Referent) : (β : Type) → (Process → β × Process) → Prop where
  | lastReference : Releases object Bool fun p => (p.library.lastReference object, p)

/-- What is accessed with these mutexes held runs no code outside. `quiet` is for `addSource`, where
it has found another live source of that name: no operation else has both mutexes. -/
structure Clear (held : List Mutex) (β : Type) (f : Process → β × Process) (p : Process) :
    Prop where
  shared : held ≠ [] → ∀ object, Releases object β f → p.library.lastReference object = false
  quiet : Mutex.log .remoteRegistry ∈ held → Mutex.entries .remote ∈ held →
    (p.loggers .remoteRegistry).logs .info = false

/-- The code keeps to the discipline. -/
abbrev Disciplined {α : Type} (held : List Mutex) (p : Routine α) : Prop :=
  Keeps (P := platform) Clear held p

variable {α β : Type} {held : List Mutex}

/-! ## The condition is needed -/

section Needed

variable {t : Thread platform} {rest : Except Thrown Unit → Routine Unit}

/-- A last reference released under a mutex runs a destructor under it. -/
theorem not_free_release {object : Referent}
    (hr : t.running = some ((release object).followedBy rest)) (hheld : t.held ≠ [])
    (hlast : t.state.library.lastReference object = true) : ¬ t.step.Free := by
  have hstep : t.step =
      { t with running := some ((call (.destructor object)).followedBy rest) } := by
    unfold Thread.step
    rw [hr]
    change { t with running := some ((if t.state.library.lastReference object then
      call (.destructor object) else pure ()).followedBy rest) } = _
    rw [hlast, if_pos rfl]
  intro hfree
  rw [hstep] at hfree
  exact hheld (hfree.call _ ⟨_, rfl⟩)

/-- A message that is logged under the mutex of the entries calls the log function under it. -/
theorem not_free_emitLog {params : List LogParameter} {message : Bytes}
    (hr : t.running = some ((emitLog .remoteRegistry .info params).followedBy rest))
    (hheld : t.held = [.entries .remote])
    (hlogs : (t.state.loggers .remoteRegistry).logs .info = true)
    (hmessage : LoggerBase.fullMessage params = .ok message) : ¬ t.step.step.step.Free := by
  have hstep : t.step.step.step = { t with
      running := some ((if (t.state.loggers .remoteRegistry).logs .info then do
        let message ← Routine.ofExcept (LoggerBase.fullMessage params)
        call (.log .remoteRegistry .info message) else pure ()).followedBy rest) } := by
    -- the mutex of the logger is acquired, read under, and released
    obtain ⟨state, held, running, waiting⟩ := t
    subst hr hheld
    rfl
  intro hfree
  rw [hstep, hlogs, if_pos rfl, hmessage] at hfree
  have hheld' := hfree.call (.log .remoteRegistry .info message) ⟨_, rfl⟩
  rw [hheld] at hheld'
  cases hheld'

end Needed

/-! ## Pieces of code -/

theorem keeps_exchangeLibrary (f : Library → α × Library) :
    Disciplined held (exchangeLibrary f) := keeps_exchange _

theorem keeps_readLibrary (f : Library → α) : Disciplined held (readLibrary f) :=
  keeps_exchangeLibrary _

theorem keeps_updateLibrary (f : Library → Library) : Disciplined held (updateLibrary f) :=
  keeps_exchangeLibrary _

theorem keeps_ofExcept (r : Except Thrown α) : Disciplined held (Routine.ofExcept r) :=
  keeps_done (P := platform) r

theorem keeps_return (a : α) : Disciplined held (return a) := keeps_pure a

theorem keeps_locked {m : Mutex} {p : Routine α} (hm : m ∉ held)
    (hp : Disciplined (m :: held) p) : Disciplined held (locked m p) := keeps_withLock hm hp

theorem keeps_ask (c : OutsideCall) : Disciplined [] (ask c) := keeps_outside _

theorem keeps_call (c : OutsideCall) : Disciplined [] (call c) :=
  keeps_bind (keeps_ask c) fun _ => keeps_return _

theorem keeps_dropped {p : Routine α} (hp : Disciplined [] p) : Disciplined [] (dropped p) :=
  keeps_bind hp fun _ => keeps_return _

/-- The end of a critical section that comes down to one access. -/
theorem keeps_section {m : Mutex} (f : Library → α × Library) (hm : m ∉ held) :
    Disciplined held (locked m (exchangeLibrary f)) := keeps_locked hm (keeps_exchangeLibrary f)

/-- What comes after a statement that is skipped where a test fails. -/
theorem keeps_ite_bind {b : Prop} [Decidable b] {p : Routine Unit} {f : Unit → Routine α}
    (hp : Disciplined held p) (hf : ∀ u, Disciplined held (f u)) :
    Disciplined held (if b then p >>= f else f ()) := by
  split
  · exact keeps_bind hp hf
  · exact hf ()

/-! ## Logging -/

theorem keeps_emitLog (l : LoggerId) (level : LogLevel) (params : List LogParameter) :
    Disciplined [] (emitLog l level params) := by
  refine keeps_bind (keeps_locked (by simp) (keeps_exchange _)) fun logs => ?_
  cases logs with
  | false => exact keeps_return _
  | true => exact keeps_bind (keeps_ofExcept _) fun message => keeps_call _

theorem keeps_emitLogWithPayload (lib : Codecs) (l : LoggerId) (level : LogLevel) (payload : Json)
    (params : List LogParameter) :
    Disciplined [] (emitLogWithPayload lib l level payload params) := by
  refine keeps_bind (keeps_locked (by simp) (keeps_exchange _)) fun logs => ?_
  cases logs with
  | false => exact keeps_return _
  | true => exact keeps_bind (keeps_ofExcept _) fun text => keeps_emitLog _ _ _

/-- The log message of `addSource` in its critical section: it is the condition that none is
logged. -/
theorem keeps_emitLog_entries (params : List LogParameter) :
    Disciplined [.entries .remote] (emitLog .remoteRegistry .info params) := by
  refine keeps_withLock_read_bind (by decide) fun s hs => ?_
  have hquiet := hs.quiet List.mem_cons_self (List.mem_cons_of_mem _ List.mem_cons_self)
  rw [hquiet]
  exact keeps_return _

/-- What is released under a mutex is not the last reference. -/
theorem keeps_release (object : Referent) (hm : held ≠ []) :
    Disciplined held (release object) := by
  refine keeps_read_bind fun s hs => ?_
  have hshared : s.library.lastReference object = false :=
    hs.shared hm object .lastReference
  simp only [hshared]
  exact keeps_return _

/-- A critical section that replaces a function, and releases the old one if there was one. -/
theorem keeps_replace {m : Mutex} {replace : Routine Bool} {object : Referent}
    (hreplace : Disciplined [m] replace) :
    Disciplined [] (locked m do if ← replace then release object) := by
  refine keeps_locked (by simp) (keeps_bind hreplace fun replaced => ?_)
  cases replaced with
  | false => exact keeps_return _
  | true => exact keeps_release object (by simp)

theorem keeps_onLog (l : LoggerId) (logFunc : Bool) : Disciplined [] (onLog l logFunc) :=
  keeps_replace (keeps_exchange _)

theorem keeps_onWrite (n : NodeId) (writeFunc : Bool) :
    Disciplined [] (Operations.BaseNode.onWrite n writeFunc) :=
  keeps_replace (keeps_exchangeLibrary _)

/-! ## The node storages -/

section Storage

variable {side : Side}

theorem keeps_get (id : Nat) (hm : Mutex.storage side ∉ held) :
    Disciplined held (Operations.UniqueIdObjectStorage.get side id) := keeps_section _ hm

theorem keeps_remove (id : Nat) :
    Disciplined [] (Operations.UniqueIdObjectStorage.remove side id) := keeps_section _ (by simp)

theorem keeps_scan (object : NodeRef) (entries : List NodeRef) :
    Disciplined [.storage side] (Operations.UniqueIdObjectStorage.scan side object entries) := by
  induction entries with
  | nil => exact keeps_return _
  | cons current rest ih =>
    refine keeps_bind (keeps_readLibrary _) fun alive => ?_
    cases alive with
    | false => exact ih
    | true =>
      refine keeps_bind (keeps_release _ (by simp)) fun _ => ?_
      split
      · exact keeps_return _
      · exact ih

theorem keeps_add (object : WeakPtr NodeRef) :
    Disciplined [] (Operations.UniqueIdObjectStorage.add side object) := by
  refine keeps_bind (keeps_readLibrary _) fun lockedObject => ?_
  cases lockedObject with
  | none => exact keeps_return _
  | some lockedObject =>
    refine keeps_locked (by simp) (keeps_bind (keeps_exchangeLibrary _) fun full => ?_)
    cases full with
    | true => exact keeps_return _
    | false =>
      refine keeps_bind (keeps_readLibrary _) fun entries => ?_
      exact keeps_bind (keeps_scan _ _) fun _ => keeps_exchangeLibrary _

end Storage

/-! ## The registries -/

section Registries

variable (id : Nat) (o : ObjectId)

theorem keeps_setNode : Disciplined [] (Operations.ClientRegistry.setNode id o) := by
  refine keeps_bind (keeps_get id (by simp)) fun node => ?_
  refine keeps_bind (keeps_readLibrary _) fun lockedNode => ?_
  refine keeps_ite_bind (keeps_emitLog _ _ _) fun _ => ?_
  refine keeps_bind (keeps_emitLog _ _ _) fun _ => ?_
  refine keeps_bind (keeps_section _ (by simp)) fun other => ?_
  split
  · exact keeps_emitLog _ _ _
  · exact keeps_return _

theorem keeps_unsetNode : Disciplined [] (Operations.ClientRegistry.unsetNode o) :=
  keeps_bind (keeps_emitLog _ _ _) fun _ => keeps_section _ (by simp)

theorem keeps_enterSink (lockedSink : Sink) :
    Disciplined [.entries .client] (Operations.ClientRegistry.enterSink lockedSink) := by
  refine keeps_bind (keeps_readLibrary _) fun found => ?_
  cases found with
  | none => exact keeps_bind (keeps_updateLibrary _) fun _ => keeps_return _
  | some entry =>
    refine keeps_bind (keeps_readLibrary _) fun expired => ?_
    cases expired with
    | true => exact keeps_bind (keeps_updateLibrary _) fun _ => keeps_return _
    | false =>
      refine keeps_bind (keeps_readLibrary _) fun current => ?_
      cases current with
      | none => exact keeps_return _
      | some current =>
        exact keeps_bind (keeps_release _ (by simp)) fun _ => keeps_return _

theorem keeps_addSink (sink : WeakPtr Sink) :
    Disciplined [] (Operations.ClientRegistry.addSink sink) := by
  refine keeps_bind (keeps_readLibrary _) fun lockedSink => ?_
  cases lockedSink with
  | none => exact keeps_emitLog _ _ _
  | some lockedSink =>
    refine keeps_bind (keeps_call _) fun _ => keeps_bind (keeps_emitLog _ _ _) fun _ => ?_
    refine keeps_bind (keeps_locked (by simp) (keeps_enterSink lockedSink)) fun other => ?_
    split
    · exact keeps_emitLog _ _ _
    · exact keeps_return _

theorem keeps_removeSink : Disciplined [] (Operations.ClientRegistry.removeSink o) :=
  keeps_bind (keeps_emitLog _ _ _) fun _ => keeps_section _ (by simp)

theorem keeps_getSink : Disciplined [] (Operations.ClientRegistry.getSink o) :=
  keeps_bind (keeps_emitLog _ _ _) fun _ => keeps_section _ (by simp)

theorem keeps_getClientObjectIds : Disciplined [] (Operations.ClientRegistry.getObjectIds id) :=
  keeps_bind (keeps_readLibrary _) fun _ => keeps_section _ (by simp)

theorem keeps_getNode : Disciplined [] (Operations.ClientRegistry.getNode o) := by
  refine keeps_bind (keeps_emitLog _ _ _) fun _ => keeps_locked (by simp) ?_
  refine keeps_bind (keeps_readLibrary _) fun found => ?_
  cases found with
  | none => exact keeps_return _
  | some entry => exact keeps_get entry.nodeId (by simp)

theorem keeps_registerClientNode (node : WeakPtr NodeRef) :
    Disciplined [] (Operations.ClientRegistry.registerNode node) := by
  refine keeps_bind (keeps_readLibrary _) fun lockedNode => ?_
  cases lockedNode with
  | none => exact keeps_bind (keeps_emitLog _ _ _) fun _ => keeps_return _
  | some lockedNode => exact keeps_add _

theorem keeps_unregisterClientNode :
    Disciplined [] (Operations.ClientRegistry.unregisterNode id) := by
  unfold Operations.ClientRegistry.unregisterNode
  split
  · exact keeps_bind (keeps_section _ (by simp)) fun _ => keeps_remove id
  · exact keeps_return _

/-- The place where the discipline is up to the condition. -/
theorem keeps_enterSource (lockedSource : Source) :
    Disciplined [.entries .remote] (Operations.RemoteRegistry.enterSource lockedSource) := by
  refine keeps_bind (keeps_readLibrary _) fun found => ?_
  cases found with
  | none => exact keeps_updateLibrary _
  | some found =>
    refine keeps_bind (keeps_readLibrary _) fun expired => ?_
    cases expired with
    | true => exact keeps_return _
    | false =>
      refine keeps_bind (keeps_readLibrary _) fun current => ?_
      cases current with
      | none => exact keeps_emitLog_entries _
      | some current =>
        refine keeps_bind (keeps_release _ (by simp)) fun _ => ?_
        split
        · exact keeps_return _
        · exact keeps_emitLog_entries _

theorem keeps_addSource (source : WeakPtr Source) :
    Disciplined [] (Operations.RemoteRegistry.addSource source) := by
  refine keeps_bind (keeps_readLibrary _) fun lockedSource => ?_
  cases lockedSource with
  | none => exact keeps_emitLog _ _ _
  | some lockedSource =>
    refine keeps_bind (keeps_call _) fun _ => keeps_bind (keeps_emitLog _ _ _) fun _ => ?_
    exact keeps_locked (by simp) (keeps_enterSource lockedSource)

theorem keeps_removeSource : Disciplined [] (Operations.RemoteRegistry.removeSource o) :=
  keeps_bind (keeps_emitLog _ _ _) fun _ => keeps_section _ (by simp)

theorem keeps_getSource : Disciplined [] (Operations.RemoteRegistry.getSource o) :=
  keeps_bind (keeps_emitLog _ _ _) fun _ => keeps_section _ (by simp)

theorem keeps_liveNodes (ids : List Nat) :
    Disciplined [.entries .remote] (Operations.RemoteRegistry.liveNodes ids) := by
  induction ids with
  | nil => exact keeps_return _
  | cons id ids ih =>
    refine keeps_bind (keeps_get id (by simp)) fun node => ?_
    refine keeps_bind (keeps_readLibrary _) fun expired => ?_
    exact keeps_bind ih fun nodes => keeps_return _

theorem keeps_getNodes : Disciplined [] (Operations.RemoteRegistry.getNodes o) := by
  refine keeps_bind (keeps_emitLog _ _ _) fun _ => keeps_locked (by simp) ?_
  refine keeps_bind (keeps_readLibrary _) fun found => ?_
  cases found with
  | none => exact keeps_return _
  | some found => exact keeps_liveNodes found.nodes

theorem keeps_getRemoteObjectIds : Disciplined [] (Operations.RemoteRegistry.getObjectIds id) :=
  keeps_section _ (by simp)

theorem keeps_addNodeForSource :
    Disciplined [] (Operations.RemoteRegistry.addNodeForSource id o) := by
  refine keeps_bind (keeps_get id (by simp)) fun node => ?_
  refine keeps_bind (keeps_readLibrary _) fun lockedNode => ?_
  cases lockedNode with
  | none => exact keeps_emitLog _ _ _
  | some lockedNode =>
    exact keeps_bind (keeps_emitLog _ _ _) fun _ => keeps_section _ (by simp)

theorem keeps_removeNodeFromSource :
    Disciplined [] (Operations.RemoteRegistry.removeNodeFromSource id o) :=
  keeps_bind (keeps_emitLog _ _ _) fun _ => keeps_section _ (by simp)

theorem keeps_registerRemoteNode (node : WeakPtr NodeRef) :
    Disciplined [] (Operations.RemoteRegistry.registerNode node) := by
  refine keeps_bind (keeps_readLibrary _) fun lockedNode => ?_
  cases lockedNode with
  | none => exact keeps_bind (keeps_emitLog _ _ _) fun _ => keeps_return _
  | some lockedNode => exact keeps_add _

theorem keeps_unregisterRemoteNode :
    Disciplined [] (Operations.RemoteRegistry.unregisterNode id) := by
  unfold Operations.RemoteRegistry.unregisterNode
  split
  · exact keeps_bind (keeps_section _ (by simp)) fun _ => keeps_remove id
  · exact keeps_return _

end Registries

/-! ## The nodes -/

section Nodes

variable (lib : Codecs)

theorem keeps_convert (n : NodeId) (msg : Json) :
    Disciplined [.node n] (Operations.BaseNode.convert lib n msg) := by
  refine keeps_bind (keeps_readLibrary _) fun writeFunc => ?_
  cases writeFunc with
  | false => exact keeps_return _
  | true =>
    refine keeps_bind (keeps_readLibrary _) fun converter => ?_
    exact keeps_bind (keeps_ofExcept _) fun converted => keeps_return _

/-- The write function is called after the critical section. -/
theorem keeps_emitWrite (n : NodeId) (msg : Json) :
    Disciplined [] (Operations.BaseNode.emitWrite lib n msg) := by
  refine keeps_bind (keeps_emitLogWithPayload lib _ _ _ _) fun _ => ?_
  refine keeps_bind (keeps_locked (by simp) (keeps_convert lib n msg)) fun converted => ?_
  cases converted with
  | none => exact keeps_emitLog _ _ _
  | some converted => exact keeps_call _

theorem keeps_tryBlock (msg : Json) {handle : Call → Routine Unit}
    (hh : ∀ c, Disciplined [] (handle c)) : Disciplined [] (Protocol.tryBlock lib msg handle) := by
  cases hc : Protocol.decode? lib.toJsonLibrary msg with
  | some c =>
    rw [Protocol.tryBlock_of_decode hc]
    exact hh c
  | none =>
    rw [Protocol.tryBlock_of_reject hc]
    split
    · split
      · exact keeps_return _
      · exact keeps_ofExcept _
    · exact keeps_return _

theorem keeps_dispatch (x : HasExceptions) (msg : Json) {handle : Call → Routine Unit}
    (hh : ∀ c, Disciplined [] (handle c)) :
    Disciplined [] (Protocol.dispatch lib msg x handle) := by
  cases x with
  | false => exact keeps_tryBlock lib msg hh
  | true =>
    refine keeps_tryCatch (keeps_tryBlock lib msg hh) fun e => ?_
    cases e with
    | json what => exact keeps_return _
    | _ => exact keeps_ofExcept _

/-- The message is converted in the critical section, and handled after it. -/
theorem keeps_handleMessage (x : HasExceptions) (n : NodeId) (data : Bytes)
    {handle : Call → Routine Unit} (hh : ∀ c, Disciplined [] (handle c)) :
    Disciplined [] (Operations.BaseNode.handleMessage lib n x handle data) := by
  refine keeps_bind (keeps_section _ (by simp)) fun parsed => ?_
  cases x with
  | false => exact keeps_dispatch lib false parsed hh
  | true =>
    refine keeps_tryCatch (keeps_dispatch lib true parsed hh) fun e => ?_
    cases e with
    | other => exact keeps_ofExcept _
    | _ => exact keeps_emitLog _ _ _

theorem keeps_baseHandle (n : NodeId) (c : Call) :
    Disciplined [] (Operations.BaseNode.handle lib n c) := by
  cases c with
  | link _ | unlink _ | invokeReply _ _ _ | error _ _ _ => exact keeps_emitLog _ _ _
  | _ => exact keeps_emitLogWithPayload lib _ _ _ _

end Nodes

section ClientNodes

variable (lib : Codecs) (n : NodeRef) (o : Bytes)

theorem keeps_create : Disciplined [] Operations.ClientNode.create := by
  refine keeps_bind (keeps_exchangeLibrary _) fun n => ?_
  exact keeps_bind (keeps_registerClientNode _) fun id => keeps_updateLibrary _

theorem keeps_linkRemote : Disciplined [] (Operations.ClientNode.linkRemote lib n o) := by
  refine keeps_bind (keeps_emitLog _ _ _) fun _ => ?_
  refine keeps_bind (keeps_emitWrite lib _ _) fun _ => ?_
  refine keeps_bind (keeps_unsetNode o) fun _ => ?_
  exact keeps_bind (keeps_readLibrary _) fun id => keeps_setNode id o

theorem keeps_sinkOf : Disciplined [] (Operations.ClientNode.sinkOf o) :=
  keeps_bind (keeps_getSink o) fun _ => keeps_readLibrary _

theorem keeps_unlinkRemote : Disciplined [] (Operations.ClientNode.unlinkRemote lib n o) := by
  have hrest : Disciplined [] (do
      Operations.BaseNode.emitWrite lib (.client n) (Protocol.unlinkMessage o)
      Operations.ClientRegistry.unsetNode o) :=
    keeps_bind (keeps_emitWrite lib _ _) fun _ => keeps_unsetNode o
  refine keeps_bind (keeps_emitLog _ _ _) fun _ => keeps_bind (keeps_sinkOf o) fun sink => ?_
  cases sink with
  | none => exact hrest
  | some sink => exact keeps_bind (keeps_call _) fun _ => hrest

/-- The callback that is replaced is released in the critical section. -/
theorem keeps_enterPending (func : Option InvokeReplyFunc) :
    Disciplined [.pendingInvokes n] (Operations.ClientNode.enterPending n func) := by
  refine keeps_bind (keeps_exchangeLibrary _) fun entered => ?_
  match entered with
  | (requestId, some (some callback)) =>
    exact keeps_bind (keeps_release _ (by simp)) fun _ => keeps_return _
  | (requestId, none) => exact keeps_return _
  | (requestId, some none) => exact keeps_return _

theorem keeps_invokeRemote (args : Json) (func : Option InvokeReplyFunc) :
    Disciplined [] (Operations.ClientNode.invokeRemote lib n o args func) := by
  refine keeps_bind (keeps_emitLog _ _ _) fun _ => ?_
  have henter := keeps_locked (by simp) (keeps_enterPending n func)
  exact keeps_bind henter fun requestId => keeps_emitWrite lib _ _

theorem keeps_setRemoteProperty (value : Json) :
    Disciplined [] (Operations.ClientNode.setRemoteProperty lib n o value) :=
  keeps_bind (keeps_emitLog _ _ _) fun _ => keeps_emitWrite lib _ _

theorem keeps_unlinkAll (ids : List ObjectId) :
    Disciplined [] (Operations.ClientNode.unlinkAll lib n ids) := by
  induction ids with
  | nil => exact keeps_return _
  | cons id ids ih => exact keeps_bind (keeps_unlinkRemote lib n id) fun _ => ih

theorem keeps_destroyClientNode : Disciplined [] (Operations.ClientNode.destroy lib n) := by
  refine keeps_bind (keeps_updateLibrary _) fun _ => keeps_bind (keeps_readLibrary _) fun id => ?_
  refine keeps_bind (keeps_getClientObjectIds id) fun ids => ?_
  refine keeps_bind (keeps_unlinkAll lib n ids) fun _ => ?_
  exact keeps_bind (keeps_readLibrary _) fun id => keeps_unregisterClientNode id

/-- What is passed on to a sink, if there is one. -/
theorem keeps_passOn (c : Sink → OutsideCall) (l : LoggerId) (level : LogLevel)
    (params : List LogParameter) : Disciplined [] (do
      match ← Operations.ClientNode.sinkOf o with
      | some sink => call (c sink)
      | none => emitLog l level params) := by
  refine keeps_bind (keeps_sinkOf o) fun sink => ?_
  cases sink with
  | none => exact keeps_emitLog _ _ _
  | some sink => exact keeps_call _

/-- The pending call is taken out in the critical section, and answered after it. -/
theorem keeps_takePending (requestId : UInt32) :
    Disciplined [] (Operations.ClientNode.takePending n requestId) := keeps_section _ (by simp)

theorem keeps_clientHandle (c : Call) : Disciplined [] (Operations.ClientNode.handle lib n c) := by
  cases c with
  | init o props =>
    exact keeps_bind (keeps_emitLogWithPayload lib _ _ _ _) fun _ => keeps_passOn o _ _ _ _
  | propertyChange p v =>
    exact keeps_bind (keeps_emitLogWithPayload lib _ _ _ _) fun _ => keeps_passOn _ _ _ _ _
  | signal s args => exact keeps_bind (keeps_emitLog _ _ _) fun _ => keeps_passOn _ _ _ _ _
  | invokeReply id m v =>
    refine keeps_bind (keeps_emitLogWithPayload lib _ _ _ _) fun _ => ?_
    refine keeps_bind (keeps_takePending n id) fun found => ?_
    match found with
    | none => exact keeps_emitLog _ _ _
    | some none => exact keeps_emitLog _ _ _
    | some (some callback) => exact keeps_call _
  | error t id e =>
    refine keeps_bind (keeps_emitLog _ _ _) fun _ => ?_
    split
    · refine keeps_bind (keeps_takePending n id.toUInt32) fun found => ?_
      match found with
      | none => exact keeps_return _
      | some none => exact keeps_return _
      | some (some callback) => exact keeps_call _
    · exact keeps_return _
  | link o => exact keeps_baseHandle lib _ (.link o)
  | unlink o => exact keeps_baseHandle lib _ (.unlink o)
  | setProperty p v => exact keeps_baseHandle lib _ (.setProperty p v)
  | invoke id m args => exact keeps_baseHandle lib _ (.invoke id m args)

end ClientNodes

section RemoteNodes

variable (lib : Codecs) (n : NodeRef) (o : Bytes)

theorem keeps_createRemoteNode : Disciplined [] Operations.RemoteNode.createRemoteNode := by
  refine keeps_bind (keeps_exchangeLibrary _) fun n => ?_
  exact keeps_bind (keeps_registerRemoteNode _) fun id => keeps_updateLibrary _

theorem keeps_destroyRemoteNode : Disciplined [] (Operations.RemoteNode.destroy n) := by
  refine keeps_bind (keeps_updateLibrary _) fun _ => ?_
  exact keeps_bind (keeps_readLibrary _) fun id => keeps_unregisterRemoteNode id

theorem keeps_sourceOf : Disciplined [] (Operations.RemoteNode.sourceOf o) :=
  keeps_bind (keeps_getSource o) fun _ => keeps_readLibrary _

theorem keeps_handleLink : Disciplined [] (Operations.RemoteNode.handleLink lib n o) := by
  refine keeps_bind (keeps_emitLog _ _ _) fun _ => keeps_bind (keeps_sourceOf o) fun source => ?_
  cases source with
  | none => exact keeps_emitLog _ _ _
  | some source =>
    refine keeps_bind (keeps_readLibrary _) fun id => ?_
    refine keeps_bind (keeps_addNodeForSource id o) fun _ => keeps_bind (keeps_call _) fun _ => ?_
    exact keeps_bind (keeps_ask _) fun props => keeps_emitWrite lib _ _

theorem keeps_handleUnlink : Disciplined [] (Operations.RemoteNode.handleUnlink n o) := by
  refine keeps_bind (keeps_sourceOf o) fun source => ?_
  cases source with
  | none => exact keeps_return _
  | some source =>
    refine keeps_bind (keeps_call _) fun _ => keeps_bind (keeps_readLibrary _) fun id => ?_
    exact keeps_removeNodeFromSource id o

theorem keeps_handleSetProperty (value : Json) :
    Disciplined [] (Operations.RemoteNode.handleSetProperty o value) := by
  refine keeps_bind (keeps_sourceOf _) fun source => ?_
  cases source with
  | none => exact keeps_return _
  | some source => exact keeps_call _

theorem keeps_handleInvoke (requestId : UInt32) (args : Json) :
    Disciplined [] (Operations.RemoteNode.handleInvoke lib n requestId o args) := by
  refine keeps_bind (keeps_sourceOf _) fun source => ?_
  cases source with
  | none => exact keeps_return _
  | some source => exact keeps_bind (keeps_ask _) fun value => keeps_emitWrite lib _ _

theorem keeps_remoteHandle (c : Call) : Disciplined [] (Operations.RemoteNode.handle lib n c) := by
  cases c with
  | link o => exact keeps_handleLink lib n o
  | unlink o => exact keeps_handleUnlink n o
  | setProperty p v => exact keeps_handleSetProperty p v
  | invoke id m args => exact keeps_handleInvoke lib n m id args
  | init o props => exact keeps_baseHandle lib _ (.init o props)
  | propertyChange p v => exact keeps_baseHandle lib _ (.propertyChange p v)
  | invokeReply id m v => exact keeps_baseHandle lib _ (.invokeReply id m v)
  | signal s args => exact keeps_baseHandle lib _ (.signal s args)
  | error t id e => exact keeps_baseHandle lib _ (.error t id e)

end RemoteNodes

theorem keeps_handle (lib : Codecs) (n : NodeId) (c : Call) :
    Disciplined [] (Operations.handle lib n c) := by
  cases n with
  | base n => exact keeps_baseHandle lib (.base n) c
  | client n => exact keeps_clientHandle lib n c
  | remote n => exact keeps_remoteHandle lib n c

/-! ## All operations -/

/-- **Each operation** keeps to the discipline. -/
theorem keeps_code (lib : Codecs) (op : Operation) : Disciplined [] (code lib op) := by
  cases op with
  | onLog l logFunc => exact keeps_onLog l logFunc
  | setLogLevel l level => exact keeps_locked (by simp) (keeps_exchange _)
  | setNode id o => exact keeps_setNode id o
  | unsetNode o => exact keeps_unsetNode o
  | addSink sink => exact keeps_addSink sink
  | removeSink o => exact keeps_removeSink o
  | getSink o => exact keeps_dropped (keeps_getSink o)
  | getClientObjectIds id => exact keeps_dropped (keeps_getClientObjectIds id)
  | getNode o => exact keeps_dropped (keeps_getNode o)
  | registerClientNode node => exact keeps_dropped (keeps_registerClientNode node)
  | unregisterClientNode id => exact keeps_unregisterClientNode id
  | addSource source => exact keeps_addSource source
  | removeSource o => exact keeps_removeSource o
  | getSource o => exact keeps_dropped (keeps_getSource o)
  | getNodes o => exact keeps_dropped (keeps_getNodes o)
  | getRemoteObjectIds id => exact keeps_dropped (keeps_getRemoteObjectIds id)
  | addNodeForSource id o => exact keeps_addNodeForSource id o
  | removeNodeFromSource id o => exact keeps_removeNodeFromSource id o
  | registerRemoteNode node => exact keeps_dropped (keeps_registerRemoteNode node)
  | unregisterRemoteNode id => exact keeps_unregisterRemoteNode id
  | onWrite n writeFunc => exact keeps_onWrite n writeFunc
  | setMessageFormat n format => exact keeps_section _ (by simp)
  | setMaxMessageSize n size => exact keeps_section _ (by simp)
  | emitWrite n msg => exact keeps_emitWrite lib n msg
  | handleMessage x n data => exact keeps_handleMessage lib x n data (keeps_handle lib n)
  | handle n c => exact keeps_handle lib n c
  | handleBase n c => exact keeps_baseHandle lib n c
  | create => exact keeps_create
  | destroyClientNode n => exact keeps_destroyClientNode lib n
  | linkRemote n o => exact keeps_linkRemote lib n o
  | unlinkRemote n o => exact keeps_unlinkRemote lib n o
  | invokeRemote n m args func => exact keeps_invokeRemote lib n m args func
  | setRemoteProperty n p value => exact keeps_setRemoteProperty lib n p value
  | createRemoteNode => exact keeps_createRemoteNode
  | destroyRemoteNode n => exact keeps_destroyRemoteNode n
  | notifyPropertyChange n p value => exact keeps_emitWrite lib _ _
  | notifySignal n s args => exact keeps_emitWrite lib _ _

/-- The threads that run the operations, from any state. -/
abbrev machine (lib : Codecs) : Foundation.Machine (Thread platform)
    (ThreadAction platform Operation) :=
  threads (fun _ => True) (code lib)

/-- **Code outside is free of locks** in every run whose accesses are clear. -/
theorem outside_free (lib : Codecs) {h : List (Thread platform × ThreadAction platform Operation)}
    {t : Thread platform} (hr : Run (machine lib) h t) (hk : ∀ x ∈ h, x.1.Accesses Clear x.2) :
    t.Free :=
  Foundation.free_run (keeps_code lib) hr hk

/-- All infos are logged. -/
def logging (l : Library) : Thread platform where
  state := { library := l, loggers := fun _ => { logFunc := true, logLevel := .info } }
  held := []
  running := none
  waiting := []

/-- A library that converts `null`. -/
def nullCodecs : Codecs := .knowing .null (lit "null") [0xC0] [0xF6]

/-- The log function is called by `getSource`. -/
def logsGetSource : List (ThreadAction platform Operation) :=
  [.start (.getSource (lit "o")), .step, .step, .step]

theorem outside_free_getSource :
    ((machine nullCodecs).exec (logging .new) logsGetSource).Free := by
  refine outside_free nullCodecs
    (Foundation.run_play logsGetSource ⟨trivial, rfl, rfl, rfl⟩ (by decide)) ?_
  simp only [logsGetSource, Foundation.Machine.history, List.forall_mem_cons]
  refine ⟨trivial, ?_, ?_, ?_, by simp⟩
  · rintro β f next h
    cases h
  · rintro β f next -
    exact ⟨fun _ object _ => rfl, fun _ hentries => absurd hentries (by decide)⟩
  · rintro β f next h
    cases h

/-- A source is registered. -/
def withSource : Thread platform :=
  logging (Library.new.updateRemoteRegistry
    (·.addSource (fun _ => true) (some { ref := 0, olinkObjectName := lit "o" })))

/-- Another one of the same name is added: the thread asks for the name, logs that it adds the
source, acquires the mutex, finds the other source, and logs that. -/
def addsAnother : List (ThreadAction platform Operation) :=
  [.start (.addSource (some { ref := 1, olinkObjectName := lit "o" })), .step, .step,
    .answer (.ok .null) withSource.state, .step, .step, .step, .step,
    .answer (.ok .null) withSource.state, .step, .step, .step, .step, .step, .step, .step, .step]

/-- **`addSource` logs under its mutex**, where another source of that name is registered. -/
theorem addSource_not_free : ¬ ∀ h t, Run (machine nullCodecs) h t → t.Free := by
  intro hall
  have hrun := Foundation.run_play (M := machine nullCodecs) addsAnother
    (s := withSource) ⟨trivial, rfl, rfl, rfl⟩ (by decide)
  have hheld : ((machine nullCodecs).exec withSource addsAnother).held = [.entries .remote] := by
    rfl
  have hcalls : ∃ message, ((machine nullCodecs).exec withSource addsAnother).Calls
      (.log .remoteRegistry .info message) := ⟨_, _, rfl⟩
  obtain ⟨message, hcalls⟩ := hcalls
  have hfree := (hall _ _ hrun).call _ hcalls
  rw [hheld] at hfree
  cases hfree

end LockDiscipline

end ObjectLink
