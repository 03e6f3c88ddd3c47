import ObjectLink.Core.Decode
import ObjectLink.Operations.Nodes

/-!
# Running an operation

What an operation comes down to when no other thread interferes, for a fixed logging configuration.
The code outside (`Users`) sees the library and all that has been called before, and may change the
library; log functions return and change nothing. The `World` has the library and the history of
the calls of code outside other than log functions.

Results:
* `run_emitLog`, `run_emitLogWithPayload`: a log message changes nothing, but making it may throw,
  where it is logged.
* `run_setNode` to `run_unregisterRemoteNode`: what the operations of the registries come down to;
  `add` takes temporary references, none of which must be the last one.
* `run_create` to `run_destroyRemoteNode`: nodes come and go. The destructor of a client node calls
  code outside, see `Simulation.destroy_agrees`.
* `run_emitWrite`, `run_handleMessage`: sending and receiving a message.
-/

namespace ObjectLink

open Foundation (Program)
open Foundation.Program (Interpretation eval_bind_ok eval_bind_error eval_tryCatch eval_pure
  eval_done eval_exchange eval_outside eval_withLock)
open LoggerBase (emitLog emitLogWithPayload fullMessage LogParameter logged)
open Routine (readLibrary updateLibrary exchangeLibrary locked call ask)

/-- A call of code outside, and how it ended. -/
abbrev Event := OutsideCall × Except Thrown Json

/-- The library, and what code outside has been called so far. -/
structure World where
  history : List Event
  library : Library

/-- The code outside: how a call ends and what it makes of the library, given what has been called
before. -/
abbrev Users :=
  List Event → OutsideCall → Library → Except Thrown Json × Library

/-- Nothing throws, and nothing calls back into the library. -/
def Users.idle : Users := fun _ _ l => (.ok .null, l)

namespace World

variable (w : World)

/-- The world with a changed library. -/
def update (f : Library → Library) : World := { w with library := f w.library }

/-- The world after a call of code outside. -/
def called (users : Users) (c : OutsideCall) : World where
  history := w.history ++ [(c, (users w.history c w.library).1)]
  library := (users w.history c w.library).2

end World

variable (users : Users) (L : LoggerId → Logger)

/-- Running code with this logging configuration. -/
def interpretation : Interpretation platform World where
  access f w := ((f ⟨w.library, L⟩).1, w.update fun _ => (f ⟨w.library, L⟩).2.library)
  answer
    | .log _ _ _, w => (.ok .null, w)
    | c, w => ((users w.history c w.library).1, w.called users c)

/-- The outcome of an operation. -/
def run {α : Type} (p : Routine α) (w : World) : Except Thrown α × World :=
  p.eval (interpretation users L) w

/-- The configuration in which nothing is logged. -/
def silent : LoggerId → Logger := fun _ => .new

/-- The configuration in which everything is. -/
def verbose : LoggerId → Logger := fun _ => { logFunc := true, logLevel := .info }

namespace Running

variable {users L} {α β : Type} {w w' : World} {lib : Codecs}

/-! ## Pieces of code -/

theorem run_bind (p : Routine α) (f : α → Routine β) : run users L (p >>= f) w =
    match run users L p w with
    | (.ok a, w') => run users L (f a) w'
    | (.error e, w') => (.error e, w') := by
  cases hp : run users L p w with
  | mk r w' =>
    cases r with
    | ok a => exact eval_bind_ok hp
    | error e => exact eval_bind_error hp

theorem run_bind_ok {p : Routine α} {f : α → Routine β} {a : α}
    (h : run users L p w = (.ok a, w')) : run users L (p >>= f) w = run users L (f a) w' :=
  eval_bind_ok h

theorem run_bind_error {p : Routine α} {f : α → Routine β} {e : Thrown}
    (h : run users L p w = (.error e, w')) : run users L (p >>= f) w = (.error e, w') :=
  eval_bind_error h

@[simp] theorem run_ite (b : Prop) [Decidable b] (p q : Routine α) :
    run users L (if b then p else q) w = if b then run users L p w else run users L q w := by
  split <;> rfl

@[simp] theorem run_pure (a : α) : run users L (pure a) w = (.ok a, w) := eval_pure a

@[simp] theorem run_ofExcept (r : Except Thrown α) :
    run users L (Routine.ofExcept r) w = (r, w) :=
  eval_done (P := platform) r

@[simp] theorem run_exchangeLibrary (f : Library → α × Library) :
    run users L (exchangeLibrary f) w
      = (.ok (f w.library).1, w.update fun l => (f l).2) := eval_exchange _

@[simp] theorem run_readLibrary (f : Library → α) :
    run users L (readLibrary f) w = (.ok (f w.library), w) := rfl

@[simp] theorem run_updateLibrary (f : Library → Library) :
    run users L (updateLibrary f) w = (.ok (), w.update f) := rfl

@[simp] theorem run_withLock (m : Mutex) (p : Routine α) :
    run users L (locked m p) w = run users L p w := eval_withLock (P := platform) m p

@[simp] theorem run_logged (l : LoggerId) (level : LogLevel) :
    run users L (logged l level) w = (.ok ((L l).logs level), w) := rfl

@[simp] theorem run_log (l : LoggerId) (level : LogLevel) (message : Bytes) :
    run users L (call (.log l level message)) w = (.ok (), w) := rfl

/-- What has been called stays on record. -/
theorem run_history (p : Routine α) (w : World) : w.history <+: (run users L p w).2.history := by
  refine Program.eval_related (R := fun w w' : World => w.history <+: w'.history)
    (fun w => List.prefix_rfl) (fun _ _ _ h h' => h.trans h') (fun _ _ _ => List.prefix_rfl)
    (fun c w => ?_) p w
  cases c with
  | log l level message => exact List.prefix_rfl
  | _ => exact List.prefix_append _ _

/-! ## Log messages -/

/-- How something ended, its value left out. -/
def ended {α : Type} : Except Thrown α → Except Thrown Unit
  | .ok _ => .ok ()
  | .error e => .error e

/-- **A log message** changes nothing, but making it may throw. -/
theorem run_emitLog (l : LoggerId) (level : LogLevel) (params : List LogParameter) :
    run users L (emitLog l level params) w =
      (if (L l).logs level then ended (fullMessage params) else .ok (), w) := by
  unfold emitLog
  rw [run_bind_ok (run_logged l level)]
  split
  · cases hm : fullMessage params with
    | ok message => rw [run_bind_ok (run_ofExcept _), run_log, ended]
    | error e => rw [run_bind_error (run_ofExcept _), ended]
  · rfl

/-- The parameters are strings. -/
def Texts (params : List LogParameter) : Prop := ∀ p ∈ params, ∃ s, p = .string s

@[simp] theorem texts_nil : Texts [] := fun _ h => by cases h

@[simp] theorem texts_cons {s : Bytes} {params : List LogParameter} :
    Texts (.string s :: params) ↔ Texts params := by
  simp [Texts]

theorem fullMessage_texts : ∀ {params : List LogParameter}, Texts params →
    ∃ message, fullMessage params = .ok message
  | [], _ => ⟨[], rfl⟩
  | p :: params, h => by
    obtain ⟨s, rfl⟩ := h p List.mem_cons_self
    obtain ⟨message, hm⟩ := fullMessage_texts (texts_cons.mp h)
    refine ⟨s ++ message, ?_⟩
    rw [fullMessage, hm]
    rfl

/-- A message made of strings changes nothing at all. -/
@[simp] theorem run_emitLog_texts {l : LoggerId} {level : LogLevel} {params : List LogParameter}
    (h : Texts params) : run users L (emitLog l level params) w = (.ok (), w) := by
  obtain ⟨message, hm⟩ := fullMessage_texts h
  rw [run_emitLog, hm, ended, ite_self]

/-- What becomes of a payload that is to be logged, or not. -/
def dumped (lib : Codecs) (payload : Json) (logs : Bool) : Except Thrown Unit :=
  if logs then ended ((lib.dump payload).mapError .json) else .ok ()

theorem dumped_valid {payload : Json} (hv : payload.validUtf8 = true) (logs : Bool) :
    dumped lib payload logs = .ok () := by
  obtain ⟨text, ht⟩ := (lib.dump_ok_iff payload).mpr hv
  unfold dumped
  rw [ht]
  exact ite_self _

theorem dumped_invalid {payload : Json} {what : Bytes} (hd : lib.dump payload = .error what) :
    dumped lib payload true = .error (.json what) := by
  unfold dumped
  rw [hd]
  rfl

/-- What it throws is a JSON exception. -/
theorem dumped_error {payload : Json} {logs : Bool} {e : Thrown}
    (h : dumped lib payload logs = .error e) : ∃ what, e = .json what := by
  unfold dumped at h
  split at h
  · cases hd : lib.dump payload with
    | ok text =>
      rw [hd] at h
      cases h
    | error what =>
      rw [hd] at h
      cases h
      exact ⟨what, rfl⟩
  · cases h

theorem dumped_not_logged (payload : Json) : dumped lib payload false = .ok () := rfl

/-- **A log message with a payload** throws where it is logged and the payload cannot be dumped. -/
@[simp] theorem run_emitLogWithPayload {l : LoggerId} {level : LogLevel}
    {params : List LogParameter} (h : Texts params) (payload : Json) :
    run users L (emitLogWithPayload lib l level payload params) w =
      (dumped lib payload ((L l).logs level), w) := by
  unfold emitLogWithPayload dumped
  rw [run_bind_ok (run_logged l level)]
  split
  · cases hd : (lib.dump payload).mapError Thrown.json with
    | ok text =>
      have ht : Texts (params ++ [.string text]) := by
        intro p hp
        rcases List.mem_append.mp hp with hp | hp
        · exact h p hp
        · exact ⟨text, List.mem_singleton.mp hp⟩
      rw [run_bind_ok (run_ofExcept _), run_emitLog_texts ht, ended]
    | error e => rw [run_bind_error (run_ofExcept _), ended]
  · rfl

/-- What follows a payload that is logged. -/
def afterDump (r : Except Thrown Unit) (w : World) (rest : Except Thrown Unit × World) :
    Except Thrown Unit × World :=
  match r with
  | .ok _ => rest
  | .error e => (.error e, w)

/-- Code that logs a payload first. -/
theorem run_afterDump {l : LoggerId} {level : LogLevel} {params : List LogParameter}
    (h : Texts params) {p : Routine Unit} {rest : Except Thrown Unit × World}
    (hp : run users L p w = rest) :
    run users L (emitLogWithPayload lib l level payload params >>= fun _ => p) w
      = afterDump (dumped lib payload ((L l).logs level)) w rest := by
  rw [run_bind, run_emitLogWithPayload h]
  cases dumped lib payload ((L l).logs level) with
  | ok u => exact hp
  | error e => rfl

/-! ## Calls of code outside -/

/-- A call of code outside is on record. -/
theorem called_ne (hw : w'.history = w.history) (c : OutsideCall) : w'.called users c ≠ w := by
  intro h
  have hlength : (w'.called users c).history.length = w.history.length := by rw [h]
  simp [World.called, hw] at hlength

theorem run_ask {c : OutsideCall} (hc : c.isLog = false) :
    run users L (ask c) w = ((users w.history c w.library).1, w.called users c) := by
  refine (eval_outside (P := platform) c).trans ?_
  cases c with
  | log l level message => cases hc
  | _ => rfl

theorem run_call {c : OutsideCall} (hc : c.isLog = false) :
    run users L (call c) w = (ended (users w.history c w.library).1, w.called users c) := by
  unfold Routine.call
  cases hr : (users w.history c w.library).1 with
  | ok value =>
    have hask : run users L (ask c) w = (.ok value, w.called users c) := by rw [run_ask hc, hr]
    exact run_bind_ok hask
  | error e =>
    have hask : run users L (ask c) w = (.error e, w.called users c) := by rw [run_ask hc, hr]
    exact run_bind_error hask

/-! ## The registries -/

@[simp] theorem run_get (side : Side) (id : Nat) :
    run users L (Operations.UniqueIdObjectStorage.get side id) w
      = (.ok ((w.library.storage side).get id), w) := rfl

@[simp] theorem run_unsetNode (o : ObjectId) :
    run users L (Operations.ClientRegistry.unsetNode o) w
      = (.ok (), w.update fun l => l.updateClientRegistry (·.unsetNode o)) := by
  simp [Operations.ClientRegistry.unsetNode, run_bind]

@[simp] theorem run_setNode (id : Nat) (o : ObjectId) :
    run users L (Operations.ClientRegistry.setNode id o) w
      = (.ok (), w.update fun l => l.updateClientRegistry (·.setNode id o)) := by
  simp [Operations.ClientRegistry.setNode, run_bind]

@[simp] theorem run_getSink (o : ObjectId) :
    run users L (Operations.ClientRegistry.getSink o) w
      = (.ok (w.library.client.registry.getSink o), w) := by
  simp [Operations.ClientRegistry.getSink, run_bind]

@[simp] theorem run_getSource (o : ObjectId) :
    run users L (Operations.RemoteRegistry.getSource o) w
      = (.ok (w.library.server.registry.getSource o), w) := by
  simp [Operations.RemoteRegistry.getSource, run_bind]

/-- An entry is given a node only while the node is alive. -/
theorem addNodeForSource_eq (nodeAlive : NodeRef → Bool) (r : RemoteRegistry) (id : Nat)
    (o : ObjectId) : r.addNodeForSource nodeAlive id o =
      if ((r.remoteNodesById.get id).lock nodeAlive).isSome then
        Operations.RemoteRegistry.enterNode id o r
      else r := by
  unfold RemoteRegistry.addNodeForSource Operations.RemoteRegistry.enterNode
  cases (r.remoteNodesById.get id).lock nodeAlive with
  | none => rfl
  | some n => rfl

@[simp] theorem run_addNodeForSource (id : Nat) (o : ObjectId) :
    run users L (Operations.RemoteRegistry.addNodeForSource id o) w
      = (.ok (), w.update fun l =>
          l.updateRemoteRegistry (·.addNodeForSource l.server.nodeAlive id o)) := by
  simp only [addNodeForSource_eq]
  cases h : ((w.library.storage .remote).get id).lock w.library.server.nodeAlive with
  | none =>
    have hnone : (w.library.server.registry.remoteNodesById.get id).lock w.library.server.nodeAlive
        = none := h
    simp [Operations.RemoteRegistry.addNodeForSource, run_bind, h, World.update,
      Library.updateRemoteRegistry, Server.updateRegistry, hnone]
  | some n =>
    have hsome : (w.library.server.registry.remoteNodesById.get id).lock w.library.server.nodeAlive
        = some n := h
    simp [Operations.RemoteRegistry.addNodeForSource, run_bind, h, World.update,
      Library.updateRemoteRegistry, Server.updateRegistry, hsome]

@[simp] theorem run_removeNodeFromSource (id : Nat) (o : ObjectId) :
    run users L (Operations.RemoteRegistry.removeNodeFromSource id o) w
      = (.ok (), w.update fun l => l.updateRemoteRegistry (·.removeNodeFromSource id o)) := by
  simp [Operations.RemoteRegistry.removeNodeFromSource, run_bind]

@[simp] theorem run_removeSink (o : ObjectId) :
    run users L (Operations.ClientRegistry.removeSink o) w
      = (.ok (), w.update fun l => l.updateClientRegistry (·.removeSink o)) := by
  simp [Operations.ClientRegistry.removeSink, run_bind]

@[simp] theorem run_clientObjectIds (id : Nat) :
    run users L (Operations.ClientRegistry.getObjectIds id) w
      = (.ok (w.library.client.registry.getObjectIds id), w) := rfl

@[simp] theorem run_removeSource (o : ObjectId) :
    run users L (Operations.RemoteRegistry.removeSource o) w
      = (.ok (), w.update fun l => l.updateRemoteRegistry (·.removeSource o)) := by
  simp [Operations.RemoteRegistry.removeSource, run_bind]

/-! ### Registering nodes -/

/-- Nothing goes with a reference that is not the last one. -/
theorem run_release {object : Referent} (hshared : w.library.lastReference object = false) :
    run users L (Routine.release object) w = (.ok (), w) := by
  unfold Routine.release
  rw [run_bind_ok (run_readLibrary _), hshared]
  rfl

theorem run_scan {side : Side} (hshared : ∀ object, w.library.lastReference object = false)
    (object : NodeRef) (entries : List NodeRef) :
    run users L (Operations.UniqueIdObjectStorage.scan side object entries) w = (.ok (), w) := by
  induction entries with
  | nil => rfl
  | cons current rest ih =>
    unfold Operations.UniqueIdObjectStorage.scan
    rw [run_bind_ok (run_readLibrary _)]
    cases w.library.nodeAlive side current with
    | false => exact ih
    | true =>
      rw [if_pos rfl, run_bind_ok (run_release (hshared _)), run_ite, ih, run_pure, ite_self]

/-- Where no reference is the last one, `add` does what it does to the storage. -/
theorem run_add {side : Side} (hshared : ∀ object, w.library.lastReference object = false)
    (object : WeakPtr NodeRef) :
    run users L (Operations.UniqueIdObjectStorage.add side object) w =
      (.ok ((w.library.storage side).add (w.library.nodeAlive side) object).1,
        w.update fun l =>
          l.setStorage ((l.storage side).add (l.nodeAlive side) object).2 side) := by
  unfold Operations.UniqueIdObjectStorage.add
  rw [run_bind_ok (run_readLibrary _)]
  cases ho : object.lock (w.library.nodeAlive side) with
  | none =>
    have hadd : (w.library.storage side).add (w.library.nodeAlive side) object
        = (invalidId, w.library.storage side) := by
      unfold UniqueIdObjectStorage.add
      rw [ho]
    simp only [run_pure, World.update, hadd, Library.setStorage_storage]
  | some o =>
    rw [run_withLock, run_bind_ok (run_exchangeLibrary _), run_ite, UniqueIdObjectStorage.add_eq ho]
    simp only [UniqueIdObjectStorage.room_maxCount, decide_eq_true_eq]
    split
    · simp [World.update, UniqueIdObjectStorage.add_eq ho, *]
    · have hshared' : ∀ s object, (w.library.setStorage s side).lastReference object = false := by
        intro s object
        rw [Library.lastReference_setStorage]
        exact hshared object
      rw [run_bind_ok (run_readLibrary _), run_bind_ok (run_scan (hshared' _) _ _),
        run_exchangeLibrary]
      simp [World.update, UniqueIdObjectStorage.add_eq ho, *]

theorem run_registerClientNode (hshared : ∀ object, w.library.lastReference object = false)
    (node : WeakPtr NodeRef) :
    run users L (Operations.ClientRegistry.registerNode node) w =
      (.ok (w.library.client.registry.registerNode w.library.client.nodeAlive node).1,
        w.update fun l => l.updateClientRegistry fun r =>
          (r.registerNode l.client.nodeAlive node).2) := by
  unfold Operations.ClientRegistry.registerNode
  rw [run_bind_ok (run_readLibrary _)]
  cases hn : node.lock w.library.client.nodeAlive with
  | none =>
    rw [run_bind_ok (run_emitLog_texts (by simp))]
    simp [World.update, Library.updateClientRegistry, Client.updateRegistry,
      ClientRegistry.registerNode, hn]
  | some n =>
    rw [run_add hshared]
    simp [World.update, Library.updateClientRegistry, Client.updateRegistry, Library.setStorage,
      Library.storage, Library.nodeAlive, ClientRegistry.registerNode, hn]

theorem run_registerRemoteNode (hshared : ∀ object, w.library.lastReference object = false)
    (node : WeakPtr NodeRef) :
    run users L (Operations.RemoteRegistry.registerNode node) w =
      (.ok (w.library.server.registry.registerNode w.library.server.nodeAlive node).1,
        w.update fun l => l.updateRemoteRegistry fun r =>
          (r.registerNode l.server.nodeAlive node).2) := by
  unfold Operations.RemoteRegistry.registerNode
  rw [run_bind_ok (run_readLibrary _)]
  cases hn : node.lock w.library.server.nodeAlive with
  | none =>
    rw [run_bind_ok (run_emitLog_texts (by simp))]
    simp [World.update, Library.updateRemoteRegistry, Server.updateRegistry,
      RemoteRegistry.registerNode, hn]
  | some n =>
    rw [run_add hshared]
    simp [World.update, Library.updateRemoteRegistry, Server.updateRegistry, Library.setStorage,
      Library.storage, Library.nodeAlive, RemoteRegistry.registerNode, hn]

@[simp] theorem run_unregisterClientNode (id : Nat) :
    run users L (Operations.ClientRegistry.unregisterNode id) w
      = (.ok (), w.update fun l => l.updateClientRegistry (·.unregisterNode id)) := by
  unfold Operations.ClientRegistry.unregisterNode
  by_cases hid : id = invalidId
  · simp [hid, World.update, Library.updateClientRegistry, Client.updateRegistry,
      ClientRegistry.unregisterNode]
  · simp [hid, run_bind, Operations.UniqueIdObjectStorage.remove, World.update, Library.setStorage,
      Library.storage, Library.updateClientRegistry, Client.updateRegistry,
      ClientRegistry.unregisterNode, Operations.ClientRegistry.freeSlots]

@[simp] theorem run_unregisterRemoteNode (id : Nat) :
    run users L (Operations.RemoteRegistry.unregisterNode id) w
      = (.ok (), w.update fun l => l.updateRemoteRegistry (·.unregisterNode id)) := by
  unfold Operations.RemoteRegistry.unregisterNode
  by_cases hid : id = invalidId
  · simp [hid, World.update, Library.updateRemoteRegistry, Server.updateRegistry,
      RemoteRegistry.unregisterNode]
  · simp [hid, run_bind, Operations.UniqueIdObjectStorage.remove, World.update, Library.setStorage,
      Library.storage, Library.updateRemoteRegistry, Server.updateRegistry,
      RemoteRegistry.unregisterNode, Operations.RemoteRegistry.withoutNode]

@[simp] theorem run_sinkOf (o : ObjectId) :
    run users L (Operations.ClientNode.sinkOf o) w = (.ok (w.library.sink o), w) := by
  simp [Operations.ClientNode.sinkOf, run_bind, Library.sink]

@[simp] theorem run_sourceOf (o : ObjectId) :
    run users L (Operations.RemoteNode.sourceOf o) w = (.ok (w.library.source o), w) := by
  simp [Operations.RemoteNode.sourceOf, run_bind, Library.source, Server.source]

@[simp] theorem run_clientNodeId (n : NodeRef) : run users L (Operations.ClientNode.nodeId n) w
    = (.ok (w.library.client.nodes n).nodeId, w) := rfl

@[simp] theorem run_remoteNodeId (n : NodeRef) : run users L (Operations.RemoteNode.nodeId n) w
    = (.ok (w.library.server.nodes n).nodeId, w) := rfl

/-! ## Construction and destruction of nodes -/

theorem update_alive (alive : NodeRef → Bool) (n : NodeRef) (b : Bool) :
    Function.update alive n b = fun m => if m = n then b else alive m := by
  funext m
  exact Function.update_apply _ _ _ _

theorem run_create (hshared : ∀ object, w.library.lastReference object = false) :
    run users L Operations.ClientNode.create w = (.ok (), w.update fun l =>
      { l with client := (ClientNode.create l.client).2 }) := by
  have hshared' : ∀ object, (w.update fun l =>
      { l with client := Operations.ClientNode.constructed l.client }).library.lastReference object
        = false := hshared
  unfold Operations.ClientNode.create
  rw [run_bind_ok (run_exchangeLibrary _), run_bind_ok (run_registerClientNode hshared' _),
    run_updateLibrary]
  have hnodes : ∀ (c : Client) (id : Nat), (fun m => if m = c.nextNode then
      { (Operations.ClientNode.constructed c).nodes m with nodeId := id }
        else (Operations.ClientNode.constructed c).nodes m)
      = fun m => if m = c.nextNode then
          { nodeId := id, writeFunc := false, nextRequestId := 0, invokesPending := ∅ }
        else c.nodes m := by
    intro c id
    funext m
    by_cases hm : m = c.nextNode <;>
      simp [Operations.ClientNode.constructed, hm]
  simp only [World.update, Library.updateClientRegistry, Client.updateRegistry, Client.updateNode,
    ClientNode.create, hnodes, ← update_alive]
  rfl

theorem run_createRemoteNode (hshared : ∀ object, w.library.lastReference object = false) :
    run users L Operations.RemoteNode.createRemoteNode w = (.ok (), w.update fun l =>
      { l with server := (RemoteNode.createRemoteNode l.server).2 }) := by
  have hshared' : ∀ object, (w.update fun l =>
      { l with server := Operations.RemoteNode.constructed l.server }).library.lastReference object
        = false := hshared
  unfold Operations.RemoteNode.createRemoteNode
  rw [run_bind_ok (run_exchangeLibrary _), run_bind_ok (run_registerRemoteNode hshared' _),
    run_updateLibrary]
  have hnodes : ∀ (s : Server) (id : Nat), (fun m => if m = s.nextNode then
      { (Operations.RemoteNode.constructed s).nodes m with nodeId := id }
        else (Operations.RemoteNode.constructed s).nodes m)
      = fun m => if m = s.nextNode then { nodeId := id, writeFunc := false } else s.nodes m := by
    intro s id
    funext m
    by_cases hm : m = s.nextNode <;>
      simp [Operations.RemoteNode.constructed, hm]
  simp only [World.update, Library.updateRemoteRegistry, Server.updateRegistry, Server.updateNode,
    RemoteNode.createRemoteNode, hnodes, ← update_alive]
  rfl

theorem run_destroyRemoteNode (n : NodeRef) :
    run users L (Operations.RemoteNode.destroy n) w = (.ok (), w.update fun l =>
      { l with server := RemoteNode.destroy n l.server }) := by
  unfold Operations.RemoteNode.destroy
  rw [run_bind_ok (run_updateLibrary _), run_bind_ok (run_remoteNodeId n),
    run_unregisterRemoteNode]
  simp only [World.update, update_alive]
  rfl

/-! ## Messages -/

/-- What `emitWrite` does but for its log messages. -/
def written (users : Users) (lib : Codecs) (n : NodeId) (msg : Json) (w : World) :
    Except Thrown Unit × World :=
  if w.library.writeFunc n then
    match (w.library.converters n).toString lib msg with
    | .ok data =>
      (ended (users w.history (.write n data) w.library).1, w.called users (.write n data))
    | .error e => (.error e, w)
  else (.ok (), w)

/-- The write function is set, where none is replaced or nothing goes with the one that is. -/
theorem run_onWrite (hshared : ∀ object, w.library.lastReference object = false) (n : NodeId)
    (writeFunc : Bool) : run users L (Operations.BaseNode.onWrite n writeFunc) w
      = (.ok (), w.update fun l => l.setWriteFunc writeFunc n) := by
  have hset : ∀ object,
      (w.update fun l => l.setWriteFunc writeFunc n).library.lastReference object = false := by
    cases n <;> exact hshared
  unfold Operations.BaseNode.onWrite
  rw [run_withLock, run_bind_ok (run_exchangeLibrary _)]
  cases w.library.writeFunc n with
  | false => rfl
  | true => exact run_release (hset _)

/-- **Sending a message**: the log message comes first. -/
theorem run_emitWrite (n : NodeId) (msg : Json) :
    run users L (Operations.BaseNode.emitWrite lib n msg) w =
      afterDump (dumped lib msg ((L (.node n)).logs .debug)) w (written users lib n msg w) := by
  have hconvert : run users L (Operations.BaseNode.convert lib n msg) w =
      if w.library.writeFunc n then
        (((w.library.converters n).toString lib msg).map some, w)
      else (.ok none, w) := by
    unfold Operations.BaseNode.convert
    rw [run_bind_ok (run_readLibrary _), run_ite, run_pure]
    split
    · rw [run_bind_ok (run_readLibrary _)]
      cases (w.library.converters n).toString lib msg with
      | ok data => rfl
      | error e => rfl
    · rfl
  have hlocked : run users L (locked (.node n) (Operations.BaseNode.convert lib n msg)) w =
      if w.library.writeFunc n then
        (((w.library.converters n).toString lib msg).map some, w)
      else (.ok none, w) := by
    rw [run_withLock, hconvert]
  refine run_afterDump (by simp) ?_
  unfold written
  split at hlocked
  · rename_i hw
    rw [if_pos hw]
    cases ht : (w.library.converters n).toString lib msg with
    | error e =>
      rw [ht] at hlocked
      exact run_bind_error hlocked
    | ok data =>
      rw [ht] at hlocked
      exact (run_bind_ok hlocked).trans (run_call rfl)
  · rename_i hw
    rw [if_neg hw]
    exact (run_bind_ok hlocked).trans (run_emitLog_texts (by simp))

theorem run_tryCatch (p : Routine α) (f : Thrown → Routine α) :
    run users L (tryCatch p f) w =
      match run users L p w with
      | (.ok a, w') => (.ok a, w')
      | (.error e, w') => run users L (f e) w' := by
  have h : run users L (tryCatch p f) w = _ := eval_tryCatch p f
  rw [h]
  unfold run
  cases p.eval (interpretation users L) w with
  | mk r w' =>
    cases r with
    | ok a => rfl
    | error e => rfl

/-- How an exception ends in `handleMessage`, in the build with exceptions. -/
def settled : Except Thrown Unit → Except Thrown Unit
  | .ok _ => .ok ()
  | .error .other => .error .other
  | .error _ => .ok ()

/-- With exceptions, those that are caught end there. -/
def caught (x : HasExceptions) (r : Except Thrown Unit × World) : Except Thrown Unit × World :=
  (if x then settled r.1 else r.1, r.2)

/-- **Receiving a message** is what the protocol makes of it, but for the exceptions. -/
theorem run_handleMessage (x : HasExceptions) (n : NodeId) (handle : Call → Routine Unit)
    (data : Bytes) : run users L (Operations.BaseNode.handleMessage lib n x handle data) w =
      caught x (run users L (Protocol.tryBlock lib ((w.library.converters n).fromString lib data)
        handle) w) := by
  have hparsed : run users L (locked (.node n)
      (readLibrary fun l => (l.converters n).fromString lib data)) w
        = (.ok ((w.library.converters n).fromString lib data), w) := by
    rw [run_withLock, run_readLibrary]
  unfold Operations.BaseNode.handleMessage
  rw [run_bind_ok hparsed]
  cases x with
  | false => rfl
  | true =>
    rw [if_pos rfl, run_tryCatch]
    unfold Protocol.dispatch
    rw [if_pos rfl, run_tryCatch]
    match run users L (Protocol.tryBlock lib ((w.library.converters n).fromString lib data)
      handle) w with
    | (.ok _, w') => rfl
    | (.error (.json what), w') => rfl
    | (.error (.std what), w') => exact run_emitLog_texts (by simp)
    | (.error .other, w') => rfl

end Running

end ObjectLink
