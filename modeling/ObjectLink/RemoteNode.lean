import ObjectLink.RemoteRegistry
import ObjectLink.Core.BaseNode

/-!
# Remote nodes

Model of `RemoteNode` (`remotenode.h`, `remotenode.cpp`) with the parts of `BaseNode` it uses, for
any number of nodes over one `RemoteRegistry`. Of the log messages only those with a payload are
here, whose dump may throw (`Logging`).

The state `Server` holds the registry, the nodes, which nodes and sources are alive, and what code
outside the library has been called with so far, oldest first, with what it returned where that is
used: the write functions of the nodes and the handlers of the sources. How that code ends is up to
the environment `ServerEnv`; it does not call back into the library. As on the client side a
message is recorded as the JSON value it was before its conversion.

* `createRemoteNode` and the destructor (`remotenode.cpp:21-31`), which only unregisters the node;
* the handlers of received messages (`:33-76`), which are the `listener` of the node;
* `notifyPropertyChange` and `notifySignal` (`:78-86`), for the sources.

Results:
* `handleLink_state` to `handleMessage_state`: what a received message does, whether or not code
  outside throws.
* `due_of_mem_callsOf`: why code outside is called; `olinkLinked_mem_callsOf` and
  `olinkUnlinked_mem_callsOf`: which messages tell a source of a node.
-/

namespace ObjectLink

/-- The members of a `RemoteNode`. -/
structure RemoteNodeState where
  nodeId : Nat
  /-- Whether a write function is set. -/
  writeFunc : Bool

/-- A call of code outside the library, with the value or exception it ended with where a value is
used. -/
inductive ServerEffect where
  | write (node : NodeRef) (msg : Json)
  | olinkLinked (source : Source) (objectId : Bytes) (node : NodeRef)
  | olinkUnlinked (source : Source) (objectId : Bytes)
  | olinkSetProperty (source : Source) (propertyId : Bytes) (value : Json)
  | olinkCollectProperties (source : Source) (result : Except Thrown Json)
  | olinkInvoke (source : Source) (methodId : Bytes) (args : Json) (result : Except Thrown Json)

/-- The server side: any number of nodes over one registry. -/
structure Server where
  registry : RemoteRegistry
  nodes : NodeRef → RemoteNodeState
  nodeAlive : NodeRef → Bool
  sourceAlive : Source → Bool
  /-- Nodes with a smaller number have been created. -/
  nextNode : NodeRef
  effects : List ServerEffect

/-- How the code outside the library ends when it is called, given what has been called before. -/
structure ServerEnv extends Logging where
  /-- `MessageConverter::toString`. -/
  toString : Json → Except Thrown Unit
  /-- A write function, or a handler of a source that returns nothing. -/
  call : List ServerEffect → ServerEffect → Except Thrown Unit
  olinkCollectProperties : List ServerEffect → Source → Except Thrown Json
  olinkInvoke : List ServerEffect → Source → Bytes → Json → Except Thrown Json

/-- No code outside the library throws. -/
structure ServerEnv.Returns (env : ServerEnv) : Prop where
  emitLogWithPayload : ∀ level payload, env.emitLogWithPayload level payload = .ok ()
  toString : ∀ msg, env.toString msg = .ok ()
  call : ∀ before e, env.call before e = .ok ()
  olinkCollectProperties : ∀ before s, ∃ props, env.olinkCollectProperties before s = .ok props
  olinkInvoke : ∀ before s m args, ∃ value, env.olinkInvoke before s m args = .ok value

/-- The environment in which nothing throws, nothing is logged and every value is `null`. -/
def ServerEnv.returning : ServerEnv where
  logs _ := false
  dump _ := .ok ()
  toString _ := .ok ()
  call _ _ := .ok ()
  olinkCollectProperties _ _ := .ok .null
  olinkInvoke _ _ _ _ := .ok .null

theorem ServerEnv.returning_returns : ServerEnv.returning.Returns :=
  ⟨fun _ _ => rfl, fun _ => rfl, fun _ _ => rfl, fun _ _ => ⟨_, rfl⟩, fun _ _ _ _ => ⟨_, rfl⟩⟩

namespace Server

/-- Changes the members of one node. -/
def updateNode (w : Server) (n : NodeRef) (f : RemoteNodeState → RemoteNodeState) : Server :=
  { w with nodes := fun m => if m = n then f (w.nodes m) else w.nodes m }

/-- Changes the registry. -/
def updateRegistry (w : Server) (f : RemoteRegistry → RemoteRegistry) : Server :=
  { w with registry := f w.registry }

/-- The source registered for an object, if it is alive. -/
def source (w : Server) (o : ObjectId) : Option Source :=
  (w.registry.getSource o).lock w.sourceAlive

end Server

namespace RemoteNode

variable (env : ServerEnv) (n : NodeRef)

/-- A call of code outside the library that returns nothing. -/
def perform (e : ServerEffect) : Code Server Unit := do
  let w ← get
  modify fun w => { w with effects := w.effects ++ [e] }
  match env.call w.effects e with
  | .ok _ => return ()
  | .error t => throw t

/-- A call of a handler of a source for a value. -/
def request (handler : List ServerEffect → Except Thrown Json)
    (effect : Except Thrown Json → ServerEffect) : Code Server Json := do
  let w ← get
  modify fun w => { w with effects := w.effects ++ [effect (handler w.effects)] }
  match handler w.effects with
  | .ok value => return value
  | .error t => throw t

/-- `BaseNode::emitWrite`. -/
def emitWrite (msg : Json) : Code Server Unit := do
  Code.ofExcept (env.emitLogWithPayload .debug msg)
  let w ← get
  if (w.nodes n).writeFunc then
    match env.toString msg with
    | .ok _ => perform env (.write n msg)
    | .error t => throw t
  else return ()

/-- `BaseNode::onWrite`. -/
def onWrite (w : Server) : Server := w.updateNode n fun node => { node with writeFunc := true }

/-- `createRemoteNode`: the new node, and the server with it. -/
def createRemoteNode (w : Server) : NodeRef × Server :=
  let n := w.nextNode
  let w := { w with
    nextNode := n + 1
    nodeAlive := fun m => if m = n then true else w.nodeAlive m }
  let (id, registry) := w.registry.registerNode w.nodeAlive (some n)
  let node := { nodeId := id, writeFunc := false }
  (n, { w with registry := registry, nodes := fun m => if m = n then node else w.nodes m })

/-- The destructor, which runs when the last reference to the node is gone. -/
def destroy (w : Server) : Server :=
  let w := { w with nodeAlive := fun m => if m = n then false else w.nodeAlive m }
  w.updateRegistry fun r => r.unregisterNode (w.nodes n).nodeId

/-- `notifyPropertyChange`. -/
def notifyPropertyChange (propertyId : Bytes) (value : Json) : Code Server Unit :=
  emitWrite env n (Protocol.propertyChangeMessage propertyId value)

/-- `notifySignal`. -/
def notifySignal (signalId : Bytes) (args : Json) : Code Server Unit :=
  emitWrite env n (Protocol.signalMessage signalId args)

/-! ## Handlers -/

/-- `handleLink`: the node is entered before the source is told, and the source is told before it
is asked for its properties. -/
def handleLink (objectId : Bytes) : Code Server Unit := do
  let w ← get
  match w.source objectId with
  | some source =>
    modify fun w => w.updateRegistry fun r =>
      r.addNodeForSource w.nodeAlive (w.nodes n).nodeId objectId
    perform env (.olinkLinked source objectId n)
    let props ← request (fun before => env.olinkCollectProperties before source)
      (.olinkCollectProperties source)
    emitWrite env n (Protocol.initMessage objectId props)
  | none => return ()

/-- `handleUnlink`: the source is told before the node is taken out. -/
def handleUnlink (objectId : Bytes) : Code Server Unit := do
  let w ← get
  match w.source objectId with
  | some source =>
    perform env (.olinkUnlinked source objectId)
    modify fun w => w.updateRegistry fun r => r.removeNodeFromSource (w.nodes n).nodeId objectId
  | none => return ()

/-- `handleSetProperty`. -/
def handleSetProperty (propertyId : Bytes) (value : Json) : Code Server Unit := do
  let w ← get
  match w.source (Name.getObjectId propertyId) with
  | some source => perform env (.olinkSetProperty source propertyId value)
  | none => return ()

/-- `handleInvoke`: a call of an object without a source is never answered. -/
def handleInvoke (requestId : UInt32) (methodId : Bytes) (args : Json) : Code Server Unit := do
  let w ← get
  match w.source (Name.getObjectId methodId) with
  | some source =>
    let value ← request (fun before => env.olinkInvoke before source methodId args)
      (.olinkInvoke source methodId args)
    emitWrite env n (Protocol.invokeReplyMessage requestId methodId value)
  | none => return ()

/-- The node as the listener of its protocol. `BaseNode` only logs the messages a server does not
expect; the value of an `InvokeReply` must be a string for that. -/
def listener : IProtocolListener Server where
  handleLink objectId := (handleLink env n objectId).run
  handleUnlink objectId := (handleUnlink env n objectId).run
  handleInit _ props w := (env.emitLogWithPayload .warning props, w)
  handleSetProperty propertyId value := (handleSetProperty env propertyId value).run
  handlePropertyChange _ value w := (env.emitLogWithPayload .warning value, w)
  handleInvoke requestId methodId args := (handleInvoke env n requestId methodId args).run
  handleInvokeReply _ _ value w :=
    (if env.logs .warning then value.getString.map fun _ => () else .ok (), w)
  handleSignal _ args w := (env.emitLogWithPayload .warning args, w)
  handleError _ _ _ w := (.ok (), w)

/-- `handleMessage`. -/
def handleMessage (lib : JsonLibrary) (msg : Json) : Handler Server :=
  BaseNode.handleMessage lib (listener env n) msg

/-! ## What a received message does -/

variable {env n} {w : Server} {o : ObjectId}

theorem perform_run (e : ServerEffect) :
    (perform env e).run w = (env.call w.effects e, { w with effects := w.effects ++ [e] }) := by
  unfold perform
  rw [Code.bind_run_ok Code.get_run, Code.bind_run_ok (Code.modify_run _)]
  split <;> rename_i h <;> rw [h] <;> rfl

theorem request_run (handler : List ServerEffect → Except Thrown Json)
    (effect : Except Thrown Json → ServerEffect) : (request handler effect).run w =
      (handler w.effects, { w with effects := w.effects ++ [effect (handler w.effects)] }) := by
  unfold request
  rw [Code.bind_run_ok Code.get_run, Code.bind_run_ok (Code.modify_run _)]
  split <;> rename_i h <;> rw [h] <;> rfl

/-- The message gets to the write function: its log message returns, and it can be converted. -/
def Writable (env : ServerEnv) (msg : Json) : Prop :=
  env.emitLogWithPayload .debug msg = .ok () ∧ env.toString msg = .ok ()

/-- The write of a message, if a write function is set and the message gets there. -/
def written (env : ServerEnv) (w : Server) (n : NodeRef) (msg : Json) : List ServerEffect :=
  if (w.nodes n).writeFunc then
    match env.emitLogWithPayload .debug msg, env.toString msg with
    | .ok _, .ok _ => [.write n msg]
    | _, _ => []
  else []

theorem written_of_writable {msg : Json} (hmsg : Writable env msg) :
    written env w n msg = if (w.nodes n).writeFunc then [.write n msg] else [] := by
  unfold written
  rw [hmsg.1, hmsg.2]

theorem written_of_not_writable {msg : Json} (hmsg : ¬ Writable env msg) :
    written env w n msg = [] := by
  unfold Writable at hmsg
  unfold written
  split
  · split
    · rename_i hlog hconverted
      exact absurd ⟨hlog, hconverted⟩ hmsg
    · rfl
  · rfl

theorem emitWrite_state (msg : Json) : ((emitWrite env n msg).run w).2
    = { w with effects := w.effects ++ written env w n msg } := by
  unfold emitWrite written
  rw [Code.bind_run, Code.ofExcept_run]
  cases env.emitLogWithPayload .debug msg with
  | error t =>
    dsimp only
    rw [ite_self, List.append_nil]
  | ok u =>
    dsimp only
    rw [Code.bind_run_ok Code.get_run]
    split
    · cases env.toString msg with
      | ok u => exact congrArg Prod.snd (perform_run _)
      | error t =>
        rw [List.append_nil]
        rfl
    · rw [List.append_nil]
      rfl

theorem mem_written {msg : Json} {e : ServerEffect} (he : e ∈ written env w n msg) :
    e = .write n msg := by
  by_cases hmsg : Writable env msg
  · rw [written_of_writable hmsg] at he
    split at he
    · exact List.mem_singleton.mp he
    · cases he
  · rw [written_of_not_writable hmsg] at he
    cases he

/-- What follows a request for a value: a write that contains the value, unless the handler
threw. -/
def answered (env : ServerEnv) (w : Server) (n : NodeRef) (message : Json → Json) :
    Except Thrown Json → List ServerEffect
  | .ok value => written env w n (message value)
  | .error _ => []

/-- What a `Link` makes the node call, when there is a source. -/
def linkCalls (env : ServerEnv) (w : Server) (n : NodeRef) (o : ObjectId) (source : Source) :
    List ServerEffect :=
  let before := w.effects ++ [.olinkLinked source o n]
  let result := env.olinkCollectProperties before source
  .olinkLinked source o n ::
    match env.call w.effects (.olinkLinked source o n) with
    | .ok _ => .olinkCollectProperties source result ::
        answered env w n (Protocol.initMessage o) result
    | .error _ => []

/-- What an `Invoke` makes the node call, when there is a source. -/
def invokeCalls (env : ServerEnv) (w : Server) (n : NodeRef) (requestId : UInt32) (methodId : Bytes)
    (args : Json) (source : Source) : List ServerEffect :=
  let result := env.olinkInvoke w.effects source methodId args
  .olinkInvoke source methodId args result ::
    answered env w n (Protocol.invokeReplyMessage requestId methodId) result

/-- What a message makes the node call. -/
def callsOf (env : ServerEnv) (w : Server) (n : NodeRef) : Call → List ServerEffect
  | .link o => (w.source o).elim [] (linkCalls env w n o)
  | .unlink o => (w.source o).elim [] fun source => [.olinkUnlinked source o]
  | .setProperty propertyId value =>
    (w.source (Name.getObjectId propertyId)).elim [] fun source =>
      [.olinkSetProperty source propertyId value]
  | .invoke requestId methodId args =>
    (w.source (Name.getObjectId methodId)).elim [] (invokeCalls env w n requestId methodId args)
  | _ => []

/-- The registry after a message. -/
def registryAfter (env : ServerEnv) (w : Server) (n : NodeRef) : Call → RemoteRegistry
  | .link o =>
    match w.source o with
    | some _ => w.registry.addNodeForSource w.nodeAlive (w.nodes n).nodeId o
    | none => w.registry
  | .unlink o =>
    match w.source o with
    | some source =>
      match env.call w.effects (.olinkUnlinked source o) with
      | .ok _ => w.registry.removeNodeFromSource (w.nodes n).nodeId o
      | .error _ => w.registry
    | none => w.registry
  | _ => w.registry

/-- The server after the node has handled a message. -/
def received (env : ServerEnv) (w : Server) (n : NodeRef) (c : Call) : Server :=
  { w with registry := registryAfter env w n c, effects := w.effects ++ callsOf env w n c }

theorem handleLink_state (o : ObjectId) :
    ((handleLink env n o).run w).2 = received env w n (.link o) := by
  unfold handleLink received callsOf registryAfter
  rw [Code.bind_run_ok Code.get_run]
  dsimp only
  cases w.source o with
  | none =>
    rw [Option.elim_none, List.append_nil]
    rfl
  | some source =>
    dsimp only [Option.elim_some, linkCalls]
    rw [Code.bind_run_ok (Code.modify_run _), Code.bind_run, perform_run]
    unfold Server.updateRegistry
    dsimp only
    cases env.call w.effects (.olinkLinked source o n) with
    | error t => rfl
    | ok u =>
      dsimp only
      rw [Code.bind_run, request_run]
      dsimp only
      cases env.olinkCollectProperties (w.effects ++ [.olinkLinked source o n]) source with
      | error t =>
        dsimp only [answered]
        rw [List.append_assoc]
        rfl
      | ok props =>
        dsimp only [answered]
        rw [emitWrite_state, List.append_assoc, List.append_assoc]
        rfl

theorem handleUnlink_state (o : ObjectId) :
    ((handleUnlink env n o).run w).2 = received env w n (.unlink o) := by
  unfold handleUnlink received callsOf registryAfter
  rw [Code.bind_run_ok Code.get_run]
  dsimp only
  cases w.source o with
  | none =>
    rw [Option.elim_none, List.append_nil]
    rfl
  | some source =>
    rw [Option.elim_some, Code.bind_run, perform_run]
    dsimp only
    cases env.call w.effects (.olinkUnlinked source o) <;> rfl

theorem handleSetProperty_state (propertyId : Bytes) (value : Json) :
    ((handleSetProperty env propertyId value).run w).2
      = received env w n (.setProperty propertyId value) := by
  unfold handleSetProperty received callsOf registryAfter
  rw [Code.bind_run_ok Code.get_run]
  dsimp only
  cases w.source (Name.getObjectId propertyId) with
  | none =>
    rw [Option.elim_none, List.append_nil]
    rfl
  | some source => exact congrArg Prod.snd (perform_run _)

theorem handleInvoke_state (requestId : UInt32) (methodId : Bytes) (args : Json) :
    ((handleInvoke env n requestId methodId args).run w).2
      = received env w n (.invoke requestId methodId args) := by
  unfold handleInvoke received callsOf registryAfter
  rw [Code.bind_run_ok Code.get_run]
  dsimp only
  cases w.source (Name.getObjectId methodId) with
  | none =>
    rw [Option.elim_none, List.append_nil]
    rfl
  | some source =>
    dsimp only [Option.elim_some, invokeCalls]
    rw [Code.bind_run, request_run]
    cases env.olinkInvoke w.effects source methodId args with
    | error t => rfl
    | ok value =>
      dsimp only [answered]
      rw [emitWrite_state, List.append_assoc]
      rfl

/-- **What a received message does**, whether or not the code it calls throws. -/
theorem handleMessage_state (lib : JsonLibrary) (msg : Json) :
    (handleMessage env n lib msg w).2 = match Protocol.decode? lib msg with
      | some c => received env w n c
      | none => w := by
  unfold handleMessage
  rw [BaseNode.handleMessage_state]
  cases Protocol.decode? lib msg with
  | none => rfl
  | some c =>
    have hnone : { w with effects := w.effects ++ [] } = w := by rw [List.append_nil]
    cases c with
    | link o => exact handleLink_state o
    | unlink o => exact handleUnlink_state o
    | setProperty propertyId value => exact handleSetProperty_state propertyId value
    | invoke requestId methodId args => exact handleInvoke_state requestId methodId args
    | _ => exact hnone.symm

/-! ## Why code outside is called -/

variable {c : Call} {s : Source} {m : NodeRef}

theorem mem_answered {message : Json → Json} {result : Except Thrown Json} {e : ServerEffect}
    (he : e ∈ answered env w n message result) :
    ∃ value, result = .ok value ∧ e = .write n (message value) := by
  cases result with
  | ok value => exact ⟨value, rfl, mem_written he⟩
  | error t => cases he

/-- **Why a message leads to a call**: which message the node has received, and what a written
reply contains. -/
def Due (env : ServerEnv) (w : Server) (n : NodeRef) (c : Call) : ServerEffect → Prop
  | .olinkLinked s o m => m = n ∧ c = .link o ∧ w.source o = some s
  | .olinkUnlinked s o => c = .unlink o ∧ w.source o = some s
  | .olinkSetProperty s p v => c = .setProperty p v ∧ w.source (Name.getObjectId p) = some s
  | .olinkCollectProperties s _ => ∃ o, c = .link o ∧ w.source o = some s
  | .olinkInvoke s methodId args result => ∃ id, c = .invoke id methodId args ∧
    w.source (Name.getObjectId methodId) = some s ∧
    result = env.olinkInvoke w.effects s methodId args
  | .write m msg => m = n ∧
    ((∃ o props, c = .link o ∧ msg = Protocol.initMessage o props) ∨
      ∃ id methodId args s value, c = .invoke id methodId args ∧
        w.source (Name.getObjectId methodId) = some s ∧
        env.olinkInvoke w.effects s methodId args = .ok value ∧
        msg = Protocol.invokeReplyMessage id methodId value)

theorem due_linkCalls {e : ServerEffect} (hs : w.source o = some s)
    (he : e ∈ linkCalls env w n o s) : Due env w n (.link o) e := by
  unfold linkCalls at he
  dsimp only at he
  rcases List.mem_cons.mp he with rfl | he
  · exact ⟨rfl, rfl, hs⟩
  · split at he
    · rcases List.mem_cons.mp he with rfl | he
      · exact ⟨o, rfl, hs⟩
      · obtain ⟨props, -, rfl⟩ := mem_answered he
        exact ⟨rfl, Or.inl ⟨o, props, rfl, rfl⟩⟩
    · cases he

theorem due_invokeCalls {e : ServerEffect} {requestId : UInt32} {methodId : Bytes} {args : Json}
    (hs : w.source (Name.getObjectId methodId) = some s)
    (he : e ∈ invokeCalls env w n requestId methodId args s) :
    Due env w n (.invoke requestId methodId args) e := by
  unfold invokeCalls at he
  dsimp only at he
  rcases List.mem_cons.mp he with rfl | he
  · exact ⟨requestId, rfl, hs, rfl⟩
  · obtain ⟨value, hvalue, rfl⟩ := mem_answered he
    exact ⟨rfl, Or.inr ⟨requestId, methodId, args, s, value, rfl, hs, hvalue, rfl⟩⟩

theorem mem_elim {f : Source → List ServerEffect} {e : ServerEffect} :
    e ∈ (w.source o).elim [] f ↔ ∃ s, w.source o = some s ∧ e ∈ f s := by
  cases w.source o <;> simp

theorem due_of_mem_callsOf {e : ServerEffect} (he : e ∈ callsOf env w n c) : Due env w n c e := by
  cases c with
  | link o =>
    obtain ⟨s, hs, he⟩ := mem_elim.mp he
    exact due_linkCalls hs he
  | unlink o =>
    obtain ⟨s, hs, he⟩ := mem_elim.mp he
    rw [List.mem_singleton.mp he]
    exact ⟨rfl, hs⟩
  | setProperty p v =>
    obtain ⟨s, hs, he⟩ := mem_elim.mp he
    rw [List.mem_singleton.mp he]
    exact ⟨rfl, hs⟩
  | invoke requestId methodId args =>
    obtain ⟨s, hs, he⟩ := mem_elim.mp he
    exact due_invokeCalls hs he
  | _ => cases he

/-- A source is handed a node by the `Link` of its object that the node receives. -/
theorem olinkLinked_mem_callsOf : .olinkLinked s o m ∈ callsOf env w n c ↔
    m = n ∧ c = .link o ∧ w.source o = some s := by
  refine ⟨due_of_mem_callsOf, ?_⟩
  rintro ⟨rfl, rfl, hs⟩
  exact mem_elim.mpr ⟨s, hs, List.mem_cons_self⟩

/-- A source is told of the end by an `Unlink` of its object. -/
theorem olinkUnlinked_mem_callsOf :
    .olinkUnlinked s o ∈ callsOf env w n c ↔ c = .unlink o ∧ w.source o = some s := by
  refine ⟨due_of_mem_callsOf, ?_⟩
  rintro ⟨rfl, hs⟩
  exact mem_elim.mpr ⟨s, hs, List.mem_cons_self⟩

end RemoteNode

end ObjectLink
