import ObjectLink.ClientRegistry
import ObjectLink.Core.BaseNode

/-!
# Client nodes

Model of `ClientNode` (`clientnode.h`, `clientnode.cpp`) with the parts of `BaseNode` it uses, for
any number of nodes over one `ClientRegistry`. Of the log messages only those with a payload are
here, whose dump may throw (`Logging`).

The state `Client` holds the registry, the nodes, which nodes and sinks are alive, and what code
outside the library has been called with so far, oldest first: the write functions of the nodes,
the handlers of the sinks and the reply callbacks. How that code ends, whether it returns or
throws, is up to the environment `ClientEnv`; it does not call back into the library. `emitWrite`
converts the message to the network format, which may throw as well, and hands it to the write
function; it is recorded as the JSON value it was before.

* `create`, `linkRemote`, `unlinkRemote`, `invokeRemote`, `setRemoteProperty` and the destructor
  (`clientnode.cpp:23-84`);
* the handlers of received messages (`:91-174`), which are the `listener` of the node.

Results:
* `linkRemote_run` to `destroy_run`: what each operation does when no code outside throws.
* `forSink_state`, `resolve_state`, `handleMessage_state`: what a received message does, whether or
  not code outside throws.
-/

namespace ObjectLink

open Foundation (Map)

/-- An `InvokeReplyFunc`, by its identity. -/
abbrev InvokeReplyFunc := Nat

/-- The members of a `ClientNode`. -/
structure ClientNodeState where
  nodeId : Nat
  /-- Whether a write function is set. -/
  writeFunc : Bool
  nextRequestId : UInt32
  /-- `none` is a call without a callback. -/
  invokesPending : Map UInt32 (Option InvokeReplyFunc)

/-- A call of code outside the library. -/
inductive ClientEffect where
  | write (node : NodeRef) (msg : Json)
  | olinkOnInit (sink : Sink) (objectId : Bytes) (props : Json) (node : NodeRef)
  | olinkOnRelease (sink : Sink)
  | olinkOnPropertyChanged (sink : Sink) (propertyId : Bytes) (value : Json)
  | olinkOnSignal (sink : Sink) (signalId : Bytes) (args : Json)
  | invokeReply (func : InvokeReplyFunc) (methodId : Bytes) (value : Json)

/-- The client side: any number of nodes over one registry. -/
structure Client where
  registry : ClientRegistry
  nodes : NodeRef → ClientNodeState
  nodeAlive : NodeRef → Bool
  sinkAlive : Sink → Bool
  /-- Nodes with a smaller number have been created. -/
  nextNode : NodeRef
  effects : List ClientEffect

/-- How the code outside the library ends when it is called. -/
structure ClientEnv extends Logging where
  /-- `MessageConverter::toString`. -/
  toString : Json → Except Thrown Unit
  /-- A write function, sink or callback, given what has been called before. -/
  call : List ClientEffect → ClientEffect → Except Thrown Unit

/-- No code outside the library throws. -/
structure ClientEnv.Returns (env : ClientEnv) : Prop where
  emitLogWithPayload : ∀ level payload, env.emitLogWithPayload level payload = .ok ()
  toString : ∀ msg, env.toString msg = .ok ()
  call : ∀ before e, env.call before e = .ok ()

/-- The environment in which nothing throws, and nothing is logged. -/
def ClientEnv.returning : ClientEnv where
  logs _ := false
  dump _ := .ok ()
  toString _ := .ok ()
  call _ _ := .ok ()

theorem ClientEnv.returning_returns : ClientEnv.returning.Returns :=
  ⟨fun _ _ => rfl, fun _ => rfl, fun _ _ => rfl⟩

namespace Client

/-- Changes the members of one node. -/
def updateNode (w : Client) (n : NodeRef) (f : ClientNodeState → ClientNodeState) : Client :=
  { w with nodes := fun m => if m = n then f (w.nodes m) else w.nodes m }

/-- Changes the registry. -/
def updateRegistry (w : Client) (f : ClientRegistry → ClientRegistry) : Client :=
  { w with registry := f w.registry }

end Client

namespace ClientNode

variable (env : ClientEnv) (n : NodeRef)

/-- A call of code outside the library. -/
def perform (e : ClientEffect) : Code Client Unit := do
  let w ← get
  modify fun w => { w with effects := w.effects ++ [e] }
  match env.call w.effects e with
  | .ok _ => return ()
  | .error t => throw t

/-- `BaseNode::emitWrite`. -/
def emitWrite (msg : Json) : Code Client Unit := do
  Code.ofExcept (env.emitLogWithPayload .debug msg)
  let w ← get
  if (w.nodes n).writeFunc then
    match env.toString msg with
    | .ok _ => perform env (.write n msg)
    | .error t => throw t
  else return ()

/-- `BaseNode::onWrite`. -/
def onWrite (w : Client) : Client := w.updateNode n fun node => { node with writeFunc := true }

/-- `create`: the new node, and the client with it. -/
def create (w : Client) : NodeRef × Client :=
  let n := w.nextNode
  let w := { w with
    nextNode := n + 1
    nodeAlive := fun m => if m = n then true else w.nodeAlive m }
  let (id, registry) := w.registry.registerNode w.nodeAlive (some n)
  let node := { nodeId := id, writeFunc := false, nextRequestId := 0, invokesPending := ∅ }
  (n, { w with registry := registry, nodes := fun m => if m = n then node else w.nodes m })

/-- `linkRemote`. -/
def linkRemote (objectId : Bytes) : Code Client Unit := do
  emitWrite env n (Protocol.linkMessage objectId)
  modify fun w => w.updateRegistry fun r => r.unsetNode objectId
  modify fun w => w.updateRegistry fun r => r.setNode (w.nodes n).nodeId objectId

/-- `unlinkRemote`. -/
def unlinkRemote (objectId : Bytes) : Code Client Unit := do
  let w ← get
  match (w.registry.getSink objectId).lock w.sinkAlive with
  | some sink => perform env (.olinkOnRelease sink)
  | none => pure ()
  emitWrite env n (Protocol.unlinkMessage objectId)
  modify fun w => w.updateRegistry fun r => r.unsetNode objectId

/-- `nextRequestId`: the unsigned counter wraps around. -/
def nextRequestId : Code Client UInt32 := do
  modify fun w => w.updateNode n fun node => { node with nextRequestId := node.nextRequestId + 1 }
  let w ← get
  return (w.nodes n).nextRequestId

/-- `invokeRemote`. -/
def invokeRemote (methodId : Bytes) (args : Json) (func : Option InvokeReplyFunc) :
    Code Client Unit := do
  let requestId ← nextRequestId n
  modify fun w => w.updateNode n fun node =>
    { node with invokesPending := node.invokesPending.insert requestId func }
  emitWrite env n (Protocol.invokeMessage requestId methodId args)

/-- `setRemoteProperty`. -/
def setRemoteProperty (propertyId : Bytes) (value : Json) : Code Client Unit :=
  emitWrite env n (Protocol.setPropertyMessage propertyId value)

/-- The loop of the destructor. -/
def unlinkAll : List ObjectId → Code Client Unit
  | [] => return ()
  | id :: ids => do
    unlinkRemote env n id
    unlinkAll ids

/-- The destructor, which runs when the last reference to the node is gone. -/
def destroy : Code Client Unit := do
  modify fun w => { w with nodeAlive := fun m => if m = n then false else w.nodeAlive m }
  let w ← get
  unlinkAll env n (w.registry.getObjectIds (w.nodes n).nodeId)
  modify fun w => w.updateRegistry fun r => r.unregisterNode (w.nodes n).nodeId

/-! ## Handlers -/

/-- A handler that passes what it got on to the sink of an object, if there is one. -/
def forSink (objectId : Bytes) (effect : Sink → ClientEffect) : Code Client Unit := do
  let w ← get
  match (w.registry.getSink objectId).lock w.sinkAlive with
  | some sink => perform env (effect sink)
  | none => return ()

/-- `handleInit`: the properties are logged before the sink is looked up. -/
def handleInit (objectId : Bytes) (props : Json) : Code Client Unit := do
  Code.ofExcept (env.emitLogWithPayload .info props)
  forSink env objectId fun sink => .olinkOnInit sink objectId props n

/-- `handlePropertyChange`. -/
def handlePropertyChange (propertyId : Bytes) (value : Json) : Code Client Unit := do
  Code.ofExcept (env.emitLogWithPayload .info value)
  forSink env (Name.getObjectId propertyId) fun sink =>
    .olinkOnPropertyChanged sink propertyId value

/-- `handleSignal`. -/
def handleSignal (signalId : Bytes) (args : Json) : Code Client Unit :=
  forSink env (Name.getObjectId signalId) fun sink => .olinkOnSignal sink signalId args

/-- The end of a pending call: it is taken out of the table, and its callback runs if it has
one. -/
def resolve (requestId : UInt32) (methodId : Bytes) (value : Json) : Code Client Unit := do
  let w ← get
  modify fun w => w.updateNode n fun node =>
    { node with invokesPending := node.invokesPending.erase requestId }
  match (w.nodes n).invokesPending[requestId]? with
  | some (some callback) => perform env (.invokeReply callback methodId value)
  | _ => return ()

/-- `handleInvokeReply`: the value is logged before the call is taken out of the table. -/
def handleInvokeReply (requestId : UInt32) (methodId : Bytes) (value : Json) :
    Code Client Unit := do
  Code.ofExcept (env.emitLogWithPayload .info value)
  resolve env n requestId methodId value

/-- Whether an error is about an `Invoke` or `InvokeReply`. -/
def AboutCall (msgType : Int32) : Prop :=
  msgType = MsgType.invoke.toInt ∨ msgType = MsgType.invokeReply.toInt

instance (msgType : Int32) : Decidable (AboutCall msgType) := inferInstanceAs (Decidable (_ ∨ _))

/-- `handleError`: an error about an `Invoke` or `InvokeReply` resolves the call too, with
nothing. -/
def handleError (msgType requestId : Int32) (_error : Bytes) : Code Client Unit :=
  if AboutCall msgType then resolve env n requestId.toUInt32 [] .null else return ()

/-- The node as the listener of its protocol. `BaseNode` only logs the messages a client does not
expect. -/
def listener : IProtocolListener Client where
  handleLink _ w := (.ok (), w)
  handleUnlink _ w := (.ok (), w)
  handleInit objectId props := (handleInit env n objectId props).run
  handleSetProperty _ value w := (env.emitLogWithPayload .warning value, w)
  handlePropertyChange propertyId value := (handlePropertyChange env propertyId value).run
  handleInvoke _ _ args w := (env.emitLogWithPayload .warning args, w)
  handleInvokeReply requestId methodId value :=
    (handleInvokeReply env n requestId methodId value).run
  handleSignal signalId args := (handleSignal env signalId args).run
  handleError msgType requestId error := (handleError env n msgType requestId error).run

/-- `handleMessage`. -/
def handleMessage (lib : JsonLibrary) (msg : Json) : Handler Client :=
  BaseNode.handleMessage lib (listener env n) msg

/-! ## What the operations do -/

variable {env n} {w : Client} {o : ObjectId}

theorem perform_run (e : ClientEffect) :
    (perform env e).run w = (env.call w.effects e, { w with effects := w.effects ++ [e] }) := by
  unfold perform
  rw [Code.bind_run_ok Code.get_run, Code.bind_run_ok (Code.modify_run _)]
  split <;> rename_i h <;> rw [h] <;> rfl

theorem perform_run_ok (hr : env.Returns) (e : ClientEffect) :
    (perform env e).run w = (.ok (), { w with effects := w.effects ++ [e] }) := by
  rw [perform_run, hr.call]

/-- The write of a message, if a write function is set. -/
def written (w : Client) (n : NodeRef) (msg : Json) : List ClientEffect :=
  if (w.nodes n).writeFunc then [.write n msg] else []

/-- The release of the sink of an object, if there is one. -/
def released (w : Client) (o : ObjectId) : List ClientEffect :=
  match (w.registry.getSink o).lock w.sinkAlive with
  | some sink => [.olinkOnRelease sink]
  | none => []

/-- A message that is logged at a level with a payload that can be dumped. -/
theorem emitLog_run (hr : env.Returns) (level : LogLevel) (payload : Json) :
    (Code.ofExcept (env.emitLogWithPayload level payload)).run w = (.ok (), w) := by
  rw [Code.ofExcept_run, hr.emitLogWithPayload]

theorem emitWrite_run (hr : env.Returns) (msg : Json) :
    (emitWrite env n msg).run w = (.ok (), { w with effects := w.effects ++ written w n msg }) := by
  unfold emitWrite written
  rw [Code.bind_run_ok (emitLog_run hr _ _), Code.bind_run_ok Code.get_run]
  split
  · rw [hr.toString, perform_run_ok hr]
  · rw [List.append_nil]
    rfl

theorem linkRemote_run (hr : env.Returns) (o : ObjectId) :
    (linkRemote env n o).run w = (.ok (), { w with
      registry := (w.registry.unsetNode o).setNode (w.nodes n).nodeId o
      effects := w.effects ++ written w n (Protocol.linkMessage o) }) := by
  unfold linkRemote
  rw [Code.bind_run_ok (emitWrite_run hr _), Code.bind_run_ok (Code.modify_run _), Code.modify_run]
  rfl

theorem unlinkRemote_run (hr : env.Returns) (o : ObjectId) :
    (unlinkRemote env n o).run w = (.ok (), { w with
      registry := w.registry.unsetNode o
      effects := w.effects ++ (released w o ++ written w n (Protocol.unlinkMessage o)) }) := by
  unfold unlinkRemote released
  rw [Code.bind_run_ok Code.get_run]
  cases (w.registry.getSink o).lock w.sinkAlive with
  | none =>
    dsimp only
    rw [Code.bind_run_ok (emitWrite_run hr _), Code.modify_run]
    rfl
  | some sink =>
    dsimp only
    rw [Code.bind_run_ok (perform_run_ok hr _), Code.bind_run_ok (emitWrite_run hr _),
      Code.modify_run, List.append_assoc]
    rfl

theorem nextRequestId_run : (nextRequestId n).run w =
    (.ok ((w.nodes n).nextRequestId + 1),
      w.updateNode n fun node => { node with nextRequestId := node.nextRequestId + 1 }) := by
  unfold nextRequestId
  rw [Code.bind_run_ok (Code.modify_run _), Code.bind_run_ok Code.get_run, Code.pure_run]
  simp [Client.updateNode]

/-- The client after a call has been entered in the table of pending ones. -/
def called (w : Client) (n : NodeRef) (func : Option InvokeReplyFunc) : Client :=
  w.updateNode n fun node => { node with
    nextRequestId := node.nextRequestId + 1
    invokesPending := node.invokesPending.insert (node.nextRequestId + 1) func }

/-- A call is entered before its message is written. -/
theorem invokeRemote_eq (methodId : Bytes) (args : Json) (func : Option InvokeReplyFunc) :
    (invokeRemote env n methodId args func).run w =
      (emitWrite env n (Protocol.invokeMessage ((w.nodes n).nextRequestId + 1) methodId args)).run
        (called w n func) := by
  have hcalled : ((w.updateNode n fun node =>
      { node with nextRequestId := node.nextRequestId + 1 }).updateNode n fun node =>
        { node with invokesPending :=
          node.invokesPending.insert ((w.nodes n).nextRequestId + 1) func }) = called w n func := by
    unfold called Client.updateNode
    congr 1
    funext m
    by_cases hm : m = n
    · subst hm
      simp only [if_true]
    · simp only [if_neg hm]
  unfold invokeRemote
  rw [Code.bind_run_ok nextRequestId_run, Code.bind_run_ok (Code.modify_run _), hcalled]

theorem writeFunc_called (func : Option InvokeReplyFunc) :
    ((called w n func).nodes n).writeFunc = (w.nodes n).writeFunc := by
  unfold called Client.updateNode
  simp

theorem invokeRemote_run (hr : env.Returns) (methodId : Bytes) (args : Json)
    (func : Option InvokeReplyFunc) :
    (invokeRemote env n methodId args func).run w =
      (.ok (), { called w n func with
        effects := w.effects ++ written w n
          (Protocol.invokeMessage ((w.nodes n).nextRequestId + 1) methodId args) }) := by
  rw [invokeRemote_eq, emitWrite_run hr]
  unfold written
  rw [writeFunc_called]
  rfl

/-- What the loop of the destructor calls. The loop leaves the sinks where they are, so this can be
read off the client before it. -/
def unlinkEffects (w : Client) (n : NodeRef) (ids : List ObjectId) : List ClientEffect :=
  ids.flatMap fun o => released w o ++ written w n (Protocol.unlinkMessage o)

theorem released_unsetNode {k : ObjectId} {effects : List ClientEffect} :
    released { w with registry := w.registry.unsetNode k, effects := effects } o
      = released w o := by
  unfold released
  rw [ClientRegistry.getSink_unsetNode]

/-- The loop of the destructor frees the slot of each of the objects. -/
theorem unlinkAll_run (hr : env.Returns) : ∀ (ids : List ObjectId) (w : Client),
    (unlinkAll env n ids).run w = (.ok (), { w with
      registry := ids.foldl ClientRegistry.unsetNode w.registry
      effects := w.effects ++ unlinkEffects w n ids })
  | [], w => by
    unfold unlinkAll unlinkEffects
    simp
  | o :: ids, w => by
    unfold unlinkAll
    rw [Code.bind_run_ok (unlinkRemote_run hr o), unlinkAll_run hr ids]
    unfold unlinkEffects
    simp only [released_unsetNode, List.flatMap_cons, List.foldl_cons, List.append_assoc]
    rfl

theorem slot_foldl_unsetNode : ∀ (ids : List ObjectId) (r : ClientRegistry),
    (ids.foldl ClientRegistry.unsetNode r).slot o = if o ∈ ids then invalidId else r.slot o
  | [], r => by simp
  | k :: ids, r => by
    rw [List.foldl_cons, slot_foldl_unsetNode ids, ClientRegistry.slot_unsetNode]
    by_cases ho : o ∈ ids
    · rw [if_pos ho, if_pos (List.mem_cons_of_mem _ ho)]
    · simp [ho]

theorem getSink_foldl_unsetNode : ∀ (ids : List ObjectId) (r : ClientRegistry),
    (ids.foldl ClientRegistry.unsetNode r).getSink o = r.getSink o
  | [], r => rfl
  | k :: ids, r => by
    rw [List.foldl_cons, getSink_foldl_unsetNode ids, ClientRegistry.getSink_unsetNode]

theorem clientNodesById_foldl_unsetNode : ∀ (ids : List ObjectId) (r : ClientRegistry),
    (ids.foldl ClientRegistry.unsetNode r).clientNodesById = r.clientNodesById
  | [], r => rfl
  | k :: ids, r => by
    rw [List.foldl_cons, clientNodesById_foldl_unsetNode ids,
      ClientRegistry.clientNodesById_unsetNode]

/-- The registry after the destructor of a node with this id. -/
def unregistered (r : ClientRegistry) (id : Nat) : ClientRegistry :=
  ((r.getObjectIds id).foldl ClientRegistry.unsetNode r).unregisterNode id

theorem destroy_run (hr : env.Returns) : (destroy env n).run w = (.ok (), { w with
    nodeAlive := fun m => if m = n then false else w.nodeAlive m
    registry := unregistered w.registry (w.nodes n).nodeId
    effects := w.effects ++
      unlinkEffects w n (w.registry.getObjectIds (w.nodes n).nodeId) }) := by
  unfold destroy
  rw [Code.bind_run_ok (Code.modify_run _), Code.bind_run_ok Code.get_run,
    Code.bind_run_ok (unlinkAll_run hr _ _), Code.modify_run]
  rfl

section Unregistered

variable {r : ClientRegistry} {id : Nat}

theorem slot_unregistered :
    (unregistered r id).slot o = if r.slot o = id then invalidId else r.slot o := by
  unfold unregistered
  by_cases hid : id = invalidId
  · -- the loop frees slots that are free
    have hfree : o ∈ r.getObjectIds invalidId → r.slot o = invalidId := fun ho =>
      (ClientRegistry.mem_getObjectIds.mp ho).2
    rw [hid, ClientRegistry.unregisterNode_invalidId, slot_foldl_unsetNode]
    split
    · rename_i ho
      rw [if_pos (hfree ho)]
    · split
      · assumption
      · rfl
  · rw [ClientRegistry.slot_unregisterNode hid, slot_foldl_unsetNode]
    simp only [ClientRegistry.mem_getObjectIds_of_valid hid]
    split
    · rw [if_neg (Ne.symm hid)]
    · rfl

theorem getSink_unregistered : (unregistered r id).getSink o = r.getSink o := by
  unfold unregistered
  rw [ClientRegistry.getSink_unregisterNode, getSink_foldl_unsetNode]

theorem clientNodesById_unregistered (hid : id ≠ invalidId) :
    (unregistered r id).clientNodesById = r.clientNodesById.remove id := by
  unfold unregistered
  rw [ClientRegistry.clientNodesById_unregisterNode hid, clientNodesById_foldl_unsetNode]

end Unregistered

/-! ## What an operation does whose calls may throw -/

theorem perform_state (e : ClientEffect) :
    ((perform env e).run w).2 = { w with effects := w.effects ++ [e] } := by
  rw [perform_run]

/-- The write of a message, if its log message returns, a write function is set and the message can
be converted. -/
def emitted (env : ClientEnv) (w : Client) (n : NodeRef) (msg : Json) : List ClientEffect :=
  match env.emitLogWithPayload .debug msg with
  | .ok _ =>
    if (w.nodes n).writeFunc then
      match env.toString msg with
      | .ok _ => [.write n msg]
      | .error _ => []
    else []
  | .error _ => []

theorem mem_emitted {msg : Json} {e : ClientEffect} (he : e ∈ emitted env w n msg) :
    e = .write n msg := by
  unfold emitted at he
  split at he
  · split at he
    · split at he
      · exact List.mem_singleton.mp he
      · cases he
    · cases he
  · cases he

theorem emitWrite_state (msg : Json) : ((emitWrite env n msg).run w).2
    = { w with effects := w.effects ++ emitted env w n msg } := by
  unfold emitWrite emitted
  rw [Code.bind_run, Code.ofExcept_run]
  cases env.emitLogWithPayload .debug msg with
  | error t =>
    dsimp only
    rw [List.append_nil]
  | ok u =>
    dsimp only
    rw [Code.bind_run_ok Code.get_run]
    split
    · cases env.toString msg with
      | ok u => exact perform_state _
      | error t =>
        rw [List.append_nil]
        rfl
    · rw [List.append_nil]
      rfl

/-- **A call**, whether or not its message can be written. -/
theorem invokeRemote_state (methodId : Bytes) (args : Json) (func : Option InvokeReplyFunc) :
    ((invokeRemote env n methodId args func).run w).2 = { called w n func with
      effects := w.effects ++ emitted env w n
        (Protocol.invokeMessage ((w.nodes n).nextRequestId + 1) methodId args) } := by
  rw [invokeRemote_eq, emitWrite_state]
  unfold emitted
  rw [writeFunc_called]
  rfl

/-- The call of a handler of the sink of an object, if there is one. -/
def sinkCall (w : Client) (o : ObjectId) (effect : Sink → ClientEffect) : List ClientEffect :=
  match (w.registry.getSink o).lock w.sinkAlive with
  | some sink => [effect sink]
  | none => []

theorem forSink_state (o : ObjectId) (effect : Sink → ClientEffect) :
    ((forSink env o effect).run w).2 = { w with effects := w.effects ++ sinkCall w o effect } := by
  unfold forSink sinkCall
  rw [Code.bind_run_ok Code.get_run]
  split
  · rw [perform_state]
  · rw [List.append_nil]
    rfl

/-- The call of the callback of a pending call, if there is one. -/
def callback (w : Client) (n : NodeRef) (requestId : UInt32) (methodId : Bytes) (value : Json) :
    List ClientEffect :=
  match (w.nodes n).invokesPending[requestId]? with
  | some (some func) => [.invokeReply func methodId value]
  | _ => []

/-- The client without the pending call of the node. -/
def forget (w : Client) (n : NodeRef) (requestId : UInt32) : Client :=
  w.updateNode n fun node => { node with invokesPending := node.invokesPending.erase requestId }

theorem resolve_state (requestId : UInt32) (methodId : Bytes) (value : Json) :
    ((resolve env n requestId methodId value).run w).2 =
      { forget w n requestId with
        effects := w.effects ++ callback w n requestId methodId value } := by
  unfold resolve callback
  rw [Code.bind_run_ok Code.get_run, Code.bind_run_ok (Code.modify_run _)]
  split
  · rw [perform_state]
    rfl
  · rw [List.append_nil]
    rfl

/-- The pending call a message is about. -/
def requestOf : Call → Option UInt32
  | .invokeReply requestId _ _ => some requestId
  | .error msgType requestId _ => if AboutCall msgType then some requestId.toUInt32 else none
  | _ => none

/-- The call of code outside the library that a message leads to. -/
def callsOf (w : Client) (n : NodeRef) : Call → List ClientEffect
  | .init o props => sinkCall w o fun sink => .olinkOnInit sink o props n
  | .propertyChange propertyId value =>
    sinkCall w (Name.getObjectId propertyId) fun sink =>
      .olinkOnPropertyChanged sink propertyId value
  | .signal signalId args =>
    sinkCall w (Name.getObjectId signalId) fun sink => .olinkOnSignal sink signalId args
  | .invokeReply requestId methodId value => callback w n requestId methodId value
  | .error msgType requestId _ =>
    if AboutCall msgType then callback w n requestId.toUInt32 [] .null else []
  | _ => []

/-- The client after the node has handled a message. -/
def received (w : Client) (n : NodeRef) (c : Call) : Client :=
  { (match requestOf c with
    | some requestId => forget w n requestId
    | none => w) with effects := w.effects ++ callsOf w n c }

/-- How the log message ends with which a handler starts. -/
def announced (env : ClientEnv) : Call → Except Thrown Unit
  | .init _ payload | .propertyChange _ payload | .invokeReply _ _ payload =>
    env.emitLogWithPayload .info payload
  | _ => .ok ()

/-- The handler that a message reaches, unless its log message throws. -/
def handled (env : ClientEnv) (lib : JsonLibrary) (msg : Json) : Option Call :=
  (Protocol.decode? lib msg).filter fun c => (announced env c).isOk

theorem handled_eq_some {lib : JsonLibrary} {msg : Json} {c : Call} :
    handled env lib msg = some c ↔
      Protocol.decode? lib msg = some c ∧ announced env c = .ok () := by
  unfold handled
  rw [Option.filter_eq_some_iff]
  cases announced env c <;> simp [Except.isOk, Except.toBool]

theorem decode?_of_handled {lib : JsonLibrary} {msg : Json} {c : Call}
    (h : handled env lib msg = some c) : Protocol.decode? lib msg = some c :=
  (handled_eq_some.mp h).1

theorem handled_returning (lib : JsonLibrary) (msg : Json) :
    handled .returning lib msg = Protocol.decode? lib msg := by
  unfold handled
  cases Protocol.decode? lib msg with
  | none => rfl
  | some c => cases c <;> rfl

/-- A handler after its log message. -/
theorem after_log {level : LogLevel} {payload : Json} {x : Code Client Unit} :
    ((do
      Code.ofExcept (env.emitLogWithPayload level payload)
      x : Code Client Unit).run w).2 =
      if (env.emitLogWithPayload level payload).isOk then (x.run w).2 else w := by
  rw [Code.bind_run, Code.ofExcept_run]
  cases env.emitLogWithPayload level payload <;> rfl

/-- What a handler does. -/
theorem listener_state (c : Call) : ((listener env n).run c w).2 =
    if (announced env c).isOk then received w n c else w := by
  have hnone : { w with effects := w.effects ++ [] } = w := by rw [List.append_nil]
  cases c with
  | init o props =>
    refine after_log.trans ?_
    rw [forSink_state]
    rfl
  | propertyChange propertyId value =>
    refine after_log.trans ?_
    rw [forSink_state]
    rfl
  | invokeReply requestId methodId value =>
    refine after_log.trans ?_
    rw [resolve_state]
    rfl
  | signal signalId args => exact forSink_state _ _
  | error msgType requestId text =>
    show ((handleError env n msgType requestId text).run w).2 = received w n _
    unfold handleError
    dsimp only [received, requestOf, callsOf]
    by_cases ht : AboutCall msgType
    · rw [if_pos ht, if_pos ht, if_pos ht]
      exact resolve_state _ _ _
    · rw [if_neg ht, if_neg ht, if_neg ht]
      exact hnone.symm
  | _ => exact hnone.symm

/-- **What a received message does**, whether or not the code it calls throws. -/
theorem handleMessage_state (lib : JsonLibrary) (msg : Json) :
    (handleMessage env n lib msg w).2 = match handled env lib msg with
      | some c => received w n c
      | none => w := by
  unfold handleMessage handled
  rw [BaseNode.handleMessage_state]
  cases Protocol.decode? lib msg with
  | none => rfl
  | some c =>
    rw [Option.filter_some]
    dsimp only
    rw [listener_state]
    split <;> rfl

/-- The two clients agree on all that the registry and the nodes know of each other. -/
structure SameLinks (w w' : Client) : Prop where
  registry : w'.registry = w.registry
  nodeAlive : w'.nodeAlive = w.nodeAlive
  sinkAlive : w'.sinkAlive = w.sinkAlive
  nextNode : w'.nextNode = w.nextNode
  nodeId : ∀ m, (w'.nodes m).nodeId = (w.nodes m).nodeId

theorem SameLinks.refl (w : Client) : SameLinks w w := ⟨rfl, rfl, rfl, rfl, fun _ => rfl⟩

/-- Changing the other members of a node. -/
theorem sameLinks_updateNode {f : ClientNodeState → ClientNodeState} {effects : List ClientEffect}
    (hf : ∀ node, (f node).nodeId = node.nodeId) :
    SameLinks w { w.updateNode n f with effects := effects } := by
  refine ⟨rfl, rfl, rfl, rfl, ?_⟩
  intro m
  show (if m = n then f (w.nodes m) else w.nodes m).nodeId = _
  split
  · exact hf _
  · rfl

theorem sameLinks_received (c : Call) : SameLinks w (received w n c) := by
  unfold received
  cases requestOf c with
  | none => exact ⟨rfl, rfl, rfl, rfl, fun _ => rfl⟩
  | some requestId => exact sameLinks_updateNode fun _ => rfl

/-- A received message leaves the links alone. -/
theorem sameLinks_handleMessage (lib : JsonLibrary) (msg : Json) :
    SameLinks w (handleMessage env n lib msg w).2 := by
  rw [handleMessage_state]
  split
  · exact sameLinks_received _
  · exact .refl w

theorem mem_sinkCall {effect : Sink → ClientEffect} {e : ClientEffect} :
    e ∈ sinkCall w o effect ↔
      ∃ sink, (w.registry.getSink o).lock w.sinkAlive = some sink ∧ e = effect sink := by
  unfold sinkCall
  cases (w.registry.getSink o).lock w.sinkAlive <;> simp

theorem mem_callback {requestId : UInt32} {methodId : Bytes} {value : Json} {e : ClientEffect} :
    e ∈ callback w n requestId methodId value ↔
      ∃ func, (w.nodes n).invokesPending[requestId]? = some (some func) ∧
        e = .invokeReply func methodId value := by
  unfold callback
  split
  · rename_i func h
    simp [h]
  · rename_i h
    simp only [List.not_mem_nil, false_iff, not_exists, not_and]
    exact fun func hf => absurd hf (h func)

theorem callsOf_error (msgType requestId : Int32) (text : Bytes) :
    callsOf w n (.error msgType requestId text)
      = if AboutCall msgType then callback w n requestId.toUInt32 [] .null else [] := rfl

/-- A message leads to at most one call. -/
theorem length_callsOf (c : Call) : (callsOf w n c).length ≤ 1 := by
  have hsink : ∀ o f, (sinkCall w o f).length ≤ 1 := fun o f => by
    unfold sinkCall
    split <;> simp
  have hcallback : ∀ id m v, (callback w n id m v).length ≤ 1 := fun id m v => by
    unfold callback
    split <;> simp
  cases c with
  | init _ _ => exact hsink _ _
  | propertyChange _ _ => exact hsink _ _
  | signal _ _ => exact hsink _ _
  | invokeReply _ _ _ => exact hcallback _ _ _
  | error msgType _ _ =>
    rw [callsOf_error]
    split
    · exact hcallback _ _ _
    · exact Nat.zero_le _
  | _ => exact Nat.zero_le _

/-- Only the node itself is handed to a sink, by an `Init` for the object it is registered for. -/
theorem olinkOnInit_mem_callsOf {c : Call} {sink : Sink} {props : Json} {m : NodeRef} :
    ClientEffect.olinkOnInit sink o props m ∈ callsOf w n c ↔
      m = n ∧ c = .init o props ∧ (w.registry.getSink o).lock w.sinkAlive = some sink := by
  cases c with
  | init k p =>
    dsimp only [callsOf]
    rw [mem_sinkCall]
    constructor
    · rintro ⟨s, hs, he⟩
      cases he
      exact ⟨rfl, rfl, hs⟩
    · rintro ⟨rfl, hc, hs⟩
      cases hc
      exact ⟨sink, hs, rfl⟩
  | error msgType _ _ =>
    rw [callsOf_error]
    split <;> simp [mem_callback]
  | _ => simp [callsOf, mem_sinkCall, mem_callback]

/-- The callback of a pending call runs when its reply arrives, or an error about it. -/
theorem invokeReply_mem_callsOf {c : Call} {func : InvokeReplyFunc} {methodId : Bytes}
    {value : Json} (he : .invokeReply func methodId value ∈ callsOf w n c) :
    ∃ requestId, requestOf c = some requestId ∧
      (w.nodes n).invokesPending[requestId]? = some (some func) ∧
      (c = .invokeReply requestId methodId value ∨ ∃ t id text, c = .error t id text) := by
  cases c with
  | invokeReply requestId _ _ =>
    obtain ⟨f, hf, he⟩ := mem_callback.mp he
    cases he
    exact ⟨requestId, rfl, hf, Or.inl rfl⟩
  | error msgType requestId text =>
    rw [callsOf_error] at he
    split at he
    · rename_i ht
      obtain ⟨f, hf, he⟩ := mem_callback.mp he
      cases he
      exact ⟨_, if_pos ht, hf, Or.inr ⟨_, _, _, rfl⟩⟩
    · cases he
  | init _ _ | propertyChange _ _ | signal _ _ =>
    obtain ⟨_, -, he⟩ := mem_sinkCall.mp he
    cases he
  | _ => cases he

/-- No message is answered by the client. -/
theorem write_not_mem_callsOf {c : Call} {m : NodeRef} {msg : Json} :
    ClientEffect.write m msg ∉ callsOf w n c := by
  cases c with
  | error msgType _ _ =>
    rw [callsOf_error]
    split <;> simp [mem_callback]
  | _ => simp [callsOf, mem_sinkCall, mem_callback]

end ClientNode

end ObjectLink
