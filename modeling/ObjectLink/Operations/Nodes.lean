import ObjectLink.Operations.Registries

/-!
# The operations of the nodes

`BaseNode` (`basenode.cpp`), `ClientNode` (`clientnode.cpp`) and `RemoteNode` (`remotenode.cpp`)
with their mutexes, their log messages and the network formats, in the builds with and without
exceptions.

* `dispatch` is `Protocol::handleMessage`. It calls at most one handler, and that last: which one,
  and with what, is what a listener that only keeps its calls is given (`Protocol.handleMessage`,
  `recorder`). In the build with exceptions a JSON exception ends there, whether it is the
  protocol's or the handler's.
* `handleMessage` (`basenode.cpp:56-94`) converts the message under the node's mutex and dispatches
  it without. All parsers are called with `allow_exceptions = false` (`types.cpp:67-80`): that they
  do not throw is the one assumption about them, and the branches of `basenode.cpp:64-75` that
  catch and log an exception of the conversion are left out.
* `handle` are the handlers of a node. A class that does not override one has that of `BaseNode`,
  which only logs (`basenode.cpp:96-139`).

Results: `tryBlock_of_decode`, `tryBlock_of_reject`: a message the decoder accepts calls the handler
it stands for, and nothing else; one of an unsupported type is dumped.
-/

namespace ObjectLink

open LoggerBase (emitLog emitLogWithPayload LogParameter)
open Routine (readLibrary updateLibrary exchangeLibrary locked call ask release)

namespace Library

variable (l : Library)

/-- `onWrite`, which may be given no function as well. -/
def setWriteFunc (writeFunc : Bool) : NodeId → Library
  | .base n => { l with baseWriteFunc := Function.update l.baseWriteFunc n writeFunc }
  | .client n => { l with client := l.client.updateNode n fun node =>
      { node with writeFunc := writeFunc } }
  | .remote n => { l with server := l.server.updateNode n fun node =>
      { node with writeFunc := writeFunc } }

/-- Changes the converter of a node. -/
def updateConverter (n : NodeId) (f : MessageConverter → MessageConverter) : Library :=
  { l with converters := Function.update l.converters n (f (l.converters n)) }

end Library

/-- Which build it is: `OLINK_HAS_EXCEPTIONS`. -/
abbrev HasExceptions := Bool

namespace Protocol

variable (lib : Codecs) (msg : Json)

/-- `handleMessage` up to the call of the handler, without the `try` block. -/
def unguarded {σ : Type} (L : IProtocolListener σ) : ProtocolM σ Bool := do
  modify fun p => { p with lastError := [] }
  if !msg.isArray then fail (lit "message must be array")
  else if msg.size < 1 then fail (lit "message array is empty")
  else if !(msg.item 0).isNumberInteger then fail (lit "message type must be integer")
  else do
    let msgType ← get (lib.getInt (msg.item 0))
    switch lib.toJsonLibrary msg L msgType

/-- The body of the `try` block, with these handlers. -/
def tryBlock (handle : Call → Routine Unit) : Routine Unit :=
  match (unguarded lib msg recorder).run ⟨[], []⟩ with
  | (.error e, _) => Routine.ofExcept (.error e)
  | (.ok _, p) =>
    match p.listener with
    | c :: _ => handle c
    | [] => return ()

/-- `Protocol::handleMessage`. -/
def dispatch (x : HasExceptions) (handle : Call → Routine Unit) : Routine Unit :=
  if x then
    tryCatch (tryBlock lib msg handle) fun
      | .json _ => return ()
      | e => Routine.ofExcept (.error e)
  else tryBlock lib msg handle

/-! ## Which handler is called -/

variable {lib msg} {handle : Call → Routine Unit}

theorem unguarded_array {σ : Type} {t : Json} {rest : List Json} {code : Int32}
    (ht : int? t = some code) (L : IProtocolListener σ) (p : ProtocolState σ) :
    (unguarded lib (.array (t :: rest)) L).run p
      = (switch lib.toJsonLibrary (.array (t :: rest)) L code).run ⟨[], p.listener⟩ := by
  cases t <;> cases ht <;> rfl

/-- **An accepted message** calls its handler, and that last. -/
theorem tryBlock_of_decode {c : Call} (hc : decode? lib.toJsonLibrary msg = some c) :
    tryBlock lib msg handle = handle c := by
  unfold decode? at hc
  split at hc
  · rename_i t rest
    obtain ⟨code, hcode, hc⟩ := Option.bind_eq_some_iff.mp hc
    obtain ⟨ty, hty, hc⟩ := Option.bind_eq_some_iff.mp hc
    have hrun : (unguarded lib (.array (t :: rest)) recorder).run ⟨[], []⟩
        = (.ok true, ⟨[], [c]⟩) := by
      rw [unguarded_array hcode, switch_of_decodeArgs hty hc, callThen_run, recorder_run]
      rfl
    unfold tryBlock
    rw [hrun]
  · cases hc

/-- The message has a type that is none of the protocol's. -/
def unsupported : Json → Bool
  | .array (t :: _) => ((int? t).map fun code => (MsgType.ofInt? code).isNone).getD false
  | _ => false

/-- **A rejected message** calls no handler; one of an unsupported type is dumped. -/
theorem tryBlock_of_reject (hc : decode? lib.toJsonLibrary msg = none) :
    tryBlock lib msg handle =
      if unsupported msg then
        match lib.dump msg with
        | .ok _ => return ()
        | .error what => Routine.ofExcept (.error (.json what))
      else return () := by
  cases msg with
  | array xs =>
    match xs, hc with
    | [], _ => rfl
    | t :: rest, hc =>
      cases ht : int? t with
      | none =>
        have hn : t.isNumberInteger = false := by
          rw [Bool.eq_false_iff]
          intro h
          obtain ⟨n, hn⟩ := isNumberInteger_iff.mp h
          rw [ht] at hn
          cases hn
        have hu : unsupported (.array (t :: rest)) = false := by simp [unsupported, ht]
        rw [hu]
        cases t <;> first | rfl | cases hn
      | some code =>
        simp only [decode?, ht, Option.bind_some] at hc
        cases hty : MsgType.ofInt? code with
        | none =>
          have hu : unsupported (.array (t :: rest)) = true := by simp [unsupported, ht, hty]
          have hsw : switch lib.toJsonLibrary (.array (t :: rest)) recorder code
              = caseDefault lib.toJsonLibrary (.array (t :: rest)) := by
            unfold switch
            rw [hty]
          unfold tryBlock
          rw [unguarded_array ht, hsw, hu, if_pos rfl]
          unfold caseDefault
          cases lib.dump (.array (t :: rest)) with
          | ok text => rfl
          | error what => rfl
        | some ty =>
          have hu : unsupported (.array (t :: rest)) = false := by simp [unsupported, ht, hty]
          rw [hty, Option.bind_some] at hc
          obtain ⟨text, -, hsw⟩ := switch_fails t hty hc recorder
          unfold tryBlock
          rw [unguarded_array ht, hsw, hu]
          rfl
  | _ => rfl

end Protocol

namespace Operations

/-! ## Nodes of any kind -/

namespace BaseNode

variable (lib : Codecs) (n : NodeId)

/-- `onWrite`. The function it replaces goes in the critical section. -/
def onWrite (writeFunc : Bool) : Routine Unit :=
  locked (.node n) do
    if ← exchangeLibrary fun l => (l.writeFunc n, l.setWriteFunc writeFunc n) then
      release (.writeFunc n)

/-- `setMessageFormat`. -/
def setMessageFormat (format : MessageFormat) : Routine Unit :=
  locked (.node n) (updateLibrary fun l =>
    l.updateConverter n fun c => { c with format := format })

/-- `setMaxMessageSize`. -/
def setMaxMessageSize (size : Nat) : Routine Unit :=
  locked (.node n) (updateLibrary fun l =>
    l.updateConverter n fun c => { c with maxMessageSize := size })

/-- The critical section of `emitWrite`: the converted message, if there is a write function. -/
def convert (msg : Json) : Routine (Option Bytes) := do
  if ← readLibrary fun l => l.writeFunc n then
    let converter ← readLibrary fun l => l.converters n
    let converted ← Routine.ofExcept (converter.toString lib msg)
    return some converted
  else return none

/-- `emitWrite`. -/
def emitWrite (msg : Json) : Routine Unit := do
  emitLogWithPayload lib (.node n) .debug msg [text "writeMessage: "]
  match ← locked (.node n) (convert lib n msg) with
  | some converted => call (.write n converted)
  | none =>
    emitLog (.node n) .warning [text "Messages are not sent if the write function is not set"]

/-- `handleMessage`, for a node with these handlers. -/
def handleMessage (x : HasExceptions) (handle : Call → Routine Unit) (data : Bytes) :
    Routine Unit := do
  let parsed ← locked (.node n)
    (readLibrary fun l => (l.converters n).fromString lib data)
  if x then
    tryCatch (Protocol.dispatch lib parsed x handle) fun
      | .json what =>
        emitLog (.node n) .error [text "handleMessage json exception: ", .string what]
      | .std what => emitLog (.node n) .error [text "handleMessage exception: ", .string what]
      | .other => Routine.ofExcept (.error .other)
  else Protocol.dispatch lib parsed x handle

/-! The handlers of a plain node. -/

/-- `BaseNode::handleLink`. -/
def handleLink (objectId : Bytes) : Routine Unit :=
  emitLog (.node n) .warning [text "not implemented ", text "handleLink", .string objectId]

/-- `BaseNode::handleUnlink`. -/
def handleUnlink (objectId : Bytes) : Routine Unit :=
  emitLog (.node n) .warning [text "not implemented ", text "handleUnlink", .string objectId]

/-- `BaseNode::handleInvoke`. -/
def handleInvoke (methodId : Bytes) (args : Json) : Routine Unit :=
  emitLogWithPayload lib (.node n) .warning args
    [text "not implemented ", text "handleInvoke", .string methodId, text " args "]

/-- `BaseNode::handleSetProperty`. -/
def handleSetProperty (propertyId : Bytes) (value : Json) : Routine Unit :=
  emitLogWithPayload lib (.node n) .warning value
    [text "not implemented ", text "handleSetProperty", .string propertyId, text " value "]

/-- `BaseNode::handleInit`. -/
def handleInit (objectId : Bytes) (props : Json) : Routine Unit :=
  emitLogWithPayload lib (.node n) .warning props
    [text "not implemented ", text "handleInit", .string objectId, text " props "]

/-- The value is passed on as it is, to be converted to a string. -/
def handleInvokeReply (requestId : UInt32) (methodId : Bytes) (value : Json) : Routine Unit :=
  emitLog (.node n) .warning
    [text "not implemented ", text "handleInvokeReply", .string methodId, text " requestId ",
      text (toString requestId), text " value ", .json value]

/-- `BaseNode::handleSignal`. -/
def handleSignal (signalId : Bytes) (args : Json) : Routine Unit :=
  emitLogWithPayload lib (.node n) .warning args
    [text "not implemented ", text "handleSignal", .string signalId, text " args "]

/-- `BaseNode::handlePropertyChange`. -/
def handlePropertyChange (propertyId : Bytes) (value : Json) : Routine Unit :=
  emitLogWithPayload lib (.node n) .warning value
    [text "not implemented ", text "handlePropertyChange", .string propertyId, text " value "]

/-- `BaseNode::handleError`. -/
def handleError (requestId : Int32) (error : Bytes) : Routine Unit :=
  emitLog (.node n) .warning
    [text "not implemented ", text "handleError", text " requestId ", text (toString requestId),
      text " error ", .string error]

/-- The handlers of `BaseNode`. -/
def handle : Call → Routine Unit
  | .link o => handleLink n o
  | .unlink o => handleUnlink n o
  | .init o props => handleInit lib n o props
  | .setProperty p v => handleSetProperty lib n p v
  | .propertyChange p v => handlePropertyChange lib n p v
  | .invoke _ m args => handleInvoke lib n m args
  | .invokeReply id m v => handleInvokeReply n id m v
  | .signal s args => handleSignal lib n s args
  | .error _ id e => handleError n id e

end BaseNode

/-! ## Client nodes -/

namespace ClientNode

variable (lib : Codecs) (n : NodeRef)

/-- The client with a new node. -/
def constructed (c : Client) : Client :=
  let m := c.nextNode
  let node := { nodeId := invalidId, writeFunc := false, nextRequestId := 0, invokesPending := ∅ }
  { c with
    nextNode := m + 1
    nodeAlive := Function.update c.nodeAlive m true
    nodes := Function.update c.nodes m node }

/-- `create`. -/
def create : Routine Unit := do
  let n ← exchangeLibrary fun l => (l.client.nextNode, { l with client := constructed l.client })
  let id ← ClientRegistry.registerNode (some n)
  updateLibrary fun l => { l with client := l.client.updateNode n fun node =>
    { node with nodeId := id } }

/-- The id the registry gave the node. -/
def nodeId : Routine Nat := readLibrary fun l => (l.client.nodes n).nodeId

/-- `linkRemote`. -/
def linkRemote (objectId : Bytes) : Routine Unit := do
  emitLog (.node (.client n)) .info [text "ClientNode.linkRemote: ", .string objectId]
  BaseNode.emitWrite lib (.client n) (Protocol.linkMessage objectId)
  ClientRegistry.unsetNode objectId
  let id ← nodeId n
  ClientRegistry.setNode id objectId

/-- The live sink of an object. -/
def sinkOf (objectId : Bytes) : Routine (Option Sink) := do
  let sink ← ClientRegistry.getSink objectId
  readLibrary fun l => sink.lock l.client.sinkAlive

/-- `unlinkRemote`. -/
def unlinkRemote (objectId : Bytes) : Routine Unit := do
  emitLog (.node (.client n)) .info [text "ClientNode.unlinkRemote: ", .string objectId]
  match ← sinkOf objectId with
  | some sink => call (.olinkOnRelease sink)
  | none => pure ()
  BaseNode.emitWrite lib (.client n) (Protocol.unlinkMessage objectId)
  ClientRegistry.unsetNode objectId

/-- The critical section of `invokeRemote`: the call is entered under the next number. The function
of a call that still waits under that number goes. -/
def enterPending (func : Option InvokeReplyFunc) : Routine UInt32 := do
  let (requestId, replaced) ← exchangeLibrary fun l =>
    let requestId := (l.client.nodes n).nextRequestId + 1
    ((requestId, (l.client.nodes n).invokesPending[requestId]?),
      { l with client := ObjectLink.ClientNode.called l.client n func })
  match replaced with
  | some (some callback) => release (.invokeReply callback)
  | _ => pure ()
  return requestId

/-- `invokeRemote`. The message is written when the mutex has been released. -/
def invokeRemote (methodId : Bytes) (args : Json) (func : Option InvokeReplyFunc) :
    Routine Unit := do
  emitLog (.node (.client n)) .info [text "ClientNode.invokeRemote: ", .string methodId]
  let requestId ← locked (.pendingInvokes n) (enterPending n func)
  BaseNode.emitWrite lib (.client n) (Protocol.invokeMessage requestId methodId args)

/-- `setRemoteProperty`. -/
def setRemoteProperty (propertyId : Bytes) (value : Json) : Routine Unit := do
  emitLog (.node (.client n)) .info [text "ClientNode.setRemoteProperty: ", .string propertyId]
  BaseNode.emitWrite lib (.client n) (Protocol.setPropertyMessage propertyId value)

/-- The loop of the destructor. -/
def unlinkAll : List ObjectId → Routine Unit
  | [] => return ()
  | id :: ids => do
    unlinkRemote lib n id
    unlinkAll ids

/-- The destructor. -/
def destroy : Routine Unit := do
  updateLibrary fun l => { l with client :=
    { l.client with nodeAlive := Function.update l.client.nodeAlive n false } }
  let id ← nodeId n
  let ids ← ClientRegistry.getObjectIds id
  unlinkAll lib n ids
  let id ← nodeId n
  ClientRegistry.unregisterNode id

/-- `ClientNode::handleInit`. -/
def handleInit (objectId : Bytes) (props : Json) : Routine Unit := do
  emitLogWithPayload lib (.node (.client n)) .info props
    [text "ClientNode.handleInit: ", .string objectId]
  match ← sinkOf objectId with
  | some sink => call (.olinkOnInit sink objectId props n)
  | none =>
    emitLog (.node (.client n)) .warning [text "No sink found for id ", .string objectId]

/-- `ClientNode::handlePropertyChange`. -/
def handlePropertyChange (propertyId : Bytes) (value : Json) : Routine Unit := do
  emitLogWithPayload lib (.node (.client n)) .info value
    [text "ClientNode.handlePropertyChange: ", .string propertyId]
  match ← sinkOf (Name.getObjectId propertyId) with
  | some sink => call (.olinkOnPropertyChanged sink propertyId value)
  | none =>
    emitLog (.node (.client n)) .warning
      [text "No sink found for id ", .string (Name.getObjectId propertyId)]

/-- Takes a call out of the table of pending ones. -/
def takePending (requestId : UInt32) : Routine (Option (Option InvokeReplyFunc)) :=
  locked (.pendingInvokes n) (exchangeLibrary fun l =>
    ((l.client.nodes n).invokesPending[requestId]?,
      { l with client := l.client.updateNode n fun node =>
        { node with invokesPending := node.invokesPending.erase requestId } }))

/-- `ClientNode::handleInvokeReply`. -/
def handleInvokeReply (requestId : UInt32) (methodId : Bytes) (value : Json) : Routine Unit := do
  emitLogWithPayload lib (.node (.client n)) .info value
    [text "ClientNode.handleInvokeReply: ", .string methodId]
  match ← takePending n requestId with
  | some (some callback) => call (.invokeReply callback methodId value)
  | _ =>
    emitLog (.node (.client n)) .warning
      [text "no pending invoke ", .string methodId, text (toString requestId)]

/-- `ClientNode::handleSignal`. -/
def handleSignal (signalId : Bytes) (args : Json) : Routine Unit := do
  emitLog (.node (.client n)) .info [text "ClientNode.handleSignal: ", .string signalId]
  match ← sinkOf (Name.getObjectId signalId) with
  | some sink => call (.olinkOnSignal sink signalId args)
  | none =>
    emitLog (.node (.client n)) .warning
      [text "No sink found for id", .string (Name.getObjectId signalId)]

/-- `ClientNode::handleError`. -/
def handleError (msgType requestId : Int32) (error : Bytes) : Routine Unit := do
  emitLog (.node (.client n)) .info
    [text "ClientNode.handleError: ", text (toString msgType), text (toString requestId),
      .string error]
  if ObjectLink.ClientNode.AboutCall msgType then
    match ← takePending n requestId.toUInt32 with
    | some (some callback) => call (.invokeReply callback [] .null)
    | _ => return ()

/-- The handlers of `ClientNode`. -/
def handle : Call → Routine Unit
  | .init o props => handleInit lib n o props
  | .propertyChange p v => handlePropertyChange lib n p v
  | .invokeReply id m v => handleInvokeReply lib n id m v
  | .signal s args => handleSignal n s args
  | .error t id e => handleError n t id e
  | c => BaseNode.handle lib (.client n) c

end ClientNode

/-! ## Remote nodes -/

namespace RemoteNode

variable (lib : Codecs) (n : NodeRef)

/-- The server with a new node. -/
def constructed (w : Server) : Server :=
  let m := w.nextNode
  { w with
    nextNode := m + 1
    nodeAlive := Function.update w.nodeAlive m true
    nodes := Function.update w.nodes m { nodeId := invalidId, writeFunc := false } }

/-- `createRemoteNode`. -/
def createRemoteNode : Routine Unit := do
  let n ← exchangeLibrary fun l => (l.server.nextNode, { l with server := constructed l.server })
  let id ← RemoteRegistry.registerNode (some n)
  updateLibrary fun l => { l with server := l.server.updateNode n fun node =>
    { node with nodeId := id } }

/-- The id the registry gave the node. -/
def nodeId : Routine Nat := readLibrary fun l => (l.server.nodes n).nodeId

/-- The destructor. -/
def destroy : Routine Unit := do
  updateLibrary fun l => { l with server :=
    { l.server with nodeAlive := Function.update l.server.nodeAlive n false } }
  let id ← nodeId n
  RemoteRegistry.unregisterNode id

/-- `notifyPropertyChange`. -/
def notifyPropertyChange (propertyId : Bytes) (value : Json) : Routine Unit :=
  BaseNode.emitWrite lib (.remote n) (Protocol.propertyChangeMessage propertyId value)

/-- `notifySignal`. -/
def notifySignal (signalId : Bytes) (args : Json) : Routine Unit :=
  BaseNode.emitWrite lib (.remote n) (Protocol.signalMessage signalId args)

/-- The live source of an object. -/
def sourceOf (objectId : Bytes) : Routine (Option Source) := do
  let source ← RemoteRegistry.getSource objectId
  readLibrary fun l => source.lock l.server.sourceAlive

/-- `RemoteNode::handleLink`. -/
def handleLink (objectId : Bytes) : Routine Unit := do
  emitLog (.node (.remote n)) .info [text "handleLink name: ", .string objectId]
  match ← sourceOf objectId with
  | some source =>
    let id ← nodeId n
    RemoteRegistry.addNodeForSource id objectId
    call (.olinkLinked source objectId n)
    let props ← ask (.olinkCollectProperties source)
    BaseNode.emitWrite lib (.remote n) (Protocol.initMessage objectId props)
  | none =>
    emitLog (.node (.remote n)) .warning [text "no source to link: ", .string objectId]

/-- `RemoteNode::handleUnlink`. -/
def handleUnlink (objectId : Bytes) : Routine Unit := do
  match ← sourceOf objectId with
  | some source =>
    call (.olinkUnlinked source objectId)
    let id ← nodeId n
    RemoteRegistry.removeNodeFromSource id objectId
  | none => return ()

/-- `RemoteNode::handleSetProperty`. -/
def handleSetProperty (propertyId : Bytes) (value : Json) : Routine Unit := do
  match ← sourceOf (Name.getObjectId propertyId) with
  | some source => call (.olinkSetProperty source propertyId value)
  | none => return ()

/-- `RemoteNode::handleInvoke`. -/
def handleInvoke (requestId : UInt32) (methodId : Bytes) (args : Json) : Routine Unit := do
  match ← sourceOf (Name.getObjectId methodId) with
  | some source =>
    let value ← ask (.olinkInvoke source methodId args)
    BaseNode.emitWrite lib (.remote n) (Protocol.invokeReplyMessage requestId methodId value)
  | none => return ()

/-- The handlers of `RemoteNode`. -/
def handle : Call → Routine Unit
  | .link o => handleLink lib n o
  | .unlink o => handleUnlink n o
  | .setProperty p v => handleSetProperty p v
  | .invoke id m args => handleInvoke lib n id m args
  | c => BaseNode.handle lib (.remote n) c

end RemoteNode

/-- The handlers of a node. -/
def handle (lib : Codecs) : NodeId → Call → Routine Unit
  | .base n => BaseNode.handle lib (.base n)
  | .client n => ClientNode.handle lib n
  | .remote n => RemoteNode.handle lib n

/-- `handleMessage` of a node. -/
def handleMessage (lib : Codecs) (x : HasExceptions) (n : NodeId) (data : Bytes) : Routine Unit :=
  BaseNode.handleMessage lib n x (handle lib n) data

end Operations

end ObjectLink
