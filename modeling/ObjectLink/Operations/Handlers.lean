import ObjectLink.Operations.Running

/-!
# Running the handlers and the calls of the application

What each handler of the three kinds of node, and each operation the application calls on a node,
comes down to when no other thread interferes, for any logging configuration.

Results:
* `run_baseInvoke` to `run_base_state`: the handlers of `BaseNode` change nothing.
* `run_clientInit` to `run_clientError`: the handlers of `ClientNode`; three of them log a payload
  before anything else.
* `run_remoteLink` to `run_remoteInvoke`: the handlers of `RemoteNode`.
* `run_linkRemote` to `run_setRemoteProperty`: what the application calls.
-/

namespace ObjectLink

open LoggerBase (emitLog emitLogWithPayload fullMessage LogParameter)
open Routine (readLibrary updateLibrary exchangeLibrary call ask)

namespace Running

variable {users : Users} {L : LoggerId → Logger} {w : World} {lib : Codecs}

/-! ## The handlers of a plain node -/

section Base

variable {n : NodeId} {o m : Bytes} {payload : Json} {requestId : UInt32}

theorem run_baseInvoke : run users L (Operations.BaseNode.handleInvoke lib n m payload) w
    = (dumped lib payload ((L (.node n)).logs .warning), w) :=
  run_emitLogWithPayload (by simp) payload

theorem run_baseSetProperty : run users L (Operations.BaseNode.handleSetProperty lib n o payload) w
    = (dumped lib payload ((L (.node n)).logs .warning), w) :=
  run_emitLogWithPayload (by simp) payload

theorem run_baseInit : run users L (Operations.BaseNode.handleInit lib n o payload) w
    = (dumped lib payload ((L (.node n)).logs .warning), w) :=
  run_emitLogWithPayload (by simp) payload

theorem run_baseSignal : run users L (Operations.BaseNode.handleSignal lib n o payload) w
    = (dumped lib payload ((L (.node n)).logs .warning), w) :=
  run_emitLogWithPayload (by simp) payload

theorem run_basePropertyChange :
    run users L (Operations.BaseNode.handlePropertyChange lib n o payload) w
      = (dumped lib payload ((L (.node n)).logs .warning), w) :=
  run_emitLogWithPayload (by simp) payload

/-- The value is converted as it is. -/
theorem run_baseInvokeReply :
    run users L (Operations.BaseNode.handleInvokeReply n requestId m payload) w
      = (if (L (.node n)).logs .warning then ended payload.getString else .ok (), w) := by
  unfold Operations.BaseNode.handleInvokeReply
  rw [run_emitLog]
  cases h : payload.getString with
  | ok s => simp [fullMessage, h, ended, Except.map, Except.bind]
  | error e => simp [fullMessage, h, ended, Except.map, Except.bind]

/-- On every node, the handlers of `BaseNode` change nothing. -/
theorem run_base_state (c : Call) :
    (run users L (Operations.BaseNode.handle lib n c) w).2 = w := by
  cases c with
  | link o => exact congrArg Prod.snd (run_emitLog_texts (by simp))
  | unlink o => exact congrArg Prod.snd (run_emitLog_texts (by simp))
  | init o props => exact congrArg Prod.snd run_baseInit
  | setProperty p v => exact congrArg Prod.snd run_baseSetProperty
  | propertyChange p v => exact congrArg Prod.snd run_basePropertyChange
  | invoke id m args => exact congrArg Prod.snd run_baseInvoke
  | invokeReply id m v => exact congrArg Prod.snd run_baseInvokeReply
  | signal s args => exact congrArg Prod.snd run_baseSignal
  | error t id text => exact congrArg Prod.snd (run_emitLog_texts (by simp))

end Base

/-! ## The handlers of a client node -/

/-- The outcome of a call of code outside that returns nothing. -/
def performed (users : Users) (c : OutsideCall) (w : World) : Except Thrown Unit × World :=
  (ended (users w.history c w.library).1, w.called users c)

/-- What a handler passes on to the sink of an object, if there is one. -/
def passedOn (users : Users) (o : ObjectId) (c : Sink → OutsideCall) (w : World) :
    Except Thrown Unit × World :=
  match w.library.sink o with
  | some sink => performed users (c sink) w
  | none => (.ok (), w)

/-- The world without a pending call. -/
def taken (n : NodeRef) (requestId : UInt32) (w : World) : World :=
  w.update fun l => { l with client := l.client.updateNode n fun node =>
    { node with invokesPending := node.invokesPending.erase requestId } }

/-- The end of a pending call. -/
def resolved (users : Users) (n : NodeRef) (requestId : UInt32) (methodId : Bytes) (value : Json)
    (w : World) : Except Thrown Unit × World :=
  match (w.library.client.nodes n).invokesPending[requestId]? with
  | some (some callback) =>
    performed users (.invokeReply callback methodId value) (taken n requestId w)
  | _ => (.ok (), taken n requestId w)

section Client

variable {n : NodeRef} {o : Bytes} {payload : Json} {requestId : UInt32}

theorem run_passOn (o : ObjectId) (c : Sink → OutsideCall) (hc : ∀ s, (c s).isLog = false)
    {l : LoggerId} {level : LogLevel} {params : List LogParameter} (h : Texts params) :
    run users L (do
      match ← Operations.ClientNode.sinkOf o with
      | some sink => call (c sink)
      | none => emitLog l level params) w = passedOn users o c w := by
  rw [run_bind_ok (run_sinkOf o)]
  unfold passedOn
  cases w.library.sink o with
  | none => exact run_emitLog_texts h
  | some sink => exact run_call (hc sink)

theorem run_clientInit : run users L (Operations.ClientNode.handleInit lib n o payload) w
    = afterDump (dumped lib payload ((L (.node (.client n))).logs .info)) w
      (passedOn users o (fun sink => .olinkOnInit sink o payload n) w) :=
  run_afterDump (by simp) (run_passOn o _ (fun _ => rfl) (by simp))

theorem run_clientPropertyChange :
    run users L (Operations.ClientNode.handlePropertyChange lib n o payload) w
      = afterDump (dumped lib payload ((L (.node (.client n))).logs .info)) w
        (passedOn users (Name.getObjectId o)
          (fun sink => .olinkOnPropertyChanged sink o payload) w) :=
  run_afterDump (by simp) (run_passOn _ _ (fun _ => rfl) (by simp))

theorem run_clientSignal : run users L (Operations.ClientNode.handleSignal n o payload) w
    = passedOn users (Name.getObjectId o) (fun sink => .olinkOnSignal sink o payload) w :=
  (run_bind_ok (run_emitLog_texts (by simp))).trans
    (run_passOn _ _ (fun _ => rfl) (by simp))

theorem run_clientInvokeReply :
    run users L (Operations.ClientNode.handleInvokeReply lib n requestId o payload) w
      = afterDump (dumped lib payload ((L (.node (.client n))).logs .info)) w
        (resolved users n requestId o payload w) := by
  refine run_afterDump (by simp) ?_
  have htake : run users L (Operations.ClientNode.takePending n requestId) w
      = (.ok (w.library.client.nodes n).invokesPending[requestId]?, taken n requestId w) := rfl
  rw [run_bind_ok htake]
  unfold resolved
  generalize (w.library.client.nodes n).invokesPending[requestId]? = found
  match found with
  | none => exact run_emitLog_texts (by simp)
  | some none => exact run_emitLog_texts (by simp)
  | some (some callback) => exact run_call rfl

theorem run_clientError (t id : Int32) :
    run users L (Operations.ClientNode.handleError n t id o) w
      = if ClientNode.AboutCall t then resolved users n id.toUInt32 [] .null w
        else (.ok (), w) := by
  have htake : run users L (Operations.ClientNode.takePending n id.toUInt32) w
      = (.ok (w.library.client.nodes n).invokesPending[id.toUInt32]?, taken n id.toUInt32 w) := rfl
  refine (run_bind_ok (run_emitLog_texts (by simp))).trans ?_
  rw [run_ite]
  refine if_congr Iff.rfl ?_ rfl
  rw [run_bind_ok htake]
  unfold resolved
  generalize (w.library.client.nodes n).invokesPending[id.toUInt32]? = found
  match found with
  | none => rfl
  | some none => rfl
  | some (some callback) => exact run_call rfl

end Client

/-! ## The handlers of a remote node -/

section Remote

variable {n : NodeRef} {o m : Bytes} {payload props value : Json} {requestId : UInt32}
  {source : Source} {e : Thrown}

/-- The world once the source of an object has been told of the node. -/
def linkedTo (users : Users) (n : NodeRef) (o : ObjectId) (source : Source) (w : World) : World :=
  (w.update fun l => l.updateRemoteRegistry
    (·.addNodeForSource l.server.nodeAlive (w.library.server.nodes n).nodeId o)).called users
      (.olinkLinked source o n)

/-- What the source says to that. -/
def linkedReply (users : Users) (n : NodeRef) (o : ObjectId) (source : Source) (w : World) :
    Except Thrown Json :=
  (users w.history (.olinkLinked source o n) (w.library.updateRemoteRegistry
    (·.addNodeForSource w.library.server.nodeAlive (w.library.server.nodes n).nodeId o))).1

/-- How a call of code outside for a value ends. -/
def asked (users : Users) (c : OutsideCall) (w : World) : Except Thrown Json :=
  (users w.history c w.library).1

theorem run_remoteLink (hs : w.library.source o = some source) :
    run users L (Operations.RemoteNode.handleLink lib n o) w =
      match linkedReply users n o source w with
      | .error e => (.error e, linkedTo users n o source w)
      | .ok _ =>
        match asked users (.olinkCollectProperties source) (linkedTo users n o source w) with
        | .error e => (.error e,
            (linkedTo users n o source w).called users (.olinkCollectProperties source))
        | .ok props =>
          run users L (Operations.BaseNode.emitWrite lib (.remote n) (Protocol.initMessage o props))
            ((linkedTo users n o source w).called users (.olinkCollectProperties source)) := by
  have hsource : run users L (Operations.RemoteNode.sourceOf o) w = (.ok (some source), w) := by
    rw [run_sourceOf, hs]
  have hcall : run users L (call (.olinkLinked source o n)) (w.update fun l =>
      l.updateRemoteRegistry (·.addNodeForSource l.server.nodeAlive
        (w.library.server.nodes n).nodeId o))
        = (ended (linkedReply users n o source w), linkedTo users n o source w) := run_call rfl
  refine (run_bind_ok (run_emitLog_texts (by simp))).trans ?_
  rw [run_bind_ok hsource]
  dsimp only
  rw [run_bind_ok (run_remoteNodeId n), run_bind_ok (run_addNodeForSource _ o)]
  cases hl : linkedReply users n o source w with
  | error e =>
    rw [hl] at hcall
    exact run_bind_error hcall
  | ok v =>
    rw [hl] at hcall
    rw [run_bind_ok hcall]
    have hask : run users L (ask (.olinkCollectProperties source)) (linkedTo users n o source w)
        = (asked users (.olinkCollectProperties source) (linkedTo users n o source w),
          (linkedTo users n o source w).called users (.olinkCollectProperties source)) :=
      run_ask rfl
    cases ha : asked users (.olinkCollectProperties source) (linkedTo users n o source w) with
    | error e =>
      rw [ha] at hask
      exact run_bind_error hask
    | ok props =>
      rw [ha] at hask
      exact run_bind_ok hask

theorem run_remoteLink_none (hs : w.library.source o = none) :
    run users L (Operations.RemoteNode.handleLink lib n o) w = (.ok (), w) := by
  have hsource : run users L (Operations.RemoteNode.sourceOf o) w = (.ok none, w) := by
    rw [run_sourceOf, hs]
  refine (run_bind_ok (run_emitLog_texts (by simp))).trans ?_
  rw [run_bind_ok hsource]
  exact run_emitLog_texts (by simp)

/-- What a handler passes on to the source of an object, if there is one. -/
def passedToSource (users : Users) (o : ObjectId) (c : Source → OutsideCall) (w : World) :
    Except Thrown Unit × World :=
  match w.library.source o with
  | some source => performed users (c source) w
  | none => (.ok (), w)

theorem run_remoteSetProperty :
    run users L (Operations.RemoteNode.handleSetProperty o payload) w
      = passedToSource users (Name.getObjectId o)
        (fun source => .olinkSetProperty source o payload) w := by
  unfold Operations.RemoteNode.handleSetProperty passedToSource
  rw [run_bind_ok (run_sourceOf _)]
  cases w.library.source (Name.getObjectId o) with
  | none => rfl
  | some source => exact run_call rfl

/-- The source is told before the node is taken out. -/
theorem run_remoteUnlink (hs : w.library.source o = some source) :
    run users L (Operations.RemoteNode.handleUnlink n o) w =
      match performed users (.olinkUnlinked source o) w with
      | (.ok _, w') => (.ok (), w'.update fun l =>
          l.updateRemoteRegistry (·.removeNodeFromSource (w'.library.server.nodes n).nodeId o))
      | (.error e, w') => (.error e, w') := by
  have hsource : run users L (Operations.RemoteNode.sourceOf o) w = (.ok (some source), w) := by
    rw [run_sourceOf, hs]
  unfold Operations.RemoteNode.handleUnlink
  rw [run_bind_ok hsource]
  dsimp only
  rw [run_bind, run_call rfl]
  unfold performed
  cases (users w.history (.olinkUnlinked source o) w.library).1 with
  | error e => rfl
  | ok v =>
    dsimp only [ended]
    rw [run_bind_ok (run_remoteNodeId n), run_removeNodeFromSource]

theorem run_remoteUnlink_none (hs : w.library.source o = none) :
    run users L (Operations.RemoteNode.handleUnlink n o) w = (.ok (), w) := by
  have hsource : run users L (Operations.RemoteNode.sourceOf o) w = (.ok none, w) := by
    rw [run_sourceOf, hs]
  exact run_bind_ok hsource

theorem run_remoteInvoke (hs : w.library.source (Name.getObjectId m) = some source) :
    run users L (Operations.RemoteNode.handleInvoke lib n requestId m payload) w =
      match asked users (.olinkInvoke source m payload) w with
      | .error e => (.error e, w.called users (.olinkInvoke source m payload))
      | .ok value =>
        run users L (Operations.BaseNode.emitWrite lib (.remote n)
          (Protocol.invokeReplyMessage requestId m value))
            (w.called users (.olinkInvoke source m payload)) := by
  have hsource : run users L (Operations.RemoteNode.sourceOf (Name.getObjectId m)) w
      = (.ok (some source), w) := by
    rw [run_sourceOf, hs]
  have hask : run users L (ask (.olinkInvoke source m payload)) w
      = (asked users (.olinkInvoke source m payload) w,
        w.called users (.olinkInvoke source m payload)) := run_ask rfl
  unfold Operations.RemoteNode.handleInvoke
  rw [run_bind_ok hsource]
  dsimp only
  cases ha : asked users (.olinkInvoke source m payload) w with
  | error e =>
    rw [ha] at hask
    exact run_bind_error hask
  | ok value =>
    rw [ha] at hask
    exact run_bind_ok hask

theorem run_remoteInvoke_none (hs : w.library.source (Name.getObjectId m) = none) :
    run users L (Operations.RemoteNode.handleInvoke lib n requestId m payload) w = (.ok (), w) := by
  have hsource : run users L (Operations.RemoteNode.sourceOf (Name.getObjectId m)) w
      = (.ok none, w) := by
    rw [run_sourceOf, hs]
  exact run_bind_ok hsource

end Remote

/-! ## What the application calls -/

section Calls

variable {n : NodeRef} {o m : Bytes} {payload : Json}

/-- What follows a call of code outside that returns. -/
def onReturn (r : Except Thrown Unit × World) (rest : World → Except Thrown Unit × World) :
    Except Thrown Unit × World :=
  match r with
  | (.ok _, w) => rest w
  | (.error e, w) => (.error e, w)

/-- What follows a message that has been sent. -/
def afterWrite (r : Except Thrown Unit × World) (f : World → World) : Except Thrown Unit × World :=
  match r with
  | (.ok _, w) => (.ok (), f w)
  | (.error e, w) => (.error e, w)

/-- The world once the object is this node's, where it was free. -/
def relinked (n : NodeRef) (o : ObjectId) (w : World) : World :=
  (w.update fun l => l.updateClientRegistry (·.unsetNode o)).update fun l =>
    l.updateClientRegistry (·.setNode (w.library.client.nodes n).nodeId o)

theorem run_linkRemote : run users L (Operations.ClientNode.linkRemote lib n o) w =
    afterWrite (run users L (Operations.BaseNode.emitWrite lib (.client n)
      (Protocol.linkMessage o)) w) (relinked n o) := by
  refine (run_bind_ok (run_emitLog_texts (by simp))).trans ?_
  rw [run_bind]
  generalize run users L (Operations.BaseNode.emitWrite lib (.client n)
    (Protocol.linkMessage o)) w = r
  match r with
  | (.error e, w') => rfl
  | (.ok u, w') =>
    dsimp only
    rw [run_bind_ok (run_unsetNode o), run_bind_ok (run_clientNodeId n), run_setNode]
    rfl

/-- The sink is released before the message is written. -/
theorem run_unlinkRemote : run users L (Operations.ClientNode.unlinkRemote lib n o) w =
    onReturn (passedOn users o .olinkOnRelease w) fun w' =>
      afterWrite (run users L (Operations.BaseNode.emitWrite lib (.client n)
        (Protocol.unlinkMessage o)) w')
        (·.update fun l => l.updateClientRegistry (·.unsetNode o)) := by
  have hrest : ∀ w', run users L (do
      Operations.BaseNode.emitWrite lib (.client n) (Protocol.unlinkMessage o)
      Operations.ClientRegistry.unsetNode o) w' = afterWrite (run users L
        (Operations.BaseNode.emitWrite lib (.client n) (Protocol.unlinkMessage o)) w')
        (·.update fun l => l.updateClientRegistry (·.unsetNode o)) := by
    intro w'
    rw [run_bind]
    generalize run users L (Operations.BaseNode.emitWrite lib (.client n)
      (Protocol.unlinkMessage o)) w' = r
    match r with
    | (.error e, w'') => rfl
    | (.ok u, w'') => exact run_unsetNode o
  refine (run_bind_ok (run_emitLog_texts (by simp))).trans ?_
  rw [run_bind_ok (run_sinkOf o)]
  unfold passedOn
  cases w.library.sink o with
  | none => exact hrest w
  | some sink =>
    dsimp only
    rw [run_bind, run_call rfl]
    unfold performed
    cases (users w.history (.olinkOnRelease sink) w.library).1 with
    | error e => rfl
    | ok v => exact hrest _

/-- The world with a new pending call. -/
def pendingCall (n : NodeRef) (func : Option InvokeReplyFunc) (w : World) : World :=
  w.update fun l => { l with client := ClientNode.called l.client n func }

/-- The outcome of releasing a reference. -/
def released (users : Users) (object : Referent) (w : World) : Except Thrown Unit × World :=
  if w.library.lastReference object then performed users (.destructor object) w else (.ok (), w)

/-- The outcome of entering a call: the callback of one that waits under its number goes. -/
def entered (users : Users) (n : NodeRef) (func : Option InvokeReplyFunc) (w : World) :
    Except Thrown Unit × World :=
  let requestId := (w.library.client.nodes n).nextRequestId + 1
  match (w.library.client.nodes n).invokesPending[requestId]? with
  | some (some callback) => released users (.invokeReply callback) (pendingCall n func w)
  | _ => (.ok (), pendingCall n func w)

theorem entered_of_shared (hshared : ∀ object, w.library.lastReference object = false)
    (n : NodeRef) (func : Option InvokeReplyFunc) :
    entered users n func w = (.ok (), pendingCall n func w) := by
  have hcalled : ∀ object, (pendingCall n func w).library.lastReference object = false := hshared
  unfold entered released
  dsimp only
  split
  · rw [hcalled]
    rfl
  · rfl

theorem run_released (object : Referent) :
    run users L (Routine.release object) w = released users object w := by
  unfold released
  cases hlast : w.library.lastReference object with
  | false => exact run_release hlast
  | true =>
    unfold Routine.release
    rw [run_bind_ok (run_readLibrary _), hlast, if_pos rfl, if_pos rfl]
    exact run_call rfl

theorem run_release_return {α : Type} (object : Referent) (a : α) :
    run users L (do
      Routine.release object
      return a) w = ((released users object w).1.map fun _ => a, (released users object w).2) := by
  rw [run_bind, run_released]
  generalize released users object w = r
  match r with
  | (.ok (), w') => rfl
  | (.error e, w') => rfl

theorem run_enterPending (func : Option InvokeReplyFunc) :
    run users L (Operations.ClientNode.enterPending n func) w =
      ((entered users n func w).1.map fun _ => (w.library.client.nodes n).nextRequestId + 1,
        (entered users n func w).2) := by
  unfold Operations.ClientNode.enterPending entered
  rw [run_bind_ok (run_exchangeLibrary _)]
  dsimp only
  generalize (w.library.client.nodes n).nextRequestId + 1 = requestId
  cases (w.library.client.nodes n).invokesPending[requestId]? with
  | none => rfl
  | some replaced =>
    cases replaced with
    | none => rfl
    | some callback =>
      exact run_release_return _ _

/-- The call is entered before its message is written. -/
theorem run_invokeRemote (func : Option InvokeReplyFunc) :
    run users L (Operations.ClientNode.invokeRemote lib n m payload func) w =
      onReturn (entered users n func w) (run users L (Operations.BaseNode.emitWrite lib (.client n)
        (Protocol.invokeMessage ((w.library.client.nodes n).nextRequestId + 1) m payload))) := by
  refine (run_bind_ok (run_emitLog_texts (by simp))).trans ?_
  rw [run_bind, run_withLock, run_enterPending]
  generalize entered users n func w = r
  match r with
  | (.ok (), w') => rfl
  | (.error e, w') => rfl

theorem run_setRemoteProperty :
    run users L (Operations.ClientNode.setRemoteProperty lib n o payload) w =
      run users L (Operations.BaseNode.emitWrite lib (.client n)
        (Protocol.setPropertyMessage o payload)) w :=
  run_bind_ok (run_emitLog_texts (by simp))

end Calls

end Running

end ObjectLink
