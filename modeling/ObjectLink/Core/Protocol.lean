import ObjectLink.Core.Json

/-!
# The protocol: composing messages and dispatching received ones

Model of `Protocol` and `IProtocolListener` (`protocol.h`, `protocol.cpp`), in the build with
exceptions (`OLINK_HAS_EXCEPTIONS`). A message is a JSON array whose first element is the type
code.

* The nine constructors (`protocol.cpp:13-75`) are `linkMessage` to `errorMessage`.
* `handleMessage` (`protocol.cpp:77-185`) checks the shape of a received message branch by branch
  and calls one handler of the listener. The branches share three shapes, `idCase`, `payloadCase`
  and `requestCase`; `caseError` has its own.
* The handlers are user-overridable, so a listener is any nine functions on a state `σ` of its
  own, each of which may throw after having had its effect. An exception of the JSON library
  thrown anywhere inside the `try` block is turned into `lastError` and `false`, any other one
  leaves `handleMessage`.
-/

namespace ObjectLink

/-! ## Composing messages -/

namespace Protocol

/-- The JSON of an enumerator: its number. -/
def typeCode (t : MsgType) : Json := .integer t.toInt.toInt64

/-- `linkMessage`: asks for the link to an object. -/
def linkMessage (objectId : Bytes) : Json :=
  .array [typeCode .link, .string objectId]

/-- `unlinkMessage`: ends the link. -/
def unlinkMessage (objectId : Bytes) : Json :=
  .array [typeCode .unlink, .string objectId]

/-- `initMessage`: answers a `Link` with the properties of the object. -/
def initMessage (objectId : Bytes) (props : Json) : Json :=
  .array [typeCode .init, .string objectId, props]

/-- `setPropertyMessage`: asks for another value of a property. -/
def setPropertyMessage (propertyId : Bytes) (value : Json) : Json :=
  .array [typeCode .setProperty, .string propertyId, value]

/-- `propertyChangeMessage`: tells the value that a property has now. -/
def propertyChangeMessage (propertyId : Bytes) (value : Json) : Json :=
  .array [typeCode .propertyChange, .string propertyId, value]

/-- `invokeMessage`: calls a method, under the id that the reply is to carry. -/
def invokeMessage (requestId : UInt32) (methodId : Bytes) (args : Json) : Json :=
  .array [typeCode .invoke, .unsigned requestId.toUInt64, .string methodId, args]

/-- `invokeReplyMessage`: answers an `Invoke` with the value that the method returned. -/
def invokeReplyMessage (requestId : UInt32) (methodId : Bytes) (value : Json) : Json :=
  .array [typeCode .invokeReply, .unsigned requestId.toUInt64, .string methodId, value]

/-- `signalMessage`: tells that a signal has been emitted. -/
def signalMessage (signalId : Bytes) (args : Json) : Json :=
  .array [typeCode .signal, .string signalId, args]

/-- `errorMessage`. `MsgType` has `int` as its underlying type, so any `int` is a value of it: the
type is given by its number. -/
def errorMessage (msgType requestId : Int32) (error : Bytes) : Json :=
  .array [typeCode .error, .integer msgType.toInt64, .integer requestId.toInt64, .string error]

end Protocol

/-! ## Listeners -/

/-- A handler call: how it ends, and what it left of the listener. -/
abbrev Handler (σ : Type) := σ → Except Thrown Unit × σ

/-- `IProtocolListener`, over the listener's own state. -/
structure IProtocolListener (σ : Type) where
  handleLink (objectId : Bytes) : Handler σ
  handleUnlink (objectId : Bytes) : Handler σ
  handleInit (objectId : Bytes) (props : Json) : Handler σ
  handleSetProperty (propertyId : Bytes) (value : Json) : Handler σ
  handlePropertyChange (propertyId : Bytes) (value : Json) : Handler σ
  handleInvoke (requestId : UInt32) (methodId : Bytes) (args : Json) : Handler σ
  handleInvokeReply (requestId : UInt32) (methodId : Bytes) (value : Json) : Handler σ
  handleSignal (signalId : Bytes) (args : Json) : Handler σ
  handleError (msgType requestId : Int32) (error : Bytes) : Handler σ

/-- A handler with its arguments. -/
inductive Call where
  | link (objectId : Bytes)
  | unlink (objectId : Bytes)
  | init (objectId : Bytes) (props : Json)
  | setProperty (propertyId : Bytes) (value : Json)
  | propertyChange (propertyId : Bytes) (value : Json)
  | invoke (requestId : UInt32) (methodId : Bytes) (args : Json)
  | invokeReply (requestId : UInt32) (methodId : Bytes) (value : Json)
  | signal (signalId : Bytes) (args : Json)
  | error (msgType requestId : Int32) (error : Bytes)

/-- Calling the handler. -/
def IProtocolListener.run {σ : Type} (L : IProtocolListener σ) : Call → Handler σ
  | .link o => L.handleLink o
  | .unlink o => L.handleUnlink o
  | .init o props => L.handleInit o props
  | .setProperty p v => L.handleSetProperty p v
  | .propertyChange p v => L.handlePropertyChange p v
  | .invoke id m args => L.handleInvoke id m args
  | .invokeReply id m v => L.handleInvokeReply id m v
  | .signal s args => L.handleSignal s args
  | .error t id text => L.handleError t id text

/-- The message of the handler's type, composed from the handler's arguments. -/
def Call.message : Call → Json
  | .link o => Protocol.linkMessage o
  | .unlink o => Protocol.unlinkMessage o
  | .init o props => Protocol.initMessage o props
  | .setProperty p v => Protocol.setPropertyMessage p v
  | .propertyChange p v => Protocol.propertyChangeMessage p v
  | .invoke id m args => Protocol.invokeMessage id m args
  | .invokeReply id m v => Protocol.invokeReplyMessage id m v
  | .signal s args => Protocol.signalMessage s args
  | .error t id text => Protocol.errorMessage t id text

/-- A listener none of whose handlers throws. -/
def IProtocolListener.NeverThrows {σ : Type} (L : IProtocolListener σ) : Prop :=
  ∀ c s, (L.run c s).1 = .ok ()

/-- The listener that only keeps a list of the calls it got. -/
def recorder : IProtocolListener (List Call) where
  handleLink o s := (.ok (), s ++ [.link o])
  handleUnlink o s := (.ok (), s ++ [.unlink o])
  handleInit o props s := (.ok (), s ++ [.init o props])
  handleSetProperty p v s := (.ok (), s ++ [.setProperty p v])
  handlePropertyChange p v s := (.ok (), s ++ [.propertyChange p v])
  handleInvoke id m args s := (.ok (), s ++ [.invoke id m args])
  handleInvokeReply id m v s := (.ok (), s ++ [.invokeReply id m v])
  handleSignal n args s := (.ok (), s ++ [.signal n args])
  handleError t id text s := (.ok (), s ++ [.error t id text])

theorem recorder_run (c : Call) (s : List Call) : recorder.run c s = (.ok (), s ++ [c]) := by
  cases c <;> rfl

theorem recorder_neverThrows : recorder.NeverThrows := fun c s => by rw [recorder_run]

/-! ## Dispatching -/

/-- A `Protocol` object while it handles a message: `m_lastError` and the listener. -/
structure ProtocolState (σ : Type) where
  lastError : Bytes
  listener : σ

/-- Code that may throw, over that state. -/
abbrev ProtocolM (σ : Type) := Code (ProtocolState σ)

namespace Protocol

variable {σ : Type}

/-- `m_lastError = text; return false;` -/
def fail (text : Bytes) : ProtocolM σ Bool := do
  modify fun p => { p with lastError := text }
  return false

/-- A conversion of a JSON value. -/
def get {α : Type} (r : Except Thrown α) : ProtocolM σ α := ExceptT.mk (pure r)

/-- A call of the listener. -/
def call (handler : Handler σ) : ProtocolM σ Unit := ExceptT.mk fun p =>
  let (r, s) := handler p.listener
  (r, { p with listener := s })

/-- `catch (const nlohmann::json::exception& e)`. -/
def catchJson (body : ProtocolM σ Bool) : ProtocolM σ Bool :=
  tryCatch body fun
    | .json what => fail (lit "message parse error: " ++ what)
    | e => throw e

/-- A branch of the `switch` whose message carries an id: `Link` and `Unlink`. -/
def idCase (truncated mustBeString : Bytes) (msg : Json) (handler : Bytes → Handler σ) :
    ProtocolM σ Bool :=
  if msg.size < 2 then fail truncated
  else if !(msg.item 1).isString then fail mustBeString
  else do
    let id ← get (msg.item 1).getString
    call (handler id)
    return true

/-- A branch whose message carries an id and a payload: `Init`, `SetProperty`, `PropertyChange`
and `Signal`. -/
def payloadCase (truncated mustBeString : Bytes) (msg : Json) (handler : Bytes → Json → Handler σ) :
    ProtocolM σ Bool :=
  if msg.size < 3 then fail truncated
  else if !(msg.item 1).isString then fail mustBeString
  else do
    let id ← get (msg.item 1).getString
    call (handler id (msg.item 2))
    return true

/-- A branch whose message carries a request id, a method id and a payload: `Invoke` and
`InvokeReply`. -/
def requestCase (lib : JsonLibrary) (truncated mustBeNumber mustBeString : Bytes) (msg : Json)
    (handler : UInt32 → Bytes → Json → Handler σ) : ProtocolM σ Bool :=
  if msg.size < 4 then fail truncated
  else if !(msg.item 1).isNumber then fail mustBeNumber
  else if !(msg.item 2).isString then fail mustBeString
  else do
    let id ← get (lib.getUnsigned (msg.item 1))
    let methodId ← get (msg.item 2).getString
    call (handler id methodId (msg.item 3))
    return true

variable (lib : JsonLibrary) (msg : Json) (L : IProtocolListener σ)

/-- The `Link` branch. -/
def caseLink : ProtocolM σ Bool :=
  idCase (lit "truncated Link message") (lit "Link: objectId must be string") msg L.handleLink

/-- The `Init` branch. -/
def caseInit : ProtocolM σ Bool :=
  payloadCase (lit "truncated Init message") (lit "Init: objectId must be string") msg L.handleInit

/-- The `Unlink` branch. -/
def caseUnlink : ProtocolM σ Bool :=
  idCase (lit "truncated Unlink message") (lit "Unlink: objectId must be string") msg
    L.handleUnlink

/-- The `SetProperty` branch. -/
def caseSetProperty : ProtocolM σ Bool :=
  payloadCase (lit "truncated SetProperty message") (lit "SetProperty: propertyId must be string")
    msg L.handleSetProperty

/-- The `PropertyChange` branch. -/
def casePropertyChange : ProtocolM σ Bool :=
  payloadCase (lit "truncated PropertyChange message")
    (lit "PropertyChange: propertyId must be string") msg L.handlePropertyChange

/-- The `Invoke` branch. -/
def caseInvoke : ProtocolM σ Bool :=
  requestCase lib (lit "truncated Invoke message") (lit "Invoke: requestId must be number")
    (lit "Invoke: methodId must be string") msg L.handleInvoke

/-- The `InvokeReply` branch. -/
def caseInvokeReply : ProtocolM σ Bool :=
  requestCase lib (lit "truncated InvokeReply message")
    (lit "InvokeReply: requestId must be number") (lit "InvokeReply: methodId must be string") msg
    L.handleInvokeReply

/-- The `Signal` branch. -/
def caseSignal : ProtocolM σ Bool :=
  payloadCase (lit "truncated Signal message") (lit "Signal: signalId must be string") msg
    L.handleSignal

/-- The `Error` branch: its two numbers have to be integers, where `Invoke` and `InvokeReply` take
any number for the request id. -/
def caseError : ProtocolM σ Bool :=
  if msg.size < 4 then fail (lit "truncated Error message")
  else if !(msg.item 1).isNumberInteger then fail (lit "Error: msgType must be integer")
  else if !(msg.item 2).isNumberInteger then fail (lit "Error: requestId must be integer")
  else if !(msg.item 3).isString then fail (lit "Error: error must be string")
  else do
    let msgTypeErr ← get (lib.getInt (msg.item 1))
    let requestId ← get (lib.getInt (msg.item 2))
    let error ← get (msg.item 3).getString
    call (L.handleError msgTypeErr requestId error)
    return true

/-- The `default` branch: the text of the message goes into the error, and serialising it may
throw. -/
def caseDefault : ProtocolM σ Bool := do
  let text ← get ((lib.dump msg).mapError Thrown.json)
  fail (lit "message not supported: " ++ text)

/-- `switch(msgType)`. -/
def switch (msgType : Int32) : ProtocolM σ Bool :=
  match MsgType.ofInt? msgType with
  | some .link => caseLink msg L
  | some .init => caseInit msg L
  | some .unlink => caseUnlink msg L
  | some .setProperty => caseSetProperty msg L
  | some .propertyChange => casePropertyChange msg L
  | some .invoke => caseInvoke lib msg L
  | some .invokeReply => caseInvokeReply lib msg L
  | some .signal => caseSignal msg L
  | some .error => caseError lib msg L
  | none => caseDefault lib msg

/-- `Protocol::handleMessage`. -/
def handleMessage : ProtocolM σ Bool := do
  modify fun p => { p with lastError := [] }
  if !msg.isArray then fail (lit "message must be array")
  else if msg.size < 1 then fail (lit "message array is empty")
  else if !(msg.item 0).isNumberInteger then fail (lit "message type must be integer")
  else catchJson do
    let msgType ← get (lib.getInt (msg.item 0))
    switch lib msg L msgType

end Protocol

end ObjectLink
