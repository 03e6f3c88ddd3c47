import ObjectLink.ClientNode
import ObjectLink.Core.MessageConverter
import ObjectLink.Foundation.Threads
import ObjectLink.RemoteNode

/-!
# What the operations run on

The operations of the library with everything they do on the way: the mutexes they take, what they
log, the conversion of messages to and from the network format, and the code outside they call. A
`Process` has one registry of each kind and any number of nodes; it adds the converters and the
loggers to what `Client` and `Server` hold (their `effects` are not used here: what has been called
outside is what the code outside knows).

* `Logger` are the members of `LoggerBase`, which both registries and every node are
  (`types.h:164-230`); a log function is called or not, and what it does is up to the code outside.
* `OutsideCall` is code that the application supplies, with what it is given. `destructor` stands
  for what goes with a last reference: the destructor of an object the library does not own, or of
  what a function has captured. Copying a function runs no code, and its copies share what it has
  captured. The releases at the end of an operation come when no mutex is held any more and are
  left out.
* `emitLog` and `emitLogWithPayload` (`types.h:180-214`) make the text only if it is logged;
  converting the payload, or a parameter that is a JSON value, may throw.
-/

namespace ObjectLink

open Foundation (Platform Program)
open Foundation.Program (exchange read update outside withLock)

/-! ## The state -/

/-- A node object: a plain `BaseNode`, or one of a derived class. -/
inductive NodeId where
  | base (n : NodeRef)
  | client (n : NodeRef)
  | remote (n : NodeRef)
  deriving DecidableEq

/-- The objects that log. -/
inductive LoggerId where
  | clientRegistry
  | remoteRegistry
  | node (n : NodeId)
  deriving DecidableEq

/-- The members of a `LoggerBase`. -/
structure Logger where
  /-- Whether a log function is set. -/
  logFunc : Bool
  logLevel : LogLevel

/-- A new `LoggerBase`. -/
def Logger.new : Logger where
  logFunc := false
  logLevel := .warning

/-- Whether a message of this level is logged. -/
def Logger.logs (l : Logger) (level : LogLevel) : Bool :=
  l.logFunc && decide (l.logLevel.toNat ≤ level.toNat)

/-- One of the two sides, for what both registries do alike. -/
inductive Side where
  | client | remote
  deriving DecidableEq

/-- What the library takes references to for a moment, and the functions it replaces. -/
inductive Referent where
  | node (side : Side) (n : NodeRef)
  | sink (s : Sink)
  | source (s : Source)
  /-- The function that a logger logs with. -/
  | logFunc (l : LoggerId)
  /-- The function that a node writes with. -/
  | writeFunc (n : NodeId)
  | invokeReply (func : InvokeReplyFunc)

/-- The objects of the library, but for the loggers. -/
structure Library where
  client : Client
  server : Server
  /-- Whether a plain node has a write function. -/
  baseWriteFunc : NodeRef → Bool
  converters : NodeId → MessageConverter
  /-- A reference to the object that a thread releases now is the only one; for a function, it is
  the only copy, and something goes with it. -/
  lastReference : Referent → Bool

/-- What the threads share: the library's objects, and the loggers. -/
structure Process where
  library : Library
  loggers : LoggerId → Logger

namespace Library

/-- Nothing is registered yet, and the application keeps every object alive. -/
def new : Library where
  client :=
    { registry := .new
      nodes := fun _ =>
        { nodeId := invalidId, writeFunc := false, nextRequestId := 0, invokesPending := ∅ }
      nodeAlive := fun _ => false
      sinkAlive := fun _ => true
      nextNode := 0
      effects := [] }
  server :=
    { registry := .new
      nodes := fun _ => { nodeId := invalidId, writeFunc := false }
      nodeAlive := fun _ => false
      sourceAlive := fun _ => true
      nextNode := 0
      effects := [] }
  baseWriteFunc _ := false
  converters _ := .new .json
  lastReference _ := false

variable (l : Library)

/-- Whether the node has a write function. -/
def writeFunc : NodeId → Bool
  | .base n => l.baseWriteFunc n
  | .client n => (l.client.nodes n).writeFunc
  | .remote n => (l.server.nodes n).writeFunc

/-- The node storage of a registry. -/
def storage : Side → UniqueIdObjectStorage NodeRef
  | .client => l.client.registry.clientNodesById
  | .remote => l.server.registry.remoteNodesById

/-- The library with another node storage in a registry. -/
def setStorage (s : UniqueIdObjectStorage NodeRef) : Side → Library
  | .client => { l with client := l.client.updateRegistry fun r => { r with clientNodesById := s } }
  | .remote => { l with server := l.server.updateRegistry fun r => { r with remoteNodesById := s } }

/-- Which nodes of a side are alive. -/
def nodeAlive : Side → NodeRef → Bool
  | .client => l.client.nodeAlive
  | .remote => l.server.nodeAlive

@[simp] theorem storage_setStorage (s : UniqueIdObjectStorage NodeRef) (side : Side) :
    (l.setStorage s side).storage side = s := by
  cases side <;> rfl

@[simp] theorem nodeAlive_setStorage (s : UniqueIdObjectStorage NodeRef)
    (side : Side) : (l.setStorage s side).nodeAlive side = l.nodeAlive side := by
  cases side <;> rfl

@[simp] theorem setStorage_setStorage (s s' : UniqueIdObjectStorage NodeRef)
    (side : Side) : (l.setStorage s side).setStorage s' side = l.setStorage s' side := by
  cases side <;> rfl

theorem lastReference_setStorage (s : UniqueIdObjectStorage NodeRef) (side : Side) :
    (l.setStorage s side).lastReference = l.lastReference := by
  cases side <;> rfl

theorem setStorage_storage (side : Side) :
    l.setStorage (l.storage side) side = l := by
  cases side <;> rfl

/-- The sink registered for an object, if it is alive. -/
def sink (o : ObjectId) : Option Sink := (l.client.registry.getSink o).lock l.client.sinkAlive

/-- The source registered for an object, if it is alive. -/
def source (o : ObjectId) : Option Source := l.server.source o

/-- Changes the client registry. -/
def updateClientRegistry (f : ClientRegistry → ClientRegistry) : Library :=
  { l with client := l.client.updateRegistry f }

/-- Changes the remote registry. -/
def updateRemoteRegistry (f : RemoteRegistry → RemoteRegistry) : Library :=
  { l with server := l.server.updateRegistry f }

end Library

/-! ## The code outside -/

/-- A call of code that the application supplies. The name a sink or source gives itself is its
`olinkObjectName`. -/
inductive OutsideCall where
  /-- A `WriteLogFunc`. -/
  | log (logger : LoggerId) (level : LogLevel) (message : Bytes)
  /-- A `WriteMessageFunc`. -/
  | write (node : NodeId) (msg : Bytes)
  | sinkObjectName (sink : Sink)
  | olinkOnInit (sink : Sink) (objectId : Bytes) (props : Json) (node : NodeRef)
  | olinkOnRelease (sink : Sink)
  | olinkOnPropertyChanged (sink : Sink) (propertyId : Bytes) (value : Json)
  | olinkOnSignal (sink : Sink) (signalId : Bytes) (args : Json)
  | invokeReply (func : InvokeReplyFunc) (methodId : Bytes) (value : Json)
  | sourceObjectName (source : Source)
  | olinkLinked (source : Source) (objectId : Bytes) (node : NodeRef)
  | olinkUnlinked (source : Source) (objectId : Bytes)
  | olinkSetProperty (source : Source) (propertyId : Bytes) (value : Json)
  | olinkCollectProperties (source : Source)
  | olinkInvoke (source : Source) (methodId : Bytes) (args : Json)
  | destructor (object : Referent)

/-- The call of a log function. -/
def OutsideCall.isLog : OutsideCall → Bool
  | .log _ _ _ => true
  | _ => false

/-! ## The platform -/

/-- The mutexes of the library. -/
inductive Mutex where
  /-- `m_logMutex`. -/
  | log (l : LoggerId)
  /-- `m_nodeMutex`. -/
  | node (n : NodeId)
  /-- `m_pendingInvokesMutex` of a client node. -/
  | pendingInvokes (n : NodeRef)
  /-- `m_entriesMutex` of a registry. -/
  | entries (side : Side)
  /-- `m_mutex` of a node storage. -/
  | storage (side : Side)
  deriving DecidableEq

/-- A call outside is answered with a value, which is of no meaning where nothing is returned. -/
abbrev platform : Platform where
  State := Process
  Mutex := Mutex
  Call := OutsideCall
  Reply := Json
  Exception := Thrown

instance : DecidableEq platform.Mutex := inferInstanceAs (DecidableEq Mutex)

/-- Code of the library. -/
abbrev Routine (α : Type) := Program platform α

namespace Routine

variable {α : Type}

/-- An access to the library's objects. -/
def exchangeLibrary (f : Library → α × Library) : Routine α :=
  exchange (P := platform) fun p => ((f p.library).1, { p with library := (f p.library).2 })

/-- An access that reads. -/
def readLibrary (f : Library → α) : Routine α := exchangeLibrary fun l => (f l, l)

/-- An access that writes. -/
def updateLibrary (f : Library → Library) : Routine Unit := exchangeLibrary fun l => ((), f l)

/-- The outcome of a computation that may throw. -/
def ofExcept (r : Except Thrown α) : Routine α := .done r

/-- A block under a mutex. -/
def locked (m : Mutex) (p : Routine α) : Routine α := withLock (P := platform) m p

/-- Calls code outside that returns nothing. -/
def call (c : OutsideCall) : Routine Unit := do
  let _ ← outside (P := platform) c
  return ()

/-- Calls code outside for a value. -/
def ask (c : OutsideCall) : Routine Json := outside (P := platform) c

/-- A reference is released. -/
def release (object : Referent) : Routine Unit := do
  if ← readLibrary fun l => l.lastReference object then
    call (.destructor object)

end Routine

/-! ## Logging -/

namespace LoggerBase

/-- A parameter of `emitLog`: a string, or a value that is converted to one. -/
inductive LogParameter where
  | string (s : Bytes)
  | json (j : Json)

/-- The strings put together, unless a conversion throws. -/
def fullMessage : List LogParameter → Except Thrown Bytes
  | [] => .ok []
  | .string s :: params => (fullMessage params).map fun rest => s ++ rest
  | .json j :: params => j.getString.bind fun s => (fullMessage params).map fun rest => s ++ rest

variable (lib : Codecs) (l : LoggerId) (level : LogLevel)

/-- Whether a message of this level is logged now. -/
def logged : Routine Bool :=
  Routine.locked (.log l) (read (P := platform) fun p => (p.loggers l).logs level)

/-- `emitLog`. -/
def emitLog (params : List LogParameter) : Routine Unit := do
  if ← logged l level then
    let message ← Routine.ofExcept (fullMessage params)
    Routine.call (.log l level message)

/-- `emitLogWithPayload`. -/
def emitLogWithPayload (payload : Json) (params : List LogParameter) : Routine Unit := do
  if ← logged l level then
    let text ← Routine.ofExcept ((lib.dump payload).mapError .json)
    emitLog l level (params ++ [.string text])

/-- The logger has another function, or none; whether it had one. -/
def setLogFunc (logFunc : Bool) : Routine Bool :=
  exchange (P := platform) fun p => ((p.loggers l).logFunc, { p with
    loggers := fun l' => if l' = l then { p.loggers l with logFunc := logFunc } else p.loggers l' })

/-- `onLog`, which may be given no function as well. The function it replaces goes in the critical
section. -/
def onLog (logFunc : Bool) : Routine Unit :=
  Routine.locked (.log l) do
    if ← setLogFunc l logFunc then
      Routine.release (.logFunc l)

/-- `setLogLevel`. -/
def setLogLevel : Routine Unit :=
  Routine.locked (.log l) (update (P := platform) fun p => { p with
    loggers := fun l' => if l' = l then { p.loggers l with logLevel := level } else p.loggers l' })

end LoggerBase

end ObjectLink
