import ObjectLink.Operations.Process

/-!
# The operations of the registries

`UniqueIdObjectStorage` (`uniqueidobjectstorage.h`), `ClientRegistry` (`clientregistry.cpp`) and
`RemoteRegistry` (`remoteregistry.cpp`) with their mutexes and log messages. What an operation does
to the registry under the mutex is the operation of the same name on `ClientRegistry` and
`RemoteRegistry`.

* The scan of `add` takes a temporary reference to each entry it compares with, and so do the
  comparisons of `addSink` and `addSource`; they release it under the mutex.
* `ClientRegistry` releases `m_entriesMutex` before it logs; `RemoteRegistry::addSource`
  (`remoteregistry.cpp:23-38`) logs that there is a source already while it holds it.
-/

namespace ObjectLink

open LoggerBase (emitLog LogParameter)
open Routine (readLibrary updateLibrary exchangeLibrary locked call ask release)

namespace Operations

/-- A parameter that is a string of the source. -/
abbrev text (s : String) : LogParameter := .string (lit s)

namespace UniqueIdObjectStorage

variable (side : Side)

/-- `get`. -/
def get (id : Nat) : Routine (WeakPtr NodeRef) :=
  locked (.storage side) (readLibrary fun l => (l.storage side).get id)

/-- `remove`. -/
def remove (id : Nat) : Routine Unit :=
  locked (.storage side)
    (updateLibrary fun l => l.setStorage ((l.storage side).remove id) side)

/-- The `find_if` of `add` over the entries that are left: those that have not expired are compared
with the object, until it is found. The order of the entries is not specified. -/
def scan (object : NodeRef) : List NodeRef → Routine Unit
  | [] => return ()
  | current :: rest => do
    if ← readLibrary fun l => l.nodeAlive side current then
      release (.node side current)
      if current = object then return () else scan object rest
    else scan object rest

/-- `add`. -/
def add (object : WeakPtr NodeRef) : Routine Nat := do
  match ← readLibrary fun l => object.lock (l.nodeAlive side) with
  | none => return invalidId
  | some lockedObject =>
    locked (.storage side) do
      let full ← exchangeLibrary fun l =>
        let s := (l.storage side).room (l.nodeAlive side)
        (decide (s.objects.size = s.maxCount), l.setStorage s side)
      if full then return invalidId
      let entries ← readLibrary fun l => (l.storage side).objects.values
      scan side lockedObject entries
      exchangeLibrary fun l =>
        let (id, s) := (l.storage side).addLocked (l.nodeAlive side) lockedObject
        (id, l.setStorage s side)

end UniqueIdObjectStorage

namespace ClientRegistry

/-- Whether `setNode` finds another node set. -/
def otherNodeSet (r : ObjectLink.ClientRegistry) (id : Nat) (objectId : ObjectId) : Bool :=
  match r.entries[objectId]? with
  | some entry => decide (entry.nodeId ≠ invalidId) && decide (entry.nodeId ≠ id)
  | none => false

/-- `setNode`. -/
def setNode (id : Nat) (objectId : ObjectId) : Routine Unit := do
  let node ← UniqueIdObjectStorage.get .client id
  let lockedNode ← readLibrary fun l => node.lock l.client.nodeAlive
  if lockedNode.isNone then
    emitLog .clientRegistry .warning
      [text "Trying to add node, but it is already gone. Node NOT added."]
  emitLog .clientRegistry .info [text "ClientRegistry.setNode: ", .string objectId]
  let other ← locked (.entries .client) (exchangeLibrary fun l =>
    (otherNodeSet l.client.registry id objectId, l.updateClientRegistry (·.setNode id objectId)))
  if other then
    emitLog .clientRegistry .warning
      [text "Trying to set a client node for ", .string objectId,
        text " but other node is already set. Node was NOT changed."]

/-- `unsetNode`. -/
def unsetNode (objectId : ObjectId) : Routine Unit := do
  emitLog .clientRegistry .info [text "ClientRegistry.unsetNode: ", .string objectId]
  locked (.entries .client)
    (updateLibrary fun l => l.updateClientRegistry (·.unsetNode objectId))

/-- The critical section of `addSink`: whether another sink is registered. -/
def enterSink (lockedSink : Sink) : Routine Bool := do
  match ← readLibrary fun l => l.client.registry.entries[lockedSink.olinkObjectName]? with
  | none =>
    updateLibrary fun l =>
      l.updateClientRegistry (·.addSink l.client.sinkAlive (some lockedSink))
    return false
  | some entry =>
    if ← readLibrary fun l => entry.sink.expired l.client.sinkAlive then
      updateLibrary fun l =>
        l.updateClientRegistry (·.addSink l.client.sinkAlive (some lockedSink))
      return false
    else
      match ← readLibrary fun l => entry.sink.lock l.client.sinkAlive with
      | some current =>
        release (.sink current)
        return decide (current ≠ lockedSink)
      | none => return true

/-- `addSink`. -/
def addSink (sink : WeakPtr Sink) : Routine Unit := do
  match ← readLibrary fun l => sink.lock l.client.sinkAlive with
  | none =>
    emitLog .clientRegistry .warning
      [text "Trying to add sink object, but it is already gone. New object NOT added."]
  | some lockedSink =>
    call (.sinkObjectName lockedSink)
    emitLog .clientRegistry .info
      [text "ClientRegistry.addSink: ", .string lockedSink.olinkObjectName]
    let other ← locked (.entries .client) (enterSink lockedSink)
    if other then
      emitLog .clientRegistry .warning
        [text "Trying to add object for ", .string lockedSink.olinkObjectName,
          text " but object for this id is already registered. New object NOT added."]

/-- `removeSink`. -/
def removeSink (objectId : ObjectId) : Routine Unit := do
  emitLog .clientRegistry .info [text "ClientRegistry.removeSink: ", .string objectId]
  locked (.entries .client)
    (updateLibrary fun l => l.updateClientRegistry (·.removeSink objectId))

/-- `getSink`. -/
def getSink (objectId : ObjectId) : Routine (WeakPtr Sink) := do
  emitLog .clientRegistry .info [text "ClientRegistry.getSink: ", .string objectId]
  locked (.entries .client)
    (readLibrary fun l => l.client.registry.getSink objectId)

/-- `getObjectIds`. It reads how many entries there are before it has the mutex, to reserve memory
for as many ids. -/
def getObjectIds (nodeId : Nat) : Routine (List ObjectId) := do
  let _ ← readLibrary fun l => l.client.registry.entries.size
  locked (.entries .client)
    (readLibrary fun l => l.client.registry.getObjectIds nodeId)

/-- `getNode`. -/
def getNode (objectId : ObjectId) : Routine (WeakPtr NodeRef) := do
  emitLog .clientRegistry .info [text "ClientRegistry.getNode: ", .string objectId]
  locked (.entries .client) do
    match ← readLibrary fun l => l.client.registry.entries[objectId]? with
    | some entry => UniqueIdObjectStorage.get .client entry.nodeId
    | none => return none

/-- `registerNode`. -/
def registerNode (node : WeakPtr NodeRef) : Routine Nat := do
  match ← readLibrary fun l => node.lock l.client.nodeAlive with
  | none =>
    emitLog .clientRegistry .warning [text "Trying to get node, but it is already gone."]
    return invalidId
  | some lockedNode => UniqueIdObjectStorage.add .client (some lockedNode)

/-- The entries once none refers to the node. -/
def freeSlots (id : Nat) (r : ObjectLink.ClientRegistry) : ObjectLink.ClientRegistry :=
  { r with entries := r.entries.map fun _ entry =>
      if entry.nodeId = id then { entry with nodeId := invalidId } else entry }

/-- `unregisterNode`. -/
def unregisterNode (id : Nat) : Routine Unit := do
  if id ≠ invalidId then
    locked (.entries .client)
      (updateLibrary fun l => l.updateClientRegistry (freeSlots id))
    UniqueIdObjectStorage.remove .client id

end ClientRegistry

namespace RemoteRegistry

/-- The critical section of `addSource`. Where another source is registered, the message is logged
before the mutex is released. -/
def enterSource (lockedSource : Source) : Routine Unit := do
  match ← readLibrary fun l => l.server.registry.entries[lockedSource.olinkObjectName]? with
  | none =>
    updateLibrary fun l =>
      l.updateRemoteRegistry (·.addSource l.server.sourceAlive (some lockedSource))
  | some found =>
    if ← readLibrary fun l => found.source.expired l.server.sourceAlive then return ()
    else
      match ← readLibrary fun l => found.source.lock l.server.sourceAlive with
      | some current =>
        release (.source current)
        if current = lockedSource then return ()
        else
          emitLog .remoteRegistry .info
            [.string lockedSource.olinkObjectName, text hasSourceAlready]
      | none =>
        emitLog .remoteRegistry .info [.string lockedSource.olinkObjectName, text hasSourceAlready]
where
  hasSourceAlready :=
    " has already a source, source object not changed. Please remove first the existing source." ++
    " Have in mind, that all associated nodes will also be removed and must be added again."

/-- `addSource`. -/
def addSource (source : WeakPtr Source) : Routine Unit := do
  match ← readLibrary fun l => source.lock l.server.sourceAlive with
  | none =>
    emitLog .remoteRegistry .warning
      [text "Trying to add source to registry, but source already expired"]
  | some lockedSource =>
    call (.sourceObjectName lockedSource)
    emitLog .remoteRegistry .info
      [text "RemoteRegistry.addObjectSource: ", .string lockedSource.olinkObjectName]
    locked (.entries .remote) (enterSource lockedSource)

/-- `removeSource`, with `removeEntry`. -/
def removeSource (objectId : ObjectId) : Routine Unit := do
  emitLog .remoteRegistry .info [text "RemoteRegistry.removeObjectSource: ", .string objectId]
  locked (.entries .remote)
    (updateLibrary fun l => l.updateRemoteRegistry (·.removeSource objectId))

/-- `getSource`. -/
def getSource (objectId : ObjectId) : Routine (WeakPtr Source) := do
  emitLog .remoteRegistry .info [text "RemoteRegistry.getObjectSource: ", .string objectId]
  locked (.entries .remote)
    (readLibrary fun l => l.server.registry.getSource objectId)

/-- The loop of `getNodes`. -/
def liveNodes : List Nat → Routine (List (WeakPtr NodeRef))
  | [] => return []
  | id :: ids => do
    let node ← UniqueIdObjectStorage.get .remote id
    let expired ← readLibrary fun l => node.expired l.server.nodeAlive
    let nodes ← liveNodes ids
    return if expired then nodes else node :: nodes

/-- `getNodes`. -/
def getNodes (objectId : ObjectId) : Routine (List (WeakPtr NodeRef)) := do
  emitLog .remoteRegistry .info [text "RemoteRegistry.getRemoteNodes: ", .string objectId]
  locked (.entries .remote) do
    match ← readLibrary fun l => l.server.registry.entries[objectId]? with
    | some found => liveNodes found.nodes
    | none => return []

/-- `getObjectIds`. -/
def getObjectIds (nodeId : Nat) : Routine (List ObjectId) :=
  locked (.entries .remote)
    (readLibrary fun l => l.server.registry.getObjectIds nodeId)

/-- The entry of an object once it has the node. -/
def enterNode (nodeId : Nat) (objectId : ObjectId) (r : ObjectLink.RemoteRegistry) :
    ObjectLink.RemoteRegistry :=
  match r.entries[objectId]? with
  | some found =>
    if nodeId ∈ found.nodes then r
    else
      { r with entries :=
          r.entries.insert objectId { found with nodes := found.nodes ++ [nodeId] } }
  | none => r

/-- `addNodeForSource`. -/
def addNodeForSource (nodeId : Nat) (objectId : ObjectId) : Routine Unit := do
  let node ← UniqueIdObjectStorage.get .remote nodeId
  match ← readLibrary fun l => node.lock l.server.nodeAlive with
  | none =>
    emitLog .remoteRegistry .warning
      [text "Trying to add node, but it is already gone. Node NOT added."]
  | some _ =>
    emitLog .remoteRegistry .info [text "RemoteRegistry.linkRemoteNode: ", .string objectId]
    locked (.entries .remote)
      (updateLibrary fun l => l.updateRemoteRegistry (enterNode nodeId objectId))

/-- `removeNodeFromSource`. -/
def removeNodeFromSource (nodeId : Nat) (objectId : ObjectId) : Routine Unit := do
  emitLog .remoteRegistry .info [text "RemoteRegistry.removeNodeFromSource: ", .string objectId]
  locked (.entries .remote)
    (updateLibrary fun l => l.updateRemoteRegistry (·.removeNodeFromSource nodeId objectId))

/-- `registerNode`. -/
def registerNode (node : WeakPtr NodeRef) : Routine Nat := do
  match ← readLibrary fun l => node.lock l.server.nodeAlive with
  | none =>
    emitLog .remoteRegistry .warning
      [text "Trying to add node, but it is already gone. Node NOT added."]
    return invalidId
  | some lockedNode => UniqueIdObjectStorage.add .remote (some lockedNode)

/-- The entries once none has the node. -/
def withoutNode (id : Nat) (r : ObjectLink.RemoteRegistry) : ObjectLink.RemoteRegistry :=
  { r with entries := r.entries.map fun _ entry => { entry with nodes := entry.nodes.erase id } }

/-- `unregisterNode`. -/
def unregisterNode (id : Nat) : Routine Unit := do
  if id ≠ invalidId then
    locked (.entries .remote)
      (updateLibrary fun l => l.updateRemoteRegistry (withoutNode id))
    UniqueIdObjectStorage.remove .remote id

end RemoteRegistry

end Operations

end ObjectLink
