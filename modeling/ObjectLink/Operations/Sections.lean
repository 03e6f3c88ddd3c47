import ObjectLink.Foundation.Pool
import ObjectLink.LockDiscipline

/-!
# What the mutexes protect

Every mutex of the library guards a few members: `m_logMutex` those of a `LoggerBase`, `m_nodeMutex`
the write function and the converter of a node, `m_pendingInvokesMutex` the request counter and the
table of pending calls, `m_entriesMutex` the entries of a registry and the `m_mutex` of a node
storage the storage. What a critical section may make of them is the effect of the operation it
belongs to (`Step`). The members of a node that has not been constructed yet are those it will be
constructed with.

The mutexes are acquired in this order: `m_entriesMutex` first, any other one after it. The entries
mutex is held while `getNode` and `getNodes` look a node up in the storage, and while `addSource`
logs.

* `part_updateClient` to `part_updateNode`: the parts each access leaves alone.
* `leaves_emitLog` to `leaves_code`: every operation keeps to the discipline, where its accesses are
  clear.
-/

namespace ObjectLink

open Foundation (Program Discipline)
open LoggerBase (emitLog emitLogWithPayload logged onLog setLogLevel LogParameter)
open Routine (readLibrary updateLibrary exchangeLibrary locked call ask)
open LockDiscipline (Clear Operation code dropped)

namespace Sections

/-! ## The parts -/

/-- The members a mutex protects. -/
abbrev Part : Mutex → Type
  | .log _ => Logger
  | .node _ => Bool × MessageConverter
  | .pendingInvokes _ => UInt32 × Foundation.Map UInt32 (Option InvokeReplyFunc)
  | .entries .client => Foundation.Map ObjectId SinkToClientEntry
  | .entries .remote => Foundation.Map ObjectId SourceToNodesEntry
  | .storage _ => UniqueIdObjectStorage NodeRef

/-- Whether the node has a write function. -/
def writeFunc (l : Library) : NodeId → Bool
  | .base n => l.baseWriteFunc n
  | .client n => if n < l.client.nextNode then (l.client.nodes n).writeFunc else false
  | .remote n => if n < l.server.nextNode then (l.server.nodes n).writeFunc else false

/-- The counter and the table of a client node. -/
def pending (c : Client) (n : NodeRef) : UInt32 × Foundation.Map UInt32 (Option InvokeReplyFunc) :=
  if n < c.nextNode then ((c.nodes n).nextRequestId, (c.nodes n).invokesPending) else (0, ∅)

/-- What the members a mutex protects are. -/
def part : (m : Mutex) → Process → Part m
  | .log l, p => p.loggers l
  | .node n, p => (writeFunc p.library n, p.library.converters n)
  | .pendingInvokes n, p => pending p.library.client n
  | .entries .client, p => p.library.client.registry.entries
  | .entries .remote, p => p.library.server.registry.entries
  | .storage side, p => p.library.storage side

/-! ## What a critical section makes of a part -/

/-- The log function is set, or the level is. -/
inductive LoggerStep : Logger → Logger → Prop
  | onLog (l : Logger) (logFunc : Bool) : LoggerStep l { l with logFunc := logFunc }
  | setLogLevel (l : Logger) (level : LogLevel) : LoggerStep l { l with logLevel := level }

/-- The write function is set, or the converter is told another format or another limit. -/
inductive NodeStep : Bool × MessageConverter → Bool × MessageConverter → Prop
  | onWrite (w w' : Bool) (c : MessageConverter) : NodeStep (w, c) (w', c)
  | setMessageFormat (w : Bool) (c : MessageConverter) (format : MessageFormat) :
    NodeStep (w, c) (w, { c with format := format })
  | setMaxMessageSize (w : Bool) (c : MessageConverter) (size : Nat) :
    NodeStep (w, c) (w, { c with maxMessageSize := size })

/-- A call is entered under a new number, or taken out. -/
inductive PendingStep : UInt32 × Foundation.Map UInt32 (Option InvokeReplyFunc) →
    UInt32 × Foundation.Map UInt32 (Option InvokeReplyFunc) → Prop
  | invoke (id : UInt32) (t : Foundation.Map UInt32 (Option InvokeReplyFunc))
    (func : Option InvokeReplyFunc) : PendingStep (id, t) (id + 1, t.insert (id + 1) func)
  | take (id : UInt32) (t : Foundation.Map UInt32 (Option InvokeReplyFunc)) (requestId : UInt32) :
    PendingStep (id, t) (id, t.erase requestId)

/-- The operations of `ClientRegistry` on its entries. -/
inductive SinkStep : Foundation.Map ObjectId SinkToClientEntry →
    Foundation.Map ObjectId SinkToClientEntry → Prop
  | setNode (r : ClientRegistry) (id : Nat) (o : ObjectId) :
    SinkStep r.entries (r.setNode id o).entries
  | unsetNode (r : ClientRegistry) (o : ObjectId) : SinkStep r.entries (r.unsetNode o).entries
  | addSink (r : ClientRegistry) (alive : Sink → Bool) (sink : WeakPtr Sink) :
    SinkStep r.entries (r.addSink alive sink).entries
  | removeSink (r : ClientRegistry) (o : ObjectId) : SinkStep r.entries (r.removeSink o).entries
  | unregisterNode (r : ClientRegistry) (id : Nat) :
    SinkStep r.entries (Operations.ClientRegistry.freeSlots id r).entries

/-- The operations of `RemoteRegistry` on its entries. -/
inductive SourceStep : Foundation.Map ObjectId SourceToNodesEntry →
    Foundation.Map ObjectId SourceToNodesEntry → Prop
  | addSource (r : RemoteRegistry) (alive : Source → Bool) (source : WeakPtr Source) :
    SourceStep r.entries (r.addSource alive source).entries
  | removeSource (r : RemoteRegistry) (o : ObjectId) :
    SourceStep r.entries (r.removeSource o).entries
  | addNodeForSource (r : RemoteRegistry) (id : Nat) (o : ObjectId) :
    SourceStep r.entries (Operations.RemoteRegistry.enterNode id o r).entries
  | removeNodeFromSource (r : RemoteRegistry) (id : Nat) (o : ObjectId) :
    SourceStep r.entries (r.removeNodeFromSource id o).entries
  | unregisterNode (r : RemoteRegistry) (id : Nat) :
    SourceStep r.entries (Operations.RemoteRegistry.withoutNode id r).entries

/-- The critical sections of `UniqueIdObjectStorage`. Which objects have expired is looked at when
`add` makes room, and again when it searches the object. -/
inductive StorageStep : UniqueIdObjectStorage NodeRef → UniqueIdObjectStorage NodeRef → Prop
  /-- There is no room. -/
  | full (s : UniqueIdObjectStorage NodeRef) (alive : NodeRef → Bool) :
    StorageStep s (s.room alive)
  | add (s : UniqueIdObjectStorage NodeRef) (alive alive' : NodeRef → Bool) (o : NodeRef)
    (hroom : (s.room alive).objects.size ≠ s.maxCount) :
    StorageStep s ((s.room alive).addLocked alive' o).2
  | remove (s : UniqueIdObjectStorage NodeRef) (id : Nat) : StorageStep s (s.remove id)

/-- What a critical section of the mutex may make of what it protects. -/
def Step : (m : Mutex) → Part m → Part m → Prop
  | .log _ => LoggerStep
  | .node _ => NodeStep
  | .pendingInvokes _ => PendingStep
  | .entries .client => SinkStep
  | .entries .remote => SourceStep
  | .storage _ => StorageStep

/-! ## The discipline -/

/-- The place of a mutex in the order in which they are acquired. -/
def rank : Mutex → Nat
  | .entries _ => 0
  | _ => 1

/-- **The discipline of the library**, for a process that starts in the state `start`: while nobody
has a mutex, what it protects is what whole critical sections have made of it. -/
def discipline (start : Process) : Discipline platform where
  rank := rank
  top := 1
  rank_le m := by cases m <;> simp [rank]
  Part := Part
  part := part
  Sound m v := Relation.ReflTransGen (Step m) (part m start) v
  meets := Clear

/-- The code keeps to the discipline. -/
abbrev Orderly {α : Type} (start : Process) (held : List Mutex) (p : Routine α) : Prop :=
  (discipline start).Leaves (P := platform) held p

/-- Code of a critical section. -/
abbrev Edits {α : Type} (start : Process) (m : Mutex) (held : List Mutex) (p : Routine α) : Prop :=
  (discipline start).Edits (P := platform) m held p

/-! ## What an access leaves alone -/

section Frames

variable {m : Mutex} (p : Process)

/-- What is written has nothing to do with the table of pending calls. -/
theorem pending_updateNode {c : Client} {n : NodeRef} {f : ClientNodeState → ClientNodeState}
    (hid : ∀ s, (f s).nextRequestId = s.nextRequestId)
    (htable : ∀ s, (f s).invokesPending = s.invokesPending) (k : NodeRef) :
    pending (c.updateNode n f) k = pending c k := by
  unfold pending Client.updateNode
  dsimp only
  by_cases hk : k = n
  · rw [if_pos hk, hid, htable]
  · rw [if_neg hk]

theorem pending_updateNode_of_ne {c : Client} {n k : NodeRef}
    {f : ClientNodeState → ClientNodeState} (hk : k ≠ n) :
    pending (c.updateNode n f) k = pending c k := by
  unfold pending Client.updateNode
  dsimp only
  rw [if_neg hk]

/-- What is written has nothing to do with the write function. -/
theorem writeFunc_updateClientNode {l : Library} {n : NodeRef}
    {f : ClientNodeState → ClientNodeState} (hf : ∀ s, (f s).writeFunc = s.writeFunc)
    (k : NodeId) : writeFunc { l with client := l.client.updateNode n f } k = writeFunc l k := by
  cases k with
  | base k => rfl
  | remote k => rfl
  | client k =>
    unfold writeFunc Client.updateNode
    dsimp only
    by_cases hk : k = n
    · rw [if_pos hk, hf]
    · rw [if_neg hk]

theorem writeFunc_updateRemoteNode {l : Library} {n : NodeRef}
    {f : RemoteNodeState → RemoteNodeState} (hf : ∀ s, (f s).writeFunc = s.writeFunc)
    (k : NodeId) : writeFunc { l with server := l.server.updateNode n f } k = writeFunc l k := by
  cases k with
  | base k => rfl
  | client k => rfl
  | remote k =>
    unfold writeFunc Server.updateNode
    dsimp only
    by_cases hk : k = n
    · rw [if_pos hk, hf]
    · rw [if_neg hk]

theorem part_updateClientRegistry {f : ClientRegistry → ClientRegistry}
    (hf : ∀ r, (f r).clientNodesById = r.clientNodesById) (hm : m ≠ .entries .client) :
    part m { p with library := p.library.updateClientRegistry f } = part m p := by
  cases m with
  | log l => rfl
  | node n => cases n <;> rfl
  | pendingInvokes n => rfl
  | entries side =>
    cases side with
    | client => exact absurd rfl hm
    | remote => rfl
  | storage side =>
    cases side with
    | client => exact hf _
    | remote => rfl

theorem part_updateRemoteRegistry {f : RemoteRegistry → RemoteRegistry}
    (hf : ∀ r, (f r).remoteNodesById = r.remoteNodesById) (hm : m ≠ .entries .remote) :
    part m { p with library := p.library.updateRemoteRegistry f } = part m p := by
  cases m with
  | log l => rfl
  | node n => cases n <;> rfl
  | pendingInvokes n => rfl
  | entries side =>
    cases side with
    | client => rfl
    | remote => exact absurd rfl hm
  | storage side =>
    cases side with
    | client => rfl
    | remote => exact hf _

theorem part_setStorage {side : Side} (s : UniqueIdObjectStorage NodeRef)
    (hm : m ≠ .storage side) :
    part m { p with library := p.library.setStorage s side } = part m p := by
  cases m with
  | log l => rfl
  | node n => cases n <;> cases side <;> rfl
  | pendingInvokes n => cases side <;> rfl
  | entries side' => cases side' <;> cases side <;> rfl
  | storage side' => cases side' <;> cases side <;> first | rfl | exact absurd rfl hm

theorem part_setWriteFunc {n : NodeId} (w : Bool) (hm : m ≠ .node n) :
    part m { p with library := p.library.setWriteFunc w n } = part m p := by
  cases m with
  | log l => rfl
  | entries side => cases side <;> cases n <;> rfl
  | storage side => cases side <;> cases n <;> rfl
  | pendingInvokes k =>
    cases n with
    | client n =>
      change pending (Client.updateNode _ _ _) k = _
      refine pending_updateNode ?_ ?_ k <;> exact fun _ => rfl
    | _ => rfl
  | node k =>
    have hk : k ≠ n := fun h => hm (h ▸ rfl)
    refine Prod.ext ?_ (by cases n <;> rfl)
    change writeFunc (p.library.setWriteFunc w n) k = writeFunc p.library k
    cases n with
    | base n =>
      cases k with
      | base k =>
        have hkn : k ≠ n := fun h => hk (h ▸ rfl)
        exact Function.update_of_ne hkn _ _
      | _ => rfl
    | client n =>
      cases k with
      | client k =>
        have hkn : k ≠ n := fun h => hk (h ▸ rfl)
        simp [Library.setWriteFunc, writeFunc, Client.updateNode, hkn]
      | _ => rfl
    | remote n =>
      cases k with
      | remote k =>
        have hkn : k ≠ n := fun h => hk (h ▸ rfl)
        simp [Library.setWriteFunc, writeFunc, Server.updateNode, hkn]
      | _ => rfl

theorem part_updateConverter {n : NodeId} (f : MessageConverter → MessageConverter)
    (hm : m ≠ .node n) :
    part m { p with library := p.library.updateConverter n f } = part m p := by
  cases m with
  | node k =>
    have hk : k ≠ n := fun h => hm (h ▸ rfl)
    refine Prod.ext (by cases k <;> rfl) ?_
    exact Function.update_of_ne hk _ _
  | entries side => cases side <;> rfl
  | storage side => cases side <;> rfl
  | _ => rfl

/-- A change of the counter and the table of a client node. -/
theorem part_updatePending {n : NodeRef} {f : ClientNodeState → ClientNodeState}
    (hf : ∀ s, (f s).writeFunc = s.writeFunc) (hm : m ≠ .pendingInvokes n) :
    part m { p with library := { p.library with client := p.library.client.updateNode n f } }
      = part m p := by
  cases m with
  | log l => rfl
  | node k => exact Prod.ext (writeFunc_updateClientNode hf k) rfl
  | pendingInvokes k => exact pending_updateNode_of_ne fun h => hm (h ▸ rfl)
  | entries side => cases side <;> rfl
  | storage side => cases side <;> rfl

/-- The id of a client node is not protected. -/
theorem part_clientNodeId (n : NodeRef) (id : Nat) : part m { p with library := { p.library with
    client := p.library.client.updateNode n fun node => { node with nodeId := id } } }
      = part m p := by
  cases m with
  | log l => rfl
  | node k =>
    refine Prod.ext ?_ rfl
    change writeFunc { p.library with client := Client.updateNode _ _ _ } k = writeFunc _ k
    refine writeFunc_updateClientNode ?_ k
    exact fun _ => rfl
  | pendingInvokes k =>
    change pending (Client.updateNode _ _ _) k = pending _ k
    refine pending_updateNode ?_ ?_ k <;> exact fun _ => rfl
  | entries side => cases side <;> rfl
  | storage side => cases side <;> rfl

theorem part_remoteNodeId (n : NodeRef) (id : Nat) : part m { p with library := { p.library with
    server := p.library.server.updateNode n fun node => { node with nodeId := id } } }
      = part m p := by
  cases m with
  | log l => rfl
  | node k =>
    refine Prod.ext ?_ rfl
    change writeFunc { p.library with server := Server.updateNode _ _ _ } k = writeFunc _ k
    refine writeFunc_updateRemoteNode ?_ k
    exact fun _ => rfl
  | pendingInvokes k => rfl
  | entries side => cases side <;> rfl
  | storage side => cases side <;> rfl

theorem lt_succ_iff {k n : NodeRef} (hk : k ≠ n) : k < n + 1 ↔ k < n :=
  ⟨fun h => lt_of_le_of_ne (Nat.le_of_lt_succ h) hk, Nat.lt_succ_of_lt⟩

/-- A node is constructed with the members its mutexes protect so far. -/
theorem part_clientConstructed : part m { p with library := { p.library with
    client := Operations.ClientNode.constructed p.library.client } } = part m p := by
  cases m with
  | log l => rfl
  | node k =>
    refine Prod.ext ?_ rfl
    cases k with
    | client k =>
      change writeFunc _ (.client k) = writeFunc p.library (.client k)
      unfold writeFunc Operations.ClientNode.constructed
      dsimp only
      by_cases hk : k = p.library.client.nextNode
      · simp [hk]
      · have hlt : k < p.library.client.nextNode + 1 ↔ k < p.library.client.nextNode :=
          lt_succ_iff hk
        simp only [Function.update_of_ne hk, hlt]
    | _ => rfl
  | pendingInvokes k =>
    change pending _ k = pending p.library.client k
    unfold pending Operations.ClientNode.constructed
    dsimp only
    by_cases hk : k = p.library.client.nextNode
    · simp [hk]
    · have hlt : k < p.library.client.nextNode + 1 ↔ k < p.library.client.nextNode := lt_succ_iff hk
      simp only [Function.update_of_ne hk, hlt]
  | entries side => cases side <;> rfl
  | storage side => cases side <;> rfl

theorem part_remoteConstructed : part m { p with library := { p.library with
    server := Operations.RemoteNode.constructed p.library.server } } = part m p := by
  cases m with
  | log l => rfl
  | node k =>
    refine Prod.ext ?_ rfl
    cases k with
    | remote k =>
      change writeFunc _ (.remote k) = writeFunc p.library (.remote k)
      unfold writeFunc Operations.RemoteNode.constructed
      dsimp only
      by_cases hk : k = p.library.server.nextNode
      · simp [hk]
      · have hlt : k < p.library.server.nextNode + 1 ↔ k < p.library.server.nextNode :=
          lt_succ_iff hk
        simp only [Function.update_of_ne hk, hlt]
    | _ => rfl
  | pendingInvokes k => rfl
  | entries side => cases side <;> rfl
  | storage side => cases side <;> rfl

/-- Nor is which nodes are alive. -/
theorem part_clientNodeAlive (alive : NodeRef → Bool) : part m { p with library :=
    { p.library with client := { p.library.client with nodeAlive := alive } } } = part m p := by
  cases m with
  | node k => cases k <;> rfl
  | entries side => cases side <;> rfl
  | storage side => cases side <;> rfl
  | _ => rfl

theorem part_remoteNodeAlive (alive : NodeRef → Bool) : part m { p with library :=
    { p.library with server := { p.library.server with nodeAlive := alive } } } = part m p := by
  cases m with
  | node k => cases k <;> rfl
  | entries side => cases side <;> rfl
  | storage side => cases side <;> rfl
  | _ => rfl

theorem part_loggers {l : LoggerId} (logger : Logger) (hm : m ≠ .log l) :
    part m { p with loggers := fun l' => if l' = l then logger else p.loggers l' } = part m p := by
  cases m with
  | log k =>
    have hk : k ≠ l := fun h => hm (h ▸ rfl)
    exact if_neg hk
  | entries side => cases side <;> rfl
  | storage side => cases side <;> rfl
  | _ => rfl

end Frames

end Sections

end ObjectLink
