import ObjectLink.Isolation
import ObjectLink.Operations.Network

/-!
# What sinks and sources are told

The code of both sides over the network, as in `Network.lean`, with every operation of either side:
the nodes are created when the users like, and node `n` of the client side and node `n` of the
server side are the two ends of connection `n`, which keeps what is written before the other end is
there. The operations that the users of client nodes call are those that return; what the runs take
for granted otherwise is said in `Refinement.lean`.

* `announced`, `requested`: what a step has a node send to the other side, from the arguments of
  the operation: `notifyPropertyChange`, `notifySignal` and the answers to what is received
  (`remotenode.cpp:33-86`), and what the user of a client node calls (`clientnode.cpp:30-84`).
* `heard`, `served`: what a sink or a source is told by a node in a step (`clientnode.cpp:91-152`,
  `remotenode.cpp:33-76`).
* `sinks_told`, `sources_told`: these are the same, one by one and in that order, but for what is
  still under way, as long as what is sent can be written and is read as what was composed, and a
  client node gets past logging the payload of what it receives (`Hears`).
-/

namespace ObjectLink

open Foundation (Machine Run run_play)
open Running
open Simulation
open Refinement

namespace Call

/-- The object whose sink is told. -/
def sinkObject : Call → Option ObjectId
  | .init o _ => some o
  | .propertyChange p _ => some (Name.getObjectId p)
  | .signal s _ => some (Name.getObjectId s)
  | _ => none

/-- The object whose source is told. -/
def sourceObject : Call → Option ObjectId
  | .link o | .unlink o => some o
  | .setProperty p _ => some (Name.getObjectId p)
  | .invoke _ m _ => some (Name.getObjectId m)
  | _ => none

/-- What a sink or a source is told of the call: the numbers may be stored another way, and the
request id is left out. -/
def content (c : Call) : Call :=
  match c.normal with
  | .invoke _ m args => .invoke 0 m args
  | c => c

theorem content_of_normal {c c' : Call} (h : c'.normal = c.normal) : c'.content = c.content := by
  unfold content
  rw [h]

theorem sinkObject_content (c : Call) : c.content.sinkObject = c.sinkObject := by cases c <;> rfl

theorem sourceObject_content (c : Call) : c.content.sourceObject = c.sourceObject := by
  cases c <;> rfl

end Call

namespace Delivery

/-- What can happen. -/
inductive Action where
  | client (a : ClientAction)
  | server (a : ServerAction)
  | deliverToServer (n : NodeRef)
  | deliverToClient (n : NodeRef)

section Machine

variable (lib : Codecs) (k : MessageConverter)
  (clientAnswer serverAnswer : List Event → OutsideCall → Except Thrown Json)

/-- What an action makes of both sides and of what is under way. -/
def next (L : LoggerId → Logger) (s : Network) : Action → Network
  | .client a => Network.stepClient lib clientAnswer L s a
  | .server a => Network.stepServer lib serverAnswer L s a
  | .deliverToServer n => Network.next lib clientAnswer serverAnswer L s (.deliverToServer n)
  | .deliverToClient n => Network.next lib clientAnswer serverAnswer L s (.deliverToClient n)

/-- The operations that the user of a client node calls return. What a node receives comes from its
connection, and it is alive when it does. -/
def Enabled (L : LoggerId → Logger) (s : Network) : Action → Prop
  | .client a => (∀ n data, a ≠ .receive n data) ∧ ClientReturns lib k clientAnswer L s.client a
  | .server a => (∀ n data, a ≠ .receive n data) ∧ ServerEnabled lib k serverAnswer L s.server a
  | .deliverToServer n => s.toServer n ≠ [] ∧ s.server.library.server.nodeAlive n = true
  | .deliverToClient n => s.toClient n ≠ [] ∧ s.client.library.client.nodeAlive n = true

/-- The start: nothing registered on either side, and nothing under way. -/
structure Init (s : Network) : Prop where
  client : ClientInit k s.client
  server : ServerInit k s.server
  toServer : ∀ n, s.toServer n = []
  toClient : ∀ n, s.toClient n = []

/-- Any use of both sides. -/
def machine : Machine Network (Configured Action) where
  init := Init k
  enabled s x := Enabled lib k clientAnswer serverAnswer x.loggers s x.action
  next s x := next lib clientAnswer serverAnswer x.loggers s x.action

end Machine

/-! ## What is sent and what is told -/

/-- Logging the payload returns: the node does not log this level, or the payload can be dumped. -/
def Loggable (lib : Codecs) (L : LoggerId → Logger) (n : NodeId) (level : LogLevel)
    (payload : Json) : Prop :=
  (logging lib L n).emitLogWithPayload level payload = .ok ()

section Steps

variable (lib : Codecs) (k : MessageConverter)
  (clientAnswer serverAnswer : List Event → OutsideCall → Except Thrown Json)

/-- The message that a step hands to a node. -/
def message (queue : List Bytes) : Option Call :=
  queue.head?.bind fun data => Protocol.decode? lib.toJsonLibrary (k.fromString lib data)

/-- What the user of client node `n` has it send. -/
def requested (n : NodeRef) (x : Network × Configured Action) : List Call :=
  let c := x.1.client.library.client
  if (c.nodes n).writeFunc then
    match x.2.action with
    | .client (.linkRemote m o) => if m = n then [.link o] else []
    | .client (.unlinkRemote m o) => if m = n then [.unlink o] else []
    | .client (.setRemoteProperty m p v) => if m = n then [.setProperty p v] else []
    | .client (.invokeRemote m methodId args _) =>
      if m = n then [.invoke ((c.nodes m).nextRequestId + 1) methodId args] else []
    | .client (.destroy m) =>
      if m = n then (c.registry.getObjectIds (c.nodes m).nodeId).map .unlink else []
    | _ => []
  else []

/-- The answer to a `Link`, with the properties that the source returns. -/
def linkAnswer (w : World) (n : NodeRef) (o : ObjectId) (source : Source) : List Call :=
  match serverAnswer w.history (.olinkLinked source o n) with
  | .ok _ =>
    match serverAnswer (w.called (.detached serverAnswer) (.olinkLinked source o n)).history
      (.olinkCollectProperties source) with
    | .ok props => [.init o props]
    | .error _ => []
  | .error _ => []

/-- The answer to an `Invoke`. -/
def invokeAnswer (w : World) (requestId : UInt32) (methodId : Bytes) (args : Json)
    (source : Source) : List Call :=
  match serverAnswer w.history (.olinkInvoke source methodId args) with
  | .ok value => [.invokeReply requestId methodId value]
  | .error _ => []

/-- What a remote node answers. -/
def answers (w : World) (n : NodeRef) : Call → List Call
  | .link o => (w.library.source o).elim [] (linkAnswer serverAnswer w n o)
  | .invoke requestId methodId args => (w.library.source (Name.getObjectId methodId)).elim []
    (invokeAnswer serverAnswer w requestId methodId args)
  | _ => []

/-- What the sources have remote node `n` send. -/
def announced (n : NodeRef) (x : Network × Configured Action) : List Call :=
  if (x.1.server.library.server.nodes n).writeFunc then
    match x.2.action with
    | .server (.notifyPropertyChange m p v) => if m = n then [.propertyChange p v] else []
    | .server (.notifySignal m s args) => if m = n then [.signal s args] else []
    | .deliverToServer m =>
      if m = n then (message lib k (x.1.toServer n)).elim [] (answers serverAnswer x.1.server n)
      else []
    | _ => []
  else []

/-- What a call of code outside tells the sink of an object, if it comes from client node `n`. -/
def tellsSink (o : ObjectId) (sink : Sink) (n : NodeRef) : OutsideCall → Option Call
  | .olinkOnInit s o' props m => if s = sink ∧ o' = o ∧ m = n then some (.init o' props) else none
  | .olinkOnPropertyChanged s p v =>
    if s = sink ∧ Name.getObjectId p = o then some (.propertyChange p v) else none
  | .olinkOnSignal s p args =>
    if s = sink ∧ Name.getObjectId p = o then some (.signal p args) else none
  | _ => none

/-- What it tells the source of an object. -/
def tellsSource (o : ObjectId) (source : Source) (n : NodeRef) : OutsideCall → Option Call
  | .olinkLinked s o' m => if s = source ∧ o' = o ∧ m = n then some (.link o') else none
  | .olinkUnlinked s o' => if s = source ∧ o' = o then some (.unlink o') else none
  | .olinkSetProperty s p v =>
    if s = source ∧ Name.getObjectId p = o then some (.setProperty p v) else none
  | .olinkInvoke s m args =>
    if s = source ∧ Name.getObjectId m = o then some (.invoke 0 m args) else none
  | _ => none

/-- What code outside is called with in a step of the client side. -/
def clientCalls (x : Network × Configured Action) : List OutsideCall :=
  ((next lib clientAnswer serverAnswer x.2.loggers x.1 x.2.action).client.history.drop
    x.1.client.history.length).map Prod.fst

/-- What code outside is called with in a step of the server side. -/
def serverCalls (x : Network × Configured Action) : List OutsideCall :=
  ((next lib clientAnswer serverAnswer x.2.loggers x.1 x.2.action).server.history.drop
    x.1.server.history.length).map Prod.fst

/-- What client node `n` logs of a message that it receives returns. -/
def Hears (n : NodeRef) (x : Network × Configured Action) : Prop :=
  x.2.action = .deliverToClient n → ∀ c, message lib k (x.1.toClient n) = some c →
    ClientNode.announced (clientEnv lib k clientAnswer x.2.loggers n) c = .ok ()

/-- What the sink of an object is told when client node `n` receives a message. -/
def heard (o : ObjectId) (sink : Sink) (n : NodeRef) (x : Network × Configured Action) :
    List Call :=
  match x.2.action with
  | .deliverToClient m =>
    if m = n then
      (clientCalls lib clientAnswer serverAnswer x).filterMap (tellsSink o sink n)
    else []
  | _ => []

/-- What the source of an object is told when remote node `n` receives a message. -/
def served (o : ObjectId) (source : Source) (n : NodeRef) (x : Network × Configured Action) :
    List Call :=
  match x.2.action with
  | .deliverToServer m =>
    if m = n then
      (serverCalls lib clientAnswer serverAnswer x).filterMap (tellsSource o source n)
    else []
  | _ => []

/-- What is under way for the object. -/
def underWay (object : Call → Option ObjectId) (o : ObjectId) (data : List Bytes) : List Call :=
  (data.filterMap fun d => Protocol.decode? lib.toJsonLibrary (k.fromString lib d)).filter
    fun c => object c = some o

end Steps

variable {lib : Codecs} {k : MessageConverter}
  {clientAnswer serverAnswer : List Event → OutsideCall → Except Thrown Json}
  {L : LoggerId → Logger} {s : Network} {a : Action} {n m : NodeRef} {o : ObjectId}

/-! ## One side in a step -/

/-- The operation of the client side in a step. -/
def clientAction (s : Network) : Action → Option ClientAction
  | .client a => some a
  | .deliverToClient n => (s.toClient n).head?.map (.receive n)
  | _ => none

/-- The operation of the server side in a step. -/
def serverAction (s : Network) : Action → Option ServerAction
  | .server a => some a
  | .deliverToServer n => (s.toServer n).head?.map (.receive n)
  | _ => none

theorem message_of_cons {queue : List Bytes} {data : Bytes} {rest : List Bytes}
    (h : queue = data :: rest) : message lib k queue
      = Protocol.decode? lib.toJsonLibrary (k.fromString lib data) := by
  unfold message
  rw [h]
  rfl

theorem clientAction_deliver {data : Bytes} {rest : List Bytes} (h : s.toClient n = data :: rest) :
    clientAction s (.deliverToClient n) = some (.receive n data) := by
  show (s.toClient n).head?.map _ = _
  rw [h]
  rfl

theorem serverAction_deliver {data : Bytes} {rest : List Bytes} (h : s.toServer n = data :: rest) :
    serverAction s (.deliverToServer n) = some (.receive n data) := by
  show (s.toServer n).head?.map _ = _
  rw [h]
  rfl

theorem client_next (hen : Enabled lib k clientAnswer serverAnswer L s a) :
    (next lib clientAnswer serverAnswer L s a).client
      = (clientAction s a).elim s.client (nextClient lib clientAnswer L s.client) ∧
    ∀ b, clientAction s a = some b → ClientEnabled lib k clientAnswer L s.client b ∧
      ((∀ n data, b ≠ .receive n data) → Returned lib clientAnswer L s.client b) := by
  cases a with
  | client a =>
    refine ⟨rfl, fun b hb => ?_⟩
    cases hb
    exact ⟨hen.2.enabled, fun _ => hen.2.returned⟩
  | server a => exact ⟨rfl, fun b hb => by cases hb⟩
  | deliverToServer n =>
    refine ⟨?_, fun b hb => by cases hb⟩
    unfold next Network.next
    dsimp only
    split <;> rfl
  | deliverToClient n =>
    obtain ⟨hnil, halive⟩ := hen
    obtain ⟨data, rest, hdata⟩ := List.exists_cons_of_ne_nil hnil
    unfold next Network.next clientAction
    dsimp only
    rw [hdata]
    dsimp only
    rw [if_pos halive]
    refine ⟨rfl, fun b hb => ?_⟩
    cases hb
    exact ⟨⟨halive, nofun, nofun⟩, fun h => absurd rfl (h n data)⟩

theorem server_next (hen : Enabled lib k clientAnswer serverAnswer L s a) :
    (next lib clientAnswer serverAnswer L s a).server
      = (serverAction s a).elim s.server (nextServer lib serverAnswer L s.server) ∧
    ∀ b, serverAction s a = some b → ServerEnabled lib k serverAnswer L s.server b := by
  cases a with
  | client a => exact ⟨rfl, fun b hb => by cases hb⟩
  | server a =>
    refine ⟨rfl, fun b hb => ?_⟩
    cases hb
    exact hen.2
  | deliverToServer n =>
    obtain ⟨hnil, halive⟩ := hen
    obtain ⟨data, rest, hdata⟩ := List.exists_cons_of_ne_nil hnil
    unfold next Network.next serverAction
    dsimp only
    rw [hdata]
    refine ⟨rfl, fun b hb => ?_⟩
    cases hb
    exact ⟨halive, fun source h => by cases h⟩
  | deliverToClient n =>
    refine ⟨?_, fun b hb => by cases hb⟩
    unfold next Network.next
    dsimp only
    split
    · rfl
    · split <;> rfl

/-- Next to each side there is one without mutexes and formats. -/
structure Matched (lib : Codecs) (k : MessageConverter)
    (clientAnswer serverAnswer : List Event → OutsideCall → Except Thrown Json) (s : Network) :
    Prop where
  client : ∃ c, MatchesClient lib k clientAnswer s.client c
  server : ∃ v, MatchesServer lib k serverAnswer s.server v

theorem matched_init (hs : Init k s) : Matched lib k clientAnswer serverAnswer s := by
  obtain ⟨hclient, hserver, -, -⟩ := hs
  exact ⟨⟨{ s.client.library.client with effects := [] },
      ⟨rfl, hclient.history, hclient.converter, hclient.shared⟩⟩,
    ⟨{ s.server.library.server with effects := [] },
      ⟨rfl, hserver.history, hserver.converter, hserver.shared⟩⟩⟩

theorem matched_next (h : Matched lib k clientAnswer serverAnswer s)
    (hen : Enabled lib k clientAnswer serverAnswer L s a) :
    Matched lib k clientAnswer serverAnswer (next lib clientAnswer serverAnswer L s a) := by
  obtain ⟨⟨c, hc⟩, ⟨v, hv⟩⟩ := h
  obtain ⟨hclient, hcen⟩ := client_next hen
  obtain ⟨hserver, hsen⟩ := server_next hen
  refine ⟨?_, ?_⟩
  · rw [hclient]
    cases hb : clientAction s a with
    | none => exact ⟨c, hc⟩
    | some b => exact ⟨_, matches_of_returned hc (hcen b hb).1 (hcen b hb).2⟩
  · rw [hserver]
    cases hb : serverAction s a with
    | none => exact ⟨v, hv⟩
    | some b => exact ⟨_, matches_nextServer hv (hsen b hb)⟩

theorem matched_run {h : List (Network × Configured Action)}
    (hr : Run (machine lib k clientAnswer serverAnswer) h s) :
    Matched lib k clientAnswer serverAnswer s :=
  hr.invariant (fun _ hs => matched_init hs) fun _ _ h hen => matched_next h hen

/-! ## What code outside is called with -/

theorem clientCalls_eq {c : Client} (hc : MatchesClient lib k clientAnswer s.client c)
    (hen : Enabled lib k clientAnswer serverAnswer L s a) :
    clientCalls lib clientAnswer serverAnswer (s, ⟨L, a⟩) = ((clientAction s a).elim [] fun b =>
      Client.callsOfAction lib.toJsonLibrary c (b.seen lib k clientAnswer L)).map
        (clientCall lib k) := by
  obtain ⟨hclient, hcen⟩ := client_next hen
  unfold clientCalls
  rw [hclient]
  cases hb : clientAction s a with
  | none => exact congrArg (List.map Prod.fst) List.drop_length
  | some b =>
    have hmatches := matches_of_returned hc (hcen b hb).1 (hcen b hb).2
    have hcall : ∀ history e, (clientEvent lib k clientAnswer history e).1 = clientCall lib k e :=
      fun _ _ => rfl
    dsimp only [Option.elim_some]
    rw [hmatches.history, hc.history, Client.effects_next]
    exact Network.calls_drop hcall _ _

theorem serverCalls_eq {v : Server} (hv : MatchesServer lib k serverAnswer s.server v)
    (hen : Enabled lib k clientAnswer serverAnswer L s a) :
    serverCalls lib clientAnswer serverAnswer (s, ⟨L, a⟩) = ((serverAction s a).elim [] fun b =>
      Server.callsOfAction lib.toJsonLibrary v (b.seen lib k serverAnswer L)).map
        (serverCall lib k) := by
  obtain ⟨hserver, hsen⟩ := server_next hen
  unfold serverCalls
  rw [hserver]
  cases hb : serverAction s a with
  | none => exact congrArg (List.map Prod.fst) List.drop_length
  | some b =>
    have hmatches := matches_nextServer hv (hsen b hb)
    have hcall : ∀ history e, (serverEvent lib k serverAnswer history e).1 = serverCall lib k e :=
      fun _ _ => rfl
    dsimp only [Option.elim_some]
    rw [hmatches.history, hv.history, Server.effects_next]
    exact Network.calls_drop hcall _ _

/-! ## The connections -/

/-- What the remote node takes from its connection. -/
def takenByServer (n : NodeRef) (x : Network × Configured Action) : List Bytes :=
  match x.2.action with
  | .deliverToServer m => if m = n then (x.1.toServer n).take 1 else []
  | _ => []

/-- What the client node takes from its connection. -/
def takenByClient (n : NodeRef) (x : Network × Configured Action) : List Bytes :=
  match x.2.action with
  | .deliverToClient m => if m = n then (x.1.toClient n).take 1 else []
  | _ => []

/-- What has been written to the remote node has been received, in that order, or is under way. -/
theorem toServer_run {h : List (Network × Configured Action)}
    (hr : Run (machine lib k clientAnswer serverAnswer) h s) (n : NodeRef) :
    h.flatMap (fun x =>
        (clientCalls lib clientAnswer serverAnswer x).filterMap (Network.dataTo (.client n)))
      = h.flatMap (takenByServer n) ++ s.toServer n := by
  refine hr.fifo (q := fun s => s.toServer n) (fun s (hs : Init k s) => hs.toServer n) ?_
  rintro s ⟨L, a⟩ hen
  have hen : Enabled lib k clientAnswer serverAnswer L s a := hen
  unfold clientCalls
  rw [← Network.sent_eq]
  cases a with
  | client a => rfl
  | server a =>
    show s.toServer n ++ Network.sent _ (s.client.history.drop s.client.history.length) = _
    rw [List.drop_length]
    exact List.append_nil _
  | deliverToServer m =>
    obtain ⟨data, rest, hdata⟩ := List.exists_cons_of_ne_nil hen.1
    have hclient : (next lib clientAnswer serverAnswer L s (.deliverToServer m)).client
        = s.client := (client_next hen).1
    have hnext : (next lib clientAnswer serverAnswer L s (.deliverToServer m)).toServer n
        = if n = m then rest else s.toServer n := by
      unfold next Network.next
      dsimp only
      rw [hdata]
      rfl
    rw [hclient, List.drop_length]
    show s.toServer n ++ [] = _ ++ (next lib clientAnswer serverAnswer L s _).toServer n
    rw [hnext, List.append_nil]
    unfold takenByServer
    dsimp only
    by_cases hn : m = n
    · subst hn
      rw [if_pos rfl, if_pos rfl, hdata]
      rfl
    · rw [if_neg hn, if_neg (Ne.symm hn), List.nil_append]
  | deliverToClient m =>
    obtain ⟨data, rest, hdata⟩ := List.exists_cons_of_ne_nil hen.1
    show _ = [] ++ (next lib clientAnswer serverAnswer L s _).toServer n
    rw [List.nil_append]
    unfold next Network.next
    dsimp only
    rw [hdata]
    dsimp only
    rw [if_pos hen.2]
    rfl

/-- The same for what is written to the client node. -/
theorem toClient_run {h : List (Network × Configured Action)}
    (hr : Run (machine lib k clientAnswer serverAnswer) h s) (n : NodeRef) :
    h.flatMap (fun x =>
        (serverCalls lib clientAnswer serverAnswer x).filterMap (Network.dataTo (.remote n)))
      = h.flatMap (takenByClient n) ++ s.toClient n := by
  refine hr.fifo (q := fun s => s.toClient n) (fun s (hs : Init k s) => hs.toClient n) ?_
  rintro s ⟨L, a⟩ hen
  have hen : Enabled lib k clientAnswer serverAnswer L s a := hen
  unfold serverCalls
  rw [← Network.sent_eq]
  cases a with
  | client a =>
    show s.toClient n ++ Network.sent _ (s.server.history.drop s.server.history.length) = _
    rw [List.drop_length]
    exact List.append_nil _
  | server a => rfl
  | deliverToServer m =>
    obtain ⟨data, rest, hdata⟩ := List.exists_cons_of_ne_nil hen.1
    show _ = [] ++ (next lib clientAnswer serverAnswer L s _).toClient n
    rw [List.nil_append]
    unfold next Network.next
    dsimp only
    rw [hdata]
    rfl
  | deliverToClient m =>
    obtain ⟨data, rest, hdata⟩ := List.exists_cons_of_ne_nil hen.1
    have hserver : (next lib clientAnswer serverAnswer L s (.deliverToClient m)).server
        = s.server := (server_next hen).1
    have hnext : (next lib clientAnswer serverAnswer L s (.deliverToClient m)).toClient n
        = if n = m then rest else s.toClient n := by
      unfold next Network.next
      dsimp only
      rw [hdata]
      dsimp only
      rw [if_pos hen.2]
      rfl
    rw [hserver, List.drop_length]
    show s.toClient n ++ [] = _ ++ (next lib clientAnswer serverAnswer L s _).toClient n
    rw [hnext, List.append_nil]
    unfold takenByClient
    dsimp only
    by_cases hn : m = n
    · subst hn
      rw [if_pos rfl, if_pos rfl, hdata]
      rfl
    · rw [if_neg hn, if_neg (Ne.symm hn), List.nil_append]

/-! ## What is written -/

theorem writtenByClient_written {c : Client} (msg : Json) :
    Connections.writtenByClient n (ClientNode.written c m msg)
      = if (c.nodes n).writeFunc then if m = n then [msg] else [] else [] := by
  unfold ClientNode.written
  by_cases hm : m = n
  · subst hm
    cases (c.nodes m).writeFunc <;> simp [Connections.writtenByClient]
  · cases (c.nodes m).writeFunc <;> simp [Connections.writtenByClient, hm]

theorem writtenByClient_unlinkEffects {c : Client} (ids : List ObjectId) :
    Connections.writtenByClient n (ClientNode.unlinkEffects c m ids)
      = if (c.nodes n).writeFunc then if m = n then ids.map Protocol.unlinkMessage else []
        else [] := by
  induction ids with
  | nil => simp [ClientNode.unlinkEffects, Connections.writtenByClient]
  | cons o ids ih =>
    unfold ClientNode.unlinkEffects at ih ⊢
    rw [List.flatMap_cons, Connections.writtenByClient_append, Connections.writtenByClient_append,
      Connections.writtenByClient_released, writtenByClient_written, ih]
    by_cases hw : (c.nodes n).writeFunc
    · by_cases hm : m = n <;> simp [hw, hm]
    · simp [hw]

theorem map_ite_ite {α β : Type} {p q : Prop} [Decidable p] [Decidable q] (f : α → β)
    (l : List α) : (if p then if q then l else [] else []).map f
      = if p then if q then l.map f else [] else [] := by
  split
  · split <;> rfl
  · rfl

/-- **What a step of the client side writes** is what the user has it send. -/
theorem written_requested {c : Client} (hc : MatchesClient lib k clientAnswer s.client c)
    (hen : Enabled lib k clientAnswer serverAnswer L s a) :
    (clientCalls lib clientAnswer serverAnswer (s, ⟨L, a⟩)).filterMap (Network.dataTo (.client n))
      = ((requested n (s, ⟨L, a⟩)).map Call.message).map (bytes lib k) := by
  rw [clientCalls_eq hc hen, Network.dataTo_clientCalls]
  refine congrArg (List.map (bytes lib k)) ?_
  have hnodes : s.client.library.client.nodes = c.nodes := hc.nodes
  have hregistry : s.client.library.client.registry = c.registry := by rw [← hc.client]
  unfold requested
  dsimp only
  rw [hnodes, hregistry]
  cases a with
  | client a =>
    cases a with
    | linkRemote m o =>
      show Connections.writtenByClient n (ClientNode.written c m (Protocol.linkMessage o)) = _
      rw [writtenByClient_written]
      exact (map_ite_ite Call.message [.link o]).symm
    | unlinkRemote m o =>
      show Connections.writtenByClient n
        (ClientNode.released c o ++ ClientNode.written c m (Protocol.unlinkMessage o)) = _
      rw [Connections.writtenByClient_append, Connections.writtenByClient_released,
        writtenByClient_written, List.nil_append]
      exact (map_ite_ite Call.message [.unlink o]).symm
    | setRemoteProperty m p v =>
      show Connections.writtenByClient n
        (ClientNode.written c m (Protocol.setPropertyMessage p v)) = _
      rw [writtenByClient_written]
      exact (map_ite_ite Call.message [.setProperty p v]).symm
    | invokeRemote m methodId args func =>
      show Connections.writtenByClient n (ClientNode.written c m
        (Protocol.invokeMessage ((c.nodes m).nextRequestId + 1) methodId args)) = _
      rw [writtenByClient_written]
      exact (map_ite_ite Call.message
        [.invoke ((c.nodes m).nextRequestId + 1) methodId args]).symm
    | destroy m =>
      show Connections.writtenByClient n (ClientNode.unlinkEffects c m
        (c.registry.getObjectIds (c.nodes m).nodeId)) = _
      rw [writtenByClient_unlinkEffects]
      refine Eq.trans ?_ (map_ite_ite Call.message
        ((c.registry.getObjectIds (c.nodes m).nodeId).map .unlink)).symm
      rw [List.map_map]
      rfl
    | receive m data => exact absurd rfl (hen.1 m data)
    | create | onWrite m | addSink sink | removeSink o | sinkExpires x =>
      show [] = _
      split <;> rfl
  | server a | deliverToServer m =>
    show [] = _
    split <;> rfl
  | deliverToClient m =>
    obtain ⟨data, rest, hdata⟩ := List.exists_cons_of_ne_nil hen.1
    rw [clientAction_deliver hdata, Option.elim_some]
    refine (Network.writtenByClient_receive _ _).trans ?_
    split <;> rfl

theorem writtenByServer_written {env : ServerEnv} {v : Server} (msg : Json)
    (hmsg : m = n → (v.nodes n).writeFunc = true → RemoteNode.Writable env msg) :
    Connections.writtenByServer n (RemoteNode.written env v m msg)
      = if (v.nodes n).writeFunc then if m = n then [msg] else [] else [] := by
  by_cases hm : m = n
  · subst hm
    cases hw : (v.nodes m).writeFunc with
    | false =>
      unfold RemoteNode.written
      rw [hw]
      rfl
    | true =>
      rw [RemoteNode.written_of_writable (hmsg rfl hw), hw]
      simp [Connections.writtenByServer]
  · have hnone : Connections.writtenByServer n (RemoteNode.written env v m msg) = [] := by
      refine Connections.writtenByServer_eq_nil fun msg' he => hm ?_
      cases RemoteNode.mem_written he
      rfl
    rw [hnone, if_neg hm, ite_self]

theorem writtenByServer_linkCalls {v : Server}
    (hv : MatchesServer lib k serverAnswer s.server v) (o : ObjectId) (source : Source)
    (hsent : (v.nodes n).writeFunc = true → ∀ c ∈ linkAnswer serverAnswer s.server n o source,
      RemoteNode.Writable (serverEnv lib k serverAnswer L n) c.message) :
    Connections.writtenByServer n
        (RemoteNode.linkCalls (serverEnv lib k serverAnswer L n) v n o source)
      = if (v.nodes n).writeFunc then
          (linkAnswer serverAnswer s.server n o source).map Call.message
        else [] := by
  have hcall : (serverEnv lib k serverAnswer L n).call v.effects (.olinkLinked source o n)
      = ended (serverAnswer s.server.history (.olinkLinked source o n)) := by
    rw [hv.history]
    rfl
  have hcollect : (serverEnv lib k serverAnswer L n).olinkCollectProperties
      (v.effects ++ [.olinkLinked source o n]) source
        = serverAnswer (s.server.called (.detached serverAnswer)
          (.olinkLinked source o n)).history (.olinkCollectProperties source) := by
    show serverAnswer (replay _ (_ ++ [_])) _ = _
    rw [replay_append, ← hv.history]
    rfl
  unfold linkAnswer at hsent ⊢
  unfold RemoteNode.linkCalls
  dsimp only
  rw [hcall, hcollect]
  revert hsent
  cases serverAnswer s.server.history (.olinkLinked source o n) with
  | error e =>
    intro _
    show [] = _
    split <;> rfl
  | ok r =>
    dsimp only [ended]
    cases serverAnswer (s.server.called (.detached serverAnswer)
        (.olinkLinked source o n)).history (.olinkCollectProperties source) with
    | error e =>
      intro _
      show [] = _
      split <;> rfl
    | ok props =>
      intro hsent
      refine (writtenByServer_written (Protocol.initMessage o props) fun _ hw =>
        hsent hw (.init o props) (List.mem_singleton.mpr rfl)).trans ?_
      rw [if_pos rfl]
      rfl

theorem writtenByServer_invokeCalls {v : Server}
    (hv : MatchesServer lib k serverAnswer s.server v) (requestId : UInt32) (methodId : Bytes)
    (args : Json) (source : Source)
    (hsent : (v.nodes n).writeFunc = true →
      ∀ c ∈ invokeAnswer serverAnswer s.server requestId methodId args source,
        RemoteNode.Writable (serverEnv lib k serverAnswer L n) c.message) :
    Connections.writtenByServer n
        (RemoteNode.invokeCalls (serverEnv lib k serverAnswer L n) v n requestId methodId args
          source)
      = if (v.nodes n).writeFunc then
          (invokeAnswer serverAnswer s.server requestId methodId args source).map Call.message
        else [] := by
  have hinvoke : (serverEnv lib k serverAnswer L n).olinkInvoke v.effects source methodId args
      = serverAnswer s.server.history (.olinkInvoke source methodId args) := by
    rw [hv.history]
    rfl
  unfold invokeAnswer at hsent ⊢
  unfold RemoteNode.invokeCalls
  dsimp only
  rw [hinvoke]
  revert hsent
  cases serverAnswer s.server.history (.olinkInvoke source methodId args) with
  | error e =>
    intro _
    show [] = _
    split <;> rfl
  | ok value =>
    intro hsent
    refine (writtenByServer_written (Protocol.invokeReplyMessage requestId methodId value)
      fun _ hw => hsent hw (.invokeReply requestId methodId value)
        (List.mem_singleton.mpr rfl)).trans ?_
    rw [if_pos rfl]
    rfl

/-- What a remote node writes when it has received a message. -/
theorem writtenByServer_answers {v : Server} (hv : MatchesServer lib k serverAnswer s.server v)
    (c : Call) (hsent : (v.nodes n).writeFunc = true → ∀ x ∈ answers serverAnswer s.server n c,
      RemoteNode.Writable (serverEnv lib k serverAnswer L n) x.message) :
    Connections.writtenByServer n (RemoteNode.callsOf (serverEnv lib k serverAnswer L n) v n c)
      = if (v.nodes n).writeFunc then (answers serverAnswer s.server n c).map Call.message
        else [] := by
  cases c with
  | link o =>
    unfold RemoteNode.callsOf
    unfold answers at hsent ⊢
    dsimp only at hsent ⊢
    rw [hv.source o] at hsent ⊢
    revert hsent
    cases v.source o with
    | none =>
      intro _
      show [] = _
      split <;> rfl
    | some source => exact writtenByServer_linkCalls hv o source
  | invoke requestId methodId args =>
    unfold RemoteNode.callsOf
    unfold answers at hsent ⊢
    dsimp only at hsent ⊢
    rw [hv.source] at hsent ⊢
    revert hsent
    cases v.source (Name.getObjectId methodId) with
    | none =>
      intro _
      show [] = _
      split <;> rfl
    | some source => exact writtenByServer_invokeCalls hv requestId methodId args source
  | unlink o =>
    show Connections.writtenByServer n ((v.source o).elim [] _) = _
    cases v.source o <;> split <;> rfl
  | setProperty p value =>
    show Connections.writtenByServer n ((v.source (Name.getObjectId p)).elim [] _) = _
    cases v.source (Name.getObjectId p) <;> split <;> rfl
  | _ =>
    show [] = _
    split <;> rfl

/-- What a source has a remote node send. -/
theorem writtenByServer_notified {v : Server} {m : NodeRef} (c : Call)
    (hsent : ∀ x ∈ if (v.nodes n).writeFunc then if m = n then [c] else [] else [],
      RemoteNode.Writable (serverEnv lib k serverAnswer L n) x.message) :
    Connections.writtenByServer n
        (RemoteNode.written (serverEnv lib k serverAnswer L m) v m c.message)
      = (if (v.nodes n).writeFunc then if m = n then [c] else [] else []).map Call.message := by
  refine (writtenByServer_written c.message fun hm hw => ?_).trans
    (map_ite_ite Call.message [c]).symm
  subst hm
  refine hsent c ?_
  rw [if_pos hw, if_pos rfl]
  exact List.mem_singleton.mpr rfl

/-- What remote node `n` writes when the next message of node `m` is delivered. -/
theorem writtenByServer_received {v : Server} (hv : MatchesServer lib k serverAnswer s.server v)
    {m : NodeRef}
    (hsent : ∀ x ∈ if (v.nodes n).writeFunc then
        if m = n then (message lib k (s.toServer n)).elim [] (answers serverAnswer s.server n)
        else []
      else [], RemoteNode.Writable (serverEnv lib k serverAnswer L n) x.message) :
    Connections.writtenByServer n ((message lib k (s.toServer m)).elim []
        (RemoteNode.callsOf (serverEnv lib k serverAnswer L m) v m))
      = (if (v.nodes n).writeFunc then
          if m = n then (message lib k (s.toServer n)).elim [] (answers serverAnswer s.server n)
          else []
        else []).map Call.message := by
  rw [map_ite_ite]
  by_cases hm : m = n
  · subst hm
    rw [if_pos rfl] at hsent ⊢
    revert hsent
    cases message lib k (s.toServer m) with
    | none =>
      intro _
      show [] = _
      split <;> rfl
    | some c =>
      intro hsent
      refine writtenByServer_answers hv c fun hw x hx => hsent x ?_
      rw [if_pos hw]
      exact hx
  · rw [if_neg hm]
    have hnone : Connections.writtenByServer n ((message lib k (s.toServer m)).elim []
        (RemoteNode.callsOf (serverEnv lib k serverAnswer L m) v m)) = [] := by
      cases message lib k (s.toServer m) with
      | none => rfl
      | some c => exact Server.writtenByServer_callsOf (Ne.symm hm)
    rw [hnone]
    split <;> rfl

/-- **What a step of the server side writes** is what the sources have it send. -/
theorem written_announced {v : Server} (hv : MatchesServer lib k serverAnswer s.server v)
    (hen : Enabled lib k clientAnswer serverAnswer L s a)
    (harrives : ∀ c ∈ announced lib k serverAnswer n (s, ⟨L, a⟩),
      Loggable lib L (.remote n) .debug c.message ∧ Network.Arrives lib k c) :
    (serverCalls lib clientAnswer serverAnswer (s, ⟨L, a⟩)).filterMap (Network.dataTo (.remote n))
      = ((announced lib k serverAnswer n (s, ⟨L, a⟩)).map Call.message).map (bytes lib k) := by
  have hsent : ∀ c ∈ announced lib k serverAnswer n (s, ⟨L, a⟩),
      RemoteNode.Writable (serverEnv lib k serverAnswer L n) c.message := by
    intro c hc
    obtain ⟨hlogged, data, -, hdata, -, -⟩ := harrives c hc
    exact ⟨hlogged, congrArg ended hdata⟩
  rw [serverCalls_eq hv hen, Network.dataTo_serverCalls]
  refine congrArg (List.map (bytes lib k)) ?_
  have hnodes : s.server.library.server.nodes = v.nodes := hv.nodes
  unfold announced at hsent ⊢
  dsimp only at hsent ⊢
  rw [hnodes] at hsent ⊢
  cases a with
  | client a | deliverToClient m =>
    show [] = _
    split <;> rfl
  | server a =>
    cases a with
    | notifyPropertyChange m p value =>
      exact writtenByServer_notified (.propertyChange p value) hsent
    | notifySignal m p args => exact writtenByServer_notified (.signal p args) hsent
    | receive m data => exact absurd rfl (hen.1 m data)
    | create | onWrite m | destroy m | addSource source | removeSource o | sourceExpires x =>
      show [] = _
      split <;> rfl
  | deliverToServer m =>
    obtain ⟨data, rest, hdata⟩ := List.exists_cons_of_ne_nil hen.1
    rw [serverAction_deliver hdata, Option.elim_some]
    show Connections.writtenByServer n
      ((Protocol.decode? lib.toJsonLibrary (k.fromString lib data)).elim []
        (RemoteNode.callsOf (serverEnv lib k serverAnswer L m) v m)) = _
    rw [← message_of_cons hdata]
    exact writtenByServer_received hv hsent

/-! ## What arrives -/

/-- What has been sent is under way as it was composed. -/
theorem underWay_sent {object : Call → Option ObjectId}
    (hobject : ∀ c, object c.content = object c) (calls : List Call)
    (harrives : ∀ c ∈ calls, Network.Arrives lib k c) :
    (underWay lib k object o ((calls.map Call.message).map (bytes lib k))).map Call.content
      = (calls.filter fun c => object c = some o).map Call.content := by
  induction calls with
  | nil => rfl
  | cons c calls ih =>
    obtain ⟨data, c', hdata, hdecode, hnormal⟩ := harrives c List.mem_cons_self
    have hrest := ih fun x hx => harrives x (List.mem_cons_of_mem _ hx)
    have hcontent : c'.content = c.content := Call.content_of_normal hnormal
    have hsame : object c' = object c := by rw [← hobject, hcontent, hobject]
    unfold underWay at hrest ⊢
    rw [List.map_cons, List.map_cons, bytes_of_toString hdata, List.filterMap_cons, hdecode]
    dsimp only
    rw [List.filter_cons, List.filter_cons, hsame]
    split
    · rw [List.map_cons, List.map_cons, hcontent, hrest]
    · exact hrest

/-! ## What code outside is told -/

/-- The sink of an object is told what is about its object. -/
theorem tellsSink_sinkCall {c : Client} {sink : Sink} {o' : ObjectId} {x : Call}
    (hsink : (c.registry.getSink o).lock c.sinkAlive = some sink) (effect : Sink → ClientEffect)
    (htells : ∀ y, tellsSink o sink n (clientCall lib k (effect y))
      = if y = sink ∧ o' = o then some x else none) :
    ((ClientNode.sinkCall c o' effect).map (clientCall lib k)).filterMap (tellsSink o sink n)
      = if o' = o then [x] else [] := by
  unfold ClientNode.sinkCall
  by_cases ho : o' = o
  · rw [ho, hsink]
    simp [htells, ho]
  · cases (c.registry.getSink o').lock c.sinkAlive with
    | none => rw [if_neg ho]; rfl
    | some y => simp [htells, ho]

theorem tellsSink_callback {c : Client} {sink : Sink} (requestId : UInt32) (methodId : Bytes)
    (value : Json) : ((ClientNode.callback c n requestId methodId value).map
      (clientCall lib k)).filterMap (tellsSink o sink m) = [] := by
  unfold ClientNode.callback
  split <;> rfl

/-- **What a client node tells the sink** when it handles a message. -/
theorem tellsSink_callsOf {c : Client} {sink : Sink}
    (hsink : (c.registry.getSink o).lock c.sinkAlive = some sink) (x : Call) :
    ((ClientNode.callsOf c n x).map (clientCall lib k)).filterMap (tellsSink o sink n)
      = if x.sinkObject = some o then [x] else [] := by
  cases x with
  | init o' props =>
    show ((ClientNode.sinkCall c o' _).map _).filterMap _ = if some o' = some o then _ else _
    simp only [Option.some.injEq]
    refine tellsSink_sinkCall hsink _ fun y => ?_
    simp [clientCall, tellsSink]
  | propertyChange p value =>
    show ((ClientNode.sinkCall c (Name.getObjectId p) _).map _).filterMap _
      = if some (Name.getObjectId p) = some o then _ else _
    simp only [Option.some.injEq]
    exact tellsSink_sinkCall hsink _ fun y => rfl
  | signal p args =>
    show ((ClientNode.sinkCall c (Name.getObjectId p) _).map _).filterMap _
      = if some (Name.getObjectId p) = some o then _ else _
    simp only [Option.some.injEq]
    exact tellsSink_sinkCall hsink _ fun y => rfl
  | invokeReply requestId methodId value => exact tellsSink_callback requestId methodId value
  | error msgType requestId text =>
    show ((if ClientNode.AboutCall msgType then ClientNode.callback c n requestId.toUInt32 [] .null
      else []).map _).filterMap _ = []
    split
    · exact tellsSink_callback _ _ _
    · rfl
  | _ => rfl

/-- What a remote node writes tells the source nothing. -/
theorem tellsSource_written {env : ServerEnv} {v : Server} {source : Source} (msg : Json) :
    ((RemoteNode.written env v m msg).map (serverCall lib k)).filterMap (tellsSource o source n)
      = [] := by
  unfold RemoteNode.written
  split
  · split <;> rfl
  · rfl

theorem tellsSource_answered {env : ServerEnv} {v : Server} {source : Source}
    (message : Json → Json) (result : Except Thrown Json) :
    ((RemoteNode.answered env v m message result).map (serverCall lib k)).filterMap
      (tellsSource o source n) = [] := by
  cases result with
  | ok value => exact tellsSource_written _
  | error e => rfl

/-- The source of an object is told what is about its object. -/
theorem tellsSource_elim {v : Server} {source : Source} {o' : ObjectId} {x : Call}
    (hsource : v.source o = some source) (calls : Source → List ServerEffect)
    (htells : ∀ y, ((calls y).map (serverCall lib k)).filterMap (tellsSource o source n)
      = if y = source ∧ o' = o then [x] else []) :
    (((v.source o').elim [] calls).map (serverCall lib k)).filterMap (tellsSource o source n)
      = if o' = o then [x] else [] := by
  by_cases ho : o' = o
  · rw [ho, hsource, Option.elim_some, htells, if_pos ⟨rfl, ho⟩, if_pos rfl]
  · rw [if_neg ho]
    cases v.source o' with
    | none => rfl
    | some y => rw [Option.elim_some, htells, if_neg fun h => ho h.2]

theorem tellsSource_linkCalls {env : ServerEnv} {v : Server} {source : Source} (o' : ObjectId)
    (y : Source) : ((RemoteNode.linkCalls env v n o' y).map (serverCall lib k)).filterMap
      (tellsSource o source n) = if y = source ∧ o' = o then [.link o'] else [] := by
  unfold RemoteNode.linkCalls
  dsimp only
  rw [List.map_cons, List.filterMap_cons]
  cases env.call v.effects (.olinkLinked y o' n) with
  | ok r =>
    rw [List.map_cons, List.filterMap_cons, tellsSource_answered]
    by_cases hy : y = source ∧ o' = o <;> simp [serverCall, tellsSource, hy]
  | error e => by_cases hy : y = source ∧ o' = o <;> simp [serverCall, tellsSource, hy]

theorem tellsSource_invokeCalls {env : ServerEnv} {v : Server} {source : Source}
    (requestId : UInt32) (methodId : Bytes) (args : Json) (y : Source) :
    ((RemoteNode.invokeCalls env v n requestId methodId args y).map (serverCall lib k)).filterMap
      (tellsSource o source n)
        = if y = source ∧ Name.getObjectId methodId = o then [.invoke 0 methodId args] else [] := by
  unfold RemoteNode.invokeCalls
  dsimp only
  rw [List.map_cons, List.filterMap_cons, tellsSource_answered]
  by_cases hy : y = source ∧ Name.getObjectId methodId = o <;> simp [serverCall, tellsSource, hy]

/-- **What a remote node tells the source** when it handles a message. -/
theorem tellsSource_callsOf {env : ServerEnv} {v : Server} {source : Source}
    (hsource : v.source o = some source) (x : Call) :
    (((RemoteNode.callsOf env v n x).map (serverCall lib k)).filterMap
      (tellsSource o source n)).map Call.content
      = if x.sourceObject = some o then [x.content] else [] := by
  have hcontent {o' : ObjectId} {x' : Call} (hx' : x'.content = x.content)
      (ho : x.sourceObject = some o') : (if o' = o then [x'] else []).map Call.content
        = if x.sourceObject = some o then [x.content] else [] := by
    by_cases hobject : o' = o
    · rw [if_pos hobject, if_pos (ho.trans (congrArg some hobject)), List.map_singleton, hx']
    · rw [if_neg hobject, if_neg fun h => hobject (Option.some.inj (ho.symm.trans h)),
        List.map_nil]
  cases x with
  | link o' =>
    exact (congrArg (List.map Call.content)
      (tellsSource_elim hsource _ (tellsSource_linkCalls o'))).trans (hcontent rfl rfl)
  | unlink o' =>
    have hfirst : ∀ y, ([ServerEffect.olinkUnlinked y o'].map (serverCall lib k)).filterMap
        (tellsSource o source n) = if y = source ∧ o' = o then [.unlink o'] else [] := by
      intro y
      by_cases hy : y = source ∧ o' = o <;> simp [serverCall, tellsSource, hy]
    exact (congrArg (List.map Call.content) (tellsSource_elim hsource _ hfirst)).trans
      (hcontent rfl rfl)
  | setProperty p value =>
    have hfirst : ∀ y, ([ServerEffect.olinkSetProperty y p value].map (serverCall lib k)).filterMap
        (tellsSource o source n)
          = if y = source ∧ Name.getObjectId p = o then [.setProperty p value] else [] := by
      intro y
      by_cases hy : y = source ∧ Name.getObjectId p = o <;> simp [serverCall, tellsSource, hy]
    exact (congrArg (List.map Call.content) (tellsSource_elim hsource _ hfirst)).trans
      (hcontent rfl rfl)
  | invoke requestId methodId args =>
    exact (congrArg (List.map Call.content) (tellsSource_elim hsource _
      (tellsSource_invokeCalls requestId methodId args))).trans (hcontent rfl rfl)
  | _ => rfl

theorem heard_eq {c : Client} (hc : MatchesClient lib k clientAnswer s.client c)
    (hen : Enabled lib k clientAnswer serverAnswer L s a) {sink : Sink}
    (hsink : a = .deliverToClient n → s.client.library.sink o = some sink)
    (hhears : Hears lib k clientAnswer n (s, ⟨L, a⟩)) :
    heard lib clientAnswer serverAnswer o sink n (s, ⟨L, a⟩)
      = underWay lib k Call.sinkObject o (takenByClient n (s, ⟨L, a⟩)) := by
  cases a with
  | deliverToClient m =>
    unfold heard takenByClient
    dsimp only
    by_cases hm : m = n
    · subst hm
      obtain ⟨data, rest, hdata⟩ := List.exists_cons_of_ne_nil hen.1
      have hsink' : (c.registry.getSink o).lock c.sinkAlive = some sink := by
        rw [← hc.sink]
        exact hsink rfl
      rw [if_pos rfl, if_pos rfl, clientCalls_eq hc hen, clientAction_deliver hdata,
        Option.elim_some, hdata]
      unfold underWay Client.callsOfAction
      dsimp only [ClientAction.seen, List.take]
      rw [List.filterMap_cons]
      have hmessage : message lib k (s.toClient m)
          = Protocol.decode? lib.toJsonLibrary (k.fromString lib data) := message_of_cons hdata
      cases hdecode : Protocol.decode? lib.toJsonLibrary (k.fromString lib data) with
      | none =>
        unfold ClientNode.handled
        rw [hdecode]
        rfl
      | some x =>
        have hhandled : ClientNode.handled (clientEnv lib k clientAnswer L m) lib.toJsonLibrary
            (k.fromString lib data) = some x :=
          ClientNode.handled_eq_some.mpr ⟨hdecode, hhears rfl x (hmessage.trans hdecode)⟩
        rw [hhandled]
        dsimp only
        rw [tellsSink_callsOf hsink', List.filterMap_nil, List.filter_cons]
        by_cases hx : x.sinkObject = some o <;> simp [hx]
    · rw [if_neg hm, if_neg hm]
      rfl
  | _ => rfl

theorem served_eq {v : Server} (hv : MatchesServer lib k serverAnswer s.server v)
    (hen : Enabled lib k clientAnswer serverAnswer L s a) {source : Source}
    (hsource : a = .deliverToServer n → s.server.library.source o = some source) :
    (served lib clientAnswer serverAnswer o source n (s, ⟨L, a⟩)).map Call.content
      = (underWay lib k Call.sourceObject o (takenByServer n (s, ⟨L, a⟩))).map Call.content := by
  cases a with
  | deliverToServer m =>
    unfold served takenByServer
    dsimp only
    by_cases hm : m = n
    · subst hm
      obtain ⟨data, rest, hdata⟩ := List.exists_cons_of_ne_nil hen.1
      have hsource' : v.source o = some source := by
        rw [← hv.source]
        exact hsource rfl
      rw [if_pos rfl, if_pos rfl, serverCalls_eq hv hen, serverAction_deliver hdata,
        Option.elim_some, hdata]
      unfold underWay Server.callsOfAction
      dsimp only [ServerAction.seen, List.take]
      rw [List.filterMap_cons]
      cases Protocol.decode? lib.toJsonLibrary (k.fromString lib data) with
      | none => rfl
      | some x =>
        dsimp only [Option.elim_some]
        rw [tellsSource_callsOf hsource', List.filterMap_nil, List.filter_cons]
        by_cases hx : x.sourceObject = some o <;> simp [hx]
    · rw [if_neg hm, if_neg hm]
      rfl
  | _ => rfl

/-! ## Whole runs -/

theorem underWay_append {object : Call → Option ObjectId} (l₁ l₂ : List Bytes) :
    underWay lib k object o (l₁ ++ l₂)
      = underWay lib k object o l₁ ++ underWay lib k object o l₂ := by
  unfold underWay
  rw [List.filterMap_append, List.filter_append]

theorem underWay_flatMap {α : Type} {object : Call → Option ObjectId} (f : α → List Bytes)
    (l : List α) :
    underWay lib k object o (l.flatMap f) = l.flatMap fun x => underWay lib k object o (f x) := by
  unfold underWay
  rw [List.filterMap_flatMap, List.filter_flatMap]

/-- **What sinks are told**: what the sink of an object has been told by client node `n` and what
is under way to it are what the sources had remote node `n` send about the object, one by one and
in that order. Whatever else is logged, the log messages of the two nodes with these messages and
their payloads return. -/
theorem sinks_told {h : List (Network × Configured Action)}
    (hr : Run (machine lib k clientAnswer serverAnswer) h s) (n : NodeRef) (o : ObjectId)
    (sink : Sink)
    (hsink : ∀ x ∈ h, x.2.action = .deliverToClient n → x.1.client.library.sink o = some sink)
    (hhears : ∀ x ∈ h, Hears lib k clientAnswer n x)
    (harrives : ∀ x ∈ h, ∀ c ∈ announced lib k serverAnswer n x,
      Loggable lib x.2.loggers (.remote n) .debug c.message ∧ Network.Arrives lib k c) :
    ((h.flatMap (announced lib k serverAnswer n)).filter
        fun c => c.sinkObject = some o).map Call.content
      = (h.flatMap (heard lib clientAnswer serverAnswer o sink n) ++
        underWay lib k Call.sinkObject o (s.toClient n)).map Call.content := by
  have hsteps : ∀ x ∈ h, Matched lib k clientAnswer serverAnswer x.1 ∧
      Enabled lib k clientAnswer serverAnswer x.2.loggers x.1 x.2.action := by
    intro x hx
    obtain ⟨h₁, hr₁, hen⟩ := hr.of_mem hx
    exact ⟨matched_run hr₁, hen⟩
  have hsent : h.flatMap (fun x => (underWay lib k Call.sinkObject o
      ((serverCalls lib clientAnswer serverAnswer x).filterMap (Network.dataTo (.remote n)))).map
        Call.content) = h.flatMap fun x => ((announced lib k serverAnswer n x).filter
          fun c => c.sinkObject = some o).map Call.content := by
    refine List.flatMap_congr fun x hx => ?_
    obtain ⟨⟨-, v, hv⟩, hen⟩ := hsteps x hx
    rw [written_announced hv hen (harrives x hx),
      underWay_sent Call.sinkObject_content _ fun c hc => (harrives x hx c hc).2]
  have htold : h.flatMap (heard lib clientAnswer serverAnswer o sink n)
      = h.flatMap fun x => underWay lib k Call.sinkObject o (takenByClient n x) := by
    refine List.flatMap_congr fun x hx => ?_
    obtain ⟨⟨⟨c, hc⟩, -⟩, hen⟩ := hsteps x hx
    exact heard_eq hc hen (hsink x hx) (hhears x hx)
  rw [List.filter_flatMap, List.map_flatMap, ← hsent, ← List.map_flatMap, ← underWay_flatMap,
    toClient_run hr n, underWay_append, underWay_flatMap, ← htold]

/-- A library that knows one signal. -/
def signalCodecs : Codecs :=
  .knowing (.array [.unsigned 40, .string (lit "o/s"), .array []])
    (lit "[40,\"o/s\",[]]") [] []

/-- Nothing is registered on either side. -/
def start : Network where
  client := fresh
  server := fresh
  toServer _ := []
  toClient _ := []

theorem init_start : Init (.new .json) start :=
  ⟨⟨rfl, fun _ => rfl, rfl, fun _ => rfl, fun _ => rfl⟩,
    ⟨rfl, fun _ => rfl, rfl, fun _ => rfl, fun _ => rfl⟩, fun _ => rfl, fun _ => rfl⟩

/-- A sink for the object `"o"`. -/
def someSink : Sink := { ref := 0, olinkObjectName := lit "o" }

/-- A signal is sent, and arrives. -/
def signals : List (Configured Action) :=
  [.silent (.client (.addSink (some someSink))), .silent (.client .create),
    .silent (.server .create), .silent (.server (.onWrite 0)),
    ⟨verbose, .server (.notifySignal 0 (lit "o/s") (.array []))⟩, ⟨verbose, .deliverToClient 0⟩]

theorem plays_signals :
    (machine signalCodecs (.new .json) returns returns).Plays start signals := by
  refine ⟨⟨nofun, ⟨trivial, nofun, fun _ _ => rfl⟩, rfl⟩, ⟨nofun, ⟨?_, nofun, nofun⟩, rfl⟩,
    ⟨nofun, ?_, nofun⟩, ⟨nofun, ?_, nofun⟩, ⟨nofun, ?_, nofun⟩, ⟨?_, ?_⟩, trivial⟩
  · decide +kernel
  · decide +kernel
  · decide +kernel
  · decide +kernel
  · exact List.ne_nil_of_length_pos (by decide +kernel)
  · decide +kernel

theorem announced_signals :
    ((machine signalCodecs (.new .json) returns returns).history start signals).flatMap
      (announced signalCodecs (.new .json) returns 0) = [.signal (lit "o/s") (.array [])] := rfl

/-- The sink is told of the signal. -/
theorem sinks_told_signals :
    (((machine signalCodecs (.new .json) returns returns).history start signals).flatMap
      (heard signalCodecs returns returns (lit "o") someSink 0)).map Call.content
        = [.signal (lit "o/s") (.array [])] := by
  have htold := sinks_told (run_play signals init_start plays_signals) 0 (lit "o") someSink ?_ ?_ ?_
  · have hquiet : ((machine signalCodecs (.new .json) returns returns).exec start
        signals).toClient 0 = [] := List.eq_nil_of_length_eq_zero (by decide +kernel)
    have hnone : ∀ object o, underWay signalCodecs (.new .json) object o [] = [] := fun _ _ => rfl
    rw [announced_signals, hquiet, hnone, List.append_nil] at htold
    exact htold.symm
  · simp only [signals, Machine.history, List.forall_mem_cons]
    refine ⟨fun h => ?_, fun h => ?_, fun h => ?_, fun h => ?_, fun h => ?_, fun _ => ?_,
      fun x hx => ?_⟩
    · cases h
    · cases h
    · cases h
    · cases h
    · cases h
    · decide +kernel
    · cases hx
  · simp only [signals, Machine.history, List.forall_mem_cons]
    refine ⟨fun h => ?_, fun h => ?_, fun h => ?_, fun h => ?_, fun h => ?_, fun _ c hc => ?_,
      fun x hx => ?_⟩
    · cases h
    · cases h
    · cases h
    · cases h
    · cases h
    · have hsignal : some (.signal (lit "o/s") (.array [])) = some c := hc
      cases hsignal
      rfl
    · cases hx
  · have hlogged : ∀ x ∈ (machine signalCodecs (.new .json) returns returns).history start signals,
        Loggable signalCodecs x.2.loggers (.remote 0) .debug
          (Call.signal (lit "o/s") (.array [])).message := by
      simp only [signals, Machine.history, List.forall_mem_cons]
      exact ⟨rfl, rfl, rfl, rfl, rfl, rfl, fun x hx => by cases hx⟩
    intro x hx c hc
    have hall : c ∈ [Call.signal (lit "o/s") (.array [])] :=
      announced_signals ▸ List.mem_flatMap.mpr ⟨x, hx, hc⟩
    rw [List.mem_singleton.mp hall]
    exact ⟨hlogged x hx, _, _, rfl, rfl, rfl⟩

/-- **What sources are told**: what the source of an object has been told by remote node `n` and
what is under way to it are what the user of client node `n` had it send about the object, one by
one and in that order. -/
theorem sources_told {h : List (Network × Configured Action)}
    (hr : Run (machine lib k clientAnswer serverAnswer) h s) (n : NodeRef) (o : ObjectId)
    (source : Source)
    (hsource : ∀ x ∈ h, x.2.action = .deliverToServer n → x.1.server.library.source o = some source)
    (harrives : ∀ x ∈ h, ∀ c ∈ requested n x, Network.Arrives lib k c) :
    ((h.flatMap (requested n)).filter fun c => c.sourceObject = some o).map Call.content
      = (h.flatMap (served lib clientAnswer serverAnswer o source n) ++
        underWay lib k Call.sourceObject o (s.toServer n)).map Call.content := by
  have hsteps : ∀ x ∈ h, Matched lib k clientAnswer serverAnswer x.1 ∧
      Enabled lib k clientAnswer serverAnswer x.2.loggers x.1 x.2.action := by
    intro x hx
    obtain ⟨h₁, hr₁, hen⟩ := hr.of_mem hx
    exact ⟨matched_run hr₁, hen⟩
  have hsent : h.flatMap (fun x => (underWay lib k Call.sourceObject o
      ((clientCalls lib clientAnswer serverAnswer x).filterMap (Network.dataTo (.client n)))).map
        Call.content) = h.flatMap fun x => ((requested n x).filter
          fun c => c.sourceObject = some o).map Call.content := by
    refine List.flatMap_congr fun x hx => ?_
    obtain ⟨⟨⟨c, hc⟩, -⟩, hen⟩ := hsteps x hx
    rw [written_requested hc hen, underWay_sent Call.sourceObject_content _ (harrives x hx)]
  have htold : (h.flatMap (served lib clientAnswer serverAnswer o source n)).map Call.content
      = (h.flatMap fun x => underWay lib k Call.sourceObject o (takenByServer n x)).map
        Call.content := by
    rw [List.map_flatMap, List.map_flatMap]
    refine List.flatMap_congr fun x hx => ?_
    obtain ⟨⟨-, v, hv⟩, hen⟩ := hsteps x hx
    exact served_eq hv hen (hsource x hx)
  rw [List.filter_flatMap, List.map_flatMap, ← hsent, ← List.map_flatMap, ← underWay_flatMap,
    toServer_run hr n, underWay_append, underWay_flatMap, List.map_append, List.map_append, htold]

/-- An object is linked, and the source is told. -/
def serves : List (Configured Action) :=
  [.silent (.server (.addSource (some { ref := 0, olinkObjectName := lit "o" }))),
    .silent (.client .create), .silent (.client (.onWrite 0)), .silent (.server .create),
    ⟨verbose, .client (.linkRemote 0 (lit "o"))⟩, ⟨verbose, .deliverToServer 0⟩]

theorem plays_serves : (machine linkCodecs (.new .json) returns returns).Plays start serves := by
  refine ⟨⟨nofun, trivial, fun _ _ => rfl⟩, ⟨nofun, ⟨?_, nofun, nofun⟩, rfl⟩,
    ⟨nofun, ⟨?_, nofun, nofun⟩, rfl⟩, ⟨nofun, ?_, nofun⟩, ⟨nofun, ⟨?_, nofun, nofun⟩, rfl⟩,
    ⟨?_, ?_⟩, trivial⟩
  · decide +kernel
  · decide +kernel
  · decide +kernel
  · decide +kernel
  · exact List.ne_nil_of_length_pos (by decide +kernel)
  · decide +kernel

theorem requested_serves :
    ((machine linkCodecs (.new .json) returns returns).history start serves).flatMap
      (requested 0) = [.link (lit "o")] := rfl

/-- The source is told of the link. -/
theorem sources_told_serves :
    (((machine linkCodecs (.new .json) returns returns).history start serves).flatMap
      (served linkCodecs returns returns (lit "o") { ref := 0, olinkObjectName := lit "o" } 0)).map
        Call.content = [.link (lit "o")] := by
  have htold := sources_told (run_play serves init_start plays_serves) 0 (lit "o")
    { ref := 0, olinkObjectName := lit "o" } ?_ ?_
  · have hquiet : ((machine linkCodecs (.new .json) returns returns).exec start serves).toServer 0
        = [] := List.eq_nil_of_length_eq_zero (by decide +kernel)
    have hnone : ∀ object o, underWay linkCodecs (.new .json) object o [] = [] := fun _ _ => rfl
    rw [requested_serves, hquiet, hnone, List.append_nil] at htold
    exact htold.symm
  · simp only [serves, Machine.history, List.forall_mem_cons]
    refine ⟨fun h => ?_, fun h => ?_, fun h => ?_, fun h => ?_, fun h => ?_, fun _ => ?_,
      fun x hx => ?_⟩
    · cases h
    · cases h
    · cases h
    · cases h
    · cases h
    · decide +kernel
    · cases hx
  · intro x hx c hc
    have hall : c ∈ [Call.link (lit "o")] :=
      requested_serves ▸ List.mem_flatMap.mpr ⟨x, hx, hc⟩
    rw [List.mem_singleton.mp hall]
    exact ⟨_, _, rfl, rfl, rfl⟩

end Delivery

end ObjectLink
