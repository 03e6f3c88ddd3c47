import ObjectLink.Connections
import ObjectLink.Formats
import ObjectLink.Operations.Refinement

/-!
# Both sides over the network

`Connections.lean` connects the nodes of the two models by messages. Here the code of both sides is
connected by bytes: what the write function of a node is called with (`basenode.cpp:22-43`) enters
its connection, which hands it to `handleMessage` at the other end, in that order.

What arrives is not the message that was composed, which may have come back with its numbers stored
another way (`Formats.lean`), but it stands for the same link or unlink (`Alike`). The operations
the user calls are those that return, with any loggers; a received message may throw. Otherwise the
runs are those of `Refinement.lean`: log functions return, code outside leaves the library alone, no
temporary reference is the last one, all nodes have one converter, and a connection is opened while
neither storage is full.

* `Inv`, `inv_next`: next to the code there are connections with the same registries and nodes, on
  which the messages under way are read as what was composed.
* `sides_agree`: as long as a node links and unlinks only objects that no other node has, `getNode`
  and `getNodes` agree on who is linked whenever nothing is under way.
-/

namespace ObjectLink

open Foundation (Machine Run run_play)
open Running
open Simulation
open Refinement

/-- Both sides, and the data under way on each connection, oldest first. -/
structure Network where
  client : World
  server : World
  toServer : NodeRef → List Bytes
  toClient : NodeRef → List Bytes

namespace Network

/-- What the write function of a node was called with. -/
def sent (n : NodeId) (history : List Event) : List Bytes :=
  history.filterMap fun e =>
    match e.1 with
    | .write m data => if m = n then some data else none
    | _ => none

section Machine

variable (lib : Codecs) (k : MessageConverter)
  (clientAnswer serverAnswer : List Event → OutsideCall → Except Thrown Json)

/-- An operation of the client side, whose writes enter the connections. -/
def stepClient (L : LoggerId → Logger) (s : Network) (a : ClientAction) : Network :=
  let client := nextClient lib clientAnswer L s.client a
  { s with
    client := client
    toServer := fun n =>
      s.toServer n ++ sent (.client n) (client.history.drop s.client.history.length) }

/-- An operation of the server side. -/
def stepServer (L : LoggerId → Logger) (s : Network) (a : ServerAction) : Network :=
  let server := nextServer lib serverAnswer L s.server a
  { s with
    server := server
    toClient := fun n =>
      s.toClient n ++ sent (.remote n) (server.history.drop s.server.history.length) }

/-- What an action makes of both sides and of what is under way. -/
def next (L : LoggerId → Logger) (s : Network) : Connections.Action → Network
  | .connect =>
    let n := s.client.library.client.nextNode
    let m := s.server.library.server.nextNode
    let s := stepServer lib serverAnswer L (stepClient lib clientAnswer L s .create) .create
    stepServer lib serverAnswer L (stepClient lib clientAnswer L s (.onWrite n)) (.onWrite m)
  | .linkRemote n o => stepClient lib clientAnswer L s (.linkRemote n o)
  | .unlinkRemote n o => stepClient lib clientAnswer L s (.unlinkRemote n o)
  | .destroy n => stepClient lib clientAnswer L s (.destroy n)
  | .addSink sink => stepClient lib clientAnswer L s (.addSink sink)
  | .sinkExpires x => stepClient lib clientAnswer L s (.sinkExpires x)
  | .deliverToServer n =>
    match s.toServer n with
    | [] => s
    | data :: rest =>
      let s := { s with toServer := fun m => if m = n then rest else s.toServer m }
      stepServer lib serverAnswer L s (.receive n data)
  | .deliverToClient n =>
    match s.toClient n with
    | [] => s
    | data :: rest =>
      let s := { s with toClient := fun m => if m = n then rest else s.toClient m }
      if s.client.library.client.nodeAlive n then
        stepClient lib clientAnswer L s (.receive n data)
      else s

/-- Operations are called on live nodes and return, nodes are created only while neither storage is
full, and what is delivered is there. -/
def Enabled (L : LoggerId → Logger) (s : Network) : Connections.Action → Prop
  | .connect =>
    ClientReturns lib k clientAnswer L s.client .create ∧
      ServerEnabled lib k serverAnswer L s.server .create
  | .linkRemote n o => ClientReturns lib k clientAnswer L s.client (.linkRemote n o)
  | .unlinkRemote n o => ClientReturns lib k clientAnswer L s.client (.unlinkRemote n o)
  | .destroy n => ClientReturns lib k clientAnswer L s.client (.destroy n)
  | .addSink sink => ClientReturns lib k clientAnswer L s.client (.addSink sink)
  | .sinkExpires _ => True
  | .deliverToServer n => s.toServer n ≠ []
  | .deliverToClient n => s.toClient n ≠ []

/-- The two registries and nodes, with nothing called and nothing under way. -/
def atRest (s : Network) : Connections where
  client := { s.client.library.client with effects := [] }
  server := { s.server.library.server with effects := [] }
  toServer _ := []
  toClient _ := []

/-- The start: no node, nothing called and nothing under way, and the sources registered that are
there throughout. -/
structure Init (s : Network) : Prop where
  atRest : Connections.Init s.atRest
  history : s.client.history = [] ∧ s.server.history = []
  converter : ∀ n, s.client.library.converters (.client n) = k ∧
    s.server.library.converters (.remote n) = k
  shared : ∀ object, s.client.library.lastReference object = false ∧
    s.server.library.lastReference object = false
  toServer : ∀ n, s.toServer n = []
  toClient : ∀ n, s.toClient n = []

/-- The code of both sides over the network. -/
def machine : Machine Network (Configured Connections.Action) where
  init := Init k
  enabled s x := Enabled lib k clientAnswer serverAnswer x.loggers s x.action
  next s x := next lib clientAnswer serverAnswer x.loggers s x.action

/-- What the message is converted to is read as the message. -/
def ReadBack (msg : Json) : Prop :=
  Protocol.decode? lib.toJsonLibrary (k.fromString lib (bytes lib k msg))
    = Protocol.decode? lib.toJsonLibrary msg

/-- The message can be sent, and arrives as it was but for how its numbers are stored. -/
def Arrives (c : Call) : Prop :=
  ∃ data c', k.toString lib c.message = .ok data ∧
    Protocol.decode? lib.toJsonLibrary (k.fromString lib data) = some c' ∧ c'.normal = c.normal

/-- A `Link` and an `Unlink` of the object can be sent, and arrive as such. -/
def Readable (o : ObjectId) : Prop :=
  ∀ c ∈ [Call.link o, Call.unlink o], ∃ data, k.toString lib c.message = .ok data ∧
    Protocol.decode? lib.toJsonLibrary (k.fromString lib data) = some c

end Machine

/-- No node links or unlinks an object that another node has, unless it has no source. -/
def Undisputed (s : Network) : Connections.Action → Prop
  | .linkRemote n o | .unlinkRemote n o => (s.server.library.source o).isSome →
    ∀ m, (s.client.library.client.registry.getNode o).lock s.client.library.client.nodeAlive
      = some m → m = n
  | _ => True

/-- The object that is linked or unlinked. -/
def linkedId : Connections.Action → Option ObjectId
  | .linkRemote _ o | .unlinkRemote _ o => some o
  | _ => none

/-- The node of an operation or a delivery. -/
def nodeOf : Connections.Action → NodeRef
  | .linkRemote n _ | .unlinkRemote n _ | .destroy n | .deliverToServer n
  | .deliverToClient n => n
  | .connect | .addSink _ | .sinkExpires _ => 0

/-- Nothing is under way. -/
def Quiet (s : Network) : Prop := ∀ n, s.toServer n = [] ∧ s.toClient n = []

variable {lib : Codecs} {k : MessageConverter}
  {clientAnswer serverAnswer : List Event → OutsideCall → Except Thrown Json}
  {L : LoggerId → Logger} {s : Network} {c c' : Connections} {o : ObjectId} {n : NodeRef}

/-! ## What is sent -/

/-- What a node hands to its write function in a call. -/
def dataTo (n : NodeId) : OutsideCall → Option Bytes
  | .write m data => if m = n then some data else none
  | _ => none

theorem sent_eq (n : NodeId) (events : List Event) :
    sent n events = (events.map Prod.fst).filterMap (dataTo n) := by
  rw [List.filterMap_map]
  refine List.filterMap_congr ?_
  rintro ⟨call, r⟩ -
  cases call <;> rfl

/-- The calls that further effects stand for. -/
theorem calls_drop {ε : Type} {event : List Event → ε → Event} {call : ε → OutsideCall}
    (hcall : ∀ history e, (event history e).1 = call e) (l₁ l₂ : List ε) :
    ((replay event (l₁ ++ l₂)).drop (replay event l₁).length).map Prod.fst = l₂.map call := by
  have hcalls : ∀ l : List ε, (replay event l).map Prod.fst = l.map call := by
    intro l
    induction l using List.reverseRecOn with
    | nil => rfl
    | append_singleton l e ih =>
      rw [replay_append, List.map_append, ih, List.map_append]
      exact congrArg _ (congrArg (fun c => [c]) (hcall _ e))
  have hlength : (replay event l₁).length = (l₁.map call).length := by
    rw [← hcalls, List.length_map]
  rw [List.map_drop, hcalls, hlength, List.map_append, List.drop_left]

/-- What is written is what the messages are converted to. -/
theorem dataTo_clientCalls (n : NodeRef) (effects : List ClientEffect) :
    (effects.map (clientCall lib k)).filterMap (dataTo (.client n))
      = (Connections.writtenByClient n effects).map (bytes lib k) := by
  induction effects with
  | nil => rfl
  | cons e effects ih =>
    rw [List.map_cons, List.filterMap_cons, ih]
    cases e with
    | write m msg =>
      by_cases hm : m = n
      · simp [dataTo, clientCall, Connections.writtenByClient, hm]
      · simp [dataTo, clientCall, Connections.writtenByClient, hm]
    | _ => rfl

theorem dataTo_serverCalls (n : NodeRef) (effects : List ServerEffect) :
    (effects.map (serverCall lib k)).filterMap (dataTo (.remote n))
      = (Connections.writtenByServer n effects).map (bytes lib k) := by
  induction effects with
  | nil => rfl
  | cons e effects ih =>
    rw [List.map_cons, List.filterMap_cons, ih]
    cases e with
    | write m msg =>
      by_cases hm : m = n
      · simp [dataTo, serverCall, Connections.writtenByServer, hm]
      · simp [dataTo, serverCall, Connections.writtenByServer, hm]
    | _ => rfl

/-- What one operation of the client side sends. -/
theorem sent_of_matches {w w' : World} {c c' : Client} {effects : List ClientEffect}
    (h : MatchesClient lib k clientAnswer w c) (h' : MatchesClient lib k clientAnswer w' c')
    (heffects : c'.effects = c.effects ++ effects) :
    sent (.client n) (w'.history.drop w.history.length)
      = (Connections.writtenByClient n effects).map (bytes lib k) := by
  have hcall : ∀ history e, (clientEvent lib k clientAnswer history e).1 = clientCall lib k e :=
    fun _ _ => rfl
  rw [h'.history, h.history, heffects, sent_eq, calls_drop hcall, dataTo_clientCalls]

theorem sent_of_matchesServer {w w' : World} {v v' : Server} {effects : List ServerEffect}
    (h : MatchesServer lib k serverAnswer w v) (h' : MatchesServer lib k serverAnswer w' v')
    (heffects : v'.effects = v.effects ++ effects) :
    sent (.remote n) (w'.history.drop w.history.length)
      = (Connections.writtenByServer n effects).map (bytes lib k) := by
  have hcall : ∀ history e, (serverEvent lib k serverAnswer history e).1 = serverCall lib k e :=
    fun _ _ => rfl
  rw [h'.history, h.history, heffects, sent_eq, calls_drop hcall, dataTo_serverCalls]

/-! ## What arrives -/

/-- Connections on which messages are under way that stand for the same calls of a remote node, and
as many to the client nodes. -/
structure Alike (lib : JsonLibrary) (c c' : Connections) : Prop where
  client : c'.client = c.client
  server : c'.server = c.server
  toServer : ∀ n,
    (c'.toServer n).map (Protocol.decode? lib) = (c.toServer n).map (Protocol.decode? lib)
  toClient : ∀ n, (c'.toClient n).length = (c.toClient n).length

section Alike

variable {lib : JsonLibrary}

theorem alike_refl (c : Connections) : Alike lib c c := ⟨rfl, rfl, fun _ => rfl, fun _ => rfl⟩

theorem Alike.trans {c'' : Connections} (h : Alike lib c c') (h' : Alike lib c' c'') :
    Alike lib c c'' :=
  ⟨h'.client.trans h.client, h'.server.trans h.server,
    fun n => (h'.toServer n).trans (h.toServer n), fun n => (h'.toClient n).trans (h.toClient n)⟩

theorem Alike.stepClient (h : Alike lib c c') (a : Client.Action) :
    Alike lib (Connections.stepClient lib c a) (Connections.stepClient lib c' a) := by
  refine ⟨congrArg (Client.next lib · a) h.client, h.server, fun n => ?_, h.toClient⟩
  unfold Connections.stepClient
  dsimp only
  rw [List.map_append, List.map_append, h.toServer, h.client]

theorem Alike.stepServer (h : Alike lib c c') (a : Server.Action) :
    Alike lib (Connections.stepServer lib c a) (Connections.stepServer lib c' a) := by
  refine ⟨h.client, congrArg (Server.next lib · a) h.server, h.toServer, fun n => ?_⟩
  unfold Connections.stepServer
  dsimp only
  rw [List.length_append, List.length_append, h.toClient, h.server]

theorem Alike.inv (h : Alike lib c c') (hi : Connections.Inv c) : Connections.Inv c' := by
  refine ⟨h.client ▸ hi.client, h.server ▸ hi.server, ?_, ?_, ?_, fun n hn => ?_⟩
  · rw [h.server, h.client]
    exact hi.nextNode
  · rw [h.server, h.client]
    exact hi.remoteAlive
  · rw [h.client]
    exact hi.writeFunc
  · rw [h.client] at hn
    have hnone := h.toServer n
    rw [hi.toServer n hn] at hnone
    exact List.map_eq_nil_iff.mp hnone

theorem Alike.bounded (h : Alike lib c c') (hb : Connections.Bounded c) :
    Connections.Bounded c' :=
  ⟨h.client ▸ hb.client, h.server ▸ hb.server⟩

/-- What a remote node will know is up to what the messages stand for. -/
theorem settle_congr_decode {hasId linked : Prop} {msgs msgs' : List Json}
    (h : msgs'.map (Protocol.decode? lib) = msgs.map (Protocol.decode? lib)) :
    Connections.settle lib o hasId linked msgs' = Connections.settle lib o hasId linked msgs := by
  induction msgs generalizing msgs' linked with
  | nil =>
    rw [List.map_eq_nil_iff.mp h]
  | cons msg msgs ih =>
    obtain ⟨msg', msgs', rfl, hmsg, hmsgs⟩ := List.map_eq_cons_iff.mp h
    have hafter : Connections.after lib o hasId linked msg'
        = Connections.after lib o hasId linked msg := by
      unfold Connections.after
      rw [hmsg]
    change Connections.settle lib o hasId (Connections.after lib o hasId linked msg') msgs' = _
    rw [ih hmsgs, hafter]
    rfl

theorem Alike.willAgree (h : Alike lib c c') (hagree : Connections.WillAgree lib c) :
    Connections.WillAgree lib c' := by
  intro o n ho
  unfold Connections.WillServe
  rw [settle_congr_decode (h.toServer n), h.server, h.client]
  rw [h.server] at ho
  exact hagree o n ho

end Alike

/-- The code over the network is in the same state, and its data are read as the messages. -/
structure Seen (lib : Codecs) (k : MessageConverter)
    (clientAnswer serverAnswer : List Event → OutsideCall → Except Thrown Json)
    (s : Network) (c : Connections) : Prop where
  client : MatchesClient lib k clientAnswer s.client c.client
  server : MatchesServer lib k serverAnswer s.server c.server
  toServer : ∀ n, c.toServer n = (s.toServer n).map (k.fromString lib)
  toClient : ∀ n, c.toClient n = (s.toClient n).map (k.fromString lib)

/-- **An operation of the client side**, whose messages are read as what was composed. -/
theorem seen_stepClient (h : Seen lib k clientAnswer serverAnswer s c) {a : ClientAction}
    (hen : ClientEnabled lib k clientAnswer L s.client a)
    (hreturned : (∀ n data, a ≠ .receive n data) → Returned lib clientAnswer L s.client a)
    (hread : ∀ n, ∀ msg ∈ Connections.writtenByClient n (Client.callsOfAction lib.toJsonLibrary
      c.client (a.seen lib k clientAnswer L)), ReadBack lib k msg) :
    ∃ c', Seen lib k clientAnswer serverAnswer (stepClient lib clientAnswer L s a) c' ∧
      Alike lib.toJsonLibrary
        (Connections.stepClient lib.toJsonLibrary c (a.seen lib k clientAnswer L)) c' := by
  have hmatches := matches_of_returned h.client hen hreturned
  have hsent (n : NodeRef) := sent_of_matches (n := n) h.client hmatches (Client.effects_next _)
  refine ⟨{
    client := Client.next lib.toJsonLibrary c.client (a.seen lib k clientAnswer L)
    server := c.server
    toServer := fun n => c.toServer n ++ ((Connections.writtenByClient n
      (Client.callsOfAction lib.toJsonLibrary c.client (a.seen lib k clientAnswer L))).map
        (bytes lib k)).map (k.fromString lib)
    toClient := c.toClient }, ⟨hmatches, h.server, fun n => ?_, h.toClient⟩,
    ⟨rfl, rfl, fun n => ?_, fun _ => rfl⟩⟩
  · unfold stepClient
    dsimp only
    rw [hsent, List.map_append, h.toServer]
  · rw [Connections.toServer_stepClient]
    dsimp only
    rw [List.map_append, List.map_append, List.map_map, List.map_map]
    exact congrArg _ (List.map_congr_left (hread n))

/-- An operation that writes nothing. -/
theorem seen_stepClient_quiet (h : Seen lib k clientAnswer serverAnswer s c) {a : ClientAction}
    (hen : ClientReturns lib k clientAnswer L s.client a)
    (hquiet : ∀ n, Connections.writtenByClient n (Client.callsOfAction lib.toJsonLibrary
      c.client (a.seen lib k clientAnswer L)) = []) :
    ∃ c', Seen lib k clientAnswer serverAnswer (stepClient lib clientAnswer L s a) c' ∧
      Alike lib.toJsonLibrary
        (Connections.stepClient lib.toJsonLibrary c (a.seen lib k clientAnswer L)) c' := by
  refine seen_stepClient h hen.enabled (fun _ => hen.returned) ?_
  intro n msg hmsg
  rw [hquiet] at hmsg
  cases hmsg

/-- An operation of the server side. -/
theorem seen_stepServer (h : Seen lib k clientAnswer serverAnswer s c) {a : ServerAction}
    (hen : ServerEnabled lib k serverAnswer L s.server a) :
    ∃ c', Seen lib k clientAnswer serverAnswer (stepServer lib serverAnswer L s a) c' ∧
      Alike lib.toJsonLibrary
        (Connections.stepServer lib.toJsonLibrary c (a.seen lib k serverAnswer L)) c' := by
  have hmatches := matches_nextServer h.server hen
  have hsent (n : NodeRef) := sent_of_matchesServer (n := n) h.server hmatches
    (Server.effects_next _)
  refine ⟨{
    client := c.client
    server := Server.next lib.toJsonLibrary c.server (a.seen lib k serverAnswer L)
    toServer := c.toServer
    toClient := fun n => c.toClient n ++ ((Connections.writtenByServer n
      (Server.callsOfAction lib.toJsonLibrary c.server (a.seen lib k serverAnswer L))).map
        (bytes lib k)).map (k.fromString lib) }, ⟨h.client, hmatches, h.toServer, fun n => ?_⟩,
    ⟨rfl, rfl, fun _ => rfl, fun n => ?_⟩⟩
  · unfold stepServer
    dsimp only
    rw [hsent, List.map_append, h.toClient]
  · unfold Connections.stepServer
    dsimp only
    rw [Server.effects_next, List.drop_left, List.length_append, List.length_append,
      List.length_map, List.length_map]

/-! ## One step -/

theorem readBack_of_readable (ho : Readable lib k o) {x : Call}
    (hx : x ∈ [Call.link o, Call.unlink o]) : ReadBack lib k x.message := by
  obtain ⟨data, hdata, hdecode⟩ := ho x hx
  unfold ReadBack
  rw [bytes_of_toString hdata, hdecode, Protocol.decode?_composed]

/-- What an operation of a user writes is read back if the objects it is about are readable. -/
theorem readBack_linkRemote (hi : Connections.Inv c) (ho : Readable lib k o)
    (hn : c.client.nodeAlive n = true) (m : NodeRef) :
    ∀ msg ∈ Connections.writtenByClient m (Client.callsOfAction lib.toJsonLibrary c.client
      (.linkRemote n o)), ReadBack lib k msg := by
  intro msg hmsg
  unfold Client.callsOfAction at hmsg
  dsimp only at hmsg
  rw [Connections.writtenByClient_written (hi.writeFunc n hn)] at hmsg
  obtain ⟨-, hmsg⟩ := List.mem_ite_nil_right.mp hmsg
  cases List.mem_singleton.mp hmsg
  exact readBack_of_readable ho (x := .link o) (by simp)

theorem readBack_unlinkRemote (hi : Connections.Inv c) (ho : Readable lib k o)
    (hn : c.client.nodeAlive n = true) (m : NodeRef) :
    ∀ msg ∈ Connections.writtenByClient m (Client.callsOfAction lib.toJsonLibrary c.client
      (.unlinkRemote n o)), ReadBack lib k msg := by
  intro msg hmsg
  unfold Client.callsOfAction at hmsg
  dsimp only at hmsg
  rw [Connections.writtenByClient_append, Connections.writtenByClient_released,
    Connections.writtenByClient_written (hi.writeFunc n hn), List.nil_append] at hmsg
  obtain ⟨-, hmsg⟩ := List.mem_ite_nil_right.mp hmsg
  cases List.mem_singleton.mp hmsg
  exact readBack_of_readable ho (x := .unlink o) (by simp)

theorem readBack_destroy (hi : Connections.Inv c) (hb : Connections.Bounded c)
    (hholds : ∀ o n, Client.Holds c.client o n → Readable lib k o)
    (hn : c.client.nodeAlive n = true) (m : NodeRef) :
    ∀ msg ∈ Connections.writtenByClient m (Client.callsOfAction lib.toJsonLibrary c.client
      (.destroy n)), ReadBack lib k msg := by
  intro msg hmsg
  unfold Client.callsOfAction at hmsg
  dsimp only at hmsg
  rw [Connections.writtenByClient_unlinkEffects (hi.writeFunc n hn)] at hmsg
  obtain ⟨-, hmsg⟩ := List.mem_ite_nil_right.mp hmsg
  obtain ⟨o, ho, rfl⟩ := List.mem_map.mp hmsg
  have hvalid := hb.client.valid n hn
  have hslot := (ClientRegistry.mem_getObjectIds_of_valid hvalid).mp ho
  exact readBack_of_readable (hholds o n ⟨hn, hvalid, hslot⟩) (x := .unlink o) (by simp)

/-- A client node answers nothing. -/
theorem writtenByClient_receive {lib : JsonLibrary} {w : Client} {m : NodeRef} (msg : Json)
    (env : ClientEnv) :
    Connections.writtenByClient m (Client.callsOfAction lib w (.receive n msg env)) = [] := by
  refine Connections.writtenByClient_eq_nil ?_
  intro msg he
  unfold Client.callsOfAction at he
  dsimp only at he
  split at he
  · exact ClientNode.write_not_mem_callsOf he
  · cases he

theorem readBack_receive (data : Bytes) (m : NodeRef) :
    ∀ msg ∈ Connections.writtenByClient m (Client.callsOfAction lib.toJsonLibrary c.client
      (.receive n (k.fromString lib data) (clientEnv lib k clientAnswer L n))),
      ReadBack lib k msg := by
  intro msg hmsg
  rw [writtenByClient_receive] at hmsg
  cases hmsg

theorem enabled_of_seen (h : Seen lib k clientAnswer serverAnswer s c) {a : Connections.Action}
    (hen : Enabled lib k clientAnswer serverAnswer L s a) : Connections.Enabled c a := by
  cases a with
  | connect =>
    obtain ⟨hc, hs⟩ := hen
    refine ⟨?_, ?_⟩
    · rw [← h.client.client]
      exact hc.enabled.enabled
    · rw [← h.server.server]
      exact hs.enabled
  | linkRemote n o | unlinkRemote n o | destroy n =>
    have hlive := hen.enabled.enabled
    change c.client.nodeAlive n = true
    rw [← h.client.client]
    exact hlive
  | addSink sink | sinkExpires x => trivial
  | deliverToServer n =>
    change c.toServer n ≠ []
    rw [h.toServer]
    exact fun hnil => hen (List.map_eq_nil_iff.mp hnil)
  | deliverToClient n =>
    change c.toClient n ≠ []
    rw [h.toClient]
    exact fun hnil => hen (List.map_eq_nil_iff.mp hnil)

/-- Connecting, on both sides. -/
theorem seen_connect {clientEnv : ClientEnv} {serverEnv : ServerEnv}
    (h : Seen lib k clientAnswer serverAnswer s c)
    (hen : Enabled lib k clientAnswer serverAnswer L s .connect) :
    ∃ c',
      Seen lib k clientAnswer serverAnswer (next lib clientAnswer serverAnswer L s .connect) c' ∧
      Alike lib.toJsonLibrary (Connections.next lib.toJsonLibrary clientEnv serverEnv c .connect)
        c' := by
  obtain ⟨hclient, hserver⟩ := hen
  obtain ⟨c₁, hs₁, ha₁⟩ := seen_stepClient_quiet h hclient fun n => rfl
  obtain ⟨c₂, hs₂, ha₂⟩ := seen_stepServer (a := .create) hs₁ hserver
  have hn : s.client.library.client.nextNode = c.client.nextNode := by rw [← h.client.client]
  have hm : s.server.library.server.nextNode = c.server.nextNode := by rw [← h.server.server]
  have hc₂ : c₂.client = Client.next lib.toJsonLibrary c.client .create :=
    ha₂.client.trans ha₁.client
  have hclient' : ClientReturns lib k clientAnswer L (stepServer lib serverAnswer L
      (stepClient lib clientAnswer L s .create) .create).client (.onWrite c.client.nextNode) := by
    refine ⟨⟨?_, nofun, nofun⟩, congrArg Prod.fst (run_onWrite hs₂.client.shared _ _)⟩
    have hlive : Client.Enabled c₂.client (.onWrite c.client.nextNode) := by
      rw [hc₂]
      exact if_pos rfl
    rw [← hs₂.client.client] at hlive
    exact hlive
  obtain ⟨c₃, hs₃, ha₃⟩ := seen_stepClient_quiet hs₂ hclient' fun n => rfl
  have hc₃ : c₃.server = Server.next lib.toJsonLibrary c₁.server .create :=
    ha₃.server.trans ha₂.server
  have hc₁ : c₁.server = c.server := ha₁.server
  have hserver' : ServerEnabled lib k serverAnswer L (stepClient lib clientAnswer L (stepServer lib
      serverAnswer L (stepClient lib clientAnswer L s .create) .create)
        (.onWrite c.client.nextNode)).server (.onWrite c.server.nextNode) := by
    refine ⟨?_, nofun⟩
    have hlive : Server.Enabled c₃.server (.onWrite c.server.nextNode) := by
      rw [hc₃, hc₁]
      exact if_pos rfl
    rw [← hs₃.server.server] at hlive
    exact hlive
  obtain ⟨c₄, hs₄, ha₄⟩ := seen_stepServer hs₃ hserver'
  refine ⟨c₄, ?_, ?_⟩
  · unfold next
    dsimp only
    rw [hn, hm]
    exact hs₄
  · have hcreated := (ha₁.stepServer .create).trans ha₂
    have hset := (hcreated.stepClient (.onWrite c.client.nextNode)).trans ha₃
    exact (hset.stepServer (.onWrite c.server.nextNode)).trans ha₄

/-- **One step** of the code over the network is one of the connections, on which the messages
stand for the same calls. -/
theorem seen_next (h : Seen lib k clientAnswer serverAnswer s c) (hi : Connections.Inv c)
    (hb : Connections.Bounded c) (hholds : ∀ o n, Client.Holds c.client o n → Readable lib k o)
    {a : Connections.Action} (hids : ∀ o, linkedId a = some o → Readable lib k o)
    (hen : Enabled lib k clientAnswer serverAnswer L s a) :
    ∃ c', Seen lib k clientAnswer serverAnswer (next lib clientAnswer serverAnswer L s a) c' ∧
      Alike lib.toJsonLibrary (Connections.next lib.toJsonLibrary
        (clientEnv lib k clientAnswer L (nodeOf a)) (serverEnv lib k serverAnswer L (nodeOf a))
        c a) c' := by
  have henabled := enabled_of_seen h hen
  cases a with
  | connect => exact seen_connect h hen
  | linkRemote n o =>
    exact seen_stepClient h hen.enabled (fun _ => hen.returned)
      (readBack_linkRemote hi (hids o rfl) henabled)
  | unlinkRemote n o =>
    exact seen_stepClient h hen.enabled (fun _ => hen.returned)
      (readBack_unlinkRemote hi (hids o rfl) henabled)
  | destroy n =>
    exact seen_stepClient h hen.enabled (fun _ => hen.returned)
      (readBack_destroy hi hb hholds henabled)
  | addSink sink => exact seen_stepClient_quiet h hen fun n => rfl
  | sinkExpires x =>
    have hexpires : ClientReturns lib k clientAnswer L s.client (.sinkExpires x) :=
      ⟨⟨trivial, nofun, nofun⟩, rfl⟩
    exact seen_stepClient_quiet h hexpires fun n => rfl
  | deliverToServer n =>
    cases hq : s.toServer n with
    | nil => exact absurd hq hen
    | cons data rest =>
      have hc : c.toServer n = k.fromString lib data :: rest.map (k.fromString lib) := by
        rw [h.toServer, hq, List.map_cons]
      have hreceive : ServerEnabled lib k serverAnswer L s.server (.receive n data) := by
        refine ⟨?_, nofun⟩
        have hlive := hi.remoteAlive_of_toServer henabled
        rw [← h.server.server] at hlive
        exact hlive
      have hpopped : Seen lib k clientAnswer serverAnswer
          { s with toServer := fun m => if m = n then rest else s.toServer m }
          { c with toServer := fun m =>
            if m = n then rest.map (k.fromString lib) else c.toServer m } := by
        refine ⟨h.client, h.server, fun m => ?_, h.toClient⟩
        dsimp only
        rw [apply_ite (List.map (k.fromString lib)), h.toServer]
      unfold next Connections.next
      simp only [hq, hc]
      exact seen_stepServer hpopped hreceive
  | deliverToClient n =>
    cases hq : s.toClient n with
    | nil => exact absurd hq hen
    | cons data rest =>
      have hc : c.toClient n = k.fromString lib data :: rest.map (k.fromString lib) := by
        rw [h.toClient, hq, List.map_cons]
      have hpopped : Seen lib k clientAnswer serverAnswer
          { s with toClient := fun m => if m = n then rest else s.toClient m }
          { c with toClient := fun m =>
            if m = n then rest.map (k.fromString lib) else c.toClient m } := by
        refine ⟨h.client, h.server, h.toServer, fun m => ?_⟩
        dsimp only
        rw [apply_ite (List.map (k.fromString lib)), h.toClient]
      have halive : s.client.library.client.nodeAlive n = c.client.nodeAlive n := by
        rw [← h.client.client]
      unfold next Connections.next
      simp only [hq, hc, halive]
      cases hlive : c.client.nodeAlive n with
      | true =>
        have hreceive : ClientEnabled lib k clientAnswer L s.client (.receive n data) :=
          ⟨halive.trans hlive, nofun, nofun⟩
        exact seen_stepClient hpopped hreceive (fun h => absurd rfl (h n data))
          (readBack_receive data)
      | false => exact ⟨_, hpopped, alike_refl _⟩

/-! ## Runs -/

/-- Next to the code there are connections that will agree, and only readable objects are linked. -/
def Inv (lib : Codecs) (k : MessageConverter)
    (clientAnswer serverAnswer : List Event → OutsideCall → Except Thrown Json)
    (s : Network) : Prop :=
  ∃ c, Seen lib k clientAnswer serverAnswer s c ∧ Connections.Inv c ∧ Connections.Bounded c ∧
    Connections.WillAgree lib.toJsonLibrary c ∧
    ∀ o n, Client.Holds c.client o n → Readable lib k o

theorem inv_init (hs : Init k s) : Inv lib k clientAnswer serverAnswer s := by
  have hrest := hs.atRest
  refine ⟨s.atRest, ⟨⟨rfl, hs.history.1, fun n => (hs.converter n).1, fun x => (hs.shared x).1⟩,
    ⟨rfl, hs.history.2, fun n => (hs.converter n).2, fun x => (hs.shared x).2⟩, fun n => ?_,
    fun n => ?_⟩, Connections.inv_init hrest, Connections.bounded_init hrest, fun o n _ => ?_,
    fun o n hholds => ?_⟩
  · rw [hs.toServer]
    rfl
  · rw [hs.toClient]
    rfl
  · refine iff_of_false (fun hserve => ?_) fun hholds => ?_
    · have hlive : s.atRest.server.nodeAlive n = true := hserve.1
      rw [hrest.nodeAlive] at hlive
      cases hlive
    · have hlive := hholds.1
      rw [hrest.client.nodeAlive] at hlive
      cases hlive
  · have hlive := hholds.1
    rw [hrest.client.nodeAlive] at hlive
    cases hlive

section Holds

variable (lib : JsonLibrary)

/-- A node has an object only if it had it, or it is the one that is linked. -/
theorem holds_of_next {w : Client} (hi : Client.Inv w) (a : Client.Action)
    (hen : Client.Enabled w a)
    (hholds : Client.Holds (Client.next lib w a) o n) :
    a = .linkRemote n o ∨ Client.Holds w o n :=
  ((Client.holds_next hi a hen).mp hholds).imp id And.left

theorem linkedId_of_holds (hi : Connections.Bounded c) {clientEnv : ClientEnv}
    {serverEnv : ServerEnv} {a : Connections.Action} (hen : Connections.Enabled c a)
    (hholds : Client.Holds (Connections.next lib clientEnv serverEnv c a).client o n) :
    linkedId a = some o ∨ Client.Holds c.client o n := by
  cases a with
  | connect =>
    rw [Connections.next_connect] at hholds
    have hset : Client.Enabled (Client.next lib c.client .create)
        (.onWrite c.client.nextNode) := if_pos rfl
    rcases holds_of_next lib (Client.inv_next hi.client .create hen.1) _ hset hholds
      with ha | hcreated
    · cases ha
    · rcases holds_of_next lib hi.client .create hen.1 hcreated with ha | hbefore
      · cases ha
      · exact Or.inr hbefore
  | linkRemote m x =>
    rcases holds_of_next lib hi.client (.linkRemote m x) hen hholds with ha | hbefore
    · cases ha
      exact Or.inl rfl
    · exact Or.inr hbefore
  | unlinkRemote m x =>
    rcases holds_of_next lib hi.client (.unlinkRemote m x) hen hholds with ha | hbefore
    · cases ha
    · exact Or.inr hbefore
  | destroy m =>
    rcases holds_of_next lib hi.client (.destroy m) hen hholds with ha | hbefore
    · cases ha
    · exact Or.inr hbefore
  | addSink sink =>
    rcases holds_of_next lib hi.client (.addSink sink) trivial hholds with ha | hbefore
    · cases ha
    · exact Or.inr hbefore
  | sinkExpires x =>
    rcases holds_of_next lib hi.client (.sinkExpires x) trivial hholds with ha | hbefore
    · cases ha
    · exact Or.inr hbefore
  | deliverToServer m =>
    unfold Connections.next at hholds
    dsimp only at hholds
    split at hholds <;> exact Or.inr hholds
  | deliverToClient m =>
    unfold Connections.next at hholds
    dsimp only at hholds
    split at hholds
    · exact Or.inr hholds
    · split at hholds
      · rename_i msg rest hq hlive
        rcases holds_of_next lib hi.client (.receive m msg clientEnv) hlive hholds with ha | hbefore
        · cases ha
        · exact Or.inr hbefore
      · exact Or.inr hholds

end Holds

/-- The connections are undisputed where the code is. -/
theorem undisputed_of_seen (h : Seen lib k clientAnswer serverAnswer s c) {a : Connections.Action}
    (hund : Undisputed s a) : Connections.Undisputed c a := by
  cases a with
  | linkRemote n o | unlinkRemote n o =>
    intro ho m hm
    rw [← h.server.source] at ho
    rw [← h.client.client] at hm
    exact hund ho m hm
  | _ => trivial

theorem inv_next (hunlinked : ∀ history source o,
      ended (serverAnswer history (.olinkUnlinked source o)) = .ok ())
    (hi : Inv lib k clientAnswer serverAnswer s) {a : Connections.Action}
    (hen : Enabled lib k clientAnswer serverAnswer L s a) (hund : Undisputed s a)
    (hids : ∀ o, linkedId a = some o → Readable lib k o) :
    Inv lib k clientAnswer serverAnswer (next lib clientAnswer serverAnswer L s a) := by
  obtain ⟨c, hseen, hinv, hbounded, hagree, hholds⟩ := hi
  have henabled := enabled_of_seen hseen hen
  obtain ⟨c', hseen', halike⟩ := seen_next hseen hinv hbounded hholds hids hen
  have hpossible := Connections.possible_of_enabled henabled
  have henv : ∀ before x k',
      (serverEnv lib k serverAnswer L (nodeOf a)).call before (.olinkUnlinked x k') = .ok () :=
    fun before x k' => hunlinked _ x k'
  refine ⟨c', hseen', halike.inv (Connections.inv_next hinv a hpossible),
    halike.bounded (Connections.bounded_next hbounded hinv a henabled), halike.willAgree
      ((Connections.willAgree_next henv hinv a hpossible hagree).mpr
        ⟨undisputed_of_seen hseen hund, Connections.matched_of_bounded hbounded hinv henabled⟩),
    fun o n hafter => ?_⟩
  rw [halike.client] at hafter
  rcases linkedId_of_holds _ hbounded henabled hafter with hid | hbefore
  · exact hids o hid
  · exact hholds o n hbefore

/-- If no node links or unlinks an object that another node has, and only readable objects are
linked, the invariant holds. -/
theorem inv_run {h : List (Network × Configured Connections.Action)}
    (hunlinked : ∀ history source o,
      ended (serverAnswer history (.olinkUnlinked source o)) = .ok ())
    (hr : Run (machine lib k clientAnswer serverAnswer) h s)
    (hids : ∀ x ∈ h, ∀ o, linkedId x.2.action = some o → Readable lib k o)
    (hund : ∀ x ∈ h, Undisputed x.1 x.2.action) : Inv lib k clientAnswer serverAnswer s :=
  hr.invariant_of_guard
    (G := fun s x => Undisputed s x.action ∧ ∀ o, linkedId x.action = some o → Readable lib k o)
    (fun _ hs => inv_init hs) (fun _ _ hi hen hg => inv_next hunlinked hi hen hg.1 hg.2)
    fun x hx => ⟨hund x hx, hids x hx⟩

/-- Where the invariant holds and nothing is under way, the registries agree. -/
theorem agree_of_quiet (hi : Inv lib k clientAnswer serverAnswer s) (hq : Quiet s)
    (ho : (s.server.library.source o).isSome) :
    ∃ node nodes,
      run (.detached clientAnswer) L (Operations.ClientRegistry.getNode o) s.client
        = (.ok node, s.client) ∧
      run (.detached serverAnswer) L (Operations.RemoteRegistry.getNodes o) s.server
        = (.ok nodes, s.server) ∧
      ∀ n, node.lock s.client.library.client.nodeAlive = some n ↔ some n ∈ nodes := by
  obtain ⟨c, hseen, hinv, -, hagree, -⟩ := hi
  have hquiet : Connections.Quiet c := fun n => by
    rw [hseen.toServer, hseen.toClient, (hq n).1, (hq n).2]
    exact ⟨rfl, rfl⟩
  rw [hseen.server.source] at ho
  refine ⟨_, _, run_getNode o, run_getNodes o, fun n => ?_⟩
  have hboth := (Connections.agree_iff hinv hquiet).mpr hagree o n ho
  rw [← hseen.client.client, ← hseen.server.server] at hboth
  exact hboth.symm

/-- **Both sides agree over the network.** In every run in which the objects that are linked are
readable, the sources return from being told of an unlink, and no node links or unlinks an object
that another node has, whenever nothing is under way: `getNode` gives a node for an object that has
a source exactly if `getNodes` lists its remote node. As in `code_refines`, log functions return,
code outside leaves the library alone, and no temporary reference is the last one. -/
theorem sides_agree {h : List (Network × Configured Connections.Action)}
    (hunlinked : ∀ history source o,
      ended (serverAnswer history (.olinkUnlinked source o)) = .ok ())
    (hr : Run (machine lib k clientAnswer serverAnswer) h s)
    (hids : ∀ x ∈ h, ∀ o, linkedId x.2.action = some o → Readable lib k o)
    (hund : ∀ x ∈ h, Undisputed x.1 x.2.action) (hq : Quiet s)
    (ho : (s.server.library.source o).isSome) :
    ∃ node nodes,
      run (.detached clientAnswer) L (Operations.ClientRegistry.getNode o) s.client
        = (.ok node, s.client) ∧
      run (.detached serverAnswer) L (Operations.RemoteRegistry.getNodes o) s.server
        = (.ok nodes, s.server) ∧
      ∀ n, node.lock s.client.library.client.nodeAlive = some n ↔ some n ∈ nodes :=
  agree_of_quiet (inv_run hunlinked hr hids hund) hq ho

/-- What the formats are taken to do makes a message arrive that they carry, whose strings are
valid, and that the receiver does not find too long. -/
theorem arrives_of_carries {x : Call} (hvalid : x.message.validUtf8 = true)
    (hformat : k.format ≠ .bson) (hcarries : lib.Carries x.message)
    (hsize : ∀ data, k.toString lib x.message = .ok data → data.length ≤ k.maxMessageSize) :
    Arrives lib k x := by
  obtain ⟨data, j, hdata, hnormal, hback⟩ :=
    MessageConverter.fromString_toString hcarries hvalid hformat
  obtain ⟨x', hdecode, hx'⟩ : ∃ x', Protocol.decode? lib.toJsonLibrary j = some x' ∧
      x'.normal = x.normal :=
    Protocol.decode?_of_normal hnormal (Protocol.decode?_composed lib.toJsonLibrary x)
  refine ⟨data, x', hdata, ?_, hx'⟩
  rw [hback k rfl (hsize data hdata), hdecode]

theorem readable_of_carries (hvalid : validUtf8 o = true) (hformat : k.format ≠ .bson)
    (hcarries : ∀ x ∈ [Call.link o, Call.unlink o], lib.Carries x.message)
    (hsize : ∀ x ∈ [Call.link o, Call.unlink o], ∀ data, k.toString lib x.message = .ok data →
      data.length ≤ k.maxMessageSize) : Readable lib k o := by
  intro x hx
  have hx' : x.message.validUtf8 = true := by
    rw [validUtf8_message]
    rcases List.mem_pair.mp hx with rfl | rfl <;> exact hvalid
  obtain ⟨data, x', hdata, hdecode, hx''⟩ :=
    arrives_of_carries hx' hformat (hcarries x hx) (hsize x hx)
  have hsame : x' = x := by
    rcases List.mem_pair.mp hx with rfl | rfl <;> cases x' <;> cases hx'' <;> rfl
  exact ⟨data, hdata, hsame ▸ hdecode⟩

/-! ## One link -/

/-- The text of the `Link` of the object `o`. -/
def linkText : Bytes := lit "[10,\"o\"]"

/-- The text of its `Unlink`. -/
def unlinkText : Bytes := lit "[12,\"o\"]"

/-- What the `Link` and the `Unlink` of an object `o` are written as; anything else is as the
former. -/
def textOf (j : Json) : Bytes :=
  match j.item 0 with
  | .integer code => if code = 12 then unlinkText else linkText
  | _ => linkText

/-- What they are read as. -/
def readText (data : Bytes) : Option Json :=
  if data = linkText then some (.array [.unsigned 10, .string (lit "o")])
  else if data = unlinkText then some (.array [.unsigned 12, .string (lit "o")])
  else none

/-- The text of a value whose strings are valid. -/
def dumpText (j : Json) : Except Bytes Bytes := if j.validUtf8 then .ok (textOf j) else .error []

theorem dumpText_ok_iff (j : Json) :
    (∃ text, dumpText j = .ok text) ↔ j.validUtf8 = true := by
  unfold dumpText
  split
  · rename_i hv
    exact iff_of_true ⟨_, rfl⟩ hv
  · rename_i hv
    refine iff_of_false ?_ hv
    rintro ⟨text, h⟩
    cases h

/-- BSON has neither message. -/
theorem object_of_toBson {j : Json} {data : Bytes}
    (h : (.error [] : Except Bytes Bytes) = .ok data) : ∃ members, j = .object members := by
  cases h

theorem object_of_fromBson {j : Json} (h : none = some j) : ∃ members, j = .object members := by
  cases h

/-- A library that knows both messages. -/
def linkingCodecs : Codecs where
  toJsonLibrary := { JsonLibrary.truncating with dump := dumpText }
  parse := readText
  fromBson _ := none
  fromMsgpack := readText
  fromCbor := readText
  toBson _ := .error []
  toMsgpack := textOf
  toCbor := textOf
  dump_ok_iff := dumpText_ok_iff
  toBson_object := object_of_toBson
  fromBson_object := object_of_fromBson

theorem readable_linkingCodecs : Readable linkingCodecs (.new .json) (lit "o") := by
  refine readable_of_carries (by decide) (by decide) (fun x hx => ?_) fun x hx data hdata => ?_
  · rcases List.mem_pair.mp hx with rfl | rfl
    · refine ⟨fun text ht => ?_, ⟨_, rfl, rfl⟩, ⟨_, rfl, rfl⟩⟩
      cases ht
      exact ⟨_, rfl, rfl⟩
    · refine ⟨fun text ht => ?_, ⟨_, rfl, rfl⟩, ⟨_, rfl, rfl⟩⟩
      cases ht
      exact ⟨_, rfl, rfl⟩
  · rcases List.mem_pair.mp hx with rfl | rfl
    · cases hdata
      decide
    · cases hdata
      decide

/-- No node yet, and a source for the object `"o"`. -/
def start : Network where
  client := fresh
  server := { fresh with library := { fresh.library with server := Connections.start.server } }
  toServer _ := []
  toClient _ := []

/-- A node links the object, and everything arrives. -/
def links : List (Configured Connections.Action) :=
  [.silent .connect, ⟨verbose, .linkRemote 0 (lit "o")⟩, ⟨verbose, .deliverToServer 0⟩,
    ⟨verbose, .deliverToClient 0⟩]

theorem init_start : Init (.new .json) start := by
  have hrest := Connections.init_start
  exact ⟨⟨⟨rfl, fun _ => rfl, rfl⟩, hrest.remoteNodesById, hrest.nodeIds, hrest.nodeAlive, rfl, rfl,
    fun _ => rfl, fun _ => rfl⟩, ⟨rfl, rfl⟩, fun _ => ⟨rfl, rfl⟩, fun _ => ⟨rfl, rfl⟩,
    fun _ => rfl, fun _ => rfl⟩

theorem plays_links :
    (machine linkingCodecs (.new .json) returns returns).Plays start links := by
  refine ⟨⟨⟨⟨?_, nofun, nofun⟩, rfl⟩, ⟨?_, nofun⟩⟩, ⟨⟨?_, nofun, nofun⟩, rfl⟩, ?_, ?_, trivial⟩
  · decide +kernel
  · decide +kernel
  · decide +kernel
  · exact List.ne_nil_of_length_pos (by decide +kernel)
  · exact List.ne_nil_of_length_pos (by decide +kernel)

theorem sides_agree_links : ∃ nodes : List (WeakPtr NodeRef),
    (run (.detached returns) verbose (Operations.RemoteRegistry.getNodes (lit "o"))
      ((machine linkingCodecs (.new .json) returns returns).exec start links).server).1
        = .ok nodes ∧
    some 0 ∈ nodes := by
  have hids : ∀ x ∈ (machine linkingCodecs (.new .json) returns returns).history start links,
      ∀ o, linkedId x.2.action = some o → Readable linkingCodecs (.new .json) o := by
    simp only [links, Machine.history, List.forall_mem_cons]
    refine ⟨fun _ ho => ?_, fun o ho => ?_, fun _ ho => ?_, fun _ ho => ?_, fun x hx => by cases hx⟩
    · cases ho
    · cases ho
      exact readable_linkingCodecs
    · cases ho
    · cases ho
  have hund : ∀ x ∈ (machine linkingCodecs (.new .json) returns returns).history start links,
      Undisputed x.1 x.2.action := by
    simp only [links, Machine.history, List.forall_mem_cons]
    refine ⟨trivial, ?_, trivial, trivial, fun x hx => by cases hx⟩
    intro _ m hm
    -- nobody has the object when the node links it
    have hnone : (none : Option NodeRef) = some m := hm
    cases hnone
  have hquiet : Quiet ((machine linkingCodecs (.new .json) returns returns).exec start links) := by
    rintro (_ | n)
    · exact ⟨List.eq_nil_of_length_eq_zero (by decide +kernel),
        List.eq_nil_of_length_eq_zero (by decide +kernel)⟩
    · exact ⟨rfl, rfl⟩
  obtain ⟨node, nodes, hnode, hnodes, hagree⟩ := sides_agree (fun _ _ _ => rfl)
    (run_play links init_start plays_links) hids hund hquiet (L := verbose) (o := lit "o")
    (by decide +kernel)
  refine ⟨nodes, congrArg Prod.fst hnodes, (hagree 0).mp ?_⟩
  cases (congrArg Prod.fst hnode).symm.trans (congrArg Prod.fst (run_getNode (lit "o")))
  decide +kernel

end Network

end ObjectLink
