import ObjectLink.Operations.Network

/-!
# Clients over web sockets

Model of `OLinkClient` (`examples/qtolink/olinkclient.cpp`), for any number of them over one
`ClientRegistry`: each has a node, hands what the node writes to its `QWebSocket`, and keeps it in a
queue while the socket is not connected. Sockets connect and disconnect at any time; the state of a
socket may have changed before `onConnected` is called. An `OLinkClient` is not destroyed: its queue
is gone by the time the destructor of its node writes.

Messages of every format become a `QString` on their way to the socket, and received ones come as
such. What is not UTF-8 does not survive that (`Qt`). The constructor sets a log function; as in
`Refinement.lean`, what is logged may change from one operation to the next.

* `sendAll_eq`: the loop of `processMessages` empties the queue.
* `run_linkObjectSource`: where `linkRemote` returns, setting the node before makes no difference;
  where it throws, the node stays set.
* `next_cases`: what a step can do.
* `relays`: the sockets get what the nodes write, in that order and as a `QString`, all of it from
  `onConnected` on until the socket disconnects; what that leaves of it; and what the nodes and the
  registry do if no link throws.
-/

namespace ObjectLink

open Foundation (Machine Run Since run_play since_snoc not_since_nil)
open Running
open Simulation
open Refinement

/-- The byte order mark, which `QString` drops. -/
def byteOrderMark : Bytes := [0xEF, 0xBB, 0xBF]

/-- `QString`, as far as it is used here: UTF-8 is converted to it and back. -/
structure Qt where
  QString : Type
  fromStdString : Bytes → QString
  toStdString : QString → Bytes
  toStdString_fromStdString : ∀ data, validUtf8 data = true → ¬ byteOrderMark <+: data →
    toStdString (fromStdString data) = data

/-- The conversion loses nothing. -/
def Qt.Keeps (qt : Qt) (data : Bytes) : Prop := qt.toStdString (qt.fromStdString data) = data

/-- The members of an `OLinkClient` but for its node, and its socket. -/
structure OLinkClient (qt : Qt) where
  queue : List Bytes
  /-- Whether the socket is in `ConnectedState`. -/
  connected : Bool
  /-- The text messages that the socket has been given to send, oldest first. -/
  sent : List qt.QString

/-- Any number of them, each with the node of the same number. -/
structure OLinkClients (qt : Qt) where
  world : World
  clients : NodeRef → OLinkClient qt

namespace OLinkClient

variable {qt : Qt}

/-- The loop of `processMessages`. -/
def sendAll (c : OLinkClient qt) : List Bytes → OLinkClient qt
  | [] => c
  | msg :: queue =>
    sendAll { c with queue := queue, sent := c.sent ++ [qt.fromStdString msg] } queue

/-- `processMessages`. -/
def processMessages (c : OLinkClient qt) : OLinkClient qt :=
  if c.connected then sendAll c c.queue else c

/-- The write function of the node. -/
def write (c : OLinkClient qt) (msg : Bytes) : OLinkClient qt :=
  processMessages { c with queue := c.queue ++ [msg] }

/-- `onConnected`. -/
def onConnected (c : OLinkClient qt) : OLinkClient qt := processMessages c

/-- What the socket gets if it connects, and has got. -/
def messages (c : OLinkClient qt) : List qt.QString := c.sent ++ c.queue.map qt.fromStdString

variable {c : OLinkClient qt}

theorem sendAll_eq (queue : List Bytes) : sendAll { c with queue := queue } queue
    = { c with queue := [], sent := c.sent ++ queue.map qt.fromStdString } := by
  induction queue generalizing c with
  | nil =>
    rw [List.map_nil, List.append_nil]
    rfl
  | cons msg queue ih =>
    have hrest := ih (c := { c with sent := c.sent ++ [qt.fromStdString msg] })
    rw [List.append_assoc] at hrest
    exact hrest

theorem processMessages_eq : processMessages c = if c.connected then
    { c with queue := [], sent := c.sent ++ c.queue.map qt.fromStdString } else c := by
  unfold processMessages
  split
  · exact sendAll_eq c.queue
  · rfl

/-- Nothing is lost and nothing changes its place. -/
theorem messages_processMessages : (processMessages c).messages = c.messages := by
  rw [processMessages_eq]
  split
  · exact List.append_nil _
  · rfl

theorem processMessages_connected : (processMessages c).connected = c.connected := by
  rw [processMessages_eq]
  split <;> rfl

theorem processMessages_queue (hc : c.connected = true) : (processMessages c).queue = [] := by
  rw [processMessages_eq, if_pos hc]

theorem messages_write (data : List Bytes) :
    (data.foldl write c).messages = c.messages ++ data.map qt.fromStdString := by
  induction data generalizing c with
  | nil => exact (List.append_nil _).symm
  | cons msg data ih =>
    have hfirst : (write c msg).messages = c.messages ++ [qt.fromStdString msg] := by
      refine messages_processMessages.trans ?_
      unfold messages
      rw [List.map_append, List.append_assoc]
      rfl
    rw [List.foldl_cons, ih, hfirst, List.append_assoc]
    rfl

theorem write_connected (data : List Bytes) : (data.foldl write c).connected = c.connected := by
  induction data generalizing c with
  | nil => rfl
  | cons msg data ih => exact ih.trans processMessages_connected

theorem write_queue (hc : c.connected = true) (hq : c.queue = []) (data : List Bytes) :
    (data.foldl write c).queue = [] := by
  induction data generalizing c with
  | nil => exact hq
  | cons msg data ih =>
    exact ih (processMessages_connected.trans hc) (processMessages_queue hc)

end OLinkClient

namespace OLinkClients

/-- What can happen. -/
inductive Action (qt : Qt) where
  /-- What the constructor, the user of the node, of the registry or of a sink does. -/
  | node (a : ClientAction)
  | handleTextMessage (n : NodeRef) (message : qt.QString)
  | linkObjectSource (n : NodeRef) (name : Bytes)
  /-- The state of the socket changes. -/
  | connects (n : NodeRef)
  | disconnects (n : NodeRef)
  | onConnected (n : NodeRef)

variable {qt : Qt}

/-- Other code outside ends as `answer` says; the write function of an `OLinkClient` returns. -/
def writing (answer : List Event → OutsideCall → Except Thrown Json) (history : List Event) :
    OutsideCall → Except Thrown Json
  | .write _ _ => .ok .null
  | c => answer history c

/-- What the nodes and the registry do where linking an object does not throw. -/
def clientAction (x : Configured (Action qt)) : Option (Configured ClientAction) :=
  match x.action with
  | .node a => some ⟨x.loggers, a⟩
  | .handleTextMessage n message => some ⟨x.loggers, .receive n (qt.toStdString message)⟩
  | .linkObjectSource n name => some ⟨x.loggers, .linkRemote n name⟩
  | .connects _ | .disconnects _ | .onConnected _ => none

/-- After the code of the library, which has called the write functions of the nodes. -/
def relay (s : OLinkClients qt) (w : World) : OLinkClients qt where
  world := w
  clients n := (Network.sent (.client n) (w.history.drop s.world.history.length)).foldl
    OLinkClient.write (s.clients n)

/-- Changes one of them. -/
def update (s : OLinkClients qt) (n : NodeRef) (f : OLinkClient qt → OLinkClient qt) :
    OLinkClients qt :=
  { s with clients := fun m => if m = n then f (s.clients m) else s.clients m }

section Machine

variable (lib : Codecs) (k : MessageConverter)
  (answer : List Event → OutsideCall → Except Thrown Json)

/-- `linkObjectSource`. -/
def linkObjectSource (n : NodeRef) (name : Bytes) : Routine Unit := do
  let id ← Operations.ClientNode.nodeId n
  Operations.ClientRegistry.setNode id name
  Operations.ClientNode.linkRemote lib n name

/-- The clients after an action. -/
def next (L : LoggerId → Logger) (s : OLinkClients qt) : Action qt → OLinkClients qt
  | .node a => relay s (nextClient lib (writing answer) L s.world a)
  | .handleTextMessage n message =>
    relay s (nextClient lib (writing answer) L s.world (.receive n (qt.toStdString message)))
  | .linkObjectSource n name =>
    relay s (run (.detached (writing answer)) L (linkObjectSource lib n name) s.world).2.unnamed
  | .connects n => update s n fun c => { c with connected := true }
  | .disconnects n => update s n fun c => { c with connected := false }
  | .onConnected n => update s n OLinkClient.onConnected

/-- The node lives as long as its `OLinkClient`. -/
def Enabled (L : LoggerId → Logger) (s : OLinkClients qt) : Action qt → Prop
  | .node a => ClientEnabled lib k (writing answer) L s.world a ∧ ∀ n, a ≠ .destroy n
  | .handleTextMessage n _ | .linkObjectSource n _ => s.world.library.client.nodeAlive n = true
  | .connects _ | .disconnects _ | .onConnected _ => True

/-- The start: nothing registered, and nothing written. -/
structure Init (s : OLinkClients qt) : Prop where
  world : ClientInit k s.world
  clients : ∀ n, (s.clients n).sent = [] ∧ (s.clients n).queue = []

/-- The clients, and what is logged meanwhile. -/
def machine (qt : Qt) : Machine (OLinkClients qt) (Configured (Action qt)) where
  init := Init k
  enabled s x := Enabled lib k answer x.loggers s x.action
  next s x := next lib answer x.loggers s x.action

end Machine

variable {lib : Codecs} {k : MessageConverter}
  {answer : List Event → OutsideCall → Except Thrown Json} {L : LoggerId → Logger}
  {s : OLinkClients qt} {w : World} {n m : NodeRef} {name : Bytes} {a : Action qt}

theorem update_same (f : OLinkClient qt → OLinkClient qt) :
    (update s n f).clients n = f (s.clients n) :=
  if_pos rfl

theorem update_other (hn : n ≠ m) (f : OLinkClient qt → OLinkClient qt) :
    (update s m f).clients n = s.clients n :=
  if_neg hn

/-! ## Linking -/

/-- Writing a message leaves the registry alone, and does not look at it. -/
theorem written_updateRegistry (f : ClientRegistry → ClientRegistry) (msg : Json) :
    written (.detached answer) lib (.client n) msg (w.update (·.updateClientRegistry f))
      = ((written (.detached answer) lib (.client n) msg w).1,
        (written (.detached answer) lib (.client n) msg w).2.update
          (·.updateClientRegistry f)) := by
  have hwrite : (w.update (·.updateClientRegistry f)).library.writeFunc (.client n)
      = w.library.writeFunc (.client n) := rfl
  have hconverter : (w.update (·.updateClientRegistry f)).library.converters (.client n)
      = w.library.converters (.client n) := rfl
  unfold written
  rw [hwrite, hconverter]
  split
  · cases (w.library.converters (.client n)).toString lib msg with
    | ok data => rfl
    | error e => rfl
  · rfl

/-- The same for its log message. -/
theorem emitWrite_updateRegistry (f : ClientRegistry → ClientRegistry) (msg : Json) :
    run (.detached answer) L (Operations.BaseNode.emitWrite lib (.client n) msg)
        (w.update (·.updateClientRegistry f))
      = ((run (.detached answer) L (Operations.BaseNode.emitWrite lib (.client n) msg) w).1,
        (run (.detached answer) L (Operations.BaseNode.emitWrite lib (.client n) msg) w).2.update
          (·.updateClientRegistry f)) := by
  rw [run_emitWrite, run_emitWrite, written_updateRegistry]
  cases dumped lib msg ((L (.node (.client n))).logs .debug) with
  | ok u => rfl
  | error e => rfl

/-- A node that was set before is as if it had not been. -/
theorem relinked_updateRegistry (id : Nat) :
    relinked n name (w.update (·.updateClientRegistry (·.setNode id name)))
      = relinked n name w :=
  congrArg (fun r => w.update (·.updateClientRegistry fun _ => r))
    (ClientRegistry.relink_setNode (w.library.client.nodes n).nodeId)

/-- The node is set, and then linked. -/
theorem run_setAndLink : run (.detached answer) L (linkObjectSource lib n name) w
    = run (.detached answer) L (Operations.ClientNode.linkRemote lib n name) (w.update
        (·.updateClientRegistry (·.setNode (w.library.client.nodes n).nodeId name))) := by
  unfold linkObjectSource
  rw [run_bind_ok (run_clientNodeId n), run_bind_ok (run_setNode _ name)]

/-- **Linking** ends as `linkRemote` does, and comes down to it where that returns; where it throws,
the object is the node's all the same. -/
theorem run_linkObjectSource : run (.detached answer) L (linkObjectSource lib n name) w =
    match run (.detached answer) L (Operations.ClientNode.linkRemote lib n name) w with
    | (.ok _, w') => (.ok (), w')
    | (.error e, w') => (.error e, w'.update
        (·.updateClientRegistry (·.setNode (w.library.client.nodes n).nodeId name))) := by
  rw [run_setAndLink, run_linkRemote, run_linkRemote, emitWrite_updateRegistry]
  generalize run (.detached answer) L (Operations.BaseNode.emitWrite lib (.client n)
    (Protocol.linkMessage name)) w = r
  match r with
  | (.ok _, w') => exact congrArg (Prod.mk _) (relinked_updateRegistry _)
  | (.error e, w') => rfl

theorem run_linkObjectSource_ok
    (h : (run (.detached answer) L (linkObjectSource lib n name) w).1 = .ok ()) :
    run (.detached answer) L (linkObjectSource lib n name) w
      = run (.detached answer) L (Operations.ClientNode.linkRemote lib n name) w := by
  rw [run_linkObjectSource] at h ⊢
  match hr : run (.detached answer) L (Operations.ClientNode.linkRemote lib n name) w with
  | (.ok _, w') => rfl
  | (.error e, w') =>
    rw [hr] at h
    cases h

/-! ## One step -/

/-- The client side after an operation is one of messages, with no less on record. -/
structure Follows (lib : Codecs) (k : MessageConverter)
    (answer : List Event → OutsideCall → Except Thrown Json) (w w' : World) : Prop where
  matching : ∃ c, MatchesClient lib k answer w' c
  history : w.history <+: w'.history

theorem history_unnamed (h : ∃ c, MatchesClient lib k answer w c) (p : Routine Unit) :
    w.history <+: (run (.detached answer) L p w).2.unnamed.history := by
  obtain ⟨c, hc⟩ := h
  have hfiltered : w.history.filter (fun e => !e.1.isName) = w.history :=
    congrArg World.history (unnamed_of_matches hc)
  rw [← hfiltered]
  exact (run_history p w).filter _

theorem follows_nextClient (h : ∃ c, MatchesClient lib k answer w c) {b : ClientAction}
    (hen : ClientEnabled lib k answer L w b) :
    Follows lib k answer w (nextClient lib answer L w b) := by
  obtain ⟨c, hc⟩ := h
  refine ⟨⟨_, matches_nextClient hc hen⟩, ?_⟩
  cases b with
  | sinkExpires x => exact List.prefix_rfl
  | _ => exact history_unnamed ⟨c, hc⟩ _

theorem follows_linkObjectSource (h : ∃ c, MatchesClient lib k answer w c) :
    Follows lib k answer w
      (run (.detached answer) L (linkObjectSource lib n name) w).2.unnamed := by
  refine ⟨?_, history_unnamed h _⟩
  obtain ⟨c, hc⟩ := h
  have hset := hc.update (fun c => { c with
      registry := c.registry.setNode (w.library.client.nodes n).nodeId name })
    (by rw [← hc.client])
  rw [run_setAndLink]
  exact ⟨_, matches_of_agreeClient (linkRemote_agrees hset n name)⟩

theorem receive_enabled (message : Bytes) (hen : w.library.client.nodeAlive n = true) :
    ClientEnabled lib k answer L w (.receive n message) :=
  ⟨hen, fun _ h => (by cases h), fun _ h => (by cases h)⟩

/-- **What a step can do**: the client side does something, which is then passed on, or the socket
gets some of what is in the queue, or its state changes. -/
theorem next_cases (h : ∃ c, MatchesClient lib k (writing answer) s.world c)
    (hen : Enabled lib k answer L s a) :
    (∃ w, Follows lib k (writing answer) s.world w ∧ next lib answer L s a = relay s w) ∨
    ∃ m f, next lib answer L s a = update s m f ∧ ∀ c, (f c).messages = c.messages := by
  cases a with
  | node b => exact Or.inl ⟨_, follows_nextClient h hen.1, rfl⟩
  | handleTextMessage n message =>
    exact Or.inl ⟨_, follows_nextClient h (receive_enabled _ hen), rfl⟩
  | linkObjectSource n name => exact Or.inl ⟨_, follows_linkObjectSource h, rfl⟩
  | connects n => exact Or.inr ⟨n, fun c => { c with connected := true }, rfl, fun _ => rfl⟩
  | disconnects n => exact Or.inr ⟨n, fun c => { c with connected := false }, rfl, fun _ => rfl⟩
  | onConnected n => exact Or.inr ⟨n, _, rfl, fun _ => OLinkClient.messages_processMessages⟩

/-- The invariant: the world is as one of messages, and what a node has written has been given to
its socket, or is in the queue. -/
structure Inv (lib : Codecs) (k : MessageConverter)
    (answer : List Event → OutsideCall → Except Thrown Json) (s : OLinkClients qt) : Prop where
  world : ∃ c, MatchesClient lib k (writing answer) s.world c
  order : ∀ n, (s.clients n).messages
    = (Network.sent (.client n) s.world.history).map qt.fromStdString

theorem inv_init (hs : Init k s) : Inv lib k answer s := by
  refine ⟨⟨{ s.world.library.client with effects := [] }, rfl, hs.world.history,
    hs.world.converter, hs.world.shared⟩, fun n => ?_⟩
  unfold OLinkClient.messages
  rw [(hs.clients n).1, (hs.clients n).2, hs.world.history]
  rfl

theorem inv_next (hi : Inv lib k answer s) (hen : Enabled lib k answer L s a) :
    Inv lib k answer (next lib answer L s a) := by
  rcases next_cases hi.world hen with ⟨w, ⟨hw, hprefix⟩, hnext⟩ | ⟨m, f, hnext, hf⟩
  · rw [hnext]
    refine ⟨hw, fun n => ?_⟩
    have hsent : Network.sent (.client n) s.world.history
        ++ Network.sent (.client n) (w.history.drop s.world.history.length)
          = Network.sent (.client n) w.history := by
      unfold Network.sent
      rw [← List.filterMap_append, List.prefix_iff_eq_append.mp hprefix]
    refine (OLinkClient.messages_write _).trans ?_
    rw [hi.order n, ← List.map_append, hsent]
    rfl
  · rw [hnext]
    refine ⟨hi.world, fun n => ?_⟩
    by_cases hn : n = m
    · subst hn
      rw [update_same, hf]
      exact hi.order n
    · rw [update_other hn]
      exact hi.order n

/-! ## Formats -/

/-- What a node has written are messages that were converted. -/
theorem sent_eq_bytes {c : Client} (h : MatchesClient lib k answer w c) (n : NodeRef) :
    Network.sent (.client n) w.history
      = (Connections.writtenByClient n c.effects).map (bytes lib k) := by
  have hcall : ∀ history e, (clientEvent lib k answer history e).1 = clientCall lib k e :=
    fun _ _ => rfl
  have hcalls := Network.calls_drop hcall [] c.effects
  rw [h.history, Network.sent_eq, ← Network.dataTo_clientCalls]
  exact congrArg (List.filterMap _) hcalls

/-- What `dump` makes of a value is UTF-8, with no byte order mark. -/
def DumpsText (lib : Codecs) : Prop :=
  ∀ j data, lib.dump j = .ok data → validUtf8 data = true ∧ ¬ byteOrderMark <+: data

/-- JSON survives. -/
theorem keeps_of_json (qt : Qt) (hjson : k.format = .json) (hlib : DumpsText lib) (msg : Json) :
    qt.Keeps (bytes lib k msg) := by
  unfold bytes MessageConverter.toString
  rw [hjson]
  dsimp only
  cases hd : lib.dump msg with
  | ok data =>
    obtain ⟨hvalid, hmark⟩ := hlib msg data hd
    exact qt.toStdString_fromStdString data hvalid hmark
  | error what => exact qt.toStdString_fromStdString [] rfl (by decide)

/-! ## Whole runs -/

/-- `onConnected` is called while the socket is connected. -/
def Connected (n : NodeRef) (x : OLinkClients qt × Configured (Action qt)) : Prop :=
  x.2.action = .onConnected n ∧ (x.1.clients n).connected = true

/-- The socket disconnects. -/
def Disconnects (n : NodeRef) (x : OLinkClients qt × Configured (Action qt)) : Prop :=
  x.2.action = .disconnects n

/-- If it is `linkObjectSource`, the call returns. -/
def LinkReturns (lib : Codecs) (answer : List Event → OutsideCall → Except Thrown Json)
    (s : OLinkClients qt) (x : Configured (Action qt)) : Prop :=
  ∀ n name, x.action = .linkObjectSource n name →
    (run (.detached (writing answer)) x.loggers (linkObjectSource lib n name) s.world).1 = .ok ()

/-- The socket is connected, and nothing waits for it. -/
def Flows (n : NodeRef) (s : OLinkClients qt) : Prop :=
  (s.clients n).connected = true ∧ (s.clients n).queue = []

theorem flows_relay (h : Flows n s) (w : World) : Flows n (relay s w) :=
  ⟨(OLinkClient.write_connected _).trans h.1, OLinkClient.write_queue h.1 h.2 _⟩

theorem flows_connected (hc : (s.clients n).connected = true) :
    Flows n (next lib answer L s (.onConnected n)) := by
  unfold Flows next
  rw [update_same]
  exact ⟨OLinkClient.processMessages_connected.trans hc, OLinkClient.processMessages_queue hc⟩

/-- Only a disconnect ends that. -/
theorem flows_next (hd : a ≠ .disconnects n) (h : Flows n s) :
    Flows n (next lib answer L s a) := by
  cases a with
  | node b => exact flows_relay h _
  | handleTextMessage m message => exact flows_relay h _
  | linkObjectSource m name => exact flows_relay h _
  | connects m =>
    by_cases hn : n = m
    · subst hn
      unfold Flows next
      rw [update_same]
      exact ⟨rfl, h.2⟩
    · unfold Flows next
      rw [update_other hn]
      exact h
  | disconnects m =>
    have hn : n ≠ m := fun hn => hd (congrArg Action.disconnects hn.symm)
    unfold Flows next
    rw [update_other hn]
    exact h
  | onConnected m =>
    by_cases hn : n = m
    · subst hn
      exact flows_connected h.1
    · unfold Flows next
      rw [update_other hn]
      exact h

/-- If no link throws, the nodes and the registry do what they do in a run of the client side. -/
theorem client_shown {h : List (OLinkClients qt × Configured (Action qt))}
    (hr : Run (machine lib k answer qt) h s) (hreturns : ∀ x ∈ h, LinkReturns lib answer x.1 x.2) :
    ∃ h', Run (clientMachine lib k (writing answer)) h' s.world ∧
      h'.map Prod.snd = (h.map Prod.snd).filterMap clientAction := by
  refine hr.shows (N := clientMachine lib k (writing answer)) OLinkClients.world clientAction
    (fun s (hs : Init k s) => hs.world) ?_ ?_ hreturns
  · rintro s ⟨L, a⟩ ha
    cases a with
    | node | handleTextMessage | linkObjectSource => cases ha
    | connects | disconnects | onConnected => rfl
  · rintro s ⟨L, a⟩ b hen hreturned ha
    cases a with
    | connects | disconnects | onConnected => cases ha
    | node a =>
      cases ha
      exact ⟨hen.1, rfl⟩
    | handleTextMessage n message =>
      cases ha
      exact ⟨receive_enabled _ hen, rfl⟩
    | linkObjectSource n name =>
      cases ha
      have hrun := run_linkObjectSource_ok (hreturned n name rfl)
      exact ⟨⟨hen, fun _ h => (by cases h), fun _ h => (by cases h)⟩,
        congrArg (fun r => World.unnamed (Prod.snd r)) hrun⟩

/-- **What the nodes write reaches the sockets**: in every run, what a node has written has been
given to its socket in that order and as a `QString`, except for the last messages, which are in
the queue; and from `onConnected` on, until the socket disconnects, none are. The bytes of the node
can then be told from what the socket sends exactly if all of them survive `QString`, as those of
JSON do. If no `linkObjectSource` throws, the nodes and the registry do what they do in the run of
the client side where each of them is `linkRemote`. -/
theorem relays {h : List (OLinkClients qt × Configured (Action qt))}
    (hr : Run (machine lib k answer qt) h s) :
    (∀ n,
      (s.clients n).sent ++ (s.clients n).queue.map qt.fromStdString
        = (Network.sent (.client n) s.world.history).map qt.fromStdString ∧
      (Since (Connected n) (Disconnects n) h →
        (s.clients n).sent = (Network.sent (.client n) s.world.history).map qt.fromStdString ∧
        ((s.clients n).sent.map qt.toStdString = Network.sent (.client n) s.world.history ↔
          ∀ data ∈ Network.sent (.client n) s.world.history, qt.Keeps data)) ∧
      (k.format = .json → DumpsText lib →
        ∀ data ∈ Network.sent (.client n) s.world.history, qt.Keeps data)) ∧
    ((∀ x ∈ h, LinkReturns lib answer x.1 x.2) →
      ∃ h', Run (clientMachine lib k (writing answer)) h' s.world ∧
        h'.map Prod.snd = (h.map Prod.snd).filterMap clientAction) := by
  have hi : Inv lib k answer s :=
    hr.invariant (fun _ hs => inv_init hs) fun _ _ hi hen => inv_next hi hen
  refine ⟨fun n => ⟨hi.order n, fun hs => ?_, fun hjson hlib data hdata => ?_⟩, client_shown hr⟩
  · have hflows : Flows n s := by
      refine hr.of_since (Q := Flows n) ?_ ?_ hs
      · rintro s ⟨L, a⟩ - ⟨rfl, hc⟩
        have hflows : Flows n (next lib answer L s (.onConnected n)) := flows_connected hc
        exact hflows
      · rintro s ⟨L, a⟩ - hd hflows
        have hstill : Flows n (next lib answer L s a) := flows_next hd hflows
        exact hstill
    have hsent : (s.clients n).sent
        = (Network.sent (.client n) s.world.history).map qt.fromStdString := by
      rw [← hi.order n, OLinkClient.messages, hflows.2, List.map_nil, List.append_nil]
    have hread : ∀ l : List Bytes,
        (l.map qt.fromStdString).map qt.toStdString = l ↔ ∀ data ∈ l, qt.Keeps data := by
      intro l
      rw [List.map_map]
      exact ⟨fun h => List.map_inj_left.mp (h.trans (List.map_id l).symm),
        fun h => (List.map_inj_left.mpr h).trans (List.map_id l)⟩
    refine ⟨hsent, ?_⟩
    rw [hsent]
    exact hread _
  · obtain ⟨c, hc⟩ := hi.world
    rw [sent_eq_bytes hc] at hdata
    obtain ⟨msg, -, rfl⟩ := List.mem_map.mp hdata
    exact keeps_of_json qt hjson hlib msg

/-! ### An object that is linked before the socket connects -/

/-- Data that are not UTF-8 become a replacement character. -/
def replacing : Qt where
  QString := Bytes
  fromStdString data := if validUtf8 data then data else [0xEF, 0xBF, 0xBD]
  toStdString data := data
  toStdString_fromStdString _ hvalid _ := if_pos hvalid

/-- A library that knows the `Link` of an object in JSON and in CBOR. -/
def linkFormats : Codecs :=
  .knowing (.array [.unsigned 10, .string (lit "o")]) (lit "[10,\"o\"]") []
    [0x82, 0x0A, 0x61, 0x6F]

/-- Nothing is connected yet, and the nodes have this format. -/
def start (format : MessageFormat) : OLinkClients replacing where
  world := fresh.update fun l => { l with converters := fun _ => .new format }
  clients _ := { queue := [], connected := false, sent := [] }

/-- A client that links an object before it is connected. -/
def linksEarly : List (Configured (Action replacing)) :=
  [.silent (.node .create), ⟨verbose, .node (.onWrite 0)⟩, ⟨verbose, .linkObjectSource 0 (lit "o")⟩,
    ⟨verbose, .connects 0⟩, ⟨verbose, .onConnected 0⟩]

/-- The clients after this. -/
def linkedEarly (format : MessageFormat) (actions : List (Configured (Action replacing))) :
    OLinkClients replacing :=
  (machine linkFormats (.new format) returns replacing).exec (start format) actions

theorem run_linksEarly (format : MessageFormat) :
    Run (machine linkFormats (.new format) returns replacing)
      ((machine linkFormats (.new format) returns replacing).history (start format) linksEarly)
      (linkedEarly format linksEarly) := by
  refine run_play linksEarly ⟨⟨rfl, fun _ => rfl, rfl, fun _ => rfl, fun _ => rfl⟩,
    fun _ => ⟨rfl, rfl⟩⟩ ?_
  refine ⟨⟨⟨?_, fun _ h => (by cases h), fun _ h => (by cases h)⟩, fun _ h => (by cases h)⟩,
    ⟨⟨?_, fun _ h => (by cases h), fun _ h => (by cases h)⟩, fun _ h => (by cases h)⟩,
    ?_, trivial, trivial, trivial⟩
  · cases format <;> decide +kernel
  · cases format <;> decide +kernel
  · cases format <;> rfl

/-- The message waits for the socket. As JSON it is what the socket then sends; as CBOR it is lost
on the way. -/
theorem relays_linksEarly :
    ((linkedEarly .json (linksEarly.take 4)).clients 0).sent.length = 0 ∧
    ((linkedEarly .json linksEarly).clients 0).sent.map replacing.toStdString
      = [lit "[10,\"o\"]"] ∧
    ((linkedEarly .cbor linksEarly).clients 0).sent.map replacing.toStdString
      ≠ Network.sent (.client 0) (linkedEarly .cbor linksEarly).world.history := by
  have hjson := ((relays (run_linksEarly .json)).1 0).2
  have hcbor := ((relays (run_linksEarly .cbor)).1 0).2
  refine ⟨rfl, ?_, fun h => ?_⟩
  · refine ((hjson.1 ?_).2.mpr (hjson.2 rfl ?_)).trans ?_
    · exact since_snoc (h := [_, _, _, _]).mpr (Or.inl ⟨rfl, rfl⟩)
    · intro j data hj
      change (if j.validUtf8 = true then Except.ok (lit "[10,\"o\"]") else _) = _ at hj
      split at hj
      · cases hj
        decide
      · cases hj
    · decide +kernel
  · have hkeeps := (hcbor.1 (since_snoc (h := [_, _, _, _]).mpr (Or.inl ⟨rfl, rfl⟩))).2.mp h
    have hlost : ¬ replacing.Keeps [0x82, 0x0A, 0x61, 0x6F] := by
      unfold Qt.Keeps replacing
      decide
    refine hlost (hkeeps _ ?_)
    decide +kernel

end OLinkClients

end ObjectLink
