import ObjectLink.ClientRuns
import ObjectLink.RemoteRuns

/-!
# Clients and servers that are connected

The client side and the server side with a connection for each node: node `n` of the client side
and node `n` of the server side are the two ends of connection `n`, which delivers what the nodes
write in the order in which they write it. Messages that reach a client node that is gone are
dropped.

`linkRemote` and `unlinkRemote` write a message on the connection of the node they are called on,
but change the entry of the object whichever node is in it (`clientnode.cpp:30-49`). Where that is
another node, its own connection carries nothing, and its remote node stays linked.

A node that is created while its storage is full has no id, and its side takes no notice of its
links. If the node at the other end has one, that side does.

Results:
* `settle`: what a remote node knows of an object once everything under way has arrived.
* `Inv`, `inv_next`: the two sides and the connections fit together, also where a storage has been
  full; `Bounded`, `bounded_next`: all nodes have ids if none has been.
* `willAgree_next`, `willAgree_run`: both sides will agree on who is linked exactly as long as a
  node links and unlinks only objects that no other node has, and a connection through which an
  object is linked has ids at both ends or at neither.
* `agree_run`: then they do agree whenever no message is under way.
* `takeover_disagrees`: two nodes that link an object one after the other.
-/

namespace ObjectLink

open Foundation (Machine Run run_play)

/-- Both sides, and the messages under way on each connection, oldest first. -/
structure Connections where
  client : Client
  server : Server
  toServer : NodeRef → List Json
  toClient : NodeRef → List Json

namespace Connections

/-- What client node `n` has written. -/
def writtenByClient (n : NodeRef) (effects : List ClientEffect) : List Json :=
  effects.filterMap fun
    | .write m msg => if m = n then some msg else none
    | _ => none

/-- What remote node `n` has written. -/
def writtenByServer (n : NodeRef) (effects : List ServerEffect) : List Json :=
  effects.filterMap fun
    | .write m msg => if m = n then some msg else none
    | _ => none

/-- An operation of the client side, whose writes enter the connections. -/
def stepClient (lib : JsonLibrary) (s : Connections) (a : Client.Action) : Connections :=
  let client := Client.next lib s.client a
  { s with
    client := client
    toServer := fun n =>
      s.toServer n ++ writtenByClient n (client.effects.drop s.client.effects.length) }

/-- An operation of the server side. -/
def stepServer (lib : JsonLibrary) (s : Connections) (a : Server.Action) : Connections :=
  let server := Server.next lib s.server a
  { s with
    server := server
    toClient := fun n =>
      s.toClient n ++ writtenByServer n (server.effects.drop s.server.effects.length) }

/-- What can happen. -/
inductive Action where
  | connect
  | linkRemote (n : NodeRef) (objectId : ObjectId)
  | unlinkRemote (n : NodeRef) (objectId : ObjectId)
  | destroy (n : NodeRef)
  | addSink (sink : WeakPtr Sink)
  | sinkExpires (s : Sink)
  | deliverToServer (n : NodeRef)
  | deliverToClient (n : NodeRef)

section Machine

variable (lib : JsonLibrary) (clientEnv : ClientEnv) (serverEnv : ServerEnv)

/-- Both sides after it; a message is delivered once, the oldest one first. -/
def next (s : Connections) : Action → Connections
  | .connect =>
    let n := s.client.nextNode
    let m := s.server.nextNode
    let s := stepServer lib (stepClient lib s .create) .create
    stepServer lib (stepClient lib s (.onWrite n)) (.onWrite m)
  | .linkRemote n o => stepClient lib s (.linkRemote n o)
  | .unlinkRemote n o => stepClient lib s (.unlinkRemote n o)
  | .destroy n => stepClient lib s (.destroy n)
  | .addSink sink => stepClient lib s (.addSink sink)
  | .sinkExpires x => stepClient lib s (.sinkExpires x)
  | .deliverToServer n =>
    match s.toServer n with
    | [] => s
    | msg :: rest =>
      let s := { s with toServer := fun m => if m = n then rest else s.toServer m }
      stepServer lib s (.receive n msg serverEnv)
  | .deliverToClient n =>
    match s.toClient n with
    | [] => s
    | msg :: rest =>
      let s := { s with toClient := fun m => if m = n then rest else s.toClient m }
      if s.client.nodeAlive n then stepClient lib s (.receive n msg clientEnv) else s

/-- Operations are called on live nodes, nodes are created only while neither storage is full, and
what is delivered is there. -/
def Enabled (s : Connections) : Action → Prop
  | .connect => Client.Enabled s.client .create ∧ Server.Enabled s.server .create
  | .linkRemote n _ | .unlinkRemote n _ | .destroy n => s.client.nodeAlive n = true
  | .addSink _ | .sinkExpires _ => True
  | .deliverToServer n => s.toServer n ≠ []
  | .deliverToClient n => s.toClient n ≠ []

instance decidableEnabled (s : Connections) : (a : Action) → Decidable (Enabled s a)
  | .connect => inferInstanceAs (Decidable (_ < _ ∧ _ < _))
  | .linkRemote _ _ | .unlinkRemote _ _ | .destroy _ => inferInstanceAs (Decidable (_ = _))
  | .addSink _ | .sinkExpires _ => inferInstanceAs (Decidable True)
  | .deliverToServer n =>
    match h : s.toServer n with
    | [] => isFalse fun hne => hne h
    | _ :: _ => isTrue fun he => by rw [h] at he; cases he
  | .deliverToClient n =>
    match h : s.toClient n with
    | [] => isFalse fun hne => hne h
    | _ :: _ => isTrue fun he => by rw [h] at he; cases he

/-- A connection may also be opened while a storage is full. -/
def Possible (s : Connections) : Action → Prop
  | .connect => True
  | a => Enabled s a

/-- The start: no node and no message, and the sources registered that are there throughout. -/
structure Init (s : Connections) : Prop where
  client : Client.Init s.client
  remoteNodesById : s.server.registry.remoteNodesById = .new 0xFFFFFFFF
  nodeIds : ∀ o, s.server.registry.nodeIds o = []
  nodeAlive : ∀ n, s.server.nodeAlive n = false
  clientNextNode : s.client.nextNode = 0
  serverNextNode : s.server.nextNode = 0
  toServer : ∀ n, s.toServer n = []
  toClient : ∀ n, s.toClient n = []

/-- Both sides without a bound on the number of connections. -/
def unboundedMachine : Machine Connections Action where
  init := Init
  enabled := Possible
  next := next lib clientEnv serverEnv

instance decidablePossible (s : Connections) :
    (a : Action) → Decidable ((unboundedMachine lib clientEnv serverEnv).enabled s a)
  | .connect => inferInstanceAs (Decidable True)
  | .linkRemote n o => decidableEnabled s (.linkRemote n o)
  | .unlinkRemote n o => decidableEnabled s (.unlinkRemote n o)
  | .destroy n => decidableEnabled s (.destroy n)
  | .addSink sink => decidableEnabled s (.addSink sink)
  | .sinkExpires x => decidableEnabled s (.sinkExpires x)
  | .deliverToServer n => decidableEnabled s (.deliverToServer n)
  | .deliverToClient n => decidableEnabled s (.deliverToClient n)

end Machine

variable {lib : JsonLibrary} {clientEnv : ClientEnv} {serverEnv : ServerEnv} {s : Connections}
  {o k : ObjectId} {n m : NodeRef}

/-! ## What the connections carry -/

theorem writtenByClient_append (l₁ l₂ : List ClientEffect) :
    writtenByClient n (l₁ ++ l₂) = writtenByClient n l₁ ++ writtenByClient n l₂ :=
  List.filterMap_append

theorem writtenByClient_eq_nil {effects : List ClientEffect}
    (h : ∀ msg, .write n msg ∉ effects) : writtenByClient n effects = [] := by
  refine List.filterMap_eq_nil_iff.mpr ?_
  intro e he
  cases e with
  | write m msg =>
    refine if_neg fun hm => h msg ?_
    rw [← hm]
    exact he
  | _ => rfl

theorem writtenByServer_append (l₁ l₂ : List ServerEffect) :
    writtenByServer n (l₁ ++ l₂) = writtenByServer n l₁ ++ writtenByServer n l₂ :=
  List.filterMap_append

theorem writtenByServer_eq_nil {effects : List ServerEffect}
    (h : ∀ msg, .write n msg ∉ effects) : writtenByServer n effects = [] := by
  refine List.filterMap_eq_nil_iff.mpr ?_
  intro e he
  cases e with
  | write m msg =>
    refine if_neg fun hm => h msg ?_
    rw [← hm]
    exact he
  | _ => rfl

theorem writtenByClient_written {w : Client} {msg : Json} (hw : (w.nodes m).writeFunc = true) :
    writtenByClient n (ClientNode.written w m msg) = if m = n then [msg] else [] := by
  unfold ClientNode.written
  rw [if_pos hw]
  by_cases hm : m = n
  · simp [writtenByClient, hm]
  · simp [writtenByClient, hm]

theorem writtenByClient_released {w : Client} :
    writtenByClient n (ClientNode.released w o) = [] := by
  refine writtenByClient_eq_nil ?_
  intro msg he
  unfold ClientNode.released at he
  split at he
  · cases List.mem_singleton.mp he
  · cases he

theorem writtenByClient_unlinkEffects {w : Client} (hw : (w.nodes m).writeFunc = true) :
    ∀ ids : List ObjectId, writtenByClient n (ClientNode.unlinkEffects w m ids)
      = if m = n then ids.map Protocol.unlinkMessage else []
  | [] => by simp [ClientNode.unlinkEffects, writtenByClient]
  | k :: ids => by
    have ih := writtenByClient_unlinkEffects hw ids
    unfold ClientNode.unlinkEffects at ih ⊢
    rw [List.flatMap_cons, writtenByClient_append, writtenByClient_append,
      writtenByClient_released, writtenByClient_written hw, ih]
    by_cases hm : m = n
    · simp [hm]
    · simp [hm]

theorem toServer_stepClient (a : Client.Action) : (stepClient lib s a).toServer n
    = s.toServer n ++ writtenByClient n (Client.callsOfAction lib s.client a) := by
  unfold stepClient
  dsimp only
  rw [Client.effects_next, List.drop_left]

/-! ## What a remote node will know -/

/-- Whether a node is linked with an object after a message, from whether it has an id and whether
it was linked before. -/
def after (lib : JsonLibrary) (o : ObjectId) (hasId linked : Prop) (msg : Json) : Prop :=
  match Protocol.decode? lib msg with
  | some (.link k) => (k = o ∧ hasId) ∨ linked
  | some (.unlink k) => k ≠ o ∧ linked
  | _ => linked

/-- Whether it is after all of these messages. -/
def settle (lib : JsonLibrary) (o : ObjectId) (hasId linked : Prop) (msgs : List Json) : Prop :=
  msgs.foldl (after lib o hasId) linked

variable {hasId : Prop}

theorem after_linkMessage {linked : Prop} :
    after lib o hasId linked (Protocol.linkMessage k) ↔ (k = o ∧ hasId) ∨ linked := by
  have hdec : Protocol.decode? lib (Protocol.linkMessage k) = some (.link k) :=
    Protocol.decode?_composed lib (.link k)
  unfold after
  rw [hdec]

theorem after_unlinkMessage {linked : Prop} :
    after lib o hasId linked (Protocol.unlinkMessage k) ↔ k ≠ o ∧ linked := by
  have hdec : Protocol.decode? lib (Protocol.unlinkMessage k) = some (.unlink k) :=
    Protocol.decode?_composed lib (.unlink k)
  unfold after
  rw [hdec]

theorem settle_append {linked : Prop} (l₁ l₂ : List Json) :
    settle lib o hasId linked (l₁ ++ l₂)
      = settle lib o hasId (settle lib o hasId linked l₁) l₂ :=
  List.foldl_append

theorem settle_singleton {linked : Prop} (msg : Json) :
    settle lib o hasId linked [msg] = after lib o hasId linked msg := rfl

theorem settle_congr {p q : Prop} (h : p ↔ q) {msgs : List Json} :
    settle lib o hasId p msgs ↔ settle lib o hasId q msgs := by
  rw [propext h]

/-- A node without an id is not linked by any message. -/
theorem not_settle_of_not_hasId (hid : ¬ hasId) {linked : Prop} (hlinked : ¬ linked)
    (msgs : List Json) : ¬ settle lib o hasId linked msgs := by
  induction msgs generalizing linked with
  | nil => exact hlinked
  | cons msg msgs ih =>
    have hafter : ¬ after lib o hasId linked msg := by
      unfold after
      split
      · exact fun h => h.elim (fun h => hid h.2) hlinked
      · exact fun h => hlinked h.2
      · exact hlinked
    exact ih hafter

theorem settle_unlinkMessages : ∀ (ids : List ObjectId) (linked : Prop),
    settle lib o hasId linked (ids.map Protocol.unlinkMessage) ↔ o ∉ ids ∧ linked
  | [], linked => by simp [settle]
  | k :: ids, linked => by
    have ih := settle_unlinkMessages ids (after lib o hasId linked (Protocol.unlinkMessage k))
    unfold settle at ih ⊢
    rw [List.map_cons, List.foldl_cons, ih, after_unlinkMessage, List.mem_cons]
    constructor
    · rintro ⟨hids, hk, hl⟩
      exact ⟨not_or.mpr ⟨fun ho => hk ho.symm, hids⟩, hl⟩
    · rintro ⟨hno, hl⟩
      exact ⟨fun h => hno (Or.inr h), fun ho => hno (Or.inl ho.symm), hl⟩

/-- **Delivering a message** to a remote node. -/
theorem serves_receive {w : Server} {msg : Json} (hi : Server.Entered w)
    (hn : w.nodeAlive n = true) (ho : (w.source o).isSome)
    (henv : ∀ before x k, serverEnv.call before (.olinkUnlinked x k) = .ok ()) :
    Server.Serves (Server.next lib w (.receive n msg serverEnv)) o m ↔
      if m = n then after lib o ((w.nodes n).nodeId ≠ invalidId) (Server.Serves w o n) msg
      else Server.Serves w o m := by
  obtain ⟨x, hx⟩ := Option.isSome_iff_exists.mp ho
  rw [hi.serves_receive hn]
  unfold after
  cases hdec : Protocol.decode? lib msg with
  | none =>
    have hno : ¬ Server.Linked lib o m (w, .receive n msg serverEnv) := by
      rintro ⟨_, _, ha, hlink, -⟩
      cases ha
      rw [hdec] at hlink
      cases hlink
    have hno' : ¬ Server.Unlinked lib o m (w, .receive n msg serverEnv) := by
      rintro (⟨_, _, _, ha, hunlink, -⟩ | ha | ha)
      · cases ha
        rw [hdec] at hunlink
        cases hunlink
      · cases ha
      · cases ha
    simp only [hno, hno', false_and, false_or, not_false_eq_true, and_true]
    split
    · rename_i h
      rw [h]
    · rfl
  | some c =>
    rw [Server.linked_receive hdec, Server.unlinked_receive hdec]
    by_cases hm : m = n
    · subst hm
      cases c <;> simp [hx, henv, and_comm]
    · simp [hm]

/-! ## The invariant -/

/-- The two sides and the connections fit together. -/
structure Inv (s : Connections) : Prop where
  client : Client.Entered s.client
  server : Server.Entered s.server
  nextNode : s.server.nextNode = s.client.nextNode
  /-- Remote nodes are not destroyed. -/
  remoteAlive : ∀ n < s.client.nextNode, s.server.nodeAlive n = true
  /-- Every client node is connected. -/
  writeFunc : ∀ n, s.client.nodeAlive n = true → (s.client.nodes n).writeFunc = true
  toServer : ∀ n, s.client.nextNode ≤ n → s.toServer n = []

theorem inv_init (hs : Init s) : Inv s := by
  have hempty : Server.Entered s.server := by
    refine ⟨⟨?_, ?_, ?_, ?_, ?_⟩, ?_⟩
    · rw [hs.remoteNodesById]
      exact UniqueIdObjectStorage.wf_new (Nat.le_refl _)
    · rw [hs.remoteNodesById]
      rfl
    · rw [hs.remoteNodesById]
      exact UniqueIdObjectStorage.distinct_new _
    · intro o id hid
      rw [hs.nodeIds] at hid
      cases hid
    · intro o
      rw [hs.nodeIds]
      exact List.nodup_nil
    · rw [hs.remoteNodesById]
      exact .new hs.nodeAlive
  refine ⟨Client.entered_init hs.client, hempty, hs.serverNextNode.trans hs.clientNextNode.symm,
    ?_, ?_, fun n _ => hs.toServer n⟩
  · intro n hn
    rw [hs.clientNextNode] at hn
    exact absurd hn (Nat.not_lt_zero n)
  · intro n hn
    rw [hs.client.nodeAlive] at hn
    cases hn

theorem inv_stepClient {a : Client.Action} (hi : Inv s) (hen : Client.Enabled s.client a)
    (ha : a ≠ .create) : Inv (stepClient lib s a) := by
  obtain ⟨hnext, halive, hwrite⟩ := Client.nodes_next lib (w := s.client) ha
  refine ⟨Client.entered_next hi.client a (Client.possible_of_enabled hen), hi.server,
    hi.nextNode.trans hnext.symm, ?_, fun n hn => hwrite n (hi.writeFunc n (halive n hn)), ?_⟩
  · intro n hn
    exact hi.remoteAlive n (hnext ▸ hn)
  · intro n hn
    have hn : s.client.nextNode ≤ n := hnext ▸ hn
    rw [toServer_stepClient, hi.toServer n hn, List.nil_append]
    refine writtenByClient_eq_nil ?_
    intro msg he
    have hlive := Client.write_mem_callsOfAction hen he
    rw [hi.client.nodes.fresh n hn] at hlive
    cases hlive

/-- What connecting does, on either side and on the connections. -/
theorem next_connect : next lib clientEnv serverEnv s .connect =
    { s with
      client := Client.next lib (Client.next lib s.client .create) (.onWrite s.client.nextNode)
      server :=
        Server.next lib (Server.next lib s.server .create) (.onWrite s.server.nextNode) } := by
  have hclient : ∀ w : Client, ∀ a, Client.callsOfAction lib w a = [] →
      (Client.next lib w a).effects.drop w.effects.length = [] := fun w a ha => by
    rw [Client.effects_next, ha, List.append_nil, List.drop_length]
  have hserver : ∀ w : Server, ∀ a, Server.callsOfAction lib w a = [] →
      (Server.next lib w a).effects.drop w.effects.length = [] := fun w a ha => by
    rw [Server.effects_next, ha, List.append_nil, List.drop_length]
  unfold next stepClient stepServer
  dsimp only
  rw [hclient _ .create rfl, hclient _ (.onWrite _) rfl, hserver _ .create rfl,
    hserver _ (.onWrite _) rfl]
  simp [writtenByClient, writtenByServer]

theorem inv_connect (hi : Inv s) : Inv (next lib clientEnv serverEnv s .connect) := by
  have hcnew : Client.Enabled (Client.next lib s.client .create) (.onWrite s.client.nextNode) :=
    if_pos rfl
  have hsnew : Server.Enabled (Server.next lib s.server .create) (.onWrite s.server.nextNode) :=
    if_pos rfl
  have hclient : Client.Entered (Client.next lib (Client.next lib s.client .create)
      (.onWrite s.client.nextNode)) :=
    Client.entered_next (Client.entered_next hi.client .create trivial) (.onWrite _) hcnew
  have hserver : Server.Entered (Server.next lib (Server.next lib s.server .create)
      (.onWrite s.server.nextNode)) :=
    Server.entered_next (Server.entered_next hi.server .create trivial) (.onWrite _) hsnew
  rw [next_connect]
  refine ⟨hclient, hserver, congrArg (· + 1) hi.nextNode, ?_, ?_,
    fun n hn => hi.toServer n (Nat.le_of_succ_le hn)⟩
  · intro n hn
    show (if n = s.server.nextNode then true else s.server.nodeAlive n) = true
    by_cases he : n = s.server.nextNode
    · rw [if_pos he]
    · rw [if_neg he]
      have hn : n < s.client.nextNode + 1 := hn
      rw [hi.nextNode] at he
      exact hi.remoteAlive n (Nat.lt_of_le_of_ne (Nat.le_of_lt_succ hn) he)
  · intro n hn
    have hn : (if n = s.client.nextNode then true else s.client.nodeAlive n) = true := hn
    show (if n = s.client.nextNode then _ else ((Client.next lib s.client .create).nodes n) :
      ClientNodeState).writeFunc = true
    by_cases he : n = s.client.nextNode
    · rw [if_pos he]
    · rw [if_neg he] at hn ⊢
      show (if n = s.client.nextNode then _ else s.client.nodes n : ClientNodeState).writeFunc
        = true
      rw [if_neg he]
      exact hi.writeFunc n hn

/-- A message is under way only on a connection, whose remote node is alive. -/
theorem Inv.remoteAlive_of_toServer (hi : Inv s) (hn : s.toServer n ≠ []) :
    s.server.nodeAlive n = true := by
  refine hi.remoteAlive n (Nat.lt_of_not_le fun hle => hn ?_)
  exact hi.toServer n hle

theorem inv_next (hi : Inv s) (a : Action) (hen : Possible s a) :
    Inv (next lib clientEnv serverEnv s a) := by
  cases a with
  | connect => exact inv_connect hi
  | linkRemote n k => exact inv_stepClient hi hen Client.Action.noConfusion
  | unlinkRemote n k => exact inv_stepClient hi hen Client.Action.noConfusion
  | destroy n => exact inv_stepClient hi hen Client.Action.noConfusion
  | addSink sink => exact inv_stepClient hi trivial Client.Action.noConfusion
  | sinkExpires x => exact inv_stepClient hi trivial Client.Action.noConfusion
  | deliverToServer n =>
    have hn := hi.remoteAlive_of_toServer hen
    unfold next
    dsimp only
    split
    · exact hi
    · rename_i msg rest hq
      obtain ⟨halive, hnext⟩ :=
        Server.receive_nodes lib s.server (n := n) msg serverEnv
      refine ⟨hi.client, Server.entered_next hi.server (.receive n msg serverEnv) hn,
        hnext.trans hi.nextNode, ?_, hi.writeFunc, ?_⟩
      · intro m hm
        exact (congrFun halive m).trans (hi.remoteAlive m hm)
      · intro m hm
        have hnone := hi.toServer m hm
        show (if m = n then rest else s.toServer m) = []
        rw [if_neg, hnone]
        rintro rfl
        rw [hq] at hnone
        cases hnone
  | deliverToClient n =>
    unfold next
    dsimp only
    split
    · exact hi
    · rename_i msg rest hq
      have hi' : Inv { s with toClient := fun m => if m = n then rest else s.toClient m } :=
        ⟨hi.client, hi.server, hi.nextNode, hi.remoteAlive, hi.writeFunc, hi.toServer⟩
      split
      · rename_i hlive
        exact inv_stepClient hi' hlive Client.Action.noConfusion
      · exact hi'

theorem inv_run (h : List (Connections × Action)) (s : Connections)
    (hr : Run (unboundedMachine lib clientEnv serverEnv) h s) : Inv s :=
  hr.invariant (fun _ hs => inv_init hs) fun _ a hi hen => inv_next hi a hen

/-! ## Agreement -/

/-- The remote node of `n` is linked with the object once everything under way has arrived. -/
def WillServe (lib : JsonLibrary) (s : Connections) (o : ObjectId) (n : NodeRef) : Prop :=
  settle lib o ((s.server.nodes n).nodeId ≠ invalidId) (Server.Serves s.server o n) (s.toServer n)

/-- **Both sides will agree**: once everything has arrived, the remote nodes linked with an object
that has a source are that of the client node in its entry. -/
def WillAgree (lib : JsonLibrary) (s : Connections) : Prop :=
  ∀ o n, (s.server.source o).isSome → (WillServe lib s o n ↔ Client.Holds s.client o n)

/-- A node links or unlinks only objects that no other node has, unless they have no source. -/
def Undisputed (s : Connections) : Action → Prop
  | .linkRemote n o | .unlinkRemote n o => (s.server.source o).isSome →
    ∀ m, (s.client.registry.getNode o).lock s.client.nodeAlive = some m → m = n
  | _ => True

/-- Both ends of a connection through which an object is linked have an id or neither has, unless
the object has no source. -/
def Matched (s : Connections) : Action → Prop
  | .linkRemote n o => (s.server.source o).isSome →
    ((s.server.nodes n).nodeId ≠ invalidId ↔ (s.client.nodes n).nodeId ≠ invalidId)
  | _ => True

/-- A remote node without an id will be linked with nothing. -/
theorem hasId_of_willServe (hi : Inv s) (h : WillServe lib s o n) :
    (s.server.nodes n).nodeId ≠ invalidId := by
  refine fun hid => not_settle_of_not_hasId (not_not.mpr hid) ?_ _ h
  exact fun hserves => hi.server.invalidId_notMem o (hid ▸ hserves.2)

theorem willServe_stepClient (a : Client.Action) : WillServe lib (stepClient lib s a) o n ↔
    settle lib o ((s.server.nodes n).nodeId ≠ invalidId) (WillServe lib s o n)
      (writtenByClient n (Client.callsOfAction lib s.client a)) := by
  unfold WillServe
  rw [toServer_stepClient, settle_append]
  rfl

/-- An operation of the client side that writes nothing and links nothing. -/
theorem willAgree_stepClient_of_quiet {a : Client.Action}
    (hw : ∀ n msg, .write n msg ∉ Client.callsOfAction lib s.client a)
    (hh : ∀ o n, Client.Holds (Client.next lib s.client a) o n ↔ Client.Holds s.client o n)
    (hagree : WillAgree lib s) : WillAgree lib (stepClient lib s a) := by
  intro o n ho
  rw [willServe_stepClient, writtenByClient_eq_nil (hw n)]
  exact (hagree o n ho).trans (hh o n).symm

theorem willServe_linkRemote (hi : Inv s) (hm : s.client.nodeAlive m = true) :
    WillServe lib (stepClient lib s (.linkRemote m k)) o n ↔
      if n = m ∧ o = k then (s.server.nodes m).nodeId ≠ invalidId else WillServe lib s o n := by
  rw [willServe_stepClient]
  unfold Client.callsOfAction
  dsimp only
  rw [writtenByClient_written (hi.writeFunc m hm)]
  by_cases hmn : m = n
  · rw [if_pos hmn, settle_singleton, after_linkMessage]
    by_cases hk : o = k
    · rw [if_pos ⟨hmn.symm, hk⟩, hmn]
      exact ⟨fun h => h.elim (fun h => h.2) (hasId_of_willServe hi), fun h => Or.inl ⟨hk.symm, h⟩⟩
    · simp [hk, Ne.symm hk]
  · rw [if_neg hmn]
    simp [settle, Ne.symm hmn]

theorem willServe_unlinkRemote (hi : Inv s) (hm : s.client.nodeAlive m = true) :
    WillServe lib (stepClient lib s (.unlinkRemote m k)) o n ↔
      if n = m ∧ o = k then False else WillServe lib s o n := by
  rw [willServe_stepClient]
  unfold Client.callsOfAction
  dsimp only
  rw [writtenByClient_append, writtenByClient_released,
    writtenByClient_written (hi.writeFunc m hm), List.nil_append]
  by_cases hmn : m = n
  · rw [if_pos hmn, settle_singleton, after_unlinkMessage]
    by_cases hk : o = k
    · simp [hmn, hk]
    · simp [hk, Ne.symm hk]
  · rw [if_neg hmn]
    simp [settle, Ne.symm hmn]

/-- The destructor writes an `Unlink` for each object whose slot has the id of the node. -/
theorem willServe_destroy (hi : Inv s) (hm : s.client.nodeAlive m = true) :
    WillServe lib (stepClient lib s (.destroy m)) o n ↔
      ¬ (n = m ∧ o ∈ s.client.registry.getObjectIds (s.client.nodes m).nodeId) ∧
        WillServe lib s o n := by
  rw [willServe_stepClient]
  unfold Client.callsOfAction
  dsimp only
  rw [writtenByClient_unlinkEffects (hi.writeFunc m hm)]
  by_cases hmn : m = n
  · rw [if_pos hmn, settle_unlinkMessages]
    simp [hmn]
  · rw [if_neg hmn]
    simp [settle, Ne.symm hmn]

theorem undisputed_iff (hi : Client.Entered s.client) :
    (∀ n, n ≠ m → ¬ Client.Holds s.client k n) ↔
    ∀ n, (s.client.registry.getNode k).lock s.client.nodeAlive = some n → n = m := by
  refine forall_congr' ?_
  intro n
  rw [Client.getNode_iff hi.nodes]
  exact ⟨fun h hh => by_contra fun hn => h hn hh, fun h hn hh => hn (h hh)⟩

/-- **Linking or unlinking an object**: a step after which the object `k` is linked through `m` or
through no node keeps the agreement to come exactly if no other node had the object, and both sides
take it to be linked or neither does. -/
theorem willAgree_concerning {a : Client.Action} {served held : Prop} (hi : Inv s)
    (hserve : ∀ o n, WillServe lib (stepClient lib s a) o n ↔
      if n = m ∧ o = k then served else WillServe lib s o n)
    (hholds : ∀ o n, Client.Holds (Client.next lib s.client a) o n ↔
      if o = k then n = m ∧ held else Client.Holds s.client o n)
    (hagree : WillAgree lib s) : WillAgree lib (stepClient lib s a) ↔
      Undisputed s (.linkRemote m k) ∧ ((s.server.source k).isSome → (served ↔ held)) := by
  unfold WillAgree Undisputed
  dsimp only
  rw [← undisputed_iff hi.client]
  constructor
  · intro hafter
    have h : ∀ n, (s.server.source k).isSome → (WillServe lib (stepClient lib s a) k n ↔
        Client.Holds (Client.next lib s.client a) k n) := fun n ho => hafter k n ho
    refine ⟨fun ho n hn hh => ?_, fun ho => ?_⟩
    · have hother := h n ho
      rw [hserve, hholds, if_neg fun h => hn h.1, if_pos rfl, hagree k n ho] at hother
      exact hn (hother.mp hh).1
    · have hself := h m ho
      rw [hserve, hholds, if_pos ⟨rfl, rfl⟩, if_pos rfl] at hself
      exact hself.trans (and_iff_right rfl)
  · rintro ⟨hno, hboth⟩ o n ho
    refine (hserve o n).trans (Iff.trans ?_ (hholds o n).symm)
    rw [hagree o n ho]
    by_cases hk : o = k
    · subst hk
      rw [if_pos rfl]
      by_cases hn : n = m
      · rw [if_pos ⟨hn, rfl⟩]
        exact (hboth ho).trans (and_iff_right hn).symm
      · rw [if_neg fun h => hn h.1]
        exact iff_of_false (hno ho n hn) fun h => hn h.1
    · rw [if_neg fun h => hk h.2, if_neg hk]

theorem willAgree_linkRemote (hi : Inv s) (hm : s.client.nodeAlive m = true)
    (hagree : WillAgree lib s) : WillAgree lib (stepClient lib s (.linkRemote m k)) ↔
      Undisputed s (.linkRemote m k) ∧ Matched s (.linkRemote m k) :=
  willAgree_concerning hi (fun _ _ => willServe_linkRemote hi hm)
    (fun _ _ => Client.holds_linkRemote hi.client hm) hagree

theorem willAgree_unlinkRemote (hi : Inv s) (hm : s.client.nodeAlive m = true)
    (hagree : WillAgree lib s) : WillAgree lib (stepClient lib s (.unlinkRemote m k)) ↔
      Undisputed s (.unlinkRemote m k) := by
  have hholds : ∀ o n, Client.Holds (Client.next lib s.client (.unlinkRemote m k)) o n ↔
      if o = k then n = m ∧ False else Client.Holds s.client o n := by
    intro o n
    rw [Client.holds_unlinkRemote]
    by_cases hk : o = k
    · simp [hk]
    · simp [hk]
  rw [willAgree_concerning hi (fun o n => willServe_unlinkRemote hi hm) hholds hagree]
  exact and_iff_left fun _ => Iff.rfl

theorem willAgree_destroy (hi : Inv s) (hm : s.client.nodeAlive m = true)
    (hagree : WillAgree lib s) : WillAgree lib (stepClient lib s (.destroy m)) := by
  intro o n ho
  have hholds : Client.Holds (stepClient lib s (.destroy m)).client o n ↔
      Client.Holds s.client o n ∧ n ≠ m := by
    show Client.Holds (Client.next lib s.client (.destroy m)) o n ↔ _
    exact Client.holds_destroy hi.client hm
  rw [willServe_destroy hi hm, hholds, hagree o n ho]
  by_cases hn : n = m
  · subst hn
    -- what the node holds is among what it unlinks
    refine iff_of_false ?_ fun h => h.2 rfl
    rintro ⟨hkept, -, hvalid, hslot⟩
    exact hkept ⟨rfl, (ClientRegistry.mem_getObjectIds_of_valid hvalid).mpr hslot⟩
  · simp [hn]

/-- Delivering to a remote node changes nothing about what it will know. -/
theorem willAgree_deliverToServer (hi : Inv s) (hq : s.toServer m ≠ [])
    (henv : ∀ before x k, serverEnv.call before (.olinkUnlinked x k) = .ok ())
    (hagree : WillAgree lib s) :
    WillAgree lib (next lib clientEnv serverEnv s (.deliverToServer m)) := by
  have hm := hi.remoteAlive_of_toServer hq
  unfold next
  dsimp only
  split
  · exact hagree
  · rename_i msg rest hq
    intro o n ho
    have ho : (s.server.source o).isSome := by
      rw [← Server.source_eq_of_keepsSources lib (a := .receive m msg serverEnv) trivial]
      exact ho
    refine Iff.trans ?_ (hagree o n ho)
    have hid : ((Server.next lib s.server (.receive m msg serverEnv)).nodes n).nodeId
        = (s.server.nodes n).nodeId := (Server.nodes_next lib Server.Action.noConfusion).2.2 n
    show settle lib o (((Server.next lib s.server (.receive m msg serverEnv)).nodes n).nodeId
        ≠ invalidId) (Server.Serves (Server.next lib s.server (.receive m msg serverEnv)) o n)
      (if n = m then rest else s.toServer n) ↔ settle lib o _ _ (s.toServer n)
    rw [settle_congr (serves_receive hi.server hm ho henv), hid]
    by_cases hn : n = m
    · rw [if_pos hn, if_pos hn, hn, hq]
      rfl
    · rw [if_neg hn, if_neg hn]

theorem willAgree_connect (hi : Inv s) (hagree : WillAgree lib s) :
    WillAgree lib (next lib clientEnv serverEnv s .connect) := by
  have hcnew : Client.Enabled (Client.next lib s.client .create) (.onWrite s.client.nextNode) :=
    if_pos rfl
  have hsnew : Server.Enabled (Server.next lib s.server .create) (.onWrite s.server.nextNode) :=
    if_pos rfl
  rw [next_connect]
  intro o n ho
  dsimp only at ho ⊢
  rw [Server.source_eq_of_keepsSources _ (a := .onWrite _) trivial,
    Server.source_eq_of_keepsSources _ (a := .create) trivial] at ho
  have hholds : Client.Holds (Client.next lib (Client.next lib s.client .create)
      (.onWrite s.client.nextNode)) o n ↔ Client.Holds s.client o n := by
    have hquiet : Client.Holds (Client.next lib (Client.next lib s.client .create)
        (.onWrite s.client.nextNode)) o n ↔ Client.Holds (Client.next lib s.client .create) o n :=
      Client.holds_quiet (a := .onWrite s.client.nextNode) trivial
    rw [hquiet, Client.holds_create hi.client]
  have hserves : Server.Serves (Server.next lib (Server.next lib s.server .create)
      (.onWrite s.server.nextNode)) o n ↔ Server.Serves s.server o n := by
    rw [(Server.entered_next hi.server .create trivial).serves_next (.onWrite _) hsnew,
      Server.serves_create hi.server]
    simp [Server.Linked, Server.Unlinked]
  rw [hholds, ← hagree o n ho]
  -- nothing is under way yet on the new connection
  by_cases hn : n < s.client.nextNode
  · have hid : ((Server.next lib (Server.next lib s.server .create)
        (.onWrite s.server.nextNode)).nodes n).nodeId = (s.server.nodes n).nodeId := by
      obtain ⟨id, storage, heq, -⟩ := Server.create_cases lib hi.server
      rw [(Server.nodes_next lib Server.Action.noConfusion).2.2, heq, Server.nodeId_created,
        hi.nextNode, if_neg (Nat.ne_of_lt hn)]
    unfold WillServe
    dsimp only
    rw [hid]
    exact settle_congr hserves
  · unfold WillServe
    dsimp only
    rw [hi.toServer n (Nat.le_of_not_lt hn)]
    exact hserves

/-- **One step** keeps the agreement to come exactly if it disputes no object and links none through
a connection with an id at one end only. -/
theorem willAgree_next (henv : ∀ before x k, serverEnv.call before (.olinkUnlinked x k) = .ok ())
    (hi : Inv s) (a : Action) (hen : Possible s a) (hagree : WillAgree lib s) :
    WillAgree lib (next lib clientEnv serverEnv s a) ↔ Undisputed s a ∧ Matched s a := by
  cases a with
  | connect => exact iff_of_true (willAgree_connect hi hagree) ⟨trivial, trivial⟩
  | linkRemote m k => exact willAgree_linkRemote hi hen hagree
  | unlinkRemote m k =>
    exact (willAgree_unlinkRemote hi hen hagree).trans (and_iff_left trivial).symm
  | destroy m => exact iff_of_true (willAgree_destroy hi hen hagree) ⟨trivial, trivial⟩
  | addSink sink =>
    refine iff_of_true (willAgree_stepClient_of_quiet (fun _ _ he => by cases he)
      (fun o n => ?_) hagree) ⟨trivial, trivial⟩
    rw [hi.client.holds_next (.addSink sink) trivial]
    simp [Client.Linked, Client.Unlinked]
  | sinkExpires x =>
    refine iff_of_true (willAgree_stepClient_of_quiet (fun _ _ he => by cases he)
      ?_ hagree) ⟨trivial, trivial⟩
    intro o n
    rw [hi.client.holds_next (.sinkExpires x) trivial]
    simp [Client.Linked, Client.Unlinked]
  | deliverToServer m =>
    exact iff_of_true (willAgree_deliverToServer hi hen henv hagree) ⟨trivial, trivial⟩
  | deliverToClient m =>
    refine iff_of_true ?_ ⟨trivial, trivial⟩
    unfold next
    dsimp only
    split
    · exact hagree
    · rename_i msg rest hq
      split
      · rename_i hlive
        refine willAgree_stepClient_of_quiet ?_ ?_ hagree
        · intro n text he
          unfold Client.callsOfAction at he
          dsimp only at he
          split at he
          · exact ClientNode.write_not_mem_callsOf he
          · cases he
        · intro o n
          exact Client.holds_quiet trivial
      · exact hagree

/-- **Runs**: both sides will agree in every state of a run exactly if every step meets the
condition. -/
theorem willAgree_run {h : List (Connections × Action)}
    (henv : ∀ before x k, serverEnv.call before (.olinkUnlinked x k) = .ok ())
    (hr : Run (unboundedMachine lib clientEnv serverEnv) h s) :
    (∀ x ∈ h, Undisputed x.1 x.2 ∧ Matched x.1 x.2) ↔
      (∀ x ∈ h, WillAgree lib x.1) ∧ WillAgree lib s := by
  refine Run.guard_iff (M := unboundedMachine lib clientEnv serverEnv) (I := Inv)
    (A := fun _ _ => True)
    (fun s hs => ⟨inv_init hs, ?_⟩) (fun s a hi hen _ => inv_next hi a hen)
    (fun s a hi hen _ hagree => willAgree_next henv hi a hen hagree) hr fun _ _ => trivial
  intro o n _
  unfold WillServe
  rw [hs.toServer]
  refine iff_of_false ?_ ?_
  · intro h
    have hlive := h.1
    rw [hs.nodeAlive] at hlive
    cases hlive
  · intro h
    have hlive := h.1
    rw [hs.client.nodeAlive] at hlive
    cases hlive

/-- No message is under way. -/
def Quiet (s : Connections) : Prop := ∀ n, s.toServer n = [] ∧ s.toClient n = []

/-- **Both sides agree**: the remote node of a client node is among those of an object that has a
source exactly if the client node is in its entry. -/
def Agree (s : Connections) : Prop :=
  ∀ o n, (s.server.source o).isSome → (some n ∈ s.server.registry.getNodes s.server.nodeAlive o ↔
    (s.client.registry.getNode o).lock s.client.nodeAlive = some n)

theorem agree_iff (hi : Inv s) (hq : Quiet s) : Agree s ↔ WillAgree lib s := by
  unfold Agree WillAgree WillServe
  refine forall_congr' fun o => forall_congr' fun n => forall_congr' fun _ => ?_
  rw [Server.getNodes_iff hi.server, Client.getNode_iff hi.client.nodes, (hq n).1]
  rfl

/-- **In every run none of whose steps disputes an object** or links one through a connection with
an id at one end only, both sides agree whenever no message is under way. -/
theorem agree_run {h : List (Connections × Action)}
    (henv : ∀ before x k, serverEnv.call before (.olinkUnlinked x k) = .ok ())
    (hr : Run (unboundedMachine lib clientEnv serverEnv) h s)
    (hund : ∀ x ∈ h, Undisputed x.1 x.2) (hids : ∀ x ∈ h, Matched x.1 x.2) (hq : Quiet s) :
    Agree s :=
  (agree_iff (inv_run h s hr) hq).mpr
    ((willAgree_run henv hr).mp fun x hx => ⟨hund x hx, hids x hx⟩).2

/-! ## Storages that have never been full -/

/-- All nodes have ids. -/
structure Bounded (s : Connections) : Prop where
  client : Client.Inv s.client
  server : Server.Inv s.server

theorem bounded_init (hs : Init s) : Bounded s := by
  refine ⟨Client.inv_init hs.client, (inv_init hs).server, fun n hn => ?_⟩
  rw [hs.nodeAlive] at hn
  cases hn

theorem bounded_next (hb : Bounded s) (hi : Inv s) (a : Action) (hen : Enabled s a) :
    Bounded (next lib clientEnv serverEnv s a) := by
  have hclient : ∀ b, Client.Enabled s.client b → Client.Inv (Client.next lib s.client b) :=
    fun b => Client.inv_next hb.client b
  have hserver : ∀ b, Server.Enabled s.server b → Server.Inv (Server.next lib s.server b) :=
    fun b => Server.inv_next hb.server b
  cases a with
  | connect =>
    have hcnew : Client.Enabled (Client.next lib s.client .create) (.onWrite s.client.nextNode) :=
      if_pos rfl
    have hsnew : Server.Enabled (Server.next lib s.server .create) (.onWrite s.server.nextNode) :=
      if_pos rfl
    have hconnected : Client.Inv (Client.next lib (Client.next lib s.client .create)
        (.onWrite s.client.nextNode)) :=
      Client.inv_next (hclient .create hen.1) (.onWrite _) hcnew
    have haccepted : Server.Inv (Server.next lib (Server.next lib s.server .create)
        (.onWrite s.server.nextNode)) :=
      Server.inv_next (hserver .create hen.2) (.onWrite _) hsnew
    rw [next_connect]
    exact ⟨hconnected, haccepted⟩
  | linkRemote n k => exact ⟨hclient (.linkRemote n k) hen, hb.server⟩
  | unlinkRemote n k => exact ⟨hclient (.unlinkRemote n k) hen, hb.server⟩
  | destroy n => exact ⟨hclient (.destroy n) hen, hb.server⟩
  | addSink sink => exact ⟨hclient (.addSink sink) trivial, hb.server⟩
  | sinkExpires x => exact ⟨hclient (.sinkExpires x) trivial, hb.server⟩
  | deliverToServer n =>
    have hn := hi.remoteAlive_of_toServer hen
    unfold next
    dsimp only
    split
    · exact hb
    · rename_i msg rest hq
      exact ⟨hb.client, hserver (.receive n msg serverEnv) hn⟩
  | deliverToClient n =>
    unfold next
    dsimp only
    split
    · exact hb
    · rename_i msg rest hq
      split
      · rename_i hlive
        exact ⟨hclient (.receive n msg clientEnv) hlive, hb.server⟩
      · exact ⟨hb.client, hb.server⟩

theorem matched_of_bounded (hb : Bounded s) (hi : Inv s) {a : Action} (hen : Enabled s a) :
    Matched s a := by
  cases a with
  | linkRemote n k =>
    have hremote : s.server.nodeAlive n = true := by
      refine hi.remoteAlive n (Nat.lt_of_not_le fun hle => ?_)
      have hdead := hi.client.nodes.fresh n hle
      rw [hen] at hdead
      cases hdead
    exact fun _ => iff_of_true (hb.server.valid n hremote) (hb.client.valid n hen)
  | _ => trivial

theorem possible_of_enabled {a : Action} (hen : Enabled s a) : Possible s a := by
  cases a with
  | connect => trivial
  | _ => exact hen

/-! ## Two nodes and one object -/

/-- No node yet, and a source for the object `"o"`. -/
def start : Connections where
  client := .empty
  server :=
    { Server.empty with
      registry := RemoteRegistry.new.addSource (fun _ => true) (some Server.someSource) }
  toServer _ := []
  toClient _ := []

theorem init_start : Init start := by
  refine ⟨Client.init_empty, rfl, ?_, fun _ => rfl, rfl, rfl, fun _ => rfl, fun _ => rfl⟩
  intro o
  exact (RemoteRegistry.nodeIds_addSource _).trans
    (RemoteRegistry.nodeIds_of_not_mem Std.ExtTreeMap.getElem?_empty)

/-- A second node links the object that the first one has, and everything arrives. -/
def takeover : List Action :=
  [.connect, .connect, .linkRemote 0 (lit "o"), .linkRemote 1 (lit "o"), .deliverToServer 0,
    .deliverToServer 1, .deliverToClient 0, .deliverToClient 1]

/-- The same without the second link. -/
def single : List Action :=
  [.connect, .connect, .linkRemote 0 (lit "o"), .deliverToServer 0, .deliverToClient 0]

theorem agree_single :
    Agree ((unboundedMachine .truncating .returning .returning).exec start single) := by
  refine agree_run (fun _ _ _ => rfl) (run_play single init_start (by decide)) ?_ ?_ ?_
  · simp only [single, Machine.history, List.forall_mem_cons]
    refine ⟨trivial, trivial, ?_, trivial, trivial, fun x hx => by cases hx⟩
    intro _ m hm
    -- nobody has the object when the first node links it
    have hnone : (none : Option NodeRef) = some m := hm
    cases hnone
  · simp only [single, Machine.history, List.forall_mem_cons]
    refine ⟨trivial, trivial, ?_, trivial, trivial, fun x hx => by cases hx⟩
    exact fun _ => iff_of_true (by decide) (by decide)
  · rintro (_ | _ | n) <;> exact ⟨rfl, rfl⟩

theorem takeover_disagrees : ¬ ∀ (h : List (Connections × Action)) (s : Connections),
    Run (unboundedMachine .truncating .returning .returning) h s → Quiet s → Agree s := by
  intro hall
  have hr : Run (unboundedMachine .truncating .returning .returning) _ _ :=
    run_play takeover init_start (by decide)
  have hq : Quiet ((unboundedMachine .truncating .returning .returning).exec start takeover) := by
    rintro (_ | _ | n) <;> exact ⟨rfl, rfl⟩
  have hagree := hall _ _ hr hq (lit "o") 0 (by decide)
  exact absurd (hagree.mp (by decide)) (by decide)

end Connections

end ObjectLink
