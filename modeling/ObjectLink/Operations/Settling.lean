import Mathlib.Algebra.Order.BigOperators.Group.Finset
import ObjectLink.Operations.Network

/-!
# What is under way gets there

The connections of `Network.lean`, on which data are delivered in any order. A remote node answers
what it receives with at most one message, on the same connection (`remotenode.cpp:33-76`), and a
client node does not answer (`clientnode.cpp:91-174`), so whatever is under way, the deliveries come
to an end. What the runs take for granted is what they do there.

* `load`: two deliveries for what is on its way to the server, and one for the rest.
* `load_next_lt`: each delivery takes from that.
* `settles`: from every state that is reached, in whatever order data are delivered, there are at
  most so many deliveries, and once there is none to make, both sides agree on who is linked.
-/

namespace ObjectLink

open Foundation (Machine Run run_play)
open Running
open Simulation
open Refinement

namespace Connections

variable {lib : JsonLibrary} {clientEnv : ClientEnv} {serverEnv : ServerEnv}
  {s c : Connections} {n m : NodeRef}

/-! ## What is written in a delivery -/

/-- A message is delivered. -/
def Delivers : Action → Prop
  | .deliverToServer _ | .deliverToClient _ => True
  | _ => False

/-- A remote node writes for itself, and at most one message at a time. -/
theorem length_written {w : Server} {env : ServerEnv} (msg : Json) :
    (writtenByServer m (RemoteNode.written env w n msg)).length ≤ if m = n then 1 else 0 := by
  by_cases hmsg : RemoteNode.Writable env msg
  · rw [RemoteNode.written_of_writable hmsg]
    by_cases hw : (w.nodes n).writeFunc = true
    · rw [if_pos hw]
      by_cases hm : m = n
      · subst hm
        simp [writtenByServer]
      · simp [writtenByServer, hm, Ne.symm hm]
    · rw [if_neg hw]
      exact Nat.zero_le _
  · rw [RemoteNode.written_of_not_writable hmsg]
    exact Nat.zero_le _

theorem length_answered {w : Server} {env : ServerEnv} (message : Json → Json)
    (result : Except Thrown Json) :
    (writtenByServer m (RemoteNode.answered env w n message result)).length
      ≤ if m = n then 1 else 0 := by
  cases result with
  | error e => exact Nat.zero_le _
  | ok value => exact length_written _

/-- **A remote node answers at most once.** -/
theorem length_writtenByServer_receive {w : Server} (msg : Json) (env : ServerEnv) :
    (writtenByServer m (Server.callsOfAction lib w (.receive n msg env))).length
      ≤ if m = n then 1 else 0 := by
  change (writtenByServer m ((Protocol.decode? lib msg).elim [] _)).length ≤ _
  cases Protocol.decode? lib msg with
  | none => exact Nat.zero_le _
  | some x =>
    cases x with
    | link o =>
      change (writtenByServer m ((w.source o).elim [] _)).length ≤ _
      cases w.source o with
      | none => exact Nat.zero_le _
      | some source =>
        change (writtenByServer m (RemoteNode.linkCalls env w n o source)).length ≤ _
        unfold RemoteNode.linkCalls
        cases env.call w.effects (.olinkLinked source o n) with
        | error e => exact Nat.zero_le _
        | ok u => exact length_answered _ _
    | invoke requestId methodId args =>
      change (writtenByServer m ((w.source (Name.getObjectId methodId)).elim [] _)).length ≤ _
      cases w.source (Name.getObjectId methodId) with
      | none => exact Nat.zero_le _
      | some source => exact length_answered _ _
    | unlink o =>
      change (writtenByServer m ((w.source o).elim [] _)).length ≤ _
      cases w.source o <;> exact Nat.zero_le _
    | setProperty p value =>
      change (writtenByServer m ((w.source (Name.getObjectId p)).elim [] _)).length ≤ _
      cases w.source (Name.getObjectId p) <;> exact Nat.zero_le _
    | _ => exact Nat.zero_le _

/-! ## One delivery -/

/-- How many deliveries there can be: what arrives at the server may be answered. -/
def load {α : Type} (nodes : NodeRef) (toServer toClient : NodeRef → List α) : ℕ :=
  ∑ n ∈ Finset.range nodes, (2 * (toServer n).length + (toClient n).length)

theorem load_lt {α : Type} {nodes : NodeRef}
    {toServer toServer' toClient toClient' : NodeRef → List α} (hn : n < nodes)
    (hle : ∀ m, m ≠ n → 2 * (toServer' m).length + (toClient' m).length
      ≤ 2 * (toServer m).length + (toClient m).length)
    (hlt : 2 * (toServer' n).length + (toClient' n).length
      < 2 * (toServer n).length + (toClient n).length) :
    load nodes toServer' toClient' < load nodes toServer toClient := by
  refine Finset.sum_lt_sum (fun m _ => ?_) ⟨n, Finset.mem_range.mpr hn, hlt⟩
  by_cases hm : m = n
  · subst hm
    exact Nat.le_of_lt hlt
  · exact hle m hm

/-- Messages are only under way on the connections of nodes that have been created. -/
structure Within (s : Connections) : Prop where
  inv : Inv s
  toClient : ∀ n, s.client.nextNode ≤ n → s.toClient n = []

theorem Within.lt_of_toServer (h : Within s) (hn : s.toServer n ≠ []) : n < s.client.nextNode :=
  Nat.lt_of_not_le fun hle => hn (h.inv.toServer n hle)

theorem Within.lt_of_toClient (h : Within s) (hn : s.toClient n ≠ []) : n < s.client.nextNode :=
  Nat.lt_of_not_le fun hle => hn (h.toClient n hle)

variable (lib clientEnv serverEnv) in
/-- **What a remote node receives** leaves the connection, and may be answered there. -/
theorem next_deliverToServer {msg : Json} {rest : List Json} (hq : s.toServer n = msg :: rest) :
    (next lib clientEnv serverEnv s (.deliverToServer n)).client = s.client ∧
    (∀ m, (next lib clientEnv serverEnv s (.deliverToServer n)).toServer m
      = if m = n then rest else s.toServer m) ∧
    ∀ m, ∃ answers : List Json, answers.length ≤ (if m = n then 1 else 0) ∧
      (next lib clientEnv serverEnv s (.deliverToServer n)).toClient m
        = s.toClient m ++ answers := by
  unfold next
  simp only [hq]
  refine ⟨rfl, fun m => rfl, fun m =>
    ⟨writtenByServer m (Server.callsOfAction lib s.server (.receive n msg serverEnv)),
      length_writtenByServer_receive msg serverEnv, ?_⟩⟩
  unfold stepServer
  dsimp only
  rw [Server.effects_next, List.drop_left]

variable (lib clientEnv serverEnv) in
/-- **What a client node receives** leaves the connection, also when the node is gone. -/
theorem next_deliverToClient {msg : Json} {rest : List Json} (hq : s.toClient n = msg :: rest) :
    (next lib clientEnv serverEnv s (.deliverToClient n)).client.nextNode = s.client.nextNode ∧
    (∀ m, (next lib clientEnv serverEnv s (.deliverToClient n)).toServer m = s.toServer m) ∧
    ∀ m, (next lib clientEnv serverEnv s (.deliverToClient n)).toClient m
      = if m = n then rest else s.toClient m := by
  unfold next
  simp only [hq]
  split
  · refine ⟨(Client.nodes_next lib Client.Action.noConfusion).1, fun m => ?_, fun m => rfl⟩
    rw [toServer_stepClient]
    dsimp only
    rw [Network.writtenByClient_receive, List.append_nil]
  · exact ⟨rfl, fun m => rfl, fun m => rfl⟩

/-- **A delivery takes from the load.** -/
theorem load_next_lt (h : Within s) {a : Action} (ha : Delivers a) (hen : Enabled s a) :
    load (next lib clientEnv serverEnv s a).client.nextNode
        (next lib clientEnv serverEnv s a).toServer (next lib clientEnv serverEnv s a).toClient
      < load s.client.nextNode s.toServer s.toClient := by
  cases a with
  | deliverToServer n =>
    obtain ⟨msg, rest, hq⟩ := List.exists_cons_of_ne_nil hen
    obtain ⟨hclient, hserver, hanswers⟩ := next_deliverToServer lib clientEnv serverEnv hq
    rw [hclient]
    refine load_lt (h.lt_of_toServer hen) (fun m hm => ?_) ?_
    · obtain ⟨answers, hlength, htoClient⟩ := hanswers m
      rw [if_neg hm] at hlength
      rw [hserver, htoClient, if_neg hm, List.length_append]
      omega
    · obtain ⟨answers, hlength, htoClient⟩ := hanswers n
      rw [if_pos rfl] at hlength
      rw [hserver, htoClient, if_pos rfl, List.length_append, hq, List.length_cons]
      omega
  | deliverToClient n =>
    obtain ⟨msg, rest, hq⟩ := List.exists_cons_of_ne_nil hen
    obtain ⟨hclient, hserver, htoClient⟩ := next_deliverToClient lib clientEnv serverEnv hq
    rw [hclient]
    refine load_lt (h.lt_of_toClient hen) (fun m hm => ?_) ?_
    · rw [hserver, htoClient, if_neg hm]
    · rw [hserver, htoClient, if_pos rfl, hq, List.length_cons]
      omega
  | _ => exact ha.elim

theorem within_next (h : Within s) (a : Action) (hen : Enabled s a) :
    Within (next lib clientEnv serverEnv s a) := by
  refine ⟨inv_next h.inv a (possible_of_enabled hen), fun n hn => ?_⟩
  have hclient {b : Client.Action} (hb : b ≠ .create)
      (hn : (stepClient lib s b).client.nextNode ≤ n) : (stepClient lib s b).toClient n = [] :=
    h.toClient n ((Client.nodes_next lib hb).1 ▸ hn)
  cases a with
  | connect =>
    rw [next_connect] at hn ⊢
    exact h.toClient n (Nat.le_of_succ_le hn)
  | linkRemote m o => exact hclient Client.Action.noConfusion hn
  | unlinkRemote m o => exact hclient Client.Action.noConfusion hn
  | destroy m => exact hclient Client.Action.noConfusion hn
  | addSink sink => exact hclient Client.Action.noConfusion hn
  | sinkExpires x => exact hclient Client.Action.noConfusion hn
  | deliverToServer m =>
    obtain ⟨msg, rest, hq⟩ := List.exists_cons_of_ne_nil hen
    obtain ⟨hclient, -, hanswers⟩ := next_deliverToServer lib clientEnv serverEnv hq
    rw [hclient] at hn
    obtain ⟨answers, hlength, htoClient⟩ := hanswers n
    have hne : n ≠ m := fun he => absurd (h.lt_of_toServer hen) (Nat.not_lt_of_le (he ▸ hn))
    rw [if_neg hne] at hlength
    rw [htoClient, h.toClient n hn, List.eq_nil_of_length_eq_zero (Nat.le_zero.mp hlength)]
    rfl
  | deliverToClient m =>
    obtain ⟨msg, rest, hq⟩ := List.exists_cons_of_ne_nil hen
    obtain ⟨hnodes, -, htoClient⟩ := next_deliverToClient lib clientEnv serverEnv hq
    rw [hnodes] at hn
    have hne : n ≠ m := fun he => absurd (h.lt_of_toClient hen) (Nat.not_lt_of_le (he ▸ hn))
    rw [htoClient, if_neg hne, h.toClient n hn]

end Connections

namespace Network

variable {lib : Codecs} {k : MessageConverter}
  {clientAnswer serverAnswer : List Event → OutsideCall → Except Thrown Json}
  {L : LoggerId → Logger} {s : Network} {c c' : Connections} {n : NodeRef}

/-! ## The same for the code -/

/-- How many deliveries there can be. -/
def load (s : Network) : ℕ :=
  Connections.load s.client.library.client.nextNode s.toServer s.toClient

theorem load_congr {α β : Type} {nodes : NodeRef} {toServer toClient : NodeRef → List α}
    {toServer' toClient' : NodeRef → List β}
    (hserver : ∀ n, (toServer' n).length = (toServer n).length)
    (hclient : ∀ n, (toClient' n).length = (toClient n).length) :
    Connections.load nodes toServer' toClient' = Connections.load nodes toServer toClient :=
  Finset.sum_congr rfl fun n _ => by rw [hserver, hclient]

theorem load_of_seen (h : Seen lib k clientAnswer serverAnswer s c) :
    load s = Connections.load c.client.nextNode c.toServer c.toClient := by
  have hnodes : s.client.library.client.nextNode = c.client.nextNode := by rw [← h.client.client]
  unfold load
  rw [hnodes]
  refine load_congr (fun n => ?_) fun n => ?_
  · rw [h.toServer, List.length_map]
  · rw [h.toClient, List.length_map]

theorem load_of_alike {lib : JsonLibrary} (h : Alike lib c c') :
    Connections.load c'.client.nextNode c'.toServer c'.toClient
      = Connections.load c.client.nextNode c.toServer c.toClient := by
  rw [h.client]
  refine load_congr (fun n => ?_) h.toClient
  have hlength := congrArg List.length (h.toServer n)
  rwa [List.length_map, List.length_map] at hlength

/-- The invariant, and that data are only under way on the connections there are. -/
def Settling (lib : Codecs) (k : MessageConverter)
    (clientAnswer serverAnswer : List Event → OutsideCall → Except Thrown Json)
    (s : Network) : Prop :=
  Inv lib k clientAnswer serverAnswer s ∧
    ∀ n, s.client.library.client.nextNode ≤ n → s.toClient n = []

/-- The connections next to the code. -/
theorem within_of_seen (h : Seen lib k clientAnswer serverAnswer s c) (hi : Connections.Inv c)
    (hwithin : ∀ n, s.client.library.client.nextNode ≤ n → s.toClient n = []) :
    Connections.Within c := by
  refine ⟨hi, fun n hn => ?_⟩
  rw [← h.client.client] at hn
  rw [h.toClient, hwithin n hn]
  rfl

/-- **One step** keeps that, and takes from the load if it is a delivery. -/
theorem settling_next (hunlinked : ∀ history source o,
      ended (serverAnswer history (.olinkUnlinked source o)) = .ok ())
    (hs : Settling lib k clientAnswer serverAnswer s) {a : Connections.Action}
    (hen : Enabled lib k clientAnswer serverAnswer L s a) (hund : Undisputed s a)
    (hids : ∀ o, linkedId a = some o → Readable lib k o) :
    Settling lib k clientAnswer serverAnswer (next lib clientAnswer serverAnswer L s a) ∧
      (Connections.Delivers a → load (next lib clientAnswer serverAnswer L s a) < load s) := by
  obtain ⟨hi, hwithin⟩ := hs
  obtain ⟨c, hseen, hinv, hbounded, -, hholds⟩ := id hi
  obtain ⟨c', hseen', halike⟩ := seen_next hseen hinv hbounded hholds hids hen
  have hc : Connections.Within c := within_of_seen hseen hinv hwithin
  have henabled : Connections.Enabled c a := enabled_of_seen hseen hen
  refine ⟨⟨inv_next hunlinked hi hen hund hids, fun n hn => ?_⟩, fun ha => ?_⟩
  · have hnext : Connections.Within (Connections.next lib.toJsonLibrary
        (clientEnv lib k clientAnswer L (nodeOf a)) (serverEnv lib k serverAnswer L (nodeOf a))
        c a) :=
      Connections.within_next hc a henabled
    have hn' : c'.client.nextNode ≤ n := by
      rw [← hseen'.client.client]
      exact hn
    rw [halike.client] at hn'
    have hlength := halike.toClient n
    rw [hnext.toClient n hn', List.length_nil, hseen'.toClient, List.length_map] at hlength
    exact List.eq_nil_of_length_eq_zero hlength
  · rw [load_of_seen hseen, load_of_seen hseen', load_of_alike halike]
    exact Connections.load_next_lt hc ha henabled

/-- Deliveries are undisputed, and link nothing. -/
theorem settling_deliver (hunlinked : ∀ history source o,
      ended (serverAnswer history (.olinkUnlinked source o)) = .ok ())
    (hs : Settling lib k clientAnswer serverAnswer s) {a : Connections.Action}
    (hen : Enabled lib k clientAnswer serverAnswer L s a) (ha : Connections.Delivers a) :
    Settling lib k clientAnswer serverAnswer (next lib clientAnswer serverAnswer L s a) ∧
      load (next lib clientAnswer serverAnswer L s a) < load s := by
  have hund : Undisputed s a := by
    cases a with
    | linkRemote | unlinkRemote => exact ha.elim
    | _ => trivial
  have hids : ∀ o, linkedId a = some o → Readable lib k o := by
    intro o ho
    cases a with
    | linkRemote | unlinkRemote => exact ha.elim
    | _ => cases ho
  obtain ⟨hnext, hlt⟩ := settling_next hunlinked hs hen hund hids
  exact ⟨hnext, hlt ha⟩

theorem settling_run {h : List (Network × Configured Connections.Action)}
    (hunlinked : ∀ history source o,
      ended (serverAnswer history (.olinkUnlinked source o)) = .ok ())
    (hr : Run (machine lib k clientAnswer serverAnswer) h s)
    (hids : ∀ x ∈ h, ∀ o, linkedId x.2.action = some o → Readable lib k o)
    (hund : ∀ x ∈ h, Undisputed x.1 x.2.action) : Settling lib k clientAnswer serverAnswer s :=
  hr.invariant_of_guard
    (G := fun s x => Undisputed s x.action ∧ ∀ o, linkedId x.action = some o → Readable lib k o)
    (fun s (hs : Init k s) => ⟨inv_init hs, fun n _ => hs.toClient n⟩)
    (fun _ _ hs hen hg => (settling_next hunlinked hs hen hg.1 hg.2).1)
    fun x hx => ⟨hund x hx, hids x hx⟩

/-- `getNode` gives a node for an object that has a source exactly if `getNodes` lists its remote
node. -/
def SidesAgree (clientAnswer serverAnswer : List Event → OutsideCall → Except Thrown Json)
    (s : Network) : Prop :=
  ∀ (L : LoggerId → Logger) o, (s.server.library.source o).isSome → ∃ node nodes,
    run (.detached clientAnswer) L (Operations.ClientRegistry.getNode o) s.client
      = (.ok node, s.client) ∧
    run (.detached serverAnswer) L (Operations.RemoteRegistry.getNodes o) s.server
      = (.ok nodes, s.server) ∧
    ∀ n, node.lock s.client.library.client.nodeAlive = some n ↔ some n ∈ nodes

/-- Nothing is left to deliver. -/
def Exhausted (lib : Codecs) (k : MessageConverter)
    (clientAnswer serverAnswer : List Event → OutsideCall → Except Thrown Json)
    (s : Network) : Prop :=
  ∀ x : Configured Connections.Action, Connections.Delivers x.action →
    ¬ Enabled lib k clientAnswer serverAnswer x.loggers s x.action

theorem quiet_of_exhausted (h : Exhausted lib k clientAnswer serverAnswer s) : Quiet s := fun n =>
  ⟨Classical.not_not.mp (h (.silent (.deliverToServer n)) trivial),
    Classical.not_not.mp (h (.silent (.deliverToClient n)) trivial)⟩

/-- **What is under way gets there.** In every run in which the objects that are linked are
readable, the sources return from being told of an unlink, and no node links or unlinks an object
that another node has: in whatever order the data under way and the answers to them are delivered,
there are at most as many deliveries as the load says, and when none is left to make, both sides
agree; and that point can be reached. -/
theorem settles {h : List (Network × Configured Connections.Action)}
    (hunlinked : ∀ history source o,
      ended (serverAnswer history (.olinkUnlinked source o)) = .ok ())
    (hr : Run (machine lib k clientAnswer serverAnswer) h s)
    (hids : ∀ x ∈ h, ∀ o, linkedId x.2.action = some o → Readable lib k o)
    (hund : ∀ x ∈ h, Undisputed x.1 x.2.action) :
    (∀ as, (∀ a ∈ as, Connections.Delivers a.action) →
      (machine lib k clientAnswer serverAnswer).Plays s as →
        as.length ≤ load s ∧
        (Exhausted lib k clientAnswer serverAnswer
            ((machine lib k clientAnswer serverAnswer).exec s as) →
          SidesAgree clientAnswer serverAnswer
            ((machine lib k clientAnswer serverAnswer).exec s as))) ∧
    ∃ as, (∀ a ∈ as, Connections.Delivers a.action) ∧
      (machine lib k clientAnswer serverAnswer).Plays s as ∧
      Exhausted lib k clientAnswer serverAnswer
        ((machine lib k clientAnswer serverAnswer).exec s as) := by
  have hs := settling_run hunlinked hr hids hund
  have hI (s : Network) (x : Configured Connections.Action)
      (hs : Settling lib k clientAnswer serverAnswer s) (hx : Connections.Delivers x.action)
      (hen : Enabled lib k clientAnswer serverAnswer x.loggers s x.action) :
      Settling lib k clientAnswer serverAnswer
        (next lib clientAnswer serverAnswer x.loggers s x.action) :=
    (settling_deliver hunlinked hs hen hx).1
  have hμ (s : Network) (x : Configured Connections.Action)
      (hs : Settling lib k clientAnswer serverAnswer s) (hx : Connections.Delivers x.action)
      (hen : Enabled lib k clientAnswer serverAnswer x.loggers s x.action) :
      load (next lib clientAnswer serverAnswer x.loggers s x.action) < load s :=
    (settling_deliver hunlinked hs hen hx).2
  refine ⟨fun as hd hp => ⟨hp.length_le hI hμ hd hs, fun hexhausted L o ho => ?_⟩,
    Machine.exists_exhausted hI hμ hs⟩
  exact agree_of_quiet (hp.invariant hI hd hs).1 (quiet_of_exhausted hexhausted) ho

/-- A node links the object, and nothing has arrived yet. -/
def linksLate : List (Configured Connections.Action) :=
  [.silent .connect, ⟨verbose, .linkRemote 0 (lit "o")⟩]

theorem settles_linksLate : ∃ as : List (Configured Connections.Action), as.length ≤ 2 ∧
    SidesAgree returns returns ((machine linkingCodecs (.new .json) returns returns).exec
      ((machine linkingCodecs (.new .json) returns returns).exec start linksLate) as) := by
  have hids : ∀ x ∈ (machine linkingCodecs (.new .json) returns returns).history start linksLate,
      ∀ o, linkedId x.2.action = some o → Readable linkingCodecs (.new .json) o := by
    simp only [linksLate, Machine.history, List.forall_mem_cons]
    refine ⟨fun _ ho => ?_, fun o ho => ?_, fun x hx => by cases hx⟩
    · cases ho
    · cases ho
      exact readable_linkingCodecs
  have hund : ∀ x ∈ (machine linkingCodecs (.new .json) returns returns).history start linksLate,
      Undisputed x.1 x.2.action := by
    simp only [linksLate, Machine.history, List.forall_mem_cons]
    refine ⟨trivial, ?_, fun x hx => by cases hx⟩
    intro _ m hm
    have hnone : (none : Option NodeRef) = some m := hm
    cases hnone
  have hplays : (machine linkingCodecs (.new .json) returns returns).Plays start linksLate := by
    obtain ⟨hconnect, hlink, -⟩ := plays_links
    exact ⟨hconnect, hlink, trivial⟩
  obtain ⟨hall, as, hd, hp, hexhausted⟩ := settles (fun _ _ _ => rfl)
    (run_play linksLate init_start hplays) hids hund
  obtain ⟨hlength, hagree⟩ := hall as hd hp
  have hload : load ((machine linkingCodecs (.new .json) returns returns).exec start linksLate)
      = 2 := by decide +kernel
  exact ⟨as, hload ▸ hlength, hagree hexhausted⟩

end Network

end ObjectLink
