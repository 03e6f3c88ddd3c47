import ObjectLink.ClientRuns
import ObjectLink.RemoteRuns

/-!
# Calls and replies

One client node `n` and the remote node `m` it is connected to, with a network in between that
delivers any message that either node has ever written, at any time and any number of times, or
never. What the sources do when they are called is open with each delivery: they return any value
or throw. Each call of `invokeRemote` has a callback of its own, or none; the callback of the call
with index `k` is `k`.

The request id of a call is its index plus one (`clientnode.cpp:51-61`), which identifies the call
as long as there are fewer than `2 ^ 32`.

Results:
* `Inv`: what is pending, the `Invoke`s and replies written, and the callbacks that have run belong
  to calls that were made, under the request id of the call.
* `pending_next`: one step makes a call pending, or leaves it so unless it delivers its reply.
* `reply_correlation`: every callback runs at most once, with the method of its call and a value
  that a source returned for the arguments of its call; a reply touches no other call; a call
  without a delivered reply is pending.
-/

namespace ObjectLink

open Foundation (Machine Run Since find_insert find_erase run_play)

/-- A call of `invokeRemote`. -/
structure InvokeCall where
  methodId : Bytes
  args : Json
  hasCallback : Bool

/-- The callback of the call with index `k`. -/
def InvokeCall.func (call : InvokeCall) (k : Nat) : Option InvokeReplyFunc :=
  if call.hasCallback then some k else none

/-- Both sides, and the calls made so far, oldest first. -/
structure Session where
  client : Client
  server : Server
  calls : List InvokeCall

/-- What a client does besides calling methods and receiving messages. -/
def Client.Action.Aside : Client.Action → Prop
  | .create | .invokeRemote _ _ _ _ | .receive _ _ _ | .destroy _ => False
  | _ => True

/-- What a server does besides receiving messages. -/
def Server.Action.Aside : Server.Action → Prop
  | .create | .receive _ _ _ | .destroy _ => False
  | _ => True

instance : (a : Client.Action) → Decidable a.Aside
  | .create | .invokeRemote _ _ _ _ | .receive _ _ _ | .destroy _ =>
    inferInstanceAs (Decidable False)
  | .onWrite _ | .linkRemote _ _ | .unlinkRemote _ _ | .setRemoteProperty _ _ _ | .addSink _
  | .removeSink _ | .sinkExpires _ => inferInstanceAs (Decidable True)

instance : (a : Server.Action) → Decidable a.Aside
  | .create | .receive _ _ _ | .destroy _ => inferInstanceAs (Decidable False)
  | .onWrite _ | .notifyPropertyChange _ _ _ _ | .notifySignal _ _ _ _ | .addSource _
  | .removeSource _ | .sourceExpires _ => inferInstanceAs (Decidable True)

namespace Session

/-- The request id of the call with index `k`. -/
def requestId (k : Nat) : UInt32 := UInt32.ofNat (k + 1)

/-- What can happen. -/
inductive Action where
  | invokeRemote (methodId : Bytes) (args : Json) (hasCallback : Bool) (env : ClientEnv)
  | client (a : Client.Action)
  | server (a : Server.Action)
  | deliverToServer (msg : Json) (env : ServerEnv)
  | deliverToClient (msg : Json) (env : ClientEnv)

section Machine

variable (lib : JsonLibrary) (n m : NodeRef)

/-- Both sides after it. -/
def next (s : Session) : Action → Session
  | .invokeRemote methodId args hasCallback env =>
    let call : InvokeCall := { methodId := methodId, args := args, hasCallback := hasCallback }
    let func := call.func s.calls.length
    { s with
      client := ((ClientNode.invokeRemote env n methodId args func).run s.client).2
      calls := s.calls ++ [call] }
  | .client a => { s with client := Client.next lib s.client a }
  | .server a => { s with server := Server.next lib s.server a }
  | .deliverToServer msg env =>
    { s with server := Server.next lib s.server (.receive m msg env) }
  | .deliverToClient msg env =>
    { s with client := Client.next lib s.client (.receive n msg env) }

/-- At most `2 ^ 32 - 1` calls are made, and only what the other node has written is delivered. -/
def Enabled (s : Session) : Action → Prop
  | .invokeRemote _ _ _ _ => s.calls.length < 0xFFFFFFFF
  | .client a => a.Aside ∧ Client.Enabled s.client a
  | .server a => a.Aside ∧ Server.Enabled s.server a
  | .deliverToServer msg _ => .write n msg ∈ s.client.effects
  | .deliverToClient msg _ => .write m msg ∈ s.server.effects

/-- The start: two new nodes that have written nothing, on sides in any state. -/
structure Init (s : Session) : Prop where
  clientAlive : s.client.nodeAlive n = true
  serverAlive : s.server.nodeAlive m = true
  nextRequestId : (s.client.nodes n).nextRequestId = 0
  invokesPending : (s.client.nodes n).invokesPending = ∅
  clientEffects : s.client.effects = []
  serverEffects : s.server.effects = []
  calls : s.calls = []

/-- The calls of the client node `n` and what the remote node `m` does with them, with messages that
are lost, late, out of order or there twice. -/
def machine : Machine Session Action where
  init := Init n m
  enabled := Enabled n m
  next := next lib n m

end Machine

variable {lib : JsonLibrary} {n m : NodeRef} {s : Session} {j k : Nat}

theorem requestId_inj (hj : j < 0xFFFFFFFF) (hk : k < 0xFFFFFFFF)
    (h : requestId j = requestId k) : j = k := by
  have h := congrArg UInt32.toNat h
  unfold requestId at h
  rw [UInt32.toNat_ofNat', UInt32.toNat_ofNat'] at h
  omega

theorem getElem?_append_of_some {calls more : List InvokeCall} {call : InvokeCall}
    (h : calls[k]? = some call) : (calls ++ more)[k]? = some call := by
  rw [List.getElem?_append_left (List.getElem?_eq_some_iff.mp h).1, h]

/-! ## What belongs to a call -/

/-- A source was called for what the call asks for and returned the value. -/
def Computed (call : InvokeCall) (value : Json) (effects : List ServerEffect) : Prop :=
  ∃ source, .olinkInvoke source call.methodId call.args (.ok value) ∈ effects

/-- An `Invoke` of the client is that of a call. -/
def Sent (calls : List InvokeCall) : Call → Prop
  | .invoke id methodId args =>
    ∃ (k : Nat) (call : InvokeCall), calls[k]? = some call ∧ id = requestId k ∧
      methodId = call.methodId ∧ args = call.args
  | _ => True

/-- A reply of the server is one to a call, and the server writes no error. -/
def Genuine (calls : List InvokeCall) (effects : List ServerEffect) : Call → Prop
  | .invokeReply id methodId value =>
    ∃ (k : Nat) (call : InvokeCall), calls[k]? = some call ∧ id = requestId k ∧
      methodId = call.methodId ∧ Computed call value effects
  | .error _ _ _ => False
  | _ => True

theorem Sent.append {calls more : List InvokeCall} {c : Call} (h : Sent calls c) :
    Sent (calls ++ more) c := by
  cases c with
  | invoke id methodId args =>
    obtain ⟨k, call, hk, h⟩ := h
    exact ⟨k, call, getElem?_append_of_some hk, h⟩
  | _ => trivial

theorem Computed.append {call : InvokeCall} {value : Json} {effects more : List ServerEffect}
    (h : Computed call value effects) : Computed call value (effects ++ more) := by
  obtain ⟨source, h⟩ := h
  exact ⟨source, List.mem_append_left _ h⟩

theorem Genuine.append {calls : List InvokeCall} {effects : List ServerEffect} {c : Call}
    (h : Genuine calls effects c) (moreCalls : List InvokeCall) (more : List ServerEffect) :
    Genuine (calls ++ moreCalls) (effects ++ more) c := by
  cases c with
  | invokeReply id methodId value =>
    obtain ⟨k, call, hk, hid, hm, hv⟩ := h
    exact ⟨k, call, getElem?_append_of_some hk, hid, hm, hv.append⟩
  | error _ _ _ => exact h
  | _ => trivial

/-- Whether the call of code outside is the callback of the call with index `k`. -/
def isCallback (k : Nat) : ClientEffect → Bool
  | .invokeReply func _ _ => func == k
  | _ => false

/-- How often the callback of the call with index `k` has run. -/
def callbackRuns (k : Nat) (effects : List ClientEffect) : Nat := effects.countP (isCallback k)

theorem callbackRuns_append (l₁ l₂ : List ClientEffect) :
    callbackRuns k (l₁ ++ l₂) = callbackRuns k l₁ + callbackRuns k l₂ := List.countP_append

theorem callbackRuns_eq_zero {effects : List ClientEffect}
    (h : ∀ methodId value, .invokeReply k methodId value ∉ effects) :
    callbackRuns k effects = 0 := by
  refine List.countP_eq_zero.mpr ?_
  intro e he hc
  cases e with
  | invokeReply func methodId value =>
    have hf : func = k := by simpa [isCallback] using hc
    subst hf
    exact h methodId value he
  | _ => cases hc

/-! ## What the two sides do besides calls and replies -/

theorem aside_nodes (lib : JsonLibrary) (n : NodeRef) {w : Client} {a : Client.Action}
    (ha : a.Aside) :
    ((Client.next lib w a).nodes n).nextRequestId = (w.nodes n).nextRequestId ∧
    ((Client.next lib w a).nodes n).invokesPending = (w.nodes n).invokesPending := by
  cases a with
  | onWrite k =>
    show (if n = k then { w.nodes n with writeFunc := true } else w.nodes n).nextRequestId = _ ∧
      (if n = k then { w.nodes n with writeFunc := true } else w.nodes n).invokesPending = _
    split <;> exact ⟨rfl, rfl⟩
  | linkRemote k o => rw [Client.next_linkRemote]; exact ⟨rfl, rfl⟩
  | unlinkRemote k o => rw [Client.next_unlinkRemote]; exact ⟨rfl, rfl⟩
  | setRemoteProperty k p v =>
    unfold Client.next ClientNode.setRemoteProperty
    dsimp only
    rw [ClientNode.emitWrite_run ClientEnv.returning_returns]
    exact ⟨rfl, rfl⟩
  | addSink _ | removeSink _ | sinkExpires _ => exact ⟨rfl, rfl⟩
  | _ => exact ha.elim

/-- Besides calls a client writes links, unlinks and properties, and releases sinks. -/
theorem aside_calls {w : Client} {a : Client.Action} (ha : a.Aside) {e : ClientEffect}
    (he : e ∈ Client.callsOfAction lib w a) : (∃ sink, e = .olinkOnRelease sink) ∨
      ∃ (k : NodeRef) (c : Call), e = .write k c.message ∧
        ∀ id methodId args, c ≠ .invoke id methodId args := by
  cases a with
  | linkRemote k o =>
    exact Or.inr ⟨k, .link o, Client.mem_written he, fun _ _ _ => Call.noConfusion⟩
  | unlinkRemote k o =>
    rcases List.mem_append.mp he with he | he
    · unfold ClientNode.released at he
      split at he
      · exact Or.inl ⟨_, List.mem_singleton.mp he⟩
      · cases he
    · exact Or.inr ⟨k, .unlink o, Client.mem_written he, fun _ _ _ => Call.noConfusion⟩
  | setRemoteProperty k p v =>
    exact Or.inr ⟨k, .setProperty p v, Client.mem_written he, fun _ _ _ => Call.noConfusion⟩
  | onWrite _ | addSink _ | removeSink _ | sinkExpires _ => cases he
  | _ => exact ha.elim

theorem sent_of_aside {w : Client} {a : Client.Action} (ha : a.Aside) {calls : List InvokeCall}
    {msg : Json} {c : Call} (he : .write n msg ∈ Client.callsOfAction lib w a)
    (hdec : Protocol.decode? lib msg = some c) : Sent calls c := by
  rcases aside_calls ha he with ⟨sink, he⟩ | ⟨k, c', he, hno⟩
  · cases he
  · cases he
    rw [Protocol.decode?_composed] at hdec
    cases hdec
    cases c with
    | invoke id methodId args => exact absurd rfl (hno id methodId args)
    | _ => trivial

/-- Besides replies a server writes property changes and signals. -/
theorem genuine_of_aside {w : Server} {a : Server.Action} (ha : a.Aside) {calls : List InvokeCall}
    {effects : List ServerEffect} {msg : Json} {c : Call}
    (he : .write m msg ∈ Server.callsOfAction lib w a)
    (hdec : Protocol.decode? lib msg = some c) : Genuine calls effects c := by
  cases a with
  | notifyPropertyChange k p v env =>
    cases RemoteNode.mem_written he
    have hc := (Protocol.decode?_composed lib (.propertyChange p v)).symm.trans hdec
    cases hc
    trivial
  | notifySignal k x args env =>
    cases RemoteNode.mem_written he
    have hc := (Protocol.decode?_composed lib (.signal x args)).symm.trans hdec
    cases hc
    trivial
  | onWrite _ | addSource _ | removeSource _ | sourceExpires _ => cases he
  | _ => exact ha.elim

/-! ## The invariant -/

/-- What is sent is a call that was made, what is written back was computed for it, and what is
pending is a call that no callback has run for. -/
structure Inv (lib : JsonLibrary) (n m : NodeRef) (s : Session) : Prop where
  counter : (s.client.nodes n).nextRequestId = UInt32.ofNat s.calls.length
  bound : s.calls.length ≤ 0xFFFFFFFF
  sent : ∀ msg c, .write n msg ∈ s.client.effects → Protocol.decode? lib msg = some c →
    Sent s.calls c
  genuine : ∀ msg c, .write m msg ∈ s.server.effects → Protocol.decode? lib msg = some c →
    Genuine s.calls s.server.effects c
  /-- What is pending is a call, under its request id and with its own callback. -/
  pending : ∀ (id : UInt32) f, (s.client.nodes n).invokesPending[id]? = some f →
    ∃ (k : Nat) (call : InvokeCall), s.calls[k]? = some call ∧ id = requestId k ∧ f = call.func k
  callback : ∀ (k : Nat) methodId value, .invokeReply k methodId value ∈ s.client.effects →
    ∃ call : InvokeCall, s.calls[k]? = some call ∧ methodId = call.methodId ∧
      Computed call value s.server.effects
  once : ∀ k, callbackRuns k s.client.effects ≤ 1
  /-- The callback of a pending call has not run. -/
  unanswered : ∀ k, k < s.calls.length →
    ((s.client.nodes n).invokesPending[requestId k]?).isSome → callbackRuns k s.client.effects = 0

theorem inv_init (hs : Init n m s) : Inv lib n m s := by
  refine ⟨?_, ?_, ?_, ?_, ?_, ?_, ?_, ?_⟩
  · rw [hs.nextRequestId, hs.calls]
    rfl
  · rw [hs.calls]
    exact Nat.zero_le _
  · intro msg c he
    rw [hs.clientEffects] at he
    cases he
  · intro msg c he
    rw [hs.serverEffects] at he
    cases he
  · intro id f hf
    rw [hs.invokesPending] at hf
    cases Std.ExtTreeMap.getElem?_empty.symm.trans hf
  · intro k methodId value he
    rw [hs.clientEffects] at he
    cases he
  · intro k
    rw [hs.clientEffects]
    exact Nat.zero_le _
  · intro k hk
    rw [hs.calls] at hk
    cases hk

/-- A call that can be looked up has been made. -/
theorem Inv.lt_of_some (hi : Inv lib n m s) {call : InvokeCall} (h : s.calls[k]? = some call) :
    k < 0xFFFFFFFF :=
  Nat.lt_of_lt_of_le (List.getElem?_eq_some_iff.mp h).1 hi.bound

/-- The client does something that makes, ends and answers no call. -/
theorem Inv.of_client {client : Client} {calls : List ClientEffect} (hi : Inv lib n m s)
    (hid : (client.nodes n).nextRequestId = (s.client.nodes n).nextRequestId)
    (hpending : (client.nodes n).invokesPending = (s.client.nodes n).invokesPending)
    (heffects : client.effects = s.client.effects ++ calls)
    (hsent : ∀ msg c, .write n msg ∈ calls → Protocol.decode? lib msg = some c → Sent s.calls c)
    (hcallback : ∀ (k : Nat) methodId value, .invokeReply k methodId value ∉ calls) :
    Inv lib n m { s with client := client } := by
  have hruns : ∀ k, callbackRuns k client.effects = callbackRuns k s.client.effects := fun k => by
    rw [heffects, callbackRuns_append, callbackRuns_eq_zero (hcallback k), Nat.add_zero]
  refine ⟨hid.trans hi.counter, hi.bound, ?_, hi.genuine, ?_, ?_, ?_, ?_⟩
  · intro msg c he
    have he : .write n msg ∈ client.effects := he
    rw [heffects] at he
    rcases List.mem_append.mp he with he | he
    · exact hi.sent msg c he
    · exact hsent msg c he
  · intro id f hf
    have hf : (client.nodes n).invokesPending[id]? = some f := hf
    rw [hpending] at hf
    exact hi.pending id f hf
  · intro k methodId value he
    have he : .invokeReply k methodId value ∈ client.effects := he
    rw [heffects] at he
    rcases List.mem_append.mp he with he | he
    · exact hi.callback k methodId value he
    · exact absurd he (hcallback k methodId value)
  · intro k
    exact (hruns k).symm ▸ hi.once k
  · intro k hk hsome
    have hsome : ((client.nodes n).invokesPending[requestId k]?).isSome := hsome
    rw [hpending] at hsome
    exact (hruns k).trans (hi.unanswered k hk hsome)

/-- The server does something. -/
theorem Inv.of_server {server : Server} {calls : List ServerEffect} (hi : Inv lib n m s)
    (heffects : server.effects = s.server.effects ++ calls)
    (hgenuine : ∀ msg c, .write m msg ∈ calls → Protocol.decode? lib msg = some c →
      Genuine s.calls (s.server.effects ++ calls) c) : Inv lib n m { s with server := server } := by
  refine ⟨hi.counter, hi.bound, hi.sent, ?_, hi.pending, ?_, hi.once, hi.unanswered⟩
  · intro msg c he hdec
    have he : .write m msg ∈ server.effects := he
    show Genuine s.calls server.effects c
    rw [heffects] at he ⊢
    rcases List.mem_append.mp he with he | he
    · have h := (hi.genuine msg c he hdec).append [] calls
      rwa [List.append_nil] at h
    · exact hgenuine msg c he hdec
  · intro k methodId value he
    obtain ⟨call, hk, hm, hv⟩ := hi.callback k methodId value he
    refine ⟨call, hk, hm, ?_⟩
    show Computed call value server.effects
    rw [heffects]
    exact hv.append

/-- The node after a call: the call is pending under the next request id. -/
theorem nodes_called (w : Client) (func : Option InvokeReplyFunc) :
    ((ClientNode.called w n func).nodes n).nextRequestId = (w.nodes n).nextRequestId + 1 ∧
    ((ClientNode.called w n func).nodes n).invokesPending =
      (w.nodes n).invokesPending.insert ((w.nodes n).nextRequestId + 1) func := by
  unfold ClientNode.called Client.updateNode
  simp

theorem Inv.next_requestId (hi : Inv lib n m s) :
    (s.client.nodes n).nextRequestId + 1 = requestId s.calls.length := by
  rw [hi.counter, requestId, UInt32.ofNat_add]
  rfl

/-- **A call** is pending under an id that no other call has. -/
theorem inv_invokeRemote {methodId : Bytes} {args : Json} {hasCallback : Bool} {env : ClientEnv}
    (hi : Inv lib n m s) (hroom : s.calls.length < 0xFFFFFFFF) :
    Inv lib n m (next lib n m s (.invokeRemote methodId args hasCallback env)) := by
  unfold next
  dsimp only
  rw [ClientNode.invokeRemote_state, hi.next_requestId]
  generalize hcall : (⟨methodId, args, hasCallback⟩ : InvokeCall) = call
  obtain ⟨hid, hpending⟩ := nodes_called (n := n) s.client (call.func s.calls.length)
  rw [hi.next_requestId] at hid hpending
  have hlast : (s.calls ++ [call])[s.calls.length]? = some call := by simp
  have hnew : ∀ msg, .write n msg ∈ ClientNode.emitted env s.client n
      (Protocol.invokeMessage (requestId s.calls.length) methodId args) →
      ∀ c, Protocol.decode? lib msg = some c → Sent (s.calls ++ [call]) c := fun msg he c hdec => by
    cases ClientNode.mem_emitted he
    have hc := (Protocol.decode?_composed lib (.invoke _ methodId args)).symm.trans hdec
    cases hc
    exact ⟨s.calls.length, call, hlast, rfl, by rw [← hcall], by rw [← hcall]⟩
  have hno : ∀ k mid v, .invokeReply k mid v ∉ ClientNode.emitted env s.client n
      (Protocol.invokeMessage (requestId s.calls.length) methodId args) := fun k mid v he => by
    cases ClientNode.mem_emitted he
  refine ⟨?_, ?_, ?_, ?_, ?_, ?_, ?_, ?_⟩
  · rw [List.length_append, List.length_singleton]
    exact hid
  · rw [List.length_append, List.length_singleton]
    exact hroom
  · intro msg c he hdec
    rcases List.mem_append.mp he with he | he
    · exact (hi.sent msg c he hdec).append
    · exact hnew msg he c hdec
  · intro msg c he hdec
    have h := (hi.genuine msg c he hdec).append [call] []
    rwa [List.append_nil] at h
  · intro id f hf
    have hf : (((ClientNode.called s.client n (call.func s.calls.length)).nodes
      n).invokesPending)[id]? = some f := hf
    rw [hpending, find_insert] at hf
    split at hf
    · rename_i hid
      exact ⟨s.calls.length, call, hlast, hid, (Option.some.inj hf).symm⟩
    · obtain ⟨k, c, hk, h⟩ := hi.pending id f hf
      exact ⟨k, c, getElem?_append_of_some hk, h⟩
  · intro k mid v he
    rcases List.mem_append.mp he with he | he
    · obtain ⟨c, hk, h⟩ := hi.callback k mid v he
      exact ⟨c, getElem?_append_of_some hk, h⟩
    · exact absurd he (hno k mid v)
  · intro k
    show callbackRuns k (s.client.effects ++ _) ≤ 1
    rw [callbackRuns_append, callbackRuns_eq_zero (hno k), Nat.add_zero]
    exact hi.once k
  · intro k hk hsome
    show callbackRuns k (s.client.effects ++ _) = 0
    rw [callbackRuns_append, callbackRuns_eq_zero (hno k), Nat.add_zero]
    have hsome : ((((ClientNode.called s.client n (call.func s.calls.length)).nodes
      n).invokesPending)[requestId k]?).isSome := hsome
    rw [List.length_append, List.length_singleton] at hk
    by_cases hlt : k < s.calls.length
    · refine hi.unanswered k hlt ?_
      rw [hpending, find_insert, if_neg] at hsome
      · exact hsome
      · intro he
        exact absurd (requestId_inj (Nat.lt_trans hlt hroom) hroom he) (Nat.ne_of_lt hlt)
    · -- nothing has run the callback of a call that was not made before
      refine callbackRuns_eq_zero fun mid v he => hlt ?_
      obtain ⟨c, hk', -⟩ := hi.callback k mid v he
      exact (List.getElem?_eq_some_iff.mp hk').1

/-- **An `Invoke` that arrives**, whatever the source does: a reply is to the call whose `Invoke` it
is. -/
theorem inv_deliverToServer {msg : Json} {env : ServerEnv} (hi : Inv lib n m s)
    (hmsg : .write n msg ∈ s.client.effects) :
    Inv lib n m (next lib n m s (.deliverToServer msg env)) := by
  refine hi.of_server (Server.effects_next _) ?_
  intro reply c he hdec
  unfold Server.callsOfAction at he ⊢
  dsimp only at he ⊢
  cases hd : Protocol.decode? lib msg with
  | none =>
    rw [hd] at he
    cases he
  | some received =>
    rw [hd] at he
    rw [Option.elim_some] at he ⊢
    obtain ⟨-, ⟨o, props, -, rfl⟩ | ⟨id, mid, args, source, value, rfl, hs, hvalue, rfl⟩⟩ :=
      RemoteNode.due_of_mem_callsOf he
    · have hc := (Protocol.decode?_composed lib (.init o props)).symm.trans hdec
      cases hc
      trivial
    · have hc := (Protocol.decode?_composed lib (.invokeReply id mid value)).symm.trans hdec
      cases hc
      obtain ⟨k, call, hk, rfl, rfl, rfl⟩ := hi.sent msg _ hmsg hd
      refine ⟨k, call, hk, rfl, rfl, source, List.mem_append_right _ ?_⟩
      exact RemoteNode.mem_elim.mpr ⟨source, hs, hvalue ▸ List.mem_cons_self⟩

/-- What a delivered message that is no reply and no error does to the node. -/
theorem received_of_requestOf_none {w : Client} {c : Call}
    (hc : ClientNode.requestOf c = none) : ClientNode.received w n c =
      { w with effects := w.effects ++ ClientNode.callsOf w n c } := by
  unfold ClientNode.received
  rw [hc]

/-- A reply takes the call with its request id out of the table. -/
theorem pending_received_reply (w : Client) (id i : UInt32) (methodId : Bytes) (value : Json) :
    (((ClientNode.received w n (.invokeReply id methodId value)).nodes n).invokesPending)[i]?
      = if i = id then none else (w.nodes n).invokesPending[i]? := by
  rw [← find_erase]
  unfold ClientNode.received ClientNode.forget Client.updateNode ClientNode.requestOf
  simp

/-- The callback that a reply runs is that of the call whose request id it has, and that was
pending. -/
theorem Inv.callback_of_reply (hi : Inv lib n m s) {call : InvokeCall}
    (hk : s.calls[k]? = some call) {f : InvokeReplyFunc} {methodId mid : Bytes} {value v : Json}
    (he : .invokeReply f mid v ∈
      ClientNode.callsOf s.client n (.invokeReply (requestId k) methodId value)) :
    (f = k ∧ mid = methodId ∧ v = value) ∧
      ((s.client.nodes n).invokesPending[requestId k]?).isSome := by
  obtain ⟨func, hfunc, he⟩ := ClientNode.mem_callback.mp he
  cases he
  obtain ⟨j, other, hj, hid, hf⟩ := hi.pending _ _ hfunc
  cases requestId_inj (hi.lt_of_some hk) (hi.lt_of_some hj) hid
  unfold InvokeCall.func at hf
  split at hf
  · cases hf
    exact ⟨⟨rfl, rfl, rfl⟩, by rw [hfunc]; rfl⟩
  · cases hf

theorem Inv.callbackRuns_of_reply (hi : Inv lib n m s) {call : InvokeCall}
    (hk : s.calls[k]? = some call) {methodId : Bytes} {value : Json} (hj : j ≠ k) :
    callbackRuns j
      (ClientNode.callsOf s.client n (.invokeReply (requestId k) methodId value)) = 0 :=
  callbackRuns_eq_zero fun _ _ he => hj (hi.callback_of_reply hk he).1.1

/-- **A reply that arrives** ends the call it is for, and runs its callback if it was pending. -/
theorem inv_received_reply {call : InvokeCall} {value : Json} (hi : Inv lib n m s)
    (hk : s.calls[k]? = some call) (hv : Computed call value s.server.effects) :
    Inv lib n m { s with client :=
      ClientNode.received s.client n (.invokeReply (requestId k) call.methodId value) } := by
  have hcounter : ((ClientNode.received s.client n
      (.invokeReply (requestId k) call.methodId value)).nodes n).nextRequestId
      = (s.client.nodes n).nextRequestId := by
    unfold ClientNode.received ClientNode.forget Client.updateNode ClientNode.requestOf
    simp
  refine ⟨hcounter.trans hi.counter, hi.bound, ?_, hi.genuine, ?_, ?_, ?_, ?_⟩
  · intro msg c he hdec
    rcases List.mem_append.mp he with he | he
    · exact hi.sent msg c he hdec
    · exact absurd he ClientNode.write_not_mem_callsOf
  · intro id f hf
    have hf := (pending_received_reply s.client _ id _ _).symm.trans hf
    split at hf
    · cases hf
    · exact hi.pending id f hf
  · intro j mid v he
    rcases List.mem_append.mp he with he | he
    · exact hi.callback j mid v he
    · obtain ⟨⟨rfl, rfl, rfl⟩, -⟩ := hi.callback_of_reply hk he
      exact ⟨call, hk, rfl, hv⟩
  · intro j
    show callbackRuns j (s.client.effects ++ _) ≤ 1
    rw [callbackRuns_append]
    by_cases hjk : j = k
    · subst hjk
      by_cases hp : ((s.client.nodes n).invokesPending[requestId j]?).isSome
      · rw [hi.unanswered j (List.getElem?_eq_some_iff.mp hk).1 hp, Nat.zero_add]
        exact Nat.le_trans List.countP_le_length (ClientNode.length_callsOf _)
      · rw [callbackRuns_eq_zero fun mid v he => hp (hi.callback_of_reply hk he).2]
        exact hi.once j
    · rw [hi.callbackRuns_of_reply hk hjk]
      exact hi.once j
  · intro j hj hsome
    have hsome :=
      (congrArg Option.isSome (pending_received_reply s.client _ _ _ _)).symm.trans hsome
    split at hsome
    · cases hsome
    · rename_i hne
      show callbackRuns j (s.client.effects ++ _) = 0
      rw [callbackRuns_append, hi.callbackRuns_of_reply hk fun he => hne (by rw [he])]
      exact hi.unanswered j hj hsome

theorem next_receive {w : Client} {msg : Json} {env : ClientEnv} :
    Client.next lib w (.receive n msg env) = match ClientNode.handled env lib msg with
      | some c => ClientNode.received w n c
      | none => w :=
  ClientNode.handleMessage_state lib msg

/-- A message of the server that is no reply ends no call. -/
theorem requestOf_of_genuine {calls : List InvokeCall} {effects : List ServerEffect} {c : Call}
    (hc : Genuine calls effects c) : (∃ id methodId value, c = .invokeReply id methodId value) ∨
      ClientNode.requestOf c = none := by
  cases c with
  | invokeReply id methodId value => exact Or.inl ⟨id, methodId, value, rfl⟩
  | error _ _ _ => exact hc.elim
  | _ => exact Or.inr rfl

theorem inv_deliverToClient {msg : Json} {env : ClientEnv} (hi : Inv lib n m s)
    (hmsg : .write m msg ∈ s.server.effects) :
    Inv lib n m (next lib n m s (.deliverToClient msg env)) := by
  unfold next
  dsimp only
  rw [next_receive]
  cases hd : ClientNode.handled env lib msg with
  | none => exact hi
  | some c =>
    dsimp only
    have hc := hi.genuine msg c hmsg (ClientNode.decode?_of_handled hd)
    rcases requestOf_of_genuine hc with ⟨id, methodId, value, rfl⟩ | hnone
    · obtain ⟨k, call, hk, rfl, rfl, hv⟩ := hc
      exact inv_received_reply hi hk hv
    · rw [received_of_requestOf_none hnone]
      refine hi.of_client rfl rfl rfl ?_ ?_
      · intro text c he
        exact absurd he ClientNode.write_not_mem_callsOf
      · intro k mid v he
        obtain ⟨id, hid, -⟩ := ClientNode.invokeReply_mem_callsOf he
        rw [hnone] at hid
        cases hid

theorem inv_next (hi : Inv lib n m s) (a : Action) (hen : Enabled n m s a) :
    Inv lib n m (next lib n m s a) := by
  cases a with
  | invokeRemote methodId args hasCallback env => exact inv_invokeRemote hi hen
  | client a =>
    obtain ⟨hid, hpending⟩ := aside_nodes lib n hen.1
    refine hi.of_client hid hpending (Client.effects_next a) ?_ ?_
    · intro msg c he hdec
      exact sent_of_aside hen.1 he hdec
    · intro k mid v he
      rcases aside_calls hen.1 he with ⟨sink, he⟩ | ⟨i, c, he, -⟩ <;> cases he
  | server a =>
    exact hi.of_server (Server.effects_next a) fun msg c he hdec => genuine_of_aside hen.1 he hdec
  | deliverToServer msg env => exact inv_deliverToServer hi hen
  | deliverToClient msg env => exact inv_deliverToClient hi hen

theorem inv_run (h : List (Session × Action)) (s : Session)
    (hr : Run (machine lib n m) h s) : Inv lib n m s :=
  hr.invariant (fun _ hs => inv_init hs) fun _ a hi hen => inv_next hi a hen

/-! ## Pending calls -/

/-- The call with index `k` is in the table, with its own callback. -/
def Pending (n : NodeRef) (s : Session) (k : Nat) : Prop :=
  ∃ call : InvokeCall, s.calls[k]? = some call ∧
    (s.client.nodes n).invokesPending[requestId k]? = some (call.func k)

/-- The call with index `k` is made. -/
def Issues (k : Nat) (x : Session × Action) : Prop :=
  (∃ methodId args hasCallback env, x.2 = .invokeRemote methodId args hasCallback env) ∧
    x.1.calls.length = k

/-- A reply with the request id of the call with index `k` is delivered, and the node gets past
logging it. -/
def Answers (lib : JsonLibrary) (k : Nat) (x : Session × Action) : Prop :=
  ∃ msg env methodId value, x.2 = .deliverToClient msg env ∧
    ClientNode.handled env lib msg = some (.invokeReply (requestId k) methodId value)

theorem pending_congr {s' : Session} (hcalls : s'.calls = s.calls)
    (hpending : (s'.client.nodes n).invokesPending = (s.client.nodes n).invokesPending) :
    Pending n s' k ↔ Pending n s k := by
  unfold Pending
  rw [hcalls, hpending]

theorem pending_invokeRemote {methodId : Bytes} {args : Json} {hasCallback : Bool} {env : ClientEnv}
    (hi : Inv lib n m s) (hroom : s.calls.length < 0xFFFFFFFF) :
    Pending n (next lib n m s (.invokeRemote methodId args hasCallback env)) k ↔
      s.calls.length = k ∨ Pending n s k := by
  unfold next Pending
  dsimp only
  rw [ClientNode.invokeRemote_state]
  dsimp only
  rw [(nodes_called s.client _).2, hi.next_requestId]
  constructor
  · rintro ⟨call, hk, hp⟩
    by_cases he : s.calls.length = k
    · exact Or.inl he
    · have hlt : k < s.calls.length := by
        have := (List.getElem?_eq_some_iff.mp hk).1
        rw [List.length_append, List.length_singleton] at this
        omega
      rw [List.getElem?_append_left hlt] at hk
      rw [find_insert, if_neg] at hp
      · exact Or.inr ⟨call, hk, hp⟩
      · exact fun h => he (requestId_inj (Nat.lt_trans hlt hroom) hroom h).symm
  · rintro (rfl | ⟨call, hk, hp⟩)
    · exact ⟨⟨methodId, args, hasCallback⟩, by simp, by rw [find_insert, if_pos rfl]⟩
    · have hlt := (List.getElem?_eq_some_iff.mp hk).1
      refine ⟨call, getElem?_append_of_some hk, ?_⟩
      rw [find_insert, if_neg, hp]
      exact fun h => absurd (requestId_inj (Nat.lt_trans hlt hroom) hroom h) (Nat.ne_of_lt hlt)

theorem pending_deliverToClient {msg : Json} {env : ClientEnv} (hi : Inv lib n m s)
    (hmsg : .write m msg ∈ s.server.effects) :
    Pending n (next lib n m s (.deliverToClient msg env)) k ↔
      Pending n s k ∧ ¬ Answers lib k (s, .deliverToClient msg env) := by
  have hanswers : Answers lib k (s, .deliverToClient msg env) ↔
      ∃ methodId value, ClientNode.handled env lib msg
        = some (.invokeReply (requestId k) methodId value) := by
    constructor
    · rintro ⟨_, _, mid, v, ha, hdec⟩
      cases ha
      exact ⟨mid, v, hdec⟩
    · rintro ⟨mid, v, hdec⟩
      exact ⟨msg, env, mid, v, rfl, hdec⟩
  rw [hanswers]
  unfold next
  dsimp only
  rw [next_receive]
  cases hd : ClientNode.handled env lib msg with
  | none => simp [Pending]
  | some c =>
    dsimp only
    have hdec := ClientNode.decode?_of_handled hd
    rcases requestOf_of_genuine (hi.genuine msg c hmsg hdec) with ⟨id, mid, v, rfl⟩ | hnone
    · unfold Pending
      dsimp only
      rw [pending_received_reply]
      by_cases hid : requestId k = id
      · simp [hid]
      · simp [hid, Ne.symm hid]
    · rw [received_of_requestOf_none hnone]
      have hno : ¬ ∃ mid v, some c = some (.invokeReply (requestId k) mid v) := by
        rintro ⟨mid, v, hc⟩
        cases hc
        cases hnone
      rw [and_iff_left hno]
      exact pending_congr rfl rfl

/-- **One step** makes the call, or leaves it pending unless it delivers a reply to it. -/
theorem pending_next (hi : Inv lib n m s) (a : Action) (hen : Enabled n m s a) :
    Pending n (next lib n m s a) k ↔ Issues k (s, a) ∨
      (Pending n s k ∧ ¬ Answers lib k (s, a)) := by
  cases a with
  | invokeRemote methodId args hasCallback env =>
    rw [pending_invokeRemote hi hen]
    simp [Issues, Answers]
  | client a =>
    have hiff : Pending n (next lib n m s (.client a)) k ↔ Pending n s k :=
      pending_congr rfl (aside_nodes lib n hen.1).2
    simp [hiff, Issues, Answers]
  | server a =>
    have hiff : Pending n (next lib n m s (.server a)) k ↔ Pending n s k := pending_congr rfl rfl
    simp [hiff, Issues, Answers]
  | deliverToServer msg env =>
    have hiff : Pending n (next lib n m s (.deliverToServer msg env)) k ↔ Pending n s k :=
      pending_congr rfl rfl
    simp [hiff, Issues, Answers]
  | deliverToClient msg env =>
    rw [pending_deliverToClient hi hen]
    simp [Issues]

/-- A call is pending exactly while no reply to it has been delivered. -/
theorem pending_run {h : List (Session × Action)} (hr : Run (machine lib n m) h s) :
    Pending n s k ↔ Since (Issues k) (Answers lib k) h := by
  refine Run.iff_since (M := machine lib n m) (Q := fun s => Pending n s k) inv_run
    ?_ (fun s a hi hen => pending_next hi a hen) hr
  intro s hs hp
  obtain ⟨call, hk, -⟩ := hp
  rw [hs.calls] at hk
  cases hk

/-- A call that is there has been made. -/
theorem issued_of_some {h : List (Session × Action)} (hr : Run (machine lib n m) h s)
    (hk : k < s.calls.length) : ∃ x ∈ h, Issues k x := by
  induction hr with
  | init hs =>
    rw [hs.calls] at hk
    cases hk
  | @snoc h s a hr hen ih =>
    by_cases hlt : k < s.calls.length
    · obtain ⟨x, hx, hi⟩ := ih hlt
      exact ⟨x, List.mem_append_left _ hx, hi⟩
    · refine ⟨(s, a), List.mem_append_right _ (List.mem_singleton.mpr rfl), ?_⟩
      cases a with
      | invokeRemote methodId args hasCallback env =>
        have hk : k < (s.calls ++ [(⟨methodId, args, hasCallback⟩ : InvokeCall)]).length := hk
        rw [List.length_append, List.length_singleton] at hk
        refine ⟨⟨methodId, args, hasCallback, env, rfl⟩, ?_⟩
        show s.calls.length = k
        omega
      | _ => exact absurd hk hlt

/-! ## Calls and replies belong together -/

/-- **Replies find their calls.** In every state of every run, whatever is delayed, lost, reordered
or duplicated:
* a callback runs at most once;
* it gets the method of its call and a value that a source returned for its method and arguments;
* a reply that arrives is that to a call, and leaves the entry and the callback of every other call
  alone;
* a call to which no reply was delivered, or only ones whose log message threw, is in the table with
  its own callback. -/
theorem reply_correlation {h : List (Session × Action)} (hr : Run (machine lib n m) h s) :
    (∀ k, callbackRuns k s.client.effects ≤ 1) ∧
    (∀ (k : Nat) methodId value, .invokeReply k methodId value ∈ s.client.effects →
      ∃ call : InvokeCall, s.calls[k]? = some call ∧ methodId = call.methodId ∧
        Computed call value s.server.effects) ∧
    (∀ msg env id methodId value, Enabled n m s (.deliverToClient msg env) →
      Protocol.decode? lib msg = some (.invokeReply id methodId value) →
      ∃ (k : Nat) (call : InvokeCall), s.calls[k]? = some call ∧ id = requestId k ∧
        methodId = call.methodId ∧ Computed call value s.server.effects ∧
        ∀ j < s.calls.length, j ≠ k →
          ((next lib n m s (.deliverToClient msg env)).client.nodes n).invokesPending[requestId j]?
            = (s.client.nodes n).invokesPending[requestId j]? ∧
          callbackRuns j (next lib n m s (.deliverToClient msg env)).client.effects
            = callbackRuns j s.client.effects) ∧
    ∀ (k : Nat) (call : InvokeCall), s.calls[k]? = some call → (∀ x ∈ h, ¬ Answers lib k x) →
      (s.client.nodes n).invokesPending[requestId k]? = some (call.func k) := by
  have hi := inv_run h s hr
  refine ⟨hi.once, hi.callback, ?_, ?_⟩
  · intro msg env id methodId value hmsg hdec
    obtain ⟨k, call, hk, rfl, rfl, hv⟩ := hi.genuine msg _ hmsg hdec
    refine ⟨k, call, hk, rfl, rfl, hv, ?_⟩
    intro j hj hjk
    have hne : requestId j ≠ requestId k := fun he =>
      hjk (requestId_inj (Nat.lt_of_lt_of_le hj hi.bound) (hi.lt_of_some hk) he)
    unfold next
    dsimp only
    rw [next_receive]
    cases hd : ClientNode.handled env lib msg with
    | none => exact ⟨rfl, rfl⟩
    | some c =>
      cases hdec.symm.trans (ClientNode.decode?_of_handled hd)
      dsimp only
      refine ⟨by rw [pending_received_reply, if_neg hne], ?_⟩
      show callbackRuns j (s.client.effects ++ _) = _
      rw [callbackRuns_append, hi.callbackRuns_of_reply hk hjk, Nat.add_zero]
  · intro k call hk hno
    have hlt := (List.getElem?_eq_some_iff.mp hk).1
    obtain ⟨x, hx, hissue⟩ := issued_of_some hr hlt
    obtain ⟨call', hk', hp⟩ := (pending_run hr).mpr (Foundation.since_of_mem hx hissue hno)
    rw [hk] at hk'
    cases hk'
    exact hp

/-! ## Two calls -/

/-- Two connected nodes, and a source for the object `"o"`. -/
def start : Session where
  client := Client.next .truncating (Client.next .truncating .empty .create) (.onWrite 0)
  server := Server.next .truncating (Server.next .truncating
    (Server.next .truncating .empty (.addSource (some Server.someSource))) .create) (.onWrite 0)
  calls := []

theorem init_start : Init 0 0 start := by
  refine ⟨rfl, rfl, rfl, rfl, rfl, rfl, rfl⟩

/-- Two calls, of which the second is answered first, and twice. -/
def swapped : List Action :=
  [.invokeRemote (lit "o/m") .null true .returning, .invokeRemote (lit "o/m") .null true .returning,
    .deliverToServer (Protocol.invokeMessage 2 (lit "o/m") .null) .returning,
    .deliverToClient (Protocol.invokeReplyMessage 2 (lit "o/m") .null) .returning,
    .deliverToClient (Protocol.invokeReplyMessage 2 (lit "o/m") .null) .returning]

theorem plays_swapped : (machine .truncating 0 0).Plays start swapped := by
  have hreply : ServerEffect.write 0 (Protocol.invokeReplyMessage 2 (lit "o/m") .null) ∈
      [.olinkInvoke Server.someSource (lit "o/m") .null (.ok .null),
        .write 0 (Protocol.invokeReplyMessage 2 (lit "o/m") .null)] :=
    List.mem_cons_of_mem _ List.mem_cons_self
  refine ⟨?_, ?_, ?_, hreply, hreply, trivial⟩
  · exact (by decide : 0 < 0xFFFFFFFF)
  · exact (by decide : 1 < 0xFFFFFFFF)
  · exact List.mem_cons_of_mem (ClientEffect.write 0 (Protocol.invokeMessage 1 (lit "o/m") .null))
      List.mem_cons_self

theorem reply_correlation_swapped :
    callbackRuns 1 ((machine .truncating 0 0).exec start swapped).client.effects ≤ 1 :=
  (reply_correlation (run_play swapped init_start plays_swapped)).1 1

end Session

end ObjectLink
