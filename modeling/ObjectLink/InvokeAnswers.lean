import ObjectLink.Session

/-!
# Answers to calls

What a `RemoteNode` writes while it handles an `Invoke`. `handleInvoke` (`remotenode.cpp:68-76`)
writes the `InvokeReply` when the object has a source and the source returns a value; the other
paths end without an answer: there is no source, the source throws into the `catch` blocks of
`Protocol` or `BaseNode`, or `emitWrite` throws before it writes (`basenode.cpp:22-35`), as the
reply cannot be dumped for its log message or cannot be converted to the network format.
`IProtocolListener` (`protocol.h:56-85`) has the `Error` message for these, which a client takes for
the end of the call; no code of the library writes it.

Results:
* `answeredOnce_iff`: handling an `Invoke` writes its one answer exactly if it is `Answerable`.
* `answeredIds_run`: over a run the ids answered are those received exactly if all are answerable.
* `leftPending_iff`: which calls stay pending at the client with no answer on the way.
* `invoke_answered`: the three together; `invoke_unknown`: a call of an object without a source.
-/

namespace ObjectLink

open Foundation (Machine Run run_play)

/-- The request id of an `Invoke`. -/
def Call.asks : Call → Option UInt32
  | .invoke id _ _ => some id
  | _ => none

/-- The request id that is answered: that of an `InvokeReply`, or of an `Error` for an `Invoke`. -/
def Call.answers : Call → Option UInt32
  | .invokeReply id _ _ => some id
  | .error msgType id _ => if msgType = MsgType.invoke.toInt then some id.toUInt32 else none
  | _ => none

theorem Call.asks_eq_some {c : Call} {id : UInt32} :
    c.asks = some id ↔ ∃ methodId args, c = .invoke id methodId args := by
  cases c <;> simp [Call.asks, eq_comm]

namespace RemoteNode

variable {lib : JsonLibrary} {env : ServerEnv} {w : Server} {n m : NodeRef} {msg : Json}
  {id : UInt32} {methodId : Bytes} {args : Json}

/-- The message, if it is one that the node has written. -/
def writtenMessage (n : NodeRef) : ServerEffect → Option Json
  | .write m msg => if m = n then some msg else none
  | _ => none

/-- What the node has written. -/
def writtenBy (n : NodeRef) (effects : List ServerEffect) : List Json :=
  effects.filterMap (writtenMessage n)

/-- The request id that a message answers. -/
def answeredId (lib : JsonLibrary) (msg : Json) : Option UInt32 :=
  (Protocol.decode? lib msg).bind Call.answers

/-- The request ids that the node has answered, in order. -/
def answeredIds (lib : JsonLibrary) (n : NodeRef) (effects : List ServerEffect) : List UInt32 :=
  (writtenBy n effects).filterMap (answeredId lib)

/-- **The `Invoke` is answered**: handling the message writes one message, an answer with the
request id. -/
def AnsweredOnce (lib : JsonLibrary) (env : ServerEnv) (w : Server) (n : NodeRef) (msg : Json)
    (id : UInt32) : Prop :=
  ∃ reply, writtenBy n ((handleMessage env n lib msg w).2.effects.drop w.effects.length) = [reply] ∧
    answeredId lib reply = some id

/-- **The condition**: the object has a source, which returns a value, and the reply with that value
gets past its log message and can be converted. -/
def Answerable (env : ServerEnv) (w : Server) (id : UInt32) (methodId : Bytes) (args : Json) :
    Prop :=
  ∃ source value, w.source (Name.getObjectId methodId) = some source ∧
    env.olinkInvoke w.effects source methodId args = .ok value ∧
    RemoteNode.Writable env (Protocol.invokeReplyMessage id methodId value)

/-! ## One message -/

theorem mem_writtenBy {effects : List ServerEffect} :
    msg ∈ writtenBy n effects ↔ .write n msg ∈ effects := by
  unfold writtenBy
  rw [List.mem_filterMap]
  constructor
  · rintro ⟨e, he, hmsg⟩
    unfold writtenMessage at hmsg
    split at hmsg
    · rename_i m msg'
      by_cases hm : m = n
      · rw [if_pos hm, Option.some.injEq] at hmsg
        rwa [← hm, ← hmsg]
      · rw [if_neg hm] at hmsg
        cases hmsg
    · cases hmsg
  · intro he
    exact ⟨_, he, if_pos rfl⟩

theorem answeredIds_append (effects more : List ServerEffect) :
    answeredIds lib n (effects ++ more) = answeredIds lib n effects ++ answeredIds lib n more := by
  unfold answeredIds writtenBy
  rw [List.filterMap_append, List.filterMap_append]

theorem answeredIds_eq_nil {effects : List ServerEffect}
    (h : ∀ msg, .write n msg ∈ effects → answeredId lib msg = none) :
    answeredIds lib n effects = [] :=
  List.filterMap_eq_nil_iff.mpr fun msg hmsg => h msg (mem_writtenBy.mp hmsg)

theorem answeredId_message (c : Call) : answeredId lib c.message = c.answers := by
  unfold answeredId
  rw [Protocol.decode?_composed, Option.bind_some]

/-- **Handling an `Invoke`** writes the reply or nothing. -/
theorem writtenBy_invoke (hwrite : (w.nodes n).writeFunc = true) :
    (∃ value, writtenBy n (callsOf env w n (.invoke id methodId args))
        = [Protocol.invokeReplyMessage id methodId value] ∧ Answerable env w id methodId args) ∨
      (writtenBy n (callsOf env w n (.invoke id methodId args)) = [] ∧
        ¬ Answerable env w id methodId args) := by
  unfold callsOf Answerable
  dsimp only
  cases hs : w.source (Name.getObjectId methodId) with
  | none => exact Or.inr ⟨rfl, by simp⟩
  | some source =>
    rw [Option.elim_some]
    unfold invokeCalls
    dsimp only
    cases hv : env.olinkInvoke w.effects source methodId args with
    | error t =>
      refine Or.inr ⟨rfl, ?_⟩
      rintro ⟨source', value, hs', hv', -⟩
      cases hs'
      rw [hv] at hv'
      cases hv'
    | ok value =>
      unfold answered
      dsimp only
      by_cases hreply : Writable env (Protocol.invokeReplyMessage id methodId value)
      · refine Or.inl ⟨value, ?_, source, value, rfl, hv, hreply⟩
        have hself : writtenMessage n (.write n (Protocol.invokeReplyMessage id methodId value))
            = some (Protocol.invokeReplyMessage id methodId value) := if_pos rfl
        rw [written_of_writable hreply, if_pos hwrite]
        unfold writtenBy
        rw [List.filterMap_cons_none rfl, List.filterMap_cons_some hself]
        rfl
      · rw [written_of_not_writable hreply]
        refine Or.inr ⟨rfl, ?_⟩
        rintro ⟨source', value', hs', hv', hreply'⟩
        cases hs'
        rw [hv] at hv'
        cases hv'
        exact hreply hreply'

/-- **An `Invoke` is answered once** exactly if it is answerable. -/
theorem answeredOnce_iff (hwrite : (w.nodes n).writeFunc = true)
    (hd : Protocol.decode? lib msg = some (.invoke id methodId args)) :
    AnsweredOnce lib env w n msg id ↔ Answerable env w id methodId args := by
  unfold AnsweredOnce
  rw [handleMessage_state, hd]
  unfold received
  dsimp only
  rw [List.drop_left]
  rcases writtenBy_invoke hwrite with ⟨value, hwritten, ha⟩ | ⟨hwritten, hno⟩
  · exact iff_of_true ⟨_, hwritten, answeredId_message (.invokeReply id methodId value)⟩ ha
  · refine iff_of_false ?_ hno
    rintro ⟨reply, hreply, -⟩
    rw [hwritten] at hreply
    cases hreply

/-- A message that is no `Invoke` is not answered, and no other node answers. -/
theorem answeredIds_callsOf {c : Call}
    (hc : m ≠ n ∨ ∀ id methodId args, c ≠ .invoke id methodId args) :
    answeredIds lib n (callsOf env w m c) = [] := by
  refine answeredIds_eq_nil ?_
  intro msg he
  obtain ⟨rfl, ⟨o, props, rfl, rfl⟩ | ⟨id, mid, args, s, value, rfl, -⟩⟩ := due_of_mem_callsOf he
  · exact answeredId_message (.init o props)
  · exact absurd rfl (hc.resolve_left (fun h => h rfl) id mid args)

end RemoteNode

/-! ## Runs of the server -/

namespace Server

open RemoteNode (Answerable answeredId answeredIds)

variable {lib : JsonLibrary} {w : Server} {n : NodeRef} {a : Action}

/-- The request id of the `Invoke` that the node receives. -/
def receivedId (lib : JsonLibrary) (n : NodeRef) : Action → Option UInt32
  | .receive m msg _ => if m = n then (Protocol.decode? lib msg).bind Call.asks else none
  | _ => none

/-- The request ids that the node received, in order. -/
def receivedIds (lib : JsonLibrary) (n : NodeRef) (h : List (Server × Action)) : List UInt32 :=
  h.filterMap fun x => receivedId lib n x.2

/-- The condition on a step: an `Invoke` that the node receives is answerable. -/
def Answers (lib : JsonLibrary) (n : NodeRef) (x : Server × Action) : Prop :=
  ∀ msg env id methodId args, x.2 = .receive n msg env →
    Protocol.decode? lib msg = some (.invoke id methodId args) →
    Answerable env x.1 id methodId args

/-- The node has a write function whenever it receives a message. -/
def Writes (n : NodeRef) (x : Server × Action) : Prop :=
  ∀ msg env, x.2 = .receive n msg env → (x.1.nodes n).writeFunc = true

theorem receivedId_receive {msg : Json} {env : ServerEnv} :
    receivedId lib n (.receive n msg env) = (Protocol.decode? lib msg).bind Call.asks :=
  if_pos rfl

/-- Only the reception of an `Invoke` has a request id. -/
theorem exists_of_receivedId {id : UInt32} (h : receivedId lib n a = some id) :
    ∃ msg env methodId args, a = .receive n msg env ∧
      Protocol.decode? lib msg = some (.invoke id methodId args) := by
  cases a with
  | receive m msg env =>
    by_cases hm : m = n
    · subst hm
      rw [receivedId_receive] at h
      obtain ⟨c, hd, hc⟩ := Option.bind_eq_some_iff.mp h
      obtain ⟨methodId, args, rfl⟩ := Call.asks_eq_some.mp hc
      exact ⟨msg, env, methodId, args, rfl, hd⟩
    · cases (if_neg hm).symm.trans h
  | _ => cases h

/-- What is not the reception of an `Invoke` by the node answers nothing. -/
theorem answeredIds_of_none (hnone : receivedId lib n a = none) :
    answeredIds lib n (callsOfAction lib w a) = [] := by
  cases a with
  | receive m msg env =>
    unfold callsOfAction
    dsimp only
    cases hd : Protocol.decode? lib msg with
    | none => rfl
    | some c =>
      refine RemoteNode.answeredIds_callsOf ?_
      by_cases hm : m = n
      · refine Or.inr ?_
        rintro id methodId args rfl
        rw [hm, receivedId_receive, hd] at hnone
        cases hnone
      · exact Or.inl hm
  | notifyPropertyChange m p v env =>
    refine RemoteNode.answeredIds_eq_nil ?_
    intro msg he
    cases RemoteNode.mem_written he
    exact RemoteNode.answeredId_message (.propertyChange p v)
  | notifySignal m x args env =>
    refine RemoteNode.answeredIds_eq_nil ?_
    intro msg he
    cases RemoteNode.mem_written he
    exact RemoteNode.answeredId_message (.signal x args)
  | _ => rfl

/-- **One step** answers the `Invoke` that the node receives, or nothing if it is not answerable. -/
theorem answeredIds_step (lib : JsonLibrary) (hwrite : Writes n (w, a)) :
    (Answers lib n (w, a) ∧
      answeredIds lib n (callsOfAction lib w a) = (receivedId lib n a).toList) ∨
    (¬ Answers lib n (w, a) ∧ answeredIds lib n (callsOfAction lib w a) = [] ∧
      (receivedId lib n a).isSome) := by
  cases hid : receivedId lib n a with
  | none =>
    refine Or.inl ⟨?_, answeredIds_of_none hid⟩
    rintro msg env id methodId args ha hd
    have ha : a = .receive n msg env := ha
    rw [ha, receivedId_receive, hd] at hid
    cases hid
  | some id =>
    obtain ⟨msg, env, methodId, args, rfl, hd⟩ := exists_of_receivedId hid
    have hiff : Answers lib n (w, .receive n msg env) ↔ Answerable env w id methodId args := by
      constructor
      · exact fun h => h msg env id methodId args rfl hd
      · rintro h _ _ _ _ _ heq hd'
        cases heq
        rw [hd] at hd'
        cases hd'
        exact h
    have hcalls : callsOfAction lib w (.receive n msg env)
        = RemoteNode.callsOf env w n (.invoke id methodId args) := by
      unfold callsOfAction
      dsimp only
      rw [hd, Option.elim_some]
    rw [hiff, hcalls]
    unfold answeredIds
    rcases RemoteNode.writtenBy_invoke (hwrite msg env rfl) with
      ⟨value, hwritten, ha⟩ | ⟨hwritten, hno⟩
    · refine Or.inl ⟨ha, ?_⟩
      rw [hwritten]
      exact List.filterMap_cons_some
        (RemoteNode.answeredId_message (.invokeReply id methodId value))
    · refine Or.inr ⟨hno, ?_, rfl⟩
      rw [hwritten]
      rfl

/-- **Over a run** the ids answered are those received exactly if all receptions could be
answered. -/
theorem answeredIds_run {h : List (Server × Action)} (hr : Run (unboundedMachine lib) h w)
    (hwrite : ∀ x ∈ h, Writes n x) :
    answeredIds lib n w.effects = receivedIds lib n h ↔ ∀ x ∈ h, Answers lib n x := by
  -- an `Invoke` that is not answered leaves the answers behind for good
  suffices hall : (answeredIds lib n w.effects).length ≤ (receivedIds lib n h).length ∧
      ((∀ x ∈ h, Answers lib n x) → answeredIds lib n w.effects = receivedIds lib n h) ∧
      ((receivedIds lib n h).length ≤ (answeredIds lib n w.effects).length →
        ∀ x ∈ h, Answers lib n x) by
    exact ⟨fun heq => hall.2.2 (heq ▸ Nat.le_refl _), hall.2.1⟩
  induction hr with
  | init hw =>
    rw [hw.effects]
    simp [answeredIds, RemoteNode.writtenBy, receivedIds]
  | @snoc h w a _ _ ih =>
    obtain ⟨hle, heq, hback⟩ := ih fun x hx => hwrite x (List.mem_append_left _ hx)
    have hlast : Writes n (w, a) := hwrite _ (List.mem_append_right _ List.mem_cons_self)
    have hids : receivedIds lib n (h ++ [(w, a)])
        = receivedIds lib n h ++ (receivedId lib n a).toList := by
      unfold receivedIds
      rw [List.filterMap_append]
      cases hid : receivedId lib n a <;> simp [hid]
    have hstep : answeredIds lib n ((unboundedMachine lib).next w a).effects
        = answeredIds lib n w.effects ++ answeredIds lib n (callsOfAction lib w a) := by
      rw [← RemoteNode.answeredIds_append, ← effects_next]
      rfl
    simp only [hids, hstep, List.length_append, List.forall_mem_append, List.forall_mem_singleton]
    rcases answeredIds_step lib hlast with ⟨ha, hans⟩ | ⟨hno, hans, hsome⟩
    · rw [hans]
      refine ⟨by omega, fun hall => by rw [heq hall.1], fun hlen => ⟨hback (by omega), ha⟩⟩
    · rw [hans]
      obtain ⟨id, hid⟩ := Option.isSome_iff_exists.mp hsome
      rw [hid]
      refine ⟨?_, fun hall => absurd hall.2 hno, fun hlen => ?_⟩
      · simp only [List.length_nil, Option.toList_some, List.length_singleton]
        omega
      · simp only [List.length_nil, Option.toList_some, List.length_singleton] at hlen
        omega

end Server

/-! ## Calls of a client -/

namespace Session

open RemoteNode (Answerable answeredId answeredIds)

variable {lib : JsonLibrary} {n m : NodeRef} {s : Session} {k : Nat}

/-- The `Invoke` of the call with index `k` arrives. -/
def Arrives (lib : JsonLibrary) (k : Nat) (x : Session × Action) : Prop :=
  ∃ msg env methodId args, x.2 = .deliverToServer msg env ∧
    Protocol.decode? lib msg = some (.invoke (requestId k) methodId args)

/-- It arrives when it is answerable. -/
def ArrivesAnswerable (lib : JsonLibrary) (k : Nat) (x : Session × Action) : Prop :=
  ∃ msg env methodId args, x.2 = .deliverToServer msg env ∧
    Protocol.decode? lib msg = some (.invoke (requestId k) methodId args) ∧
    Answerable env x.1.server (requestId k) methodId args

/-- The remote node has a write function whenever it receives a message. -/
def Writes (m : NodeRef) (x : Session × Action) : Prop :=
  ∀ msg env, x.2 = .deliverToServer msg env → (x.1.server.nodes m).writeFunc = true

/-- **The call is left pending**: its `Invoke` has arrived, the call is still in the table, and the
server has written no answer to it. -/
def LeftPending (lib : JsonLibrary) (n m : NodeRef) (h : List (Session × Action)) (s : Session)
    (k : Nat) : Prop :=
  (∃ x ∈ h, Arrives lib k x) ∧ Pending n s k ∧
    requestId k ∉ answeredIds lib m s.server.effects

/-- **One step** answers a call if its `Invoke` arrives and is answerable. -/
theorem mem_answeredIds_next (a : Action) (hen : Enabled n m s a) (hwrite : Writes m (s, a)) :
    requestId k ∈ answeredIds lib m (next lib n m s a).server.effects ↔
      requestId k ∈ answeredIds lib m s.server.effects ∨ ArrivesAnswerable lib k (s, a) := by
  have hserver : ∀ b, requestId k ∈ answeredIds lib m (Server.next lib s.server b).effects ↔
      requestId k ∈ answeredIds lib m s.server.effects ∨
      requestId k ∈ answeredIds lib m (Server.callsOfAction lib s.server b) := fun b => by
    rw [Server.effects_next, RemoteNode.answeredIds_append, List.mem_append]
  cases a with
  | server b =>
    have hnone : Server.receivedId lib m b = none := by
      cases b with
      | receive _ _ _ => exact hen.1.elim
      | _ => rfl
    show requestId k ∈ answeredIds lib m (Server.next lib s.server b).effects ↔ _
    rw [hserver, Server.answeredIds_of_none hnone]
    simp [ArrivesAnswerable]
  | deliverToServer msg env =>
    have hreceive : Server.Writes m (s.server, .receive m msg env) := by
      intro msg' env' heq
      cases heq
      exact hwrite msg env rfl
    have hstep := Server.answeredIds_step lib hreceive
    show requestId k ∈ answeredIds lib m (Server.next lib s.server (.receive m msg env)).effects ↔ _
    rw [hserver]
    refine or_congr_right ?_
    rcases hstep with ⟨ha, hans⟩ | ⟨hno, hans, -⟩
    · rw [hans, Option.mem_toList]
      constructor
      · intro hid
        obtain ⟨msg', env', methodId, args, heq, hd⟩ := Server.exists_of_receivedId hid
        cases heq
        exact ⟨msg, env, methodId, args, rfl, hd, ha msg env _ methodId args rfl hd⟩
      · rintro ⟨msg', env', methodId, args, heq, hd, -⟩
        cases heq
        rw [Server.receivedId_receive, hd]
        rfl
    · rw [hans]
      refine iff_of_false List.not_mem_nil ?_
      rintro ⟨msg', env', methodId, args, heq, hd, ha⟩
      cases heq
      refine hno ?_
      intro _ _ _ _ _ heq hd'
      cases heq
      rw [hd] at hd'
      cases hd'
      exact ha
  | invokeRemote _ _ _ _ | client _ | deliverToClient _ _ =>
    show requestId k ∈ answeredIds lib m s.server.effects ↔ _
    simp [ArrivesAnswerable]

theorem mem_answeredIds_run {h : List (Session × Action)} (hr : Run (machine lib n m) h s)
    (hwrite : ∀ x ∈ h, Writes m x) :
    requestId k ∈ answeredIds lib m s.server.effects ↔ ∃ x ∈ h, ArrivesAnswerable lib k x := by
  induction hr with
  | init hs =>
    rw [hs.serverEffects]
    simp [answeredIds, RemoteNode.writtenBy]
  | @snoc h s a _ hen ih =>
    have hlast : Writes m (s, a) := hwrite _ (List.mem_append_right _ List.mem_cons_self)
    have hstep : requestId k ∈ answeredIds lib m (next lib n m s a).server.effects ↔ _ :=
      mem_answeredIds_next a hen hlast
    rw [show (machine lib n m).next s a = next lib n m s a from rfl, hstep,
      ih fun x hx => hwrite x (List.mem_append_left _ hx)]
    simp only [List.mem_append, List.mem_singleton, or_and_right, exists_or, exists_eq_left]

/-- **Which calls are left pending**: those whose `Invoke` arrived, but never when it was
answerable. -/
theorem leftPending_iff {h : List (Session × Action)} (hr : Run (machine lib n m) h s)
    (hwrite : ∀ x ∈ h, Writes m x) (hk : k < s.calls.length) : LeftPending lib n m h s k ↔
      (∃ x ∈ h, Arrives lib k x) ∧ ∀ x ∈ h, ¬ ArrivesAnswerable lib k x := by
  have hmem := mem_answeredIds_run (k := k) hr hwrite
  constructor
  · rintro ⟨harr, -, hno⟩
    refine ⟨harr, ?_⟩
    intro x hx ha
    exact hno (hmem.mpr ⟨x, hx, ha⟩)
  · rintro ⟨harr, hno⟩
    refine ⟨harr, ?_, ?_⟩
    · -- nothing can have been delivered that ends the call
      obtain ⟨y, hy, hissue⟩ := issued_of_some hr hk
      refine (pending_run hr).mpr (Foundation.since_of_mem hy hissue ?_)
      intro x hx hans
      obtain ⟨h₁, h₂, rfl⟩ := List.append_of_mem hx
      obtain ⟨hr₁, hen⟩ := hr.split
      obtain ⟨msg, env, methodId, value, ha, hd⟩ := hans
      obtain ⟨u, b⟩ := x
      cases ha
      have hid : requestId k ∈ answeredIds lib m u.server.effects := by
        refine List.mem_filterMap.mpr ⟨msg, RemoteNode.mem_writtenBy.mpr hen, ?_⟩
        unfold answeredId
        rw [ClientNode.decode?_of_handled hd]
        rfl
      obtain ⟨z, hz, hza⟩ := (mem_answeredIds_run hr₁
        fun z hz => hwrite z (List.mem_append_left _ hz)).mp hid
      exact hno z (List.mem_append_left _ hz) hza
    · rw [hmem]
      rintro ⟨x, hx, ha⟩
      exact hno x hx ha

end Session

/-! ## Every call is answered -/

/-- **Calls are answered** exactly if they can be, by a node with a write function:
* handling an `Invoke` writes one message, an answer with its request id, exactly if the `Invoke` is
  answerable;
* over a run the request ids answered are those received, in order, exactly if all of them are
  answerable when they are received;
* a call is left pending at the client exactly if its `Invoke` arrived, but never when it was
  answerable. -/
theorem invoke_answered (lib : JsonLibrary) (n m : NodeRef) :
    (∀ (env : ServerEnv) (w : Server) msg id methodId args, (w.nodes m).writeFunc = true →
      Protocol.decode? lib msg = some (.invoke id methodId args) →
      (RemoteNode.AnsweredOnce lib env w m msg id
        ↔ RemoteNode.Answerable env w id methodId args)) ∧
    (∀ (h : List (Server × Server.Action)) w, Run (Server.unboundedMachine lib) h w →
      (∀ x ∈ h, Server.Writes m x) →
      (RemoteNode.answeredIds lib m w.effects = Server.receivedIds lib m h
        ↔ ∀ x ∈ h, Server.Answers lib m x)) ∧
    ∀ (h : List (Session × Session.Action)) s, Run (Session.machine lib n m) h s →
      (∀ x ∈ h, Session.Writes m x) → ∀ k < s.calls.length,
      (Session.LeftPending lib n m h s k ↔
        (∃ x ∈ h, Session.Arrives lib k x) ∧ ∀ x ∈ h, ¬ Session.ArrivesAnswerable lib k x) := by
  refine ⟨?_, ?_, ?_⟩
  · intro env w msg id methodId args hwrite hd
    exact RemoteNode.answeredOnce_iff hwrite hd
  · intro h w hr hwrite
    exact Server.answeredIds_run hr hwrite
  · intro h s hr hwrite k hk
    exact Session.leftPending_iff hr hwrite hk

/-- A node with a write function, and a source for the object `"o"`. -/
def listening : List Server.Action :=
  [.addSource (some Server.someSource), .create, .onWrite 0]

/-- The call of a method of `"o"` is answered. -/
theorem invoke_answered_known :
    let w := (Server.unboundedMachine .truncating).exec Server.empty listening
    RemoteNode.AnsweredOnce .truncating .returning w 0
      (Call.invoke 1 (lit "o/m") .null).message 1 := by
  intro w
  refine ((invoke_answered .truncating 0 0).1 .returning w _ 1 (lit "o/m") .null rfl
    (Protocol.decode?_composed _ _)).mpr ?_
  exact ⟨Server.someSource, .null, by decide +kernel, rfl, rfl, rfl⟩

/-- The call of a method of an unknown object is not answered. -/
theorem invoke_unknown : ¬ ∀ (h : List (Server × Server.Action)) (w : Server),
    Run (Server.unboundedMachine .truncating) h w → ∀ n msg env id methodId args,
      w.nodeAlive n = true → (w.nodes n).writeFunc = true →
      Protocol.decode? .truncating msg = some (.invoke id methodId args) →
      RemoteNode.AnsweredOnce .truncating env w n msg id := by
  intro hall
  have hr : Run (Server.unboundedMachine .truncating) _ _ :=
    run_play listening Server.init_empty (by decide)
  have hd := Protocol.decode?_composed .truncating (.invoke 1 (lit "x/m") .null)
  have hanswered := hall _ _ hr 0 _ .returning _ _ _ (by decide) rfl hd
  obtain ⟨source, value, hs, -⟩ := (RemoteNode.answeredOnce_iff rfl hd).mp hanswered
  cases hs

end ObjectLink
