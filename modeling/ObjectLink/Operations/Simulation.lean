import ObjectLink.Core.BaseNode
import ObjectLink.Operations.Handlers

/-!
# The models on the level of messages

`ClientNode.lean` and `RemoteNode.lean` model the nodes without mutexes and network formats, with an
environment that says how code outside ends, and which payloads are dumped for log messages. Here an
operation that runs alone, with any loggers, is shown to do what the operation of the same name does
there, exceptions included: the outcome is the same, the registry and the nodes are, and the history
of calls is the list of effects. The code outside leaves the library alone, as it does there, and
answers by what it has been called with before, log functions return, no temporary reference is the
last one, and all nodes of a side have one converter. `addSink` and `addSource` are left out: they
call `olinkObjectName`, which is no effect there.

* `Agree`: an operation and its counterpart, each from its own state, with one rule for each way to
  put code together.
* `linkRemote_agrees` to `clientMessage_agrees`: the operations and the received messages of a
  client node.
* `notifyPropertyChange_agrees` to `remoteMessage_agrees`: those of a remote node.
-/

namespace ObjectLink

open Running
open LoggerBase (emitLog emitLogWithPayload LogParameter)
open Routine (readLibrary call ask)

/-- Code outside that leaves the library alone. -/
def Users.detached (answer : List Event → OutsideCall → Except Thrown Json) : Users :=
  fun history c l => (answer history c, l)

namespace Simulation

/-- What the log messages of a node depend on, for a logging configuration. -/
def logging (lib : Codecs) (L : LoggerId → Logger) (n : NodeId) : Logging where
  logs level := (L (.node n)).logs level
  dump payload := ended ((lib.dump payload).mapError .json)

/-! ## Two runs that agree -/

section Agree

variable {σ α β : Type} (users : Users) (L : LoggerId → Logger) (M : World → σ → Prop)

/-- The outcomes are the same, and the states that are reached match. -/
def Agree (p : Routine α) (q : Code σ α) (w : World) (s : σ) : Prop :=
  (run users L p w).1 = (q.run s).1 ∧ M (run users L p w).2 (q.run s).2

variable {users L M} {p : Routine α} {q : Code σ α} {f : α → Routine β} {g : α → Code σ β}
  {w w' : World} {s s' : σ}

theorem agree_pure (h : M w s) (a : α) : Agree users L M (pure a) (pure a) w s := ⟨rfl, h⟩

theorem agree_of_run {r : Except Thrown α} (hp : run users L p w = (r, w'))
    (hq : q.run s = (r, s')) (h : M w' s') : Agree users L M p q w s := by
  unfold Agree
  rw [hp, hq]
  exact ⟨rfl, h⟩

/-- One piece after the other; an exception ends both. -/
theorem agree_bind (h : Agree users L M p q w s)
    (hf : ∀ a w' s', M w' s' → Agree users L M (f a) (g a) w' s') :
    Agree users L M (p >>= f) (q >>= g) w s := by
  obtain ⟨hr, hm⟩ := h
  unfold Agree
  rw [run_bind, Code.bind_run]
  generalize run users L p w = r at hr hm
  generalize q.run s = r' at hr hm
  match r, r' with
  | (.ok a, w'), (.ok b, s') =>
    cases hr
    exact hf a w' s' hm
  | (.error e, w'), (.error e', s') => exact ⟨congrArg Except.error (Except.error.inj hr), hm⟩
  | (.ok a, _), (.error e, _) => cases hr
  | (.error e, _), (.ok a, _) => cases hr

/-- What only the detailed model does: it reads, or logs. -/
theorem agree_after {q : Code σ β} {a : α} (hp : run users L p w = (.ok a, w'))
    (h : Agree users L M (f a) q w' s) : Agree users L M (p >>= f) q w s := by
  unfold Agree
  rw [run_bind_ok hp]
  exact h

/-- The other model reads its state. -/
theorem agree_get {g : σ → Code σ α} (h : Agree users L M p (g s) w s) :
    Agree users L M p (get >>= g) w s := by
  unfold Agree
  rw [Code.bind_run_ok Code.get_run]
  exact h

/-- The other model changes its state. -/
theorem agree_modify {f : σ → σ} {g : Unit → Code σ α} (h : Agree users L M p (g ()) w (f s)) :
    Agree users L M p (modify f >>= g) w s := by
  unfold Agree
  rw [Code.bind_run_ok (Code.modify_run _)]
  exact h

/-- A log message made of strings. -/
theorem agree_emitLog {q : Code σ β} {f : Unit → Routine β} {l : LoggerId} {level : LogLevel}
    {params : List LogParameter} (hparams : Texts params) (h : Agree users L M (f ()) q w s) :
    Agree users L M (emitLog l level params >>= f) q w s :=
  agree_after (run_emitLog_texts hparams) h

/-- A log message and nothing else. -/
theorem agree_logged {l : LoggerId} {level : LogLevel} {params : List LogParameter}
    (hparams : Texts params) (h : M w s) :
    Agree users L M (emitLog l level params) (return ()) w s :=
  agree_of_run (run_emitLog_texts hparams) rfl h

/-- A log message with a payload. -/
theorem emitLogWithPayload_agrees {lib : Codecs} {n : NodeId} {level : LogLevel} {payload : Json}
    {params : List LogParameter} (hparams : Texts params) (h : M w s) :
    Agree users L M (emitLogWithPayload lib (.node n) level payload params)
      (Code.ofExcept ((logging lib L n).emitLogWithPayload level payload)) w s :=
  agree_of_run (run_emitLogWithPayload hparams payload) (Code.ofExcept_run _) h

/-- A message that is sent, once it has been logged. -/
theorem write_agrees (lib : Codecs) {n : NodeId} {msg : Json} {q : Code σ Unit} (h : M w s)
    (hnone : w.library.writeFunc n = false → q.run s = (.ok (), s))
    (herror : w.library.writeFunc n = true → ∀ e,
      (w.library.converters n).toString lib msg = .error e → q.run s = (.error e, s))
    (hok : w.library.writeFunc n = true → ∀ data,
      (w.library.converters n).toString lib msg = .ok data →
        Agree users L M (call (.write n data)) q w s) :
    Agree users L M (Operations.BaseNode.emitWrite lib n msg) (do
      Code.ofExcept ((logging lib L n).emitLogWithPayload .debug msg)
      q) w s := by
  have hlog : dumped lib msg ((L (.node n)).logs .debug)
      = (logging lib L n).emitLogWithPayload .debug msg := rfl
  unfold Agree
  rw [run_emitWrite, Code.bind_run, Code.ofExcept_run, hlog]
  cases (logging lib L n).emitLogWithPayload .debug msg with
  | error e => exact ⟨rfl, h⟩
  | ok u =>
    unfold afterDump written
    dsimp only
    cases hw : w.library.writeFunc n with
    | false =>
      rw [hnone hw]
      exact ⟨rfl, h⟩
    | true =>
      rw [if_pos rfl]
      cases ht : (w.library.converters n).toString lib msg with
      | error e =>
        rw [herror hw e ht]
        exact ⟨rfl, h⟩
      | ok data =>
        have hcall := hok hw data ht
        unfold Agree at hcall
        rw [run_call rfl] at hcall
        exact hcall

/-- What a handler of `BaseNode` ends with, which only logs. -/
def baseOutcome (env : Logging) : Call → Except Thrown Unit
  | .init _ payload | .setProperty _ payload | .propertyChange _ payload | .invoke _ _ payload
  | .signal _ payload => env.emitLogWithPayload .warning payload
  | .invokeReply _ _ value => if env.logs .warning then value.getString.map fun _ => () else .ok ()
  | .link _ | .unlink _ | .error _ _ _ => .ok ()

theorem run_baseHandle (lib : Codecs) (n : NodeId) (call : Call) :
    run users L (Operations.BaseNode.handle lib n call) w
      = (baseOutcome (logging lib L n) call, w) := by
  cases call with
  | link o => exact run_emitLog_texts (by simp)
  | unlink o => exact run_emitLog_texts (by simp)
  | init o props => exact run_baseInit
  | setProperty p value => exact run_baseSetProperty
  | propertyChange p value => exact run_basePropertyChange
  | invoke id m args => exact run_baseInvoke
  | invokeReply id m value =>
    have hended : ended value.getString = value.getString.map fun _ => () := by
      cases value.getString <;> rfl
    refine run_baseInvokeReply.trans ?_
    rw [hended]
    rfl
  | signal p args => exact run_baseSignal
  | error t id text => exact run_emitLog_texts (by simp)

/-- The handlers of `BaseNode` only log. -/
theorem baseHandle_agrees (lib : Codecs) (h : M w s) (n : NodeId) (call : Call) :
    Agree users L M (Operations.BaseNode.handle lib n call)
      (Code.ofExcept (baseOutcome (logging lib L n) call)) w s :=
  agree_of_run (run_baseHandle lib n call) (Code.ofExcept_run _) h

/-- A received message: the handlers agree, and both catch the same exceptions. -/
theorem message_agrees (lib : Codecs) (n : NodeId) {listener : IProtocolListener σ}
    {handle : Call → Routine Unit} (h : M w s)
    (hhandle : ∀ call, Agree users L M (handle call) (ExceptT.mk (listener.run call)) w s)
    (data : Bytes) :
    Agree users L M (Operations.BaseNode.handleMessage lib n true handle data)
      (ExceptT.mk (BaseNode.handleMessage lib.toJsonLibrary listener
        ((w.library.converters n).fromString lib data))) w s := by
  unfold Agree
  rw [run_handleMessage]
  generalize (w.library.converters n).fromString lib data = msg
  change (_ = (BaseNode.handleMessage lib.toJsonLibrary listener msg s).1) ∧
    M _ (BaseNode.handleMessage lib.toJsonLibrary listener msg s).2
  unfold BaseNode.handleMessage
  cases hc : Protocol.decode? lib.toJsonLibrary msg with
  | some call =>
    obtain ⟨hr, hm⟩ := hhandle call
    rw [Protocol.tryBlock_of_decode hc, Protocol.handleMessage_of_decode _ hc]
    generalize run users L (handle call) w = r at hr hm ⊢
    change r.1 = (listener.run call s).1 at hr
    change M r.2 (listener.run call s).2 at hm
    generalize listener.run call s = r' at hr hm ⊢
    match r, r' with
    | (.ok _, _), (.ok _, _) => exact ⟨rfl, hm⟩
    | (.error e, _), (.error e', _) =>
      cases hr
      cases e <;> exact ⟨rfl, hm⟩
    | (.ok _, _), (.error _, _) => cases hr
    | (.error _, _), (.ok _, _) => cases hr
  | none =>
    obtain ⟨text, -, hrun⟩ := Protocol.handleMessage_of_reject lib.toJsonLibrary hc listener ⟨[], s⟩
    rw [Protocol.tryBlock_of_reject hc, hrun]
    cases Protocol.unsupported msg with
    | false => exact ⟨rfl, h⟩
    | true => cases lib.dump msg <;> exact ⟨rfl, h⟩

end Agree

/-- The calls that a list of effects stands for, each with how it ends. -/
def replay {ε : Type} (event : List Event → ε → Event) (effects : List ε) : List Event :=
  effects.foldl (fun history e => history ++ [event history e]) []

theorem replay_append {ε : Type} (event : List Event → ε → Event) (effects : List ε) (e : ε) :
    replay event (effects ++ [e]) = replay event effects ++ [event (replay event effects) e] := by
  simp [replay]

/-- What a message is converted to. -/
def bytes (lib : Codecs) (k : MessageConverter) (msg : Json) : Bytes :=
  match k.toString lib msg with
  | .ok data => data
  | .error _ => []

theorem bytes_of_toString {lib : Codecs} {k : MessageConverter} {msg : Json} {data : Bytes}
    (h : k.toString lib msg = .ok data) : bytes lib k msg = data := by
  unfold bytes
  rw [h]

variable (lib : Codecs) (k : MessageConverter)
  (answer : List Event → OutsideCall → Except Thrown Json)

/-! ## Client nodes -/

section Client

/-- The call an effect stands for. -/
def clientCall : ClientEffect → OutsideCall
  | .write n msg => .write (.client n) (bytes lib k msg)
  | .olinkOnInit sink o props n => .olinkOnInit sink o props n
  | .olinkOnRelease sink => .olinkOnRelease sink
  | .olinkOnPropertyChanged sink p value => .olinkOnPropertyChanged sink p value
  | .olinkOnSignal sink s args => .olinkOnSignal sink s args
  | .invokeReply func m value => .invokeReply func m value

/-- The call, with how the code outside ends it after what it has been called with so far. -/
def clientEvent (history : List Event) (e : ClientEffect) : Event :=
  (clientCall lib k e, answer history (clientCall lib k e))

/-- The environment that ends as the code outside does, for the log messages of a node. -/
def clientEnv (L : LoggerId → Logger) (n : NodeRef) : ClientEnv where
  toLogging := logging lib L (.client n)
  toString msg := ended (k.toString lib msg)
  call before e := ended (answer (replay (clientEvent lib k answer) before) (clientCall lib k e))

/-- The two models are in the same state. -/
structure MatchesClient (w : World) (c : Client) : Prop where
  client : { w.library.client with effects := c.effects } = c
  history : w.history = replay (clientEvent lib k answer) c.effects
  converter : ∀ n, w.library.converters (.client n) = k
  /-- The application holds on to what it shares with the library. -/
  shared : ∀ object, w.library.lastReference object = false

variable {lib k answer} {L : LoggerId → Logger} {w : World} {c : Client} {n : NodeRef}
  {o : ObjectId}

theorem MatchesClient.nodes (h : MatchesClient lib k answer w c) :
    w.library.client.nodes = c.nodes := by
  rw [← h.client]

theorem MatchesClient.sink (h : MatchesClient lib k answer w c) (o : ObjectId) :
    w.library.sink o = (c.registry.getSink o).lock c.sinkAlive := by
  rw [← h.client]
  rfl

/-- A change of the client that is none of its effects. -/
theorem MatchesClient.update (h : MatchesClient lib k answer w c) (f : Client → Client)
    (hf : { f w.library.client with effects := c.effects } = f c) :
    MatchesClient lib k answer (w.update fun l => { l with client := f l.client }) (f c) := by
  have heffects : (f c).effects = c.effects := by rw [← hf]
  refine ⟨?_, ?_, h.converter, h.shared⟩
  · rw [heffects]
    exact hf
  · rw [heffects]
    exact h.history

theorem perform_agrees (h : MatchesClient lib k answer w c) (e : ClientEffect) :
    Agree (.detached answer) L (MatchesClient lib k answer) (call (clientCall lib k e))
      (ClientNode.perform (clientEnv lib k answer L n) e) w c := by
  have hlog : (clientCall lib k e).isLog = false := by cases e <;> rfl
  have hcall : run (.detached answer) L (call (clientCall lib k e)) w
      = ((clientEnv lib k answer L n).call c.effects e,
        w.called (.detached answer) (clientCall lib k e)) := by
    rw [run_call hlog, h.history]
    rfl
  refine agree_of_run hcall (ClientNode.perform_run e) ⟨?_, ?_, h.converter, h.shared⟩
  · exact congrArg (fun c' : Client => { c' with effects := c.effects ++ [e] }) h.client
  · rw [replay_append, ← h.history]
    rfl

theorem emitWrite_agrees (h : MatchesClient lib k answer w c) (n : NodeRef) (msg : Json) :
    Agree (.detached answer) L (MatchesClient lib k answer)
      (Operations.BaseNode.emitWrite lib (.client n) msg)
      (ClientNode.emitWrite (clientEnv lib k answer L n) n msg) w c := by
  have hwrite : w.library.writeFunc (.client n) = (c.nodes n).writeFunc := by
    rw [← h.nodes]
    rfl
  have hconverted : (clientEnv lib k answer L n).toString msg
      = ended ((w.library.converters (.client n)).toString lib msg) := by
    rw [h.converter]
    rfl
  unfold ClientNode.emitWrite
  refine write_agrees lib h (fun hw => ?_) (fun hw e ht => ?_) fun hw data ht => agree_get ?_
  · rw [Code.bind_run_ok Code.get_run, ← hwrite, hw]
    rfl
  · rw [Code.bind_run_ok Code.get_run, ← hwrite, hconverted, hw, ht]
    rfl
  · rw [← hwrite, hconverted, hw, ht, if_pos rfl]
    rw [h.converter] at ht
    have hbytes : .write (.client n) data = clientCall lib k (.write n msg) :=
      (congrArg (OutsideCall.write _) (bytes_of_toString ht)).symm
    rw [hbytes]
    exact perform_agrees h (.write n msg)

/-! ### What the application calls -/

theorem linkRemote_agrees (h : MatchesClient lib k answer w c) (n : NodeRef) (o : ObjectId) :
    Agree (.detached answer) L (MatchesClient lib k answer)
      (Operations.ClientNode.linkRemote lib n o)
      (ClientNode.linkRemote (clientEnv lib k answer L n) n o) w c := by
  refine agree_emitLog (by simp) (agree_bind (emitWrite_agrees h n _) fun _ w c h => ?_)
  have hunset := h.update (·.updateRegistry (·.unsetNode o)) (by rw [← h.client]; rfl)
  refine agree_bind (agree_of_run (run_unsetNode o) (Code.modify_run _) hunset) fun _ w c h => ?_
  refine agree_after (run_clientNodeId n) ?_
  rw [h.nodes]
  have hset := h.update (·.updateRegistry (·.setNode (c.nodes n).nodeId o))
    (by rw [← h.client]; rfl)
  exact agree_of_run (run_setNode _ o) (Code.modify_run _) hset

theorem unlinkRemote_agrees (h : MatchesClient lib k answer w c) (n : NodeRef) (o : ObjectId) :
    Agree (.detached answer) L (MatchesClient lib k answer)
      (Operations.ClientNode.unlinkRemote lib n o)
      (ClientNode.unlinkRemote (clientEnv lib k answer L n) n o) w c := by
  have hrest : ∀ w c, MatchesClient lib k answer w c →
      Agree (.detached answer) L (MatchesClient lib k answer) (do
        Operations.BaseNode.emitWrite lib (.client n) (Protocol.unlinkMessage o)
        Operations.ClientRegistry.unsetNode o) (do
        ClientNode.emitWrite (clientEnv lib k answer L n) n (Protocol.unlinkMessage o)
        modify fun c => c.updateRegistry fun r => r.unsetNode o) w c := by
    intro w c h
    refine agree_bind (emitWrite_agrees h n _) fun _ w c h => ?_
    have hunset := h.update (·.updateRegistry (·.unsetNode o)) (by rw [← h.client]; rfl)
    exact agree_of_run (run_unsetNode o) (Code.modify_run _) hunset
  refine agree_emitLog (by simp) (agree_after (run_sinkOf o) (agree_get ?_))
  rw [h.sink o]
  cases (c.registry.getSink o).lock c.sinkAlive with
  | none => exact hrest w c h
  | some sink => exact agree_bind (perform_agrees h (.olinkOnRelease sink)) fun _ => hrest

theorem invokeRemote_agrees (h : MatchesClient lib k answer w c) (n : NodeRef) (m : Bytes)
    (args : Json) (func : Option InvokeReplyFunc) :
    Agree (.detached answer) L (MatchesClient lib k answer)
      (Operations.ClientNode.invokeRemote lib n m args func)
      (ClientNode.invokeRemote (clientEnv lib k answer L n) n m args func) w c := by
  have hcalled := h.update (ClientNode.called · n func) (by rw [← h.client]; rfl)
  have hid : (w.library.client.nodes n).nextRequestId + 1 = (c.nodes n).nextRequestId + 1 := by
    rw [h.nodes]
  unfold Agree
  rw [run_invokeRemote, entered_of_shared h.shared, ClientNode.invokeRemote_eq, hid]
  exact emitWrite_agrees hcalled n _

theorem setRemoteProperty_agrees (h : MatchesClient lib k answer w c) (n : NodeRef) (p : Bytes)
    (value : Json) :
    Agree (.detached answer) L (MatchesClient lib k answer)
      (Operations.ClientNode.setRemoteProperty lib n p value)
      (ClientNode.setRemoteProperty (clientEnv lib k answer L n) n p value) w c :=
  agree_emitLog (by simp) (emitWrite_agrees h n _)

theorem unlinkAll_agrees (h : MatchesClient lib k answer w c) (n : NodeRef) (ids : List ObjectId) :
    Agree (.detached answer) L (MatchesClient lib k answer)
      (Operations.ClientNode.unlinkAll lib n ids)
      (ClientNode.unlinkAll (clientEnv lib k answer L n) n ids) w c := by
  induction ids generalizing w c with
  | nil => exact agree_pure h ()
  | cons o ids ih => exact agree_bind (unlinkRemote_agrees h n o) fun _ _ _ h => ih h

theorem create_agrees (h : MatchesClient lib k answer w c) :
    Agree (.detached answer) L (MatchesClient lib k answer) Operations.ClientNode.create
      (modify fun c => (ClientNode.create c).2) w c := by
  have hcreated := h.update (fun c => (ClientNode.create c).2) (by rw [← h.client]; rfl)
  exact agree_of_run (run_create h.shared) (Code.modify_run _) hcreated

theorem destroy_agrees (h : MatchesClient lib k answer w c) (n : NodeRef) :
    Agree (.detached answer) L (MatchesClient lib k answer) (Operations.ClientNode.destroy lib n)
      (ClientNode.destroy (clientEnv lib k answer L n) n) w c := by
  have hgone := h.update (fun c =>
    { c with nodeAlive := fun m => if m = n then false else c.nodeAlive m })
    (by rw [← h.client])
  unfold Operations.ClientNode.destroy ClientNode.destroy
  simp only [update_alive]
  refine agree_after (run_updateLibrary _) (agree_after (run_clientNodeId n) (agree_modify ?_))
  refine agree_after (run_clientObjectIds _) (agree_get ?_)
  have hids : w.library.client.registry.getObjectIds (w.library.client.nodes n).nodeId
      = c.registry.getObjectIds (c.nodes n).nodeId := by
    rw [← h.client]
  refine agree_bind (?_ : Agree _ _ _ (Operations.ClientNode.unlinkAll lib n
    (w.library.client.registry.getObjectIds (w.library.client.nodes n).nodeId)) _ _ _)
    fun _ w c h => ?_
  · rw [hids]
    exact unlinkAll_agrees hgone n _
  · refine agree_after (run_clientNodeId n) ?_
    have hunregistered := h.update (fun c =>
      c.updateRegistry fun r => r.unregisterNode (c.nodes n).nodeId) (by rw [← h.client]; rfl)
    exact agree_of_run (run_unregisterClientNode _) (Code.modify_run _) hunregistered

theorem removeSink_agrees (h : MatchesClient lib k answer w c) (o : ObjectId) :
    Agree (.detached answer) L (MatchesClient lib k answer)
      (Operations.ClientRegistry.removeSink o)
      (modify fun c => c.updateRegistry fun r => r.removeSink o) w c := by
  have hremoved := h.update (·.updateRegistry (·.removeSink o)) (by rw [← h.client]; rfl)
  exact agree_of_run (run_removeSink o) (Code.modify_run _) hremoved

/-! ### What it receives -/

/-- What is passed on to a sink, if there is one. -/
theorem passOn_agrees (h : MatchesClient lib k answer w c) (o : ObjectId)
    (e : Sink → ClientEffect) (l : LoggerId) (level : LogLevel) {params : List LogParameter}
    (hparams : Texts params) :
    Agree (.detached answer) L (MatchesClient lib k answer) (do
        match ← Operations.ClientNode.sinkOf o with
        | some sink => call (clientCall lib k (e sink))
        | none => emitLog l level params)
      (ClientNode.forSink (clientEnv lib k answer L n) o e) w c := by
  refine agree_after (run_sinkOf o) (agree_get ?_)
  rw [h.sink o]
  cases (c.registry.getSink o).lock c.sinkAlive with
  | none => exact agree_logged hparams h
  | some sink => exact perform_agrees h (e sink)

/-- The end of a pending call. Without a callback there is at most a log message. -/
theorem resolve_agrees (h : MatchesClient lib k answer w c) (n : NodeRef) (requestId : UInt32)
    (m : Bytes) (value : Json) {rest : Routine Unit}
    (hrest : ∀ w, run (.detached answer) L rest w = (.ok (), w)) :
    Agree (.detached answer) L (MatchesClient lib k answer) (do
        match ← Operations.ClientNode.takePending n requestId with
        | some (some callback) => call (.invokeReply callback m value)
        | _ => rest)
      (ClientNode.resolve (clientEnv lib k answer L n) n requestId m value) w c := by
  have htake : run (.detached answer) L (Operations.ClientNode.takePending n requestId) w
      = (.ok (c.nodes n).invokesPending[requestId]?, taken n requestId w) := by
    rw [← h.nodes]
    rfl
  have hmatches := h.update (·.updateNode n fun node =>
    { node with invokesPending := node.invokesPending.erase requestId }) (by rw [← h.client]; rfl)
  refine agree_after htake (agree_get (agree_modify ?_))
  generalize (c.nodes n).invokesPending[requestId]? = found
  match found with
  | none => exact agree_of_run (hrest _) rfl hmatches
  | some none => exact agree_of_run (hrest _) rfl hmatches
  | some (some callback) => exact perform_agrees hmatches (.invokeReply callback m value)

theorem clientHandle_agrees (h : MatchesClient lib k answer w c) (n : NodeRef) (call : Call) :
    Agree (.detached answer) L (MatchesClient lib k answer)
      (Operations.ClientNode.handle lib n call)
      (ExceptT.mk ((ClientNode.listener (clientEnv lib k answer L n) n).run call)) w c := by
  cases call with
  | init o props =>
    exact agree_bind (emitLogWithPayload_agrees (by simp) h) fun _ w c h =>
      passOn_agrees h o (fun sink => .olinkOnInit sink o props n) _ _ (by simp)
  | propertyChange p value =>
    exact agree_bind (emitLogWithPayload_agrees (by simp) h) fun _ w c h =>
      passOn_agrees h _ (fun sink => .olinkOnPropertyChanged sink p value) _ _ (by simp)
  | signal s args =>
    exact agree_emitLog (by simp)
      (passOn_agrees h _ (fun sink => .olinkOnSignal sink s args) _ _ (by simp))
  | invokeReply id m value =>
    exact agree_bind (emitLogWithPayload_agrees (by simp) h) fun _ w c h =>
      resolve_agrees h n id m value fun w => run_emitLog_texts (by simp)
  | error t id text =>
    refine agree_emitLog (by simp) ?_
    change Agree _ _ _ _ (ClientNode.handleError (clientEnv lib k answer L n) n t id text) w c
    unfold ClientNode.handleError
    split
    · exact resolve_agrees h n id.toUInt32 [] .null fun w => rfl
    · exact agree_pure h ()
  | link o => exact baseHandle_agrees lib h _ (.link o)
  | unlink o => exact baseHandle_agrees lib h _ (.unlink o)
  | setProperty p value => exact baseHandle_agrees lib h _ (.setProperty p value)
  | invoke id m args => exact baseHandle_agrees lib h _ (.invoke id m args)

theorem clientMessage_agrees (h : MatchesClient lib k answer w c) (n : NodeRef) (data : Bytes) :
    Agree (.detached answer) L (MatchesClient lib k answer)
      (Operations.handleMessage lib true (.client n) data)
      (ExceptT.mk (ClientNode.handleMessage (clientEnv lib k answer L n) n lib.toJsonLibrary
        (k.fromString lib data))) w c := by
  have hmessage := message_agrees (L := L) lib (.client n) h (clientHandle_agrees h n) data
  rw [h.converter] at hmessage
  exact hmessage

end Client

/-! ## Remote nodes -/

section Server

/-- The call an effect stands for. -/
def serverCall : ServerEffect → OutsideCall
  | .write n msg => .write (.remote n) (bytes lib k msg)
  | .olinkLinked source o n => .olinkLinked source o n
  | .olinkUnlinked source o => .olinkUnlinked source o
  | .olinkSetProperty source p value => .olinkSetProperty source p value
  | .olinkCollectProperties source _ => .olinkCollectProperties source
  | .olinkInvoke source m args _ => .olinkInvoke source m args

/-- The call, with how the code outside ends it after what it has been called with so far. -/
def serverEvent (history : List Event) (e : ServerEffect) : Event :=
  (serverCall lib k e, answer history (serverCall lib k e))

/-- The environment that ends as the code outside does, for the log messages of a node. -/
def serverEnv (L : LoggerId → Logger) (n : NodeRef) : ServerEnv where
  toLogging := logging lib L (.remote n)
  toString msg := ended (k.toString lib msg)
  call before e := ended (answer (replay (serverEvent lib k answer) before) (serverCall lib k e))
  olinkCollectProperties before source :=
    answer (replay (serverEvent lib k answer) before) (.olinkCollectProperties source)
  olinkInvoke before source m args :=
    answer (replay (serverEvent lib k answer) before) (.olinkInvoke source m args)

/-- The two models are in the same state. -/
structure MatchesServer (w : World) (s : Server) : Prop where
  server : { w.library.server with effects := s.effects } = s
  history : w.history = replay (serverEvent lib k answer) s.effects
  converter : ∀ n, w.library.converters (.remote n) = k
  /-- The application holds on to what it shares with the library. -/
  shared : ∀ object, w.library.lastReference object = false

variable {lib k answer} {L : LoggerId → Logger} {w : World} {s : Server} {n : NodeRef}
  {o : ObjectId}

theorem MatchesServer.nodes (h : MatchesServer lib k answer w s) :
    w.library.server.nodes = s.nodes := by
  rw [← h.server]

theorem MatchesServer.source (h : MatchesServer lib k answer w s) (o : ObjectId) :
    w.library.source o = s.source o := by
  rw [← h.server]
  rfl

/-- A change of the server that is none of its effects. -/
theorem MatchesServer.update (h : MatchesServer lib k answer w s) (f : Server → Server)
    (hf : { f w.library.server with effects := s.effects } = f s) :
    MatchesServer lib k answer (w.update fun l => { l with server := f l.server }) (f s) := by
  have heffects : (f s).effects = s.effects := by rw [← hf]
  refine ⟨?_, ?_, h.converter, h.shared⟩
  · rw [heffects]
    exact hf
  · rw [heffects]
    exact h.history

/-- A call of code outside, on record on both sides. -/
theorem MatchesServer.called (h : MatchesServer lib k answer w s) (e : ServerEffect) :
    MatchesServer lib k answer (w.called (.detached answer) (serverCall lib k e))
      { s with effects := s.effects ++ [e] } := by
  refine ⟨congrArg (fun s' : Server => { s' with effects := s.effects ++ [e] }) h.server, ?_,
    h.converter, h.shared⟩
  rw [replay_append, ← h.history]
  rfl

theorem serverPerform_agrees (h : MatchesServer lib k answer w s) (e : ServerEffect) :
    Agree (.detached answer) L (MatchesServer lib k answer) (call (serverCall lib k e))
      (RemoteNode.perform (serverEnv lib k answer L n) e) w s := by
  have hlog : (serverCall lib k e).isLog = false := by cases e <;> rfl
  have hcall : run (.detached answer) L (call (serverCall lib k e)) w
      = ((serverEnv lib k answer L n).call s.effects e,
        w.called (.detached answer) (serverCall lib k e)) := by
    rw [run_call hlog, h.history]
    rfl
  exact agree_of_run hcall (RemoteNode.perform_run e) (h.called e)

/-- A call for a value. -/
theorem request_agrees (h : MatchesServer lib k answer w s)
    {handler : List ServerEffect → Except Thrown Json}
    {effect : Except Thrown Json → ServerEffect} {c : OutsideCall} (hc : c.isLog = false)
    (hhandler : handler s.effects = answer w.history c)
    (heffect : ∀ r, serverCall lib k (effect r) = c) :
    Agree (.detached answer) L (MatchesServer lib k answer) (ask c)
      (RemoteNode.request handler effect) w s := by
  have hask : run (.detached answer) L (ask c) w
      = (handler s.effects, w.called (.detached answer) c) := by
    rw [run_ask hc, hhandler]
    rfl
  refine agree_of_run hask (RemoteNode.request_run handler effect) ?_
  have hcalled := h.called (effect (handler s.effects))
  rw [heffect] at hcalled
  exact hcalled

theorem serverWrite_agrees (h : MatchesServer lib k answer w s) (n : NodeRef) (msg : Json) :
    Agree (.detached answer) L (MatchesServer lib k answer)
      (Operations.BaseNode.emitWrite lib (.remote n) msg)
      (RemoteNode.emitWrite (serverEnv lib k answer L n) n msg) w s := by
  have hwrite : w.library.writeFunc (.remote n) = (s.nodes n).writeFunc := by
    rw [← h.nodes]
    rfl
  have hconverted : (serverEnv lib k answer L n).toString msg
      = ended ((w.library.converters (.remote n)).toString lib msg) := by
    rw [h.converter]
    rfl
  unfold RemoteNode.emitWrite
  refine write_agrees lib h (fun hw => ?_) (fun hw e ht => ?_) fun hw data ht => agree_get ?_
  · rw [Code.bind_run_ok Code.get_run, ← hwrite, hw]
    rfl
  · rw [Code.bind_run_ok Code.get_run, ← hwrite, hconverted, hw, ht]
    rfl
  · rw [← hwrite, hconverted, hw, ht, if_pos rfl]
    rw [h.converter] at ht
    have hbytes : .write (.remote n) data = serverCall lib k (.write n msg) :=
      (congrArg (OutsideCall.write _) (bytes_of_toString ht)).symm
    rw [hbytes]
    exact serverPerform_agrees h (.write n msg)

/-! ### What the application and the sources call -/

theorem notifyPropertyChange_agrees (h : MatchesServer lib k answer w s) (n : NodeRef) (p : Bytes)
    (value : Json) :
    Agree (.detached answer) L (MatchesServer lib k answer)
      (Operations.RemoteNode.notifyPropertyChange lib n p value)
      (RemoteNode.notifyPropertyChange (serverEnv lib k answer L n) n p value) w s :=
  serverWrite_agrees h n _

theorem notifySignal_agrees (h : MatchesServer lib k answer w s) (n : NodeRef) (p : Bytes)
    (args : Json) :
    Agree (.detached answer) L (MatchesServer lib k answer)
      (Operations.RemoteNode.notifySignal lib n p args)
      (RemoteNode.notifySignal (serverEnv lib k answer L n) n p args) w s :=
  serverWrite_agrees h n _

theorem createRemoteNode_agrees (h : MatchesServer lib k answer w s) :
    Agree (.detached answer) L (MatchesServer lib k answer) Operations.RemoteNode.createRemoteNode
      (modify fun s => (RemoteNode.createRemoteNode s).2) w s := by
  have hcreated := h.update (fun s => (RemoteNode.createRemoteNode s).2)
    (by rw [← h.server]; rfl)
  exact agree_of_run (run_createRemoteNode h.shared) (Code.modify_run _) hcreated

theorem destroyRemoteNode_agrees (h : MatchesServer lib k answer w s) (n : NodeRef) :
    Agree (.detached answer) L (MatchesServer lib k answer) (Operations.RemoteNode.destroy n)
      (modify (RemoteNode.destroy n)) w s := by
  have hgone := h.update (RemoteNode.destroy n) (by rw [← h.server]; rfl)
  exact agree_of_run (run_destroyRemoteNode n) (Code.modify_run _) hgone

theorem removeSource_agrees (h : MatchesServer lib k answer w s) (o : ObjectId) :
    Agree (.detached answer) L (MatchesServer lib k answer)
      (Operations.RemoteRegistry.removeSource o)
      (modify fun s => s.updateRegistry fun r => r.removeSource o) w s := by
  have hremoved := h.update (·.updateRegistry (·.removeSource o)) (by rw [← h.server]; rfl)
  exact agree_of_run (run_removeSource o) (Code.modify_run _) hremoved

/-! ### What it receives -/

theorem handleLink_agrees (h : MatchesServer lib k answer w s) (n : NodeRef) (o : ObjectId) :
    Agree (.detached answer) L (MatchesServer lib k answer)
      (Operations.RemoteNode.handleLink lib n o)
      (RemoteNode.handleLink (serverEnv lib k answer L n) n o) w s := by
  refine agree_emitLog (by simp) (agree_after (run_sourceOf o) (agree_get ?_))
  rw [h.source o]
  cases s.source o with
  | none => exact agree_logged (by simp) h
  | some source =>
    refine agree_after (run_remoteNodeId n) ?_
    rw [h.nodes]
    refine agree_after (run_addNodeForSource _ o) (agree_modify ?_)
    have hlinked := h.update (fun s' => s'.updateRegistry fun r =>
      r.addNodeForSource s'.nodeAlive (s.nodes n).nodeId o) (by rw [← h.server]; rfl)
    refine agree_bind (serverPerform_agrees hlinked (.olinkLinked source o n)) fun _ w s h => ?_
    refine agree_bind (request_agrees h rfl ?_ fun _ => rfl) fun props w s h =>
      serverWrite_agrees h n _
    rw [h.history]
    rfl

theorem handleUnlink_agrees (h : MatchesServer lib k answer w s) (n : NodeRef) (o : ObjectId) :
    Agree (.detached answer) L (MatchesServer lib k answer) (Operations.RemoteNode.handleUnlink n o)
      (RemoteNode.handleUnlink (serverEnv lib k answer L n) n o) w s := by
  refine agree_after (run_sourceOf o) (agree_get ?_)
  rw [h.source o]
  cases s.source o with
  | none => exact agree_pure h ()
  | some source =>
    refine agree_bind (serverPerform_agrees h (.olinkUnlinked source o)) fun _ w s h => ?_
    refine agree_after (run_remoteNodeId n) ?_
    rw [h.nodes]
    have hremoved := h.update (·.updateRegistry (·.removeNodeFromSource (s.nodes n).nodeId o))
      (by rw [← h.server]; rfl)
    exact agree_of_run (run_removeNodeFromSource _ o) (Code.modify_run _) hremoved

theorem handleSetProperty_agrees (h : MatchesServer lib k answer w s) (p : Bytes) (value : Json) :
    Agree (.detached answer) L (MatchesServer lib k answer)
      (Operations.RemoteNode.handleSetProperty p value)
      (RemoteNode.handleSetProperty (serverEnv lib k answer L n) p value) w s := by
  refine agree_after (run_sourceOf _) (agree_get ?_)
  rw [h.source]
  cases s.source (Name.getObjectId p) with
  | none => exact agree_pure h ()
  | some source => exact serverPerform_agrees h (.olinkSetProperty source p value)

theorem handleInvoke_agrees (h : MatchesServer lib k answer w s) (n : NodeRef)
    (requestId : UInt32) (m : Bytes) (args : Json) :
    Agree (.detached answer) L (MatchesServer lib k answer)
      (Operations.RemoteNode.handleInvoke lib n requestId m args)
      (RemoteNode.handleInvoke (serverEnv lib k answer L n) n requestId m args) w s := by
  refine agree_after (run_sourceOf _) (agree_get ?_)
  rw [h.source]
  cases s.source (Name.getObjectId m) with
  | none => exact agree_pure h ()
  | some source =>
    refine agree_bind (request_agrees h rfl ?_ fun _ => rfl) fun value w s h =>
      serverWrite_agrees h n _
    rw [h.history]
    rfl

theorem remoteHandle_agrees (h : MatchesServer lib k answer w s) (n : NodeRef) (call : Call) :
    Agree (.detached answer) L (MatchesServer lib k answer)
      (Operations.RemoteNode.handle lib n call)
      (ExceptT.mk ((RemoteNode.listener (serverEnv lib k answer L n) n).run call)) w s := by
  cases call with
  | link o => exact handleLink_agrees h n o
  | unlink o => exact handleUnlink_agrees h n o
  | setProperty p value => exact handleSetProperty_agrees h p value
  | invoke id m args => exact handleInvoke_agrees h n id m args
  | init o props => exact baseHandle_agrees lib h _ (.init o props)
  | propertyChange p value => exact baseHandle_agrees lib h _ (.propertyChange p value)
  | invokeReply id m value => exact baseHandle_agrees lib h _ (.invokeReply id m value)
  | signal p args => exact baseHandle_agrees lib h _ (.signal p args)
  | error t id text => exact baseHandle_agrees lib h _ (.error t id text)

theorem remoteMessage_agrees (h : MatchesServer lib k answer w s) (n : NodeRef) (data : Bytes) :
    Agree (.detached answer) L (MatchesServer lib k answer)
      (Operations.handleMessage lib true (.remote n) data)
      (ExceptT.mk (RemoteNode.handleMessage (serverEnv lib k answer L n) n lib.toJsonLibrary
        (k.fromString lib data))) w s := by
  have hmessage := message_agrees (L := L) lib (.remote n) h (remoteHandle_agrees h n) data
  rw [h.converter] at hmessage
  exact hmessage

end Server

end Simulation

end ObjectLink
