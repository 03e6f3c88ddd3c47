import ObjectLink.Operations.Handlers

/-!
# What logging changes

A payload that is logged is dumped before the real work, and dumping throws on strings that are not
UTF-8, which the binary formats carry unchanged. So an operation may end another way where it is
logged. The runs compared here start in the same state, have the same code outside and differ in
nothing but the loggers; each has an outcome, a history of calls of code outside (log functions are
not in it) and a library.

* `Alike`: what is looked at of the outcome is the same for all logging configurations.
* `alike_afterDump_iff`: for code that logs a payload first, exactly if the payload can be dumped,
  or what follows it ends just as a dump that throws.
* `unaffected_iff`: for each call of the application and each received message, in the build with
  exceptions, exactly when logging makes no difference.
* `logged_write_lost`: a property that a client node sets as CBOR is written in a run without a log
  function, and in a run with one it is not.
-/

namespace ObjectLink

open Running

namespace LoggingInfluence

/-- What happens to a node: the application calls it, or a message is received. -/
inductive Input where
  | linkRemote (n : NodeRef) (objectId : Bytes)
  | unlinkRemote (n : NodeRef) (objectId : Bytes)
  | invokeRemote (n : NodeRef) (methodId : Bytes) (args : Json) (func : Option InvokeReplyFunc)
  | setRemoteProperty (n : NodeRef) (propertyId : Bytes) (value : Json)
  | notifyPropertyChange (n : NodeRef) (propertyId : Bytes) (value : Json)
  | notifySignal (n : NodeRef) (signalId : Bytes) (args : Json)
  | receive (n : NodeId) (data : Bytes)

variable (lib : Codecs) (users : Users)

/-- What it runs, in the build with exceptions. -/
def code : Input → Routine Unit
  | .linkRemote n o => Operations.ClientNode.linkRemote lib n o
  | .unlinkRemote n o => Operations.ClientNode.unlinkRemote lib n o
  | .invokeRemote n m args func => Operations.ClientNode.invokeRemote lib n m args func
  | .setRemoteProperty n p v => Operations.ClientNode.setRemoteProperty lib n p v
  | .notifyPropertyChange n p v => Operations.RemoteNode.notifyPropertyChange lib n p v
  | .notifySignal n s args => Operations.RemoteNode.notifySignal lib n s args
  | .receive n data => Operations.handleMessage lib true n data

/-- Logging does not influence the code: any two logging configurations give the same outcome, the
same calls of code outside and the same library. -/
def Unaffected (p : Routine Unit) (w : World) : Prop :=
  ∀ L L', run users L p w = run users L' p w

/-! ## When it does not -/

/-- The message can be dumped, or the conversion for the network throws the same. -/
def SendsAlike (n : NodeId) (msg : Json) (w : World) : Prop :=
  msg.validUtf8 = true ∨ w.library.writeFunc n = true ∧ ∃ what, lib.dump msg = .error what ∧
    (w.library.converters n).toString lib msg = .error (.json what)

/-- The answer can be dumped, or nothing is written anyway. -/
def AnswersAlike (n : NodeId) (msg : Json) (w : World) : Prop :=
  msg.validUtf8 = true ∨
    (w.library.writeFunc n = true → ∃ e, (w.library.converters n).toString lib msg = .error e)

/-- The payload that is logged can be dumped, or there is nobody it would be passed on to. -/
def ClientAlike (w : World) (n : NodeRef) : Call → Prop
  | .init o payload => payload.validUtf8 = true ∨ w.library.sink o = none
  | .propertyChange p payload =>
    payload.validUtf8 = true ∨ w.library.sink (Name.getObjectId p) = none
  | .invokeReply requestId _ payload =>
    payload.validUtf8 = true ∨ requestId ∉ (w.library.client.nodes n).invokesPending
  | _ => True

/-- The same for the answers, if there is a source and it returns. -/
def RemoteAlike (w : World) (n : NodeRef) : Call → Prop
  | .link o => ∀ source, w.library.source o = some source →
    ∀ value, linkedReply users n o source w = .ok value →
    ∀ props,
      asked users (.olinkCollectProperties source) (linkedTo users n o source w) = .ok props →
      AnswersAlike lib (.remote n) (Protocol.initMessage o props)
        ((linkedTo users n o source w).called users (.olinkCollectProperties source))
  | .invoke requestId m args => ∀ source, w.library.source (Name.getObjectId m) = some source →
    ∀ value, asked users (.olinkInvoke source m args) w = .ok value →
      AnswersAlike lib (.remote n) (Protocol.invokeReplyMessage requestId m value)
        (w.called users (.olinkInvoke source m args))
  | _ => True

/-- Handling the call is not influenced; the handlers of `BaseNode` do nothing but log. -/
def HandledAlike (w : World) : NodeId → Call → Prop
  | .base _ => fun _ => True
  | .client n => ClientAlike w n
  | .remote n => RemoteAlike lib users w n

/-- What logging does not influence. -/
def Indifferent (w : World) : Input → Prop
  | .linkRemote n o => SendsAlike lib (.client n) (Protocol.linkMessage o) w
  | .unlinkRemote n o =>
    (passedOn users o .olinkOnRelease w).1 = .ok () →
      SendsAlike lib (.client n) (Protocol.unlinkMessage o)
        (passedOn users o .olinkOnRelease w).2
  | .invokeRemote n m args func =>
    (entered users n func w).1 = .ok () →
      SendsAlike lib (.client n)
        (Protocol.invokeMessage ((w.library.client.nodes n).nextRequestId + 1) m args)
        (entered users n func w).2
  | .setRemoteProperty n p v =>
    SendsAlike lib (.client n) (Protocol.setPropertyMessage p v) w
  | .notifyPropertyChange n p v =>
    SendsAlike lib (.remote n) (Protocol.propertyChangeMessage p v) w
  | .notifySignal n s args => SendsAlike lib (.remote n) (Protocol.signalMessage s args) w
  | .receive n data =>
    let msg := (w.library.converters n).fromString lib data
    ∀ c, Protocol.decode? lib.toJsonLibrary msg = some c → HandledAlike lib users w n c

variable {lib users} {γ : Type} {w w' : World} {p : Routine Unit}

/-! ## Two runs -/

/-- What is looked at of the outcome is the same for all logging configurations. -/
def Alike (users : Users) (F : Except Thrown Unit × World → γ) (p : Routine Unit) (w : World) :
    Prop :=
  ∀ L L', F (run users L p w) = F (run users L' p w)

/-- It does not depend on the configuration at all. -/
theorem alike_of_run {F : Except Thrown Unit × World → γ} {x : γ}
    (h : ∀ L, F (run users L p w) = x) : Alike users F p w := by
  intro L L'
  rw [h L, h L']

theorem verbose_logs (l : LoggerId) (level : LogLevel) : (verbose l).logs level = true := by
  cases level <;> rfl

/-- **Code that logs a payload first** is not influenced if the payload can be dumped, or what
follows it ends just as a dump that throws. The configurations that log nothing and everything tell
the rest apart. -/
theorem alike_afterDump_iff {F : Except Thrown Unit × World → γ} {l : LoggerId} {level : LogLevel}
    {payload : Json} {rest : Except Thrown Unit × World}
    (h : ∀ L : LoggerId → Logger, run users L p w
      = afterDump (dumped lib payload ((L l).logs level)) w' rest) :
    Alike users F p w ↔ payload.validUtf8 = true ∨
      ∃ what, lib.dump payload = .error what ∧ F rest = F (.error (.json what), w') := by
  cases hv : payload.validUtf8 with
  | true =>
    have hrun : ∀ L : LoggerId → Logger, F (run users L p w) = F rest := by
      intro L
      rw [h L, dumped_valid hv]
      rfl
    exact iff_of_true (alike_of_run hrun) (Or.inl rfl)
  | false =>
    obtain ⟨what, hd⟩ := (lib.dump_error_iff payload).mpr hv
    have hrun : ∀ L : LoggerId → Logger, run users L p w
        = if (L l).logs level then (.error (.json what), w') else rest := by
      intro L
      rw [h L]
      cases (L l).logs level with
      | true =>
        rw [dumped_invalid hd]
        rfl
      | false =>
        rw [dumped_not_logged]
        rfl
    constructor
    · intro ha
      have hboth := ha silent verbose
      rw [hrun, hrun, verbose_logs] at hboth
      exact Or.inr ⟨what, hd, hboth⟩
    · rintro (hn | ⟨what', hd', hF⟩)
      · cases hn
      · rw [hd] at hd'
        cases hd'
        intro L L'
        rw [hrun, hrun]
        split <;> split <;> simp [hF]

/-! ## Sending -/

theorem afterWrite_id (r : Except Thrown Unit × World) : afterWrite r id = r := by
  match r with
  | (.ok _, w') => rfl
  | (.error e, w') => rfl

theorem afterWrite_afterDump (r : Except Thrown Unit) (rest : Except Thrown Unit × World)
    (f : World → World) :
    afterWrite (afterDump r w rest) f = afterDump r w (afterWrite rest f) := by
  cases r <;> rfl

theorem afterWrite_eq_error {r : Except Thrown Unit × World} {f : World → World} {e : Thrown} :
    afterWrite r f = (.error e, w) ↔ r = (.error e, w) := by
  match r with
  | (.ok _, w') => simp [afterWrite]
  | (.error e', w') => rfl

theorem written_eq_error {n : NodeId} {msg : Json} {what : Bytes} :
    written users lib n msg w = (.error (.json what), w) ↔ w.library.writeFunc n = true ∧
      (w.library.converters n).toString lib msg = .error (.json what) := by
  unfold written
  cases w.library.writeFunc n with
  | false => simp
  | true =>
    rw [if_pos rfl]
    cases (w.library.converters n).toString lib msg with
    | error e => simp
    | ok data =>
      have hne : w.called users (.write n data) ≠ w := called_ne rfl _
      simp [hne]

/-- A message that is sent, and what follows. -/
theorem alike_sent_iff {n : NodeId} {msg : Json} {f : World → World}
    (h : ∀ L, run users L p w
      = afterWrite (run users L (Operations.BaseNode.emitWrite lib n msg) w') f) :
    Alike users id p w ↔ SendsAlike lib n msg w' := by
  have hrun : ∀ L : LoggerId → Logger, run users L p w =
      afterDump (dumped lib msg ((L (.node n)).logs .debug)) w'
        (afterWrite (written users lib n msg w') f) := by
    intro L
    rw [h L, run_emitWrite, afterWrite_afterDump]
  rw [alike_afterDump_iff hrun]
  simp only [id, afterWrite_eq_error, written_eq_error]
  unfold SendsAlike
  refine or_congr Iff.rfl ⟨?_, ?_⟩
  · rintro ⟨what, hd, hw, ht⟩
    exact ⟨hw, what, hd, ht⟩
  · rintro ⟨hw, what, hd, ht⟩
    exact ⟨what, hd, hw, ht⟩

/-! ## Receiving -/

theorem alike_received_iff {n : NodeId} {data : Bytes} :
    Alike users id (Operations.handleMessage lib true n data) w ↔
      Alike users (caught true)
        (Protocol.tryBlock lib ((w.library.converters n).fromString lib data)
          (Operations.handle lib n)) w := by
  refine forall₂_congr fun L L' => ?_
  unfold Operations.handleMessage
  rw [run_handleMessage, run_handleMessage]
  exact Iff.rfl

theorem settled_dumped (payload : Json) (logs : Bool) :
    settled (dumped lib payload logs) = .ok () := by
  cases h : dumped lib payload logs with
  | ok u => rfl
  | error e =>
    obtain ⟨what, rfl⟩ := dumped_error h
    rfl

/-- A handler that logs a payload, and what it does then. -/
theorem alike_logged_iff {l : LoggerId} {level : LogLevel} {payload : Json}
    {rest : Except Thrown Unit × World} {Q : Prop}
    (h : ∀ L : LoggerId → Logger, run users L p w
      = afterDump (dumped lib payload ((L l).logs level)) w' rest)
    (hrest : caught true rest = (.ok (), w') ↔ Q) :
    Alike users (caught true) p w ↔ payload.validUtf8 = true ∨ Q := by
  rw [alike_afterDump_iff h]
  constructor
  · rintro (hv | ⟨what, -, hF⟩)
    · exact Or.inl hv
    · exact Or.inr (hrest.mp hF)
  · rintro (hv | hQ)
    · exact Or.inl hv
    · cases hv : payload.validUtf8 with
      | true => exact Or.inl rfl
      | false =>
        obtain ⟨what, hd⟩ := (lib.dump_error_iff payload).mpr hv
        exact Or.inr ⟨what, hd, hrest.mpr hQ⟩

/-- The handlers of `BaseNode` throw nothing but JSON exceptions. -/
theorem caught_base (lib : Codecs) (L : LoggerId → Logger) (n : NodeId) (c : Call) :
    caught true (run users L (Operations.BaseNode.handle lib n c) w) = (.ok (), w) := by
  refine Prod.ext ?_ (run_base_state c)
  change settled (run users L (Operations.BaseNode.handle lib n c) w).1 = .ok ()
  have hpayload : ∀ {payload : Json} {p : Routine Unit} {logs : Bool},
      run users L p w = (dumped lib payload logs, w) → settled (run users L p w).1 = .ok () := by
    intro payload p logs hp
    rw [hp]
    exact settled_dumped payload logs
  have htexts : ∀ {p : Routine Unit}, run users L p w = (.ok (), w) →
      settled (run users L p w).1 = .ok () := by
    intro p hp
    rw [hp]
    rfl
  cases c with
  | link o => exact htexts (run_emitLog_texts (by simp))
  | unlink o => exact htexts (run_emitLog_texts (by simp))
  | init o props => exact hpayload run_baseInit
  | setProperty p v => exact hpayload run_baseSetProperty
  | propertyChange p v => exact hpayload run_basePropertyChange
  | invoke id m args => exact hpayload run_baseInvoke
  | invokeReply id m v =>
    refine (congrArg (fun r => settled r.1) run_baseInvokeReply).trans ?_
    dsimp only
    split
    · cases v <;> rfl
    · rfl
  | signal o args => exact hpayload run_baseSignal
  | error t id text => exact htexts (run_emitLog_texts (by simp))

/-! ### By a client node -/

theorem caught_passedOn_iff {o : ObjectId} {c : Sink → OutsideCall} :
    caught true (passedOn users o c w) = (.ok (), w) ↔ w.library.sink o = none := by
  unfold passedOn
  cases w.library.sink o with
  | none => simp [caught, settled]
  | some sink =>
    have hne : w.called users (c sink) ≠ w := called_ne rfl _
    simp [caught, performed, hne]

theorem taken_of_not_pending {n : NodeRef} {requestId : UInt32}
    (h : (w.library.client.nodes n).invokesPending[requestId]? = none) :
    taken n requestId w = w := by
  have herase : (w.library.client.nodes n).invokesPending.erase requestId
      = (w.library.client.nodes n).invokesPending := by
    refine Std.ExtTreeMap.ext_getElem? fun k => ?_
    rw [Foundation.find_erase]
    split
    · rename_i hk
      rw [hk, h]
    · rfl
  have hnodes : (fun m => if m = n then { w.library.client.nodes m with
      invokesPending := (w.library.client.nodes m).invokesPending.erase requestId }
      else w.library.client.nodes m) = w.library.client.nodes := by
    funext m
    split
    · rename_i hm
      rw [hm, herase]
    · rfl
  exact congrArg (fun nodes => { w with
    library := { w.library with client := { w.library.client with nodes := nodes } } }) hnodes

theorem taken_ne {n : NodeRef} {requestId : UInt32} {found : Option InvokeReplyFunc}
    (h : (w.library.client.nodes n).invokesPending[requestId]? = some found) :
    taken n requestId w ≠ w := by
  intro heq
  have hfound : ((taken n requestId w).library.client.nodes n).invokesPending[requestId]?
      = some found := by rw [heq, h]
  simp [taken, World.update, Client.updateNode] at hfound

theorem caught_resolved_iff {n : NodeRef} {requestId : UInt32} {m : Bytes} {value : Json} :
    caught true (resolved users n requestId m value w) = (.ok (), w)
      ↔ requestId ∉ (w.library.client.nodes n).invokesPending := by
  rw [Foundation.mem_iff_find]
  unfold resolved
  cases hf : (w.library.client.nodes n).invokesPending[requestId]? with
  | none => simp [caught, settled, taken_of_not_pending hf]
  | some found =>
    cases found with
    | none => simp [caught, taken_ne hf]
    | some callback =>
      have hhistory : (taken n requestId w).history = w.history := rfl
      have hne : (taken n requestId w).called users (.invokeReply callback m value) ≠ w :=
        called_ne hhistory _
      simp [caught, performed, hne]

theorem alike_client_iff (n : NodeRef) (c : Call) :
    Alike users (caught true) (Operations.ClientNode.handle lib n c) w ↔ ClientAlike w n c := by
  cases c with
  | init o payload => exact alike_logged_iff (fun L => run_clientInit) caught_passedOn_iff
  | propertyChange p payload =>
    exact alike_logged_iff (fun L => run_clientPropertyChange) caught_passedOn_iff
  | invokeReply id m payload =>
    exact alike_logged_iff (fun L => run_clientInvokeReply) caught_resolved_iff
  | signal s args =>
    exact iff_of_true (alike_of_run fun L => congrArg (caught true) run_clientSignal) trivial
  | error t id text =>
    exact iff_of_true (alike_of_run fun L => congrArg (caught true) (run_clientError t id)) trivial
  | link o => exact iff_of_true (alike_of_run fun L => caught_base lib L _ (.link o)) trivial
  | unlink o => exact iff_of_true (alike_of_run fun L => caught_base lib L _ (.unlink o)) trivial
  | setProperty p v =>
    exact iff_of_true (alike_of_run fun L => caught_base lib L _ (.setProperty p v)) trivial
  | invoke id m args =>
    exact iff_of_true (alike_of_run fun L => caught_base lib L _ (.invoke id m args)) trivial

/-! ### By a remote node -/

theorem caught_written_iff {n : NodeId} {msg : Json} :
    caught true (written users lib n msg w) = (.ok (), w) ↔ (w.library.writeFunc n = true →
      ∃ e, (w.library.converters n).toString lib msg = .error e) := by
  unfold written
  cases w.library.writeFunc n with
  | false => simp [caught, settled]
  | true =>
    rw [if_pos rfl]
    cases ht : (w.library.converters n).toString lib msg with
    | ok data =>
      have hne : w.called users (.write n data) ≠ w := called_ne rfl _
      simp [caught, hne]
    | error e =>
      obtain ⟨what, rfl⟩ := MessageConverter.toString_error ht
      simp [caught, settled]

/-- An answer is the last that is done. -/
theorem alike_answered_iff {n : NodeId} {msg : Json}
    (h : ∀ L, run users L p w = run users L (Operations.BaseNode.emitWrite lib n msg) w') :
    Alike users (caught true) p w ↔ AnswersAlike lib n msg w' :=
  alike_logged_iff (fun L => (h L).trans (run_emitWrite n msg)) caught_written_iff

theorem alike_remoteLink_iff (n : NodeRef) (o : ObjectId) :
    Alike users (caught true) (Operations.RemoteNode.handleLink lib n o) w
      ↔ RemoteAlike lib users w n (.link o) := by
  cases hs : w.library.source o with
  | none =>
    refine iff_of_true (alike_of_run fun L => congrArg (caught true) (run_remoteLink_none hs)) ?_
    simp [RemoteAlike, hs]
  | some source =>
    have hrun : ∀ L, run users L (Operations.RemoteNode.handleLink lib n o) w = _ :=
      fun L => run_remoteLink hs
    cases hl : linkedReply users n o source w with
    | error e =>
      simp only [hl] at hrun
      refine iff_of_true (alike_of_run fun L => congrArg (caught true) (hrun L)) ?_
      simp [RemoteAlike, hs, hl]
    | ok value =>
      simp only [hl] at hrun
      cases ha : asked users (.olinkCollectProperties source) (linkedTo users n o source w) with
      | error e =>
        simp only [ha] at hrun
        refine iff_of_true (alike_of_run fun L => congrArg (caught true) (hrun L)) ?_
        simp [RemoteAlike, hs, ha]
      | ok props =>
        simp only [ha] at hrun
        rw [alike_answered_iff hrun]
        simp [RemoteAlike, hs, hl, ha]

theorem alike_remoteInvoke_iff (n : NodeRef) (requestId : UInt32) (m : Bytes) (args : Json) :
    Alike users (caught true) (Operations.RemoteNode.handleInvoke lib n requestId m args) w
      ↔ RemoteAlike lib users w n (.invoke requestId m args) := by
  cases hs : w.library.source (Name.getObjectId m) with
  | none =>
    refine iff_of_true (alike_of_run fun L => congrArg (caught true) (run_remoteInvoke_none hs)) ?_
    simp [RemoteAlike, hs]
  | some source =>
    have hrun : ∀ L, run users L (Operations.RemoteNode.handleInvoke lib n requestId m args) w
        = _ := fun L => run_remoteInvoke hs
    cases ha : asked users (.olinkInvoke source m args) w with
    | error e =>
      simp only [ha] at hrun
      refine iff_of_true (alike_of_run fun L => congrArg (caught true) (hrun L)) ?_
      simp [RemoteAlike, hs, ha]
    | ok value =>
      simp only [ha] at hrun
      rw [alike_answered_iff hrun]
      simp [RemoteAlike, hs, ha]

theorem alike_remote_iff (n : NodeRef) (c : Call) :
    Alike users (caught true) (Operations.RemoteNode.handle lib n c) w
      ↔ RemoteAlike lib users w n c := by
  cases c with
  | link o => exact alike_remoteLink_iff n o
  | invoke id m args => exact alike_remoteInvoke_iff n id m args
  | unlink o =>
    refine iff_of_true ?_ trivial
    cases hs : w.library.source o with
    | none => exact alike_of_run fun L => congrArg (caught true) (run_remoteUnlink_none hs)
    | some source => exact alike_of_run fun L => congrArg (caught true) (run_remoteUnlink hs)
  | setProperty p v =>
    exact iff_of_true (alike_of_run fun L => congrArg (caught true) run_remoteSetProperty) trivial
  | init o props =>
    exact iff_of_true (alike_of_run fun L => caught_base lib L _ (.init o props)) trivial
  | propertyChange p v =>
    exact iff_of_true (alike_of_run fun L => caught_base lib L _ (.propertyChange p v)) trivial
  | invokeReply id m v =>
    exact iff_of_true (alike_of_run fun L => caught_base lib L _ (.invokeReply id m v)) trivial
  | signal s args =>
    exact iff_of_true (alike_of_run fun L => caught_base lib L _ (.signal s args)) trivial
  | error t id text =>
    exact iff_of_true (alike_of_run fun L => caught_base lib L _ (.error t id text)) trivial

theorem alike_handle_iff (n : NodeId) (c : Call) :
    Alike users (caught true) (Operations.handle lib n c) w ↔ HandledAlike lib users w n c := by
  cases n with
  | base n => exact iff_of_true (alike_of_run fun L => caught_base lib L _ c) trivial
  | client n => exact alike_client_iff n c
  | remote n => exact alike_remote_iff n c

/-! ## All inputs -/

/-- What comes before the message is sent is not influenced. -/
theorem alike_onReturn_iff {n : NodeId} {msg : Json} {r : Except Thrown Unit × World}
    {f : World → World}
    (hrun : ∀ L, run users L p w = onReturn r fun w' =>
      afterWrite (run users L (Operations.BaseNode.emitWrite lib n msg) w') f) :
    Alike users id p w ↔ (r.1 = .ok () → SendsAlike lib n msg r.2) := by
  match r with
  | (.error e, w') => exact iff_of_true (alike_of_run hrun) fun h => by cases h
  | (.ok (), w') =>
    exact ⟨fun h _ => (alike_sent_iff hrun).mp h, fun h => (alike_sent_iff hrun).mpr (h rfl)⟩

/-- A rejected message is noted, whatever is logged. -/
theorem caught_reject {msg : Json} {handle : Call → Routine Unit} (L : LoggerId → Logger)
    (hc : Protocol.decode? lib.toJsonLibrary msg = none) :
    caught true (run users L (Protocol.tryBlock lib msg handle) w) = (.ok (), w) := by
  rw [Protocol.tryBlock_of_reject hc]
  cases Protocol.unsupported msg with
  | false => rfl
  | true =>
    cases hd : lib.dump msg <;> simp [caught, settled]

theorem alike_tryBlock_iff {n : NodeId} {msg : Json} :
    Alike users (caught true) (Protocol.tryBlock lib msg (Operations.handle lib n)) w ↔
      ∀ c, Protocol.decode? lib.toJsonLibrary msg = some c → HandledAlike lib users w n c := by
  cases hc : Protocol.decode? lib.toJsonLibrary msg with
  | none => exact iff_of_true (alike_of_run fun L => caught_reject L hc) fun c h => by cases h
  | some c =>
    rw [Protocol.tryBlock_of_decode hc, alike_handle_iff]
    simp

/-- **Logging does not influence** a call of the application, or a received message, exactly where
each payload that would be logged can be dumped, or failing to dump it ends as it would otherwise
have. -/
theorem unaffected_iff (lib : Codecs) (users : Users) (input : Input) (w : World) :
    Unaffected users (code lib input) w ↔ Indifferent lib users w input := by
  change Alike users id (code lib input) w ↔ _
  cases input with
  | linkRemote n o => exact alike_sent_iff fun L => run_linkRemote
  | unlinkRemote n o => exact alike_onReturn_iff fun L => run_unlinkRemote
  | invokeRemote n m args func =>
    refine alike_onReturn_iff (f := id) fun L => (run_invokeRemote func).trans ?_
    simp only [afterWrite_id]
  | setRemoteProperty n p v =>
    exact alike_sent_iff fun L => run_setRemoteProperty.trans (afterWrite_id _).symm
  | notifyPropertyChange n p v => exact alike_sent_iff fun L => (afterWrite_id _).symm
  | notifySignal n s args => exact alike_sent_iff fun L => (afterWrite_id _).symm
  | receive n data => exact alike_received_iff.trans alike_tryBlock_iff

/-- A client node with a write function that sends CBOR. -/
def cborNode : World where
  history := []
  library := (Library.new.setWriteFunc true (.client 0)).updateConverter (.client 0) fun c =>
    { c with format := .cbor }

/-- Sets a property to a string that is not UTF-8. -/
def setInvalid : Input := .setRemoteProperty 0 (lit "o/p") (.string [0xFF])

/-- A library that converts the message of it, `[20, "o/p", ...]`. -/
def setInvalidCodecs : Codecs :=
  .knowing .null (lit "null") [0x93, 0x14, 0xA3, 0x6F, 0x2F, 0x70, 0xA1, 0xFF]
    [0x83, 0x14, 0x63, 0x6F, 0x2F, 0x70, 0x61, 0xFF]

/-- **A logged write is lost**: the message is written by a node that does not log, and a node that
does throws before it converts it. -/
theorem logged_write_lost : ¬ Unaffected .idle (code setInvalidCodecs setInvalid) cborNode := by
  intro h
  have hsilent : (run .idle silent (code setInvalidCodecs setInvalid) cborNode).1 = .ok () := rfl
  have hverbose : (run .idle verbose (code setInvalidCodecs setInvalid) cborNode).1
      = .error (.json
        (lit "[json.exception.type_error.316] invalid UTF-8 byte at index 0: 0xFF")) := by
    rfl
  rw [h silent verbose, hverbose] at hsilent
  cases hsilent

end LoggingInfluence

end ObjectLink
