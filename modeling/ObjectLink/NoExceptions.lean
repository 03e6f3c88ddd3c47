import ObjectLink.Operations.Handlers

/-!
# Received messages in the build without exceptions

Without exceptions (`OLINK_HAS_EXCEPTIONS` is 0) an operation of the JSON library that would throw
aborts the program. `Protocol::handleMessage` checks the shape of a message before it reads it, so
that reading it never throws. What remains are the values that are turned into text or bytes:
payloads that are logged, the message of an unsupported type, which goes into the last error, and
the answers of a remote node.

Results:
* `handleMessage_completes`: for each kind of node, the messages whose processing throws no JSON
  exception, when the code outside does not throw.
* `logged_reply_aborts`: a plain node that logs warnings, as it does once a log function is set,
  converts the value of a reply to a string, whatever it is.
-/

namespace ObjectLink

open Running

/-- The code outside never throws. -/
def Users.Return (users : Users) : Prop := ∀ history c l, ∃ value, (users history c l).1 = .ok value

theorem Users.idle_return : Users.idle.Return := fun _ _ _ => ⟨_, rfl⟩

namespace NoExceptions

variable (lib : Codecs) (users : Users) (L : LoggerId → Logger)

/-- The payload can be dumped, if it is logged. -/
def Loggable (l : LoggerId) (level : LogLevel) (payload : Json) : Prop :=
  (L l).logs level = true → payload.validUtf8 = true

/-- The message can be dumped if it is logged, and converted if there is a write function. -/
def Sendable (n : NodeId) (msg : Json) (w : World) : Prop :=
  Loggable L (.node n) .debug msg ∧
  (w.library.writeFunc n = true → ∃ data, (w.library.converters n).toString lib msg = .ok data)

/-- The handlers of `BaseNode`: payloads are logged as a warning, and the value of a reply has to be
a string for that. -/
def BaseSafe (n : NodeId) : Call → Prop
  | .init _ payload | .setProperty _ payload | .propertyChange _ payload | .invoke _ _ payload
  | .signal _ payload => Loggable L (.node n) .warning payload
  | .invokeReply _ _ value => (L (.node n)).logs .warning = true → value.isString = true
  | .link _ | .unlink _ | .error _ _ _ => True

/-- The handlers of `ClientNode` log the payloads of three messages. -/
def ClientSafe (n : NodeRef) : Call → Prop
  | .init _ payload | .propertyChange _ payload | .invokeReply _ _ payload =>
    Loggable L (.node (.client n)) .info payload
  | .signal _ _ | .error _ _ _ => True
  | c => BaseSafe L (.client n) c

/-- The handlers of `RemoteNode` answer two messages, if there is a source, with what it says. -/
def RemoteSafe (w : World) (n : NodeRef) : Call → Prop
  | .link o => ∀ source, w.library.source o = some source →
    ∀ props,
      asked users (.olinkCollectProperties source) (linkedTo users n o source w) = .ok props →
      Sendable lib L (.remote n) (Protocol.initMessage o props)
        ((linkedTo users n o source w).called users (.olinkCollectProperties source))
  | .invoke requestId m args => ∀ source, w.library.source (Name.getObjectId m) = some source →
    ∀ value, asked users (.olinkInvoke source m args) w = .ok value →
      Sendable lib L (.remote n) (Protocol.invokeReplyMessage requestId m value)
        (w.called users (.olinkInvoke source m args))
  | .unlink _ | .setProperty _ _ => True
  | c => BaseSafe L (.remote n) c

/-- The handler call needs no text or bytes of a value that has none. -/
def Safe (w : World) : NodeId → Call → Prop
  | .base n => BaseSafe L (.base n)
  | .client n => ClientSafe L n
  | .remote n => RemoteSafe lib users L w n

/-- The message does not, whatever it is. -/
def Processable (w : World) (n : NodeId) (data : Bytes) : Prop :=
  let msg := (w.library.converters n).fromString lib data
  (Protocol.unsupported msg = true → msg.validUtf8 = true) ∧
  ∀ c, Protocol.decode? lib.toJsonLibrary msg = some c → Safe lib users L w n c

variable {lib users L} {w : World} {n : NodeId} {c : Call}

/-! ## What aborts -/

/-- A JSON exception. -/
def Aborts (r : Except Thrown Unit) : Prop := ∃ what, r = .error (.json what)

theorem not_aborts_ok {r : Except Thrown Unit} (h : r = .ok ()) : ¬ Aborts r := by
  rintro ⟨what, hw⟩
  rw [h] at hw
  cases hw

theorem aborts_dumped_iff {l : LoggerId} {level : LogLevel} {payload : Json} :
    Aborts (dumped lib payload ((L l).logs level)) ↔ ¬ Loggable L l level payload := by
  unfold Loggable
  cases hv : payload.validUtf8 with
  | true =>
    rw [dumped_valid hv]
    simp [Aborts]
  | false =>
    obtain ⟨what, hd⟩ := (lib.dump_error_iff payload).mpr hv
    cases (L l).logs level with
    | true =>
      rw [dumped_invalid hd]
      simp [Aborts]
    | false =>
      rw [dumped_not_logged]
      simp [Aborts]

/-- The conversion of a value to a string. -/
theorem aborts_getString_iff (value : Json) (b : Bool) :
    Aborts (if b then ended value.getString else .ok ())
      ↔ ¬ (b = true → value.isString = true) := by
  cases b with
  | false => simp [Aborts]
  | true => cases value <;> simp [Aborts, Json.getString, Json.isString, ended]

theorem ended_of_return (hu : users.Return) (h : List Event) (c : OutsideCall) (l : Library) :
    ended (users h c l).1 = .ok () := by
  obtain ⟨value, hv⟩ := hu h c l
  rw [hv]
  rfl

theorem aborts_emitWrite_iff (hu : users.Return) (msg : Json) :
    Aborts (run users L (Operations.BaseNode.emitWrite lib n msg) w).1
      ↔ ¬ Sendable lib L n msg w := by
  have hlog : Aborts (dumped lib msg ((L (.node n)).logs .debug))
      ↔ ¬ Loggable L (.node n) .debug msg := aborts_dumped_iff
  have hwritten : Aborts (written users lib n msg w).1 ↔ ¬ (w.library.writeFunc n = true →
      ∃ data, (w.library.converters n).toString lib msg = .ok data) := by
    unfold written
    cases w.library.writeFunc n with
    | false => simp [Aborts]
    | true =>
      rw [if_pos rfl]
      cases ht : (w.library.converters n).toString lib msg with
      | ok data =>
        have hret := ended_of_return hu w.history (.write n data) w.library
        simp [Aborts, hret]
      | error e =>
        obtain ⟨what, rfl⟩ := MessageConverter.toString_error ht
        simp [Aborts]
  rw [run_emitWrite]
  unfold Sendable afterDump
  cases hd : dumped lib msg ((L (.node n)).logs .debug) with
  | ok u =>
    rw [hd] at hlog
    have hok : Loggable L (.node n) .debug msg := by
      by_contra hn
      exact not_aborts_ok rfl (hlog.mpr hn)
    dsimp only
    rw [hwritten]
    tauto
  | error e =>
    rw [hd] at hlog
    obtain ⟨what, rfl⟩ := dumped_error hd
    have hno : ¬ Loggable L (.node n) .debug msg := hlog.mp ⟨what, rfl⟩
    exact iff_of_true ⟨what, rfl⟩ fun h => hno h.1

/-! ## The handlers -/

/-- Whether code aborts can be read off its outcome. -/
theorem aborts_of_run {p : Routine Unit} {r : Except Thrown Unit × World} {Q : Prop}
    (h : run users L p w = r) (hr : Aborts r.1 ↔ Q) : Aborts (run users L p w).1 ↔ Q := by
  rw [h]
  exact hr

theorem aborts_iff_of_ok {r : Except Thrown Unit} {Q : Prop} (h : r = .ok ()) (hQ : Q) :
    Aborts r ↔ ¬ Q := iff_of_false (not_aborts_ok h) fun hn => hn hQ

theorem aborts_base_iff (lib : Codecs) (n : NodeId) (c : Call) :
    Aborts (run users L (Operations.BaseNode.handle lib n c) w).1 ↔ ¬ BaseSafe L n c := by
  cases c with
  | link o | unlink o =>
    exact aborts_of_run (run_emitLog_texts (by simp)) (aborts_iff_of_ok rfl trivial)
  | init o props =>
    exact aborts_of_run run_baseInit aborts_dumped_iff
  | setProperty p v =>
    exact aborts_of_run run_baseSetProperty aborts_dumped_iff
  | propertyChange p v =>
    exact aborts_of_run run_basePropertyChange aborts_dumped_iff
  | invoke id m args =>
    exact aborts_of_run run_baseInvoke aborts_dumped_iff
  | invokeReply id m v =>
    exact aborts_of_run run_baseInvokeReply (aborts_getString_iff v _)
  | signal o args =>
    exact aborts_of_run run_baseSignal aborts_dumped_iff
  | error t id text =>
    exact aborts_of_run (run_emitLog_texts (by simp)) (aborts_iff_of_ok rfl trivial)

/-- What follows a payload that is logged does not abort: it is up to the payload. -/
theorem aborts_afterDump_iff {l : LoggerId} {level : LogLevel} {payload : Json}
    {rest : Except Thrown Unit × World} (hrest : rest.1 = .ok ()) :
    Aborts (afterDump (dumped lib payload ((L l).logs level)) w rest).1
      ↔ ¬ Loggable L l level payload := by
  have hlog : Aborts (dumped lib payload ((L l).logs level)) ↔ ¬ Loggable L l level payload :=
    aborts_dumped_iff
  rw [← hlog]
  cases dumped lib payload ((L l).logs level) with
  | ok u => simp [afterDump, hrest, Aborts]
  | error e => simp [afterDump, Aborts]

section Returns

variable (hu : users.Return)
include hu

theorem performed_of_return (c : OutsideCall) : (performed users c w).1 = .ok () :=
  ended_of_return hu _ _ _

theorem passedOn_of_return (o : ObjectId) (c : Sink → OutsideCall) :
    (passedOn users o c w).1 = .ok () := by
  unfold passedOn
  cases w.library.sink o with
  | none => rfl
  | some sink => exact performed_of_return hu _

theorem resolved_of_return (n : NodeRef) (id : UInt32) (m : Bytes) (v : Json) :
    (resolved users n id m v w).1 = .ok () := by
  unfold resolved
  split
  · exact performed_of_return hu _
  · rfl

theorem passedToSource_of_return (o : ObjectId) (c : Source → OutsideCall) :
    (passedToSource users o c w).1 = .ok () := by
  unfold passedToSource
  cases w.library.source o with
  | none => rfl
  | some source => exact performed_of_return hu _

theorem aborts_client_iff (n : NodeRef) (c : Call) :
    Aborts (run users L (Operations.ClientNode.handle lib n c) w).1 ↔ ¬ ClientSafe L n c := by
  cases c with
  | init o props =>
    exact aborts_of_run run_clientInit (aborts_afterDump_iff (passedOn_of_return hu _ _))
  | propertyChange p v =>
    exact aborts_of_run run_clientPropertyChange (aborts_afterDump_iff (passedOn_of_return hu _ _))
  | invokeReply id m v =>
    exact aborts_of_run run_clientInvokeReply (aborts_afterDump_iff (resolved_of_return hu _ _ _ _))
  | signal o args =>
    exact aborts_of_run run_clientSignal (aborts_iff_of_ok (passedOn_of_return hu _ _) trivial)
  | error t id text =>
    refine aborts_of_run (run_clientError t id) (aborts_iff_of_ok ?_ trivial)
    split
    · exact resolved_of_return hu _ _ _ _
    · rfl
  | link o => exact aborts_base_iff lib (.client n) (.link o)
  | unlink o => exact aborts_base_iff lib (.client n) (.unlink o)
  | setProperty p v => exact aborts_base_iff lib (.client n) (.setProperty p v)
  | invoke id m args => exact aborts_base_iff lib (.client n) (.invoke id m args)

theorem aborts_remote_iff (n : NodeRef) (c : Call) :
    Aborts (run users L (Operations.RemoteNode.handle lib n c) w).1
      ↔ ¬ RemoteSafe lib users L w n c := by
  cases c with
  | link o =>
    cases hs : w.library.source o with
    | none =>
      refine aborts_of_run (run_remoteLink_none hs) (aborts_iff_of_ok rfl ?_)
      simp [RemoteSafe, hs]
    | some source =>
      obtain ⟨value, hv⟩ : ∃ value, linkedReply users n o source w = .ok value := hu _ _ _
      obtain ⟨props, hp⟩ : ∃ props, asked users (.olinkCollectProperties source)
        (linkedTo users n o source w) = .ok props := hu _ _ _
      refine aborts_of_run (run_remoteLink hs) ?_
      rw [hv]
      dsimp only
      rw [hp]
      dsimp only
      rw [aborts_emitWrite_iff hu]
      simp [RemoteSafe, hs, hp]
  | invoke id m args =>
    cases hs : w.library.source (Name.getObjectId m) with
    | none =>
      refine aborts_of_run (run_remoteInvoke_none hs) (aborts_iff_of_ok rfl ?_)
      simp [RemoteSafe, hs]
    | some source =>
      obtain ⟨value, hv⟩ : ∃ value, asked users (.olinkInvoke source m args) w = .ok value :=
        hu _ _ _
      refine aborts_of_run (run_remoteInvoke hs) ?_
      rw [hv]
      dsimp only
      rw [aborts_emitWrite_iff hu]
      simp [RemoteSafe, hs, hv]
  | unlink o =>
    cases hs : w.library.source o with
    | none => exact aborts_of_run (run_remoteUnlink_none hs) (aborts_iff_of_ok rfl trivial)
    | some source =>
      refine aborts_of_run (run_remoteUnlink hs) (aborts_iff_of_ok ?_ trivial)
      have hret : (performed users (.olinkUnlinked source o) w).1 = .ok () :=
        performed_of_return hu _
      generalize performed users (.olinkUnlinked source o) w = r at hret ⊢
      obtain ⟨_, _⟩ := r
      cases hret
      rfl
  | setProperty p v =>
    exact aborts_of_run run_remoteSetProperty
      (aborts_iff_of_ok (passedToSource_of_return hu _ _) trivial)
  | init o props => exact aborts_base_iff lib (.remote n) (.init o props)
  | propertyChange p v => exact aborts_base_iff lib (.remote n) (.propertyChange p v)
  | invokeReply id m v => exact aborts_base_iff lib (.remote n) (.invokeReply id m v)
  | signal o args => exact aborts_base_iff lib (.remote n) (.signal o args)
  | error t id text => exact aborts_base_iff lib (.remote n) (.error t id text)

theorem aborts_handle_iff (n : NodeId) (c : Call) :
    Aborts (run users L (Operations.handle lib n c) w).1 ↔ ¬ Safe lib users L w n c := by
  cases n with
  | base n => exact aborts_base_iff lib _ c
  | client n => exact aborts_client_iff hu n c
  | remote n => exact aborts_remote_iff hu n c

end Returns

/-- A message that is decoded is of a supported type. -/
theorem not_unsupported_of_decode {msg : Json} {c : Call}
    (hc : Protocol.decode? lib.toJsonLibrary msg = some c) : Protocol.unsupported msg = false := by
  unfold Protocol.decode? at hc
  split at hc
  · obtain ⟨code, hcode, hc⟩ := Option.bind_eq_some_iff.mp hc
    obtain ⟨ty, hty, -⟩ := Option.bind_eq_some_iff.mp hc
    simp [Protocol.unsupported, hcode, hty]
  · cases hc

/-- **Received messages without exceptions**: where the code outside never throws, no message
throws a JSON exception exactly if it is one whose type is supported or which can be dumped, and
whose handler needs no text or bytes of a value that has none. -/
theorem handleMessage_completes (lib : Codecs) (hu : users.Return) (L : LoggerId → Logger)
    (n : NodeId) (data : Bytes) (w : World) :
    (∀ what, (run users L (Operations.handleMessage lib false n data) w).1 ≠ .error (.json what))
      ↔ Processable lib users L w n data := by
  have haborts : (∀ what, (run users L (Operations.handleMessage lib false n data) w).1
      ≠ .error (.json what)) ↔
      ¬ Aborts (run users L (Operations.handleMessage lib false n data) w).1 :=
    not_exists.symm
  rw [haborts]
  unfold Operations.handleMessage
  rw [run_handleMessage]
  unfold Processable
  generalize (w.library.converters n).fromString lib data = msg
  dsimp only [caught]
  rw [if_neg Bool.false_ne_true]
  cases hc : Protocol.decode? lib.toJsonLibrary msg with
  | some c =>
    rw [Protocol.tryBlock_of_decode hc, aborts_handle_iff hu]
    have hs := not_unsupported_of_decode hc
    simp [hs]
  | none =>
    rw [Protocol.tryBlock_of_reject hc]
    cases hs : Protocol.unsupported msg with
    | false => simp [Aborts]
    | true =>
      cases hd : lib.dump msg with
      | ok text =>
        have hv : msg.validUtf8 = true := (lib.dump_ok_iff msg).mp ⟨text, hd⟩
        simp [Aborts, hv]
      | error what =>
        have hv : msg.validUtf8 = false := (lib.dump_error_iff msg).mp ⟨what, hd⟩
        simp [Aborts, hv]

/-- The reply of a method that returns nothing, as text. -/
def replyText : Bytes := lit "[31,1,\"o/m\",null]"

/-- The same as JSON. -/
def reply : Json := .array [.unsigned 31, .unsigned 1, .string (lit "o/m"), .null]

/-- A library that knows the reply. -/
def replyCodecs : Codecs := .knowing reply replyText [] []

/-- A plain node without a log function receives the reply. -/
theorem handleMessage_completes_reply :
    ¬ ∃ what, (run .idle silent (Operations.handleMessage replyCodecs false (.base 0) replyText)
      ⟨[], .new⟩).1 = .error (.json what) := by
  have hprocessable : Processable replyCodecs .idle silent ⟨[], .new⟩ (.base 0) replyText :=
    ⟨by decide, fun c hc => by cases hc; exact fun h => by cases h⟩
  rintro ⟨what, haborts⟩
  exact (handleMessage_completes replyCodecs Users.idle_return silent (.base 0) replyText
    ⟨[], .new⟩).mpr hprocessable what haborts

/-- A log function is set, and the level left as it is. -/
def logging : LoggerId → Logger := fun _ => { Logger.new with logFunc := true }

/-- **A logged reply aborts**: the value of the reply is `null`, and not a string. -/
theorem logged_reply_aborts :
    (run .idle logging (Operations.handleMessage replyCodecs false (.base 0) replyText)
      ⟨[], .new⟩).1 = .error (.json
        (lit "[json.exception.type_error.302] type must be string, but is null")) := by
  rfl

end NoExceptions

end ObjectLink
