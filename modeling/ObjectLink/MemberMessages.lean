import ObjectLink.ClientRuns
import ObjectLink.RemoteRuns
import ObjectLink.Core.MemberIds

/-!
# Messages about an object and messages about its members

`Link`, `Unlink` and `Init` carry the id of an object, and its source or sink is looked up under
the whole id. `SetProperty`, `Invoke`, `PropertyChange` and `Signal` carry the id of a member, which
`Name::getObjectId` cuts at the first slash (`MemberIds.lean`). A member id has one slash, so an
object id has none; the registries take any string.

Results:
* `sameObject`: on both sides the two kinds of messages reach the same source or sink, for object
  ids without a slash and whatever else is registered.
* `sameObject_slash`: a source whose id has a slash.
-/

namespace ObjectLink

open Foundation (Machine Run run_play)

/-! ## What a message reaches -/

/-- The member a `SetProperty` or an `Invoke` is for. -/
def Call.toMember : Call → Option Bytes
  | .setProperty propertyId _ => some propertyId
  | .invoke _ methodId _ => some methodId
  | _ => none

/-- The member a `PropertyChange` or a `Signal` comes from. -/
def Call.fromMember : Call → Option Bytes
  | .propertyChange propertyId _ => some propertyId
  | .signal signalId _ => some signalId
  | _ => none

/-- The source that is called. -/
def ServerEffect.source? : ServerEffect → Option Source
  | .write _ _ => none
  | .olinkLinked s _ _ | .olinkUnlinked s _ | .olinkSetProperty s _ _
  | .olinkCollectProperties s _ | .olinkInvoke s _ _ _ => some s

/-- The sink that is called. -/
def ClientEffect.sink? : ClientEffect → Option Sink
  | .write _ _ | .invokeReply _ _ _ => none
  | .olinkOnInit s _ _ _ | .olinkOnRelease s | .olinkOnPropertyChanged s _ _
  | .olinkOnSignal s _ _ => some s

variable {lib : JsonLibrary} {o m : Bytes}

namespace RemoteNode

variable {env : ServerEnv} {w : Server} {n : NodeRef} {msg : Json}

/-- The sources that are called while a message is handled. -/
def sourcesCalled (env : ServerEnv) (lib : JsonLibrary) (w : Server) (n : NodeRef) (msg : Json) :
    List Source :=
  ((handleMessage env n lib msg w).2.effects.drop w.effects.length).filterMap ServerEffect.source?

theorem sourcesCalled_of_decode {c : Call} (hd : Protocol.decode? lib msg = some c) :
    sourcesCalled env lib w n msg = (callsOf env w n c).filterMap ServerEffect.source? := by
  unfold sourcesCalled
  rw [handleMessage_state, hd]
  unfold received
  rw [List.drop_left]

theorem source?_written {msg' : Json} :
    (written env w n msg').filterMap ServerEffect.source? = [] := by
  refine List.filterMap_eq_nil_iff.mpr ?_
  intro e he
  rw [mem_written he]
  rfl

theorem source?_answered {message : Json → Json} {result : Except Thrown Json} :
    (answered env w n message result).filterMap ServerEffect.source? = [] := by
  cases result with
  | ok value => exact source?_written
  | error t => rfl

/-- A `Link` calls the source that is registered for the object. -/
theorem sourcesCalled_link (hd : Protocol.decode? lib msg = some (.link o)) (s : Source) :
    s ∈ sourcesCalled env lib w n msg ↔ w.source o = some s := by
  rw [sourcesCalled_of_decode hd]
  unfold callsOf
  dsimp only
  cases w.source o with
  | none => simp
  | some source =>
    rw [Option.elim_some, Option.some.injEq]
    unfold linkCalls
    dsimp only
    split
    · simp [ServerEffect.source?, source?_answered, eq_comm]
    · simp [ServerEffect.source?, eq_comm]

/-- A message for a member calls the source that is registered for its object. -/
theorem sourcesCalled_toMember {id : Bytes}
    (hd : (Protocol.decode? lib msg).bind Call.toMember = some id) :
    sourcesCalled env lib w n msg = (w.source (Name.getObjectId id)).toList := by
  obtain ⟨c, hc, hmember⟩ := Option.bind_eq_some_iff.mp hd
  rw [sourcesCalled_of_decode hc]
  cases c with
  | setProperty propertyId value =>
    cases hmember
    unfold callsOf
    dsimp only
    cases w.source (Name.getObjectId id) <;> rfl
  | invoke requestId methodId args =>
    cases hmember
    unfold callsOf
    dsimp only
    cases w.source (Name.getObjectId id) with
    | none => rfl
    | some source =>
      rw [Option.elim_some]
      unfold invokeCalls
      dsimp only
      simp [ServerEffect.source?, source?_answered]
  | _ => cases hmember

end RemoteNode

namespace ClientNode

variable {env : ClientEnv} {w : Client} {n : NodeRef} {msg : Json}

/-- The sinks that are called while a message is handled. -/
def sinksCalled (env : ClientEnv) (lib : JsonLibrary) (w : Client) (n : NodeRef) (msg : Json) :
    List Sink :=
  ((handleMessage env n lib msg w).2.effects.drop w.effects.length).filterMap ClientEffect.sink?

theorem sinksCalled_of_handled {c : Call} (hd : handled env lib msg = some c) :
    sinksCalled env lib w n msg = (callsOf w n c).filterMap ClientEffect.sink? := by
  unfold sinksCalled
  rw [handleMessage_state, hd]
  unfold received
  rw [List.drop_left]

theorem sinksCalled_of_not_handled (hd : handled env lib msg = none) :
    sinksCalled env lib w n msg = [] := by
  unfold sinksCalled
  rw [handleMessage_state, hd]
  dsimp only
  rw [List.drop_length]
  rfl

theorem sink?_sinkCall {effect : Sink → ClientEffect} (he : ∀ s, (effect s).sink? = some s) :
    (sinkCall w o effect).filterMap ClientEffect.sink?
      = ((w.registry.getSink o).lock w.sinkAlive).toList := by
  unfold sinkCall
  cases (w.registry.getSink o).lock w.sinkAlive with
  | none => rfl
  | some sink =>
    dsimp only
    rw [List.filterMap_cons_some (he sink)]
    rfl

/-- An `Init` calls the sink that is registered for the object. -/
theorem sinksCalled_init {props : Json} (hd : handled env lib msg = some (.init o props)) :
    sinksCalled env lib w n msg = ((w.registry.getSink o).lock w.sinkAlive).toList := by
  rw [sinksCalled_of_handled hd]
  exact sink?_sinkCall fun _ => rfl

/-- A message from a member calls the sink that is registered for its object. -/
theorem sinksCalled_fromMember {id : Bytes}
    (hd : (handled env lib msg).bind Call.fromMember = some id) :
    sinksCalled env lib w n msg
      = ((w.registry.getSink (Name.getObjectId id)).lock w.sinkAlive).toList := by
  obtain ⟨c, hc, hmember⟩ := Option.bind_eq_some_iff.mp hd
  rw [sinksCalled_of_handled hc]
  cases c with
  | propertyChange _ _ | signal _ _ =>
    cases hmember
    exact sink?_sinkCall fun _ => rfl
  | _ => cases hmember

end ClientNode

/-! ## Agreement -/

/-- **A member message of an object reaches its source**: the node calls the one source that a
`Link` of the object reaches, and no source if the `Link` reaches none. -/
def Server.SameObject (lib : JsonLibrary) (w : Server) (n : NodeRef) (o m : Bytes) : Prop :=
  ∀ env link member, Protocol.decode? lib link = some (.link o) →
    (Protocol.decode? lib member).bind Call.toMember = some (Name.createMemberId o m) →
    ∃ target : Option Source,
      (∀ s, s ∈ RemoteNode.sourcesCalled env lib w n link ↔ target = some s) ∧
      RemoteNode.sourcesCalled env lib w n member = target.toList

/-- **A member message of an object reaches its sink**: the one that an `Init` reaches, where both
get past the log message of their handler. -/
def Client.SameObject (lib : JsonLibrary) (w : Client) (n : NodeRef) (o m : Bytes) : Prop :=
  ∀ env init props member, ClientNode.handled env lib init = some (.init o props) →
    (ClientNode.handled env lib member).bind Call.fromMember = some (Name.createMemberId o m) →
    ∃ target : Option Sink,
      (∀ s, s ∈ ClientNode.sinksCalled env lib w n init ↔ target = some s) ∧
      ClientNode.sinksCalled env lib w n member = target.toList

/-- **The messages of an object reach the same source and the same sink**, whatever else is
registered, if its id has no slash. -/
theorem sameObject (lib : JsonLibrary) (ho : Name.slash ∉ o) (m : Bytes) :
    (∀ w n, Server.SameObject lib w n o m) ∧ ∀ w n, Client.SameObject lib w n o m := by
  have hid : Name.getObjectId (Name.createMemberId o m) = o :=
    Name.getObjectId_createMemberId.mpr ho
  constructor
  · intro w n env link member hlink hmember
    refine ⟨w.source o, RemoteNode.sourcesCalled_link hlink, ?_⟩
    rw [RemoteNode.sourcesCalled_toMember hmember, hid]
  · intro w n env init props member hinit hmember
    refine ⟨(w.registry.getSink o).lock w.sinkAlive, fun s => ?_, ?_⟩
    · rw [ClientNode.sinksCalled_init hinit, Option.mem_toList]
    · rw [ClientNode.sinksCalled_fromMember hmember, hid]

/-- A property of the object `"o"` is set at its source. -/
theorem sameObject_plain :
    let w : Server := { Server.empty with
      registry := Server.empty.registry.addSource (fun _ => true) (some Server.someSource) }
    RemoteNode.sourcesCalled .returning .truncating w 0
      (Call.setProperty (Name.createMemberId (lit "o") (lit "p")) .null).message
        = [Server.someSource] := by
  intro w
  obtain ⟨target, hlink, hmember⟩ := (sameObject .truncating (by decide) (lit "p")).1 w 0
    .returning (Call.link (lit "o")).message
    (Call.setProperty (Name.createMemberId (lit "o") (lit "p")) .null).message
    (Protocol.decode?_composed _ _) (by rw [Protocol.decode?_composed]; rfl)
  have hreached := (hlink Server.someSource).mp ((RemoteNode.sourcesCalled_link
    (Protocol.decode?_composed _ _) _).mpr (by decide +kernel))
  rw [hmember, hreached]
  rfl

/-- The sources `"a"` and `"a/b"`. -/
def nested : List Server.Action :=
  [.create, .addSource (some ⟨0, lit "a"⟩), .addSource (some ⟨1, lit "a/b"⟩)]

/-- A property of `"a/b"` is set at `"a"`. -/
theorem sameObject_slash : ¬ ∀ (h : List (Server × Server.Action)) (w : Server),
    Run (Server.machine .truncating) h w → ∀ n, w.nodeAlive n = true →
      ∀ o ∈ w.registry.entries, ∀ m, Server.SameObject .truncating w n o m := by
  intro hall
  have hr : Run (Server.machine .truncating) _ _ := run_play nested Server.init_empty (by decide)
  obtain ⟨target, hlink, hmember⟩ := hall _ _ hr 0 (by decide) (lit "a/b") (by decide +kernel)
    (lit "p") .returning (Call.link (lit "a/b")).message
    (Call.setProperty (Name.createMemberId (lit "a/b") (lit "p")) .null).message
    (Protocol.decode?_composed _ _) (by rw [Protocol.decode?_composed]; rfl)
  have hreached := (hlink ⟨1, lit "a/b"⟩).mp ((RemoteNode.sourcesCalled_link
    (Protocol.decode?_composed _ _) _).mpr (by decide +kernel))
  have hto : (Protocol.decode? .truncating (Call.setProperty
      (Name.createMemberId (lit "a/b") (lit "p")) .null).message).bind Call.toMember
      = some (Name.createMemberId (lit "a/b") (lit "p")) := by
    rw [Protocol.decode?_composed]
    rfl
  rw [RemoteNode.sourcesCalled_toMember hto, hreached] at hmember
  exact absurd hmember (by decide +kernel)

end ObjectLink
