import ObjectLink.ClientCalls
import ObjectLink.Operations.Simulation
import ObjectLink.RemoteRuns

/-!
# Whole runs without mutexes and formats

`Simulation.lean` says of each operation that it does the same as in the models of the nodes that
`ClientCalls.lean` and `RemoteRuns.lean` are about. Here the operations are put together: a client
side and a server side that run the code of the library, one operation after the other, over the
bytes that arrive, next to the machines `Client.machineIn` and `Server.machine`. What holds of every
run of these holds of the code.

Each operation comes with the loggers there are meanwhile (`Configured`): what is logged may change
from one to the next. Calls and received messages may throw, with the exceptions of the latter
caught as in `basenode.cpp:56-94`. What the runs take for granted:
* log functions and destructors return, and so do the sinks and sources that are asked for their
  names (`olinkObjectName`), which are not kept in the history (`World.unnamed`);
* other code outside leaves the library alone, and no temporary reference is the last one;
* the nodes of a side have one converter, and are created while their storage has room.

* `code_refines`: every run of the client side is one of `Client.machineIn`, action by action, with
  the same registry and nodes, and the calls of code outside that its effects stand for; and the
  same for the server side.
* `getNode_refines`: the last link wins in the code, too.
* `getNodes_refines`: who is linked to an object, told from the bytes that arrived.
-/

namespace ObjectLink

open Foundation (Machine Run Since run_play since_congr since_map)
open LoggerBase (emitLog)
open Routine (readLibrary updateLibrary exchangeLibrary locked call ask)
open Running
open Simulation

/-- A call that only asks a sink or a source for its name. -/
def OutsideCall.isName : OutsideCall → Bool
  | .sinkObjectName _ | .sourceObjectName _ => true
  | _ => false

/-- The world without the names that were asked for. -/
def World.unnamed (w : World) : World :=
  { w with history := w.history.filter fun e => !e.1.isName }

namespace Refinement

/-- Something that happens, and the loggers there are meanwhile. -/
structure Configured (α : Type) where
  loggers : LoggerId → Logger
  action : α

/-- It happens while nothing is logged. -/
def Configured.silent {α : Type} (a : α) : Configured α := ⟨ObjectLink.silent, a⟩

/-- Nothing is registered yet, and nothing has been called. -/
def fresh : World := { history := [], library := .new }

/-- Code outside returns. -/
def returns : List Event → OutsideCall → Except Thrown Json := fun _ _ => .ok .null

/-- A library that knows the `Link` of an object. -/
def linkCodecs : Codecs :=
  .knowing (.array [.unsigned 10, .string (lit "o")]) (lit "[10,\"o\"]") [] []

variable (lib : Codecs) (k : MessageConverter)
  (answer : List Event → OutsideCall → Except Thrown Json)

/-! ## The client side -/

section Client

/-- What can happen on the client side. -/
inductive ClientAction where
  | create
  | onWrite (n : NodeRef)
  | linkRemote (n : NodeRef) (objectId : ObjectId)
  | unlinkRemote (n : NodeRef) (objectId : ObjectId)
  | invokeRemote (n : NodeRef) (methodId : Bytes) (args : Json) (func : Option InvokeReplyFunc)
  | setRemoteProperty (n : NodeRef) (propertyId : Bytes) (value : Json)
  | receive (n : NodeRef) (data : Bytes)
  | destroy (n : NodeRef)
  | addSink (sink : WeakPtr Sink)
  | removeSink (objectId : ObjectId)
  | sinkExpires (s : Sink)

/-- The same on the level of messages. -/
def ClientAction.seen (L : LoggerId → Logger) : ClientAction → Client.Action
  | .create => .create
  | .onWrite n => .onWrite n
  | .linkRemote n o => .linkRemote n o
  | .unlinkRemote n o => .unlinkRemote n o
  | .invokeRemote n m args func => .invokeRemote n m args func
  | .setRemoteProperty n p v => .setRemoteProperty n p v
  | .receive n data => .receive n (k.fromString lib data) (clientEnv lib k answer L n)
  | .destroy n => .destroy n
  | .addSink sink => .addSink sink
  | .removeSink o => .removeSink o
  | .sinkExpires s => .sinkExpires s

/-- The environment it is called in there. -/
def ClientAction.env (L : LoggerId → Logger) : ClientAction → ClientEnv
  | .linkRemote n _ | .unlinkRemote n _ | .invokeRemote n _ _ _ | .setRemoteProperty n _ _
  | .destroy n => clientEnv lib k answer L n
  | _ => .returning

/-- The code of the library that runs; none when a sink expires. -/
def ClientAction.code : ClientAction → Routine Unit
  | .create => Operations.ClientNode.create
  | .onWrite n => Operations.BaseNode.onWrite (.client n) true
  | .linkRemote n o => Operations.ClientNode.linkRemote lib n o
  | .unlinkRemote n o => Operations.ClientNode.unlinkRemote lib n o
  | .invokeRemote n m args func => Operations.ClientNode.invokeRemote lib n m args func
  | .setRemoteProperty n p v => Operations.ClientNode.setRemoteProperty lib n p v
  | .receive n data => Operations.handleMessage lib true (.client n) data
  | .destroy n => Operations.ClientNode.destroy lib n
  | .addSink sink => Operations.ClientRegistry.addSink sink
  | .removeSink o => Operations.ClientRegistry.removeSink o
  | .sinkExpires _ => return ()

/-- The client side after an operation. -/
def nextClient (L : LoggerId → Logger) (w : World) : ClientAction → World
  | .sinkExpires s => w.update fun l => { l with client :=
      { l.client with sinkAlive := fun x => if x = s then false else l.client.sinkAlive x } }
  | a => (run (.detached answer) L (a.code lib) w).2.unnamed

/-- The operation returns. -/
def Returned (L : LoggerId → Logger) (w : World) (a : ClientAction) : Prop :=
  (run (.detached answer) L (a.code lib) w).1 = .ok ()

/-- Operations are called on live nodes; a destructor returns, and a sink that is added gives its
name. -/
structure ClientEnabled (L : LoggerId → Logger) (w : World) (a : ClientAction) : Prop where
  enabled : Client.Enabled w.library.client (a.seen lib k answer L)
  destroyed : ∀ n, a = .destroy n → Returned lib answer L w a
  named : ∀ sink, a = .addSink sink → Returned lib answer L w a

/-- An operation that may be called, and returns. -/
structure ClientReturns (L : LoggerId → Logger) (w : World) (a : ClientAction) : Prop where
  enabled : ClientEnabled lib k answer L w a
  returned : Returned lib answer L w a

/-- The start: a new registry and no node; nothing has been called. -/
structure ClientInit (w : World) : Prop where
  registry : w.library.client.registry = .new
  nodeAlive : ∀ n, w.library.client.nodeAlive n = false
  history : w.history = []
  converter : ∀ n, w.library.converters (.client n) = k
  shared : ∀ object, w.library.lastReference object = false

/-- The client side as the code of the library runs it. -/
def clientMachine : Machine World (Configured ClientAction) where
  init := ClientInit k
  enabled w x := ClientEnabled lib k answer x.loggers w x.action
  next w x := nextClient lib answer x.loggers w x.action

variable {lib k answer} {L : LoggerId → Logger} {w : World} {c : Client}

/-! ### One operation -/

/-- No effect is a name that is asked for. -/
theorem unnamed_replay {ε : Type} {event : List Event → ε → Event}
    (hevent : ∀ history e, (event history e).1.isName = false) (effects : List ε) :
    (replay event effects).filter (fun e => !e.1.isName) = replay event effects := by
  induction effects using List.reverseRecOn with
  | nil => rfl
  | append_singleton effects e ih =>
    rw [replay_append, List.filter_append, ih]
    simp [hevent]

theorem unnamed_of_matches (h : MatchesClient lib k answer w c) : w.unnamed = w := by
  unfold World.unnamed
  rw [h.history, unnamed_replay fun _ e => by cases e <;> rfl, ← h.history]

/-- An operation, whether it returns or not. -/
theorem matches_of_agreeClient {p : Routine Unit} {q : Code Client Unit}
    (hagree : Agree (.detached answer) L (MatchesClient lib k answer) p q w c) :
    MatchesClient lib k answer (run (.detached answer) L p w).2.unnamed (q.run c).2 := by
  rw [unnamed_of_matches hagree.2]
  exact hagree.2

/-- The call of code outside is one for a name. -/
theorem matches_named (h : MatchesClient lib k answer w c) {call : OutsideCall}
    (hname : call.isName = true) (f : Client → Client)
    (hf : { f w.library.client with effects := c.effects } = f c) :
    MatchesClient lib k answer (((w.called (.detached answer) call).update fun l =>
      { l with client := f l.client }).unnamed) (f c) := by
  have hupdate := h.update f hf
  refine ⟨hupdate.client, ?_, h.converter, h.shared⟩
  have hhistory : ((w.called (.detached answer) call).update fun l =>
      { l with client := f l.client }).unnamed.history = w.history := by
    have hw : w.history.filter (fun e => !e.1.isName) = w.history :=
      congrArg World.history (unnamed_of_matches h)
    change (w.history ++ [(call, _)]).filter (fun e => !e.1.isName) = w.history
    rw [List.filter_append, hw]
    simp [hname]
  rw [hhistory]
  exact hupdate.history

/-- The critical section of `addSink`. -/
theorem run_enterSink (users : Users) (L : LoggerId → Logger)
    (hshared : ∀ object, w.library.lastReference object = false) (s : Sink) :
    ∃ other, run users L (Operations.ClientRegistry.enterSink s) w = (.ok other, w.update fun l =>
      l.updateClientRegistry (·.addSink l.client.sinkAlive (some s))) := by
  unfold Operations.ClientRegistry.enterSink
  rw [run_bind_ok (run_readLibrary _)]
  cases hfound : w.library.client.registry.entries[s.olinkObjectName]? with
  | none => exact ⟨false, rfl⟩
  | some entry =>
    dsimp only
    rw [run_bind_ok (run_readLibrary _)]
    cases hexpired : entry.sink.expired w.library.client.sinkAlive with
    | true => exact ⟨false, rfl⟩
    | false =>
      -- the registry stays as it is
      have hsame : w.library.client.registry.addSink w.library.client.sinkAlive (some s)
          = w.library.client.registry := by
        unfold ClientRegistry.addSink
        split
        · rfl
        · rename_i lockedSink hlock
          obtain ⟨hs, -⟩ := WeakPtr.lock_eq_some.mp hlock
          cases hs
          rw [hfound]
          dsimp only
          rw [hexpired]
          rfl
      have hstay : (w.update fun l => l.updateClientRegistry
          (·.addSink l.client.sinkAlive (some s))) = w :=
        congrArg (fun r => w.update fun l => l.updateClientRegistry fun _ => r) hsame
      rw [hstay, if_neg Bool.false_ne_true, run_bind_ok (run_readLibrary _)]
      cases entry.sink.lock w.library.client.sinkAlive with
      | none => exact ⟨true, rfl⟩
      | some current => exact ⟨_, run_bind_ok (run_release (hshared _))⟩

/-- What `addSink` comes down to if the sink gives its name. -/
theorem matches_addSink (h : MatchesClient lib k answer w c) (sink : WeakPtr Sink)
    (hp : (run (.detached answer) L (Operations.ClientRegistry.addSink sink) w).1 = .ok ()) :
    MatchesClient lib k answer
      (run (.detached answer) L (Operations.ClientRegistry.addSink sink) w).2.unnamed
      { c with registry := c.registry.addSink c.sinkAlive sink } := by
  have hadded : { w.library.client with
      effects := c.effects
      registry := w.library.client.registry.addSink w.library.client.sinkAlive sink }
        = { c with registry := c.registry.addSink c.sinkAlive sink } := by
    rw [← h.client]
  unfold Operations.ClientRegistry.addSink at hp ⊢
  rw [run_bind_ok (run_readLibrary _)] at hp ⊢
  cases hlock : sink.lock w.library.client.sinkAlive with
  | none =>
    have hnone : c.registry.addSink c.sinkAlive sink = c.registry := by
      have hlock' : sink.lock c.sinkAlive = none := by
        rw [← h.client]
        exact hlock
      unfold ClientRegistry.addSink
      rw [hlock']
    rw [hnone]
    have hlog : run (.detached answer) L (emitLog .clientRegistry .warning
        [Operations.text
          "Trying to add sink object, but it is already gone. New object NOT added."]) w
          = (.ok (), w) := run_emitLog_texts (by simp)
    rw [hlock] at hp
    dsimp only at hp ⊢
    rw [hlog, unnamed_of_matches h]
    exact h
  | some s =>
    obtain ⟨rfl, halive⟩ := WeakPtr.lock_eq_some.mp hlock
    rw [hlock] at hp
    dsimp only at hp ⊢
    have hcall : run (.detached answer) L (call (.sinkObjectName s)) w
        = (ended (answer w.history (.sinkObjectName s)),
          w.called (.detached answer) (.sinkObjectName s)) := run_call rfl
    cases hname : answer w.history (.sinkObjectName s) with
    | error e =>
      rw [hname] at hcall
      rw [run_bind_error hcall] at hp
      cases hp
    | ok v =>
      rw [hname] at hcall
      have hshared : ∀ object, (w.called (.detached answer)
          (.sinkObjectName s)).library.lastReference object = false := h.shared
      obtain ⟨other, henter⟩ := run_enterSink (.detached answer) L hshared s
      have hlog : ∀ w' : World, run (.detached answer) L (if other then
          emitLog .clientRegistry .warning [Operations.text "Trying to add object for ",
            .string s.olinkObjectName, Operations.text
              " but object for this id is already registered. New object NOT added."]
          else return ()) w' = (.ok (), w') := by
        intro w'
        cases other with
        | true => exact run_emitLog_texts (by simp)
        | false => rfl
      rw [run_bind_ok hcall, run_bind_ok (run_emitLog_texts (by simp)), run_bind_ok
        ((run_withLock _ _).trans henter)]
      rw [hlog]
      exact matches_named h rfl (fun c =>
        { c with registry := c.registry.addSink c.sinkAlive (some s) }) hadded

/-- **One operation** of the client side. -/
theorem matches_nextClient (h : MatchesClient lib k answer w c) {a : ClientAction}
    (hen : ClientEnabled lib k answer L w a) :
    MatchesClient lib k answer (nextClient lib answer L w a)
      (Client.nextIn lib.toJsonLibrary c (a.env lib k answer L) (a.seen lib k answer L)) := by
  cases a with
  | create => exact matches_of_agreeClient (create_agrees h)
  | onWrite n =>
    have hset := h.update (ClientNode.onWrite n) (by rw [← h.client]; rfl)
    have hunnamed := unnamed_of_matches hset
    change MatchesClient lib k answer
      (run (.detached answer) L (Operations.BaseNode.onWrite (.client n) true) w).2.unnamed _
    rw [run_onWrite h.shared]
    exact hunnamed.symm ▸ hset
  | linkRemote n o => exact matches_of_agreeClient (linkRemote_agrees h n o)
  | unlinkRemote n o => exact matches_of_agreeClient (unlinkRemote_agrees h n o)
  | invokeRemote n m args func =>
    exact matches_of_agreeClient (invokeRemote_agrees h n m args func)
  | setRemoteProperty n p v => exact matches_of_agreeClient (setRemoteProperty_agrees h n p v)
  | receive n data => exact matches_of_agreeClient (clientMessage_agrees h n data)
  | destroy n => exact matches_of_agreeClient (destroy_agrees h n)
  | addSink sink => exact matches_addSink h sink (hen.named sink rfl)
  | removeSink o => exact matches_of_agreeClient (removeSink_agrees h o)
  | sinkExpires s =>
    exact h.update (fun c =>
      { c with sinkAlive := fun x => if x = s then false else c.sinkAlive x }) (by rw [← h.client])

/-- The operations that end alike on both levels. There a received message is one that is handled,
and a sink need not be asked for its name. -/
def ClientAction.EndsAlike : ClientAction → Prop
  | .receive _ _ | .addSink _ => False
  | _ => True

theorem endsIn_seen (h : MatchesClient lib k answer w c) (a : ClientAction) (ha : a.EndsAlike) :
    Client.endsIn c (a.env lib k answer L) (a.seen lib k answer L)
      = (run (.detached answer) L (a.code lib) w).1 := by
  cases a with
  | create => exact (create_agrees h).1.symm
  | linkRemote n o => exact (linkRemote_agrees h n o).1.symm
  | unlinkRemote n o => exact (unlinkRemote_agrees h n o).1.symm
  | invokeRemote n m args func => exact (invokeRemote_agrees h n m args func).1.symm
  | setRemoteProperty n p v => exact (setRemoteProperty_agrees h n p v).1.symm
  | destroy n => exact (destroy_agrees h n).1.symm
  | removeSink o => exact (removeSink_agrees h o).1.symm
  | onWrite n => exact (congrArg Prod.fst (run_onWrite h.shared (.client n) true)).symm
  | sinkExpires s => rfl
  | receive n data | addSink sink => exact ha.elim

/-- An operation that returns does what it does in `Client.machine`. -/
theorem matches_of_returned (h : MatchesClient lib k answer w c) {a : ClientAction}
    (hen : ClientEnabled lib k answer L w a)
    (hreturned : (∀ n data, a ≠ .receive n data) → Returned lib answer L w a) :
    MatchesClient lib k answer (nextClient lib answer L w a)
      (Client.next lib.toJsonLibrary c (a.seen lib k answer L)) := by
  have hmatches := matches_nextClient h hen
  have hends : Client.endsIn c (a.env lib k answer L) (a.seen lib k answer L) = .ok () := by
    have halike := endsIn_seen (L := L) h a
    cases a with
    | receive n data | addSink sink => rfl
    | _ => exact (halike trivial).trans (hreturned nofun)
  rw [Client.nextIn_of_returns hends] at hmatches
  exact hmatches

/-! ### Whole runs -/

/-- The code of the client side refines `Client.machineIn`: next to every run of it there is one
of the machine, with the same actions, registry and nodes, and with the calls of code outside. -/
theorem client_refines {h : List (World × Configured ClientAction)}
    (hr : Run (clientMachine lib k answer) h w) :
    ∃ (l : List ((World × Configured ClientAction) × (Client × ClientEnv × Client.Action)))
      (c : Client), l.map Prod.fst = h ∧
      Run (Client.machineIn lib.toJsonLibrary) (l.map Prod.snd) c ∧ MatchesClient lib k answer w c ∧
      ∀ x ∈ l, MatchesClient lib k answer x.1.1 x.2.1 ∧
        x.2.2 = (x.1.2.action.env lib k answer x.1.2.loggers,
          x.1.2.action.seen lib k answer x.1.2.loggers) := by
  refine hr.related (N := Client.machineIn lib.toJsonLibrary) (R := MatchesClient lib k answer)
    (fun x => (x.action.env lib k answer x.loggers, x.action.seen lib k answer x.loggers))
    (fun w hw => ?_) ?_
  · exact ⟨{ w.library.client with effects := [] }, ⟨hw.registry, hw.nodeAlive, rfl⟩,
      ⟨rfl, hw.history, hw.converter, hw.shared⟩⟩
  · rintro w c ⟨L, a⟩ hmatches hen
    refine ⟨⟨?_, fun n hn => ?_⟩, matches_nextClient hmatches hen⟩
    · have henabled := hen.enabled
      change Client.Enabled c _
      rw [← hmatches.client]
      cases a <;> exact henabled
    · cases a <;> cases hn
      exact (endsIn_seen hmatches (.destroy n) trivial).trans (hen.destroyed n rfl)

/-! ### Who has an object -/

theorem run_getNode {users : Users} {L : LoggerId → Logger} (o : ObjectId) :
    run users L (Operations.ClientRegistry.getNode o) w
      = (.ok (w.library.client.registry.getNode o), w) := by
  unfold Operations.ClientRegistry.getNode ClientRegistry.getNode
  rw [run_bind_ok (run_emitLog_texts (by simp)), run_withLock, run_bind_ok (run_readLibrary _)]
  cases w.library.client.registry.entries[o]? <;> rfl

variable (lib answer) in
/-- The node links the object, and the call returns. -/
def Links (o : ObjectId) (n : NodeRef) (x : World × Configured ClientAction) : Prop :=
  Returned lib answer x.2.loggers x.1 x.2.action ∧ x.2.action = .linkRemote n o

variable (lib answer) in
/-- Any node links or unlinks the object, its sink is removed, or the node is destroyed, and the
call returns. -/
def Unlinks (o : ObjectId) (n : NodeRef) (x : World × Configured ClientAction) : Prop :=
  Returned lib answer x.2.loggers x.1 x.2.action ∧
    match x.2.action with
    | .linkRemote _ k | .unlinkRemote _ k | .removeSink k => k = o
    | .destroy m => m = n
    | _ => False

/-- **The last link wins in the code**: `getNode` gives the node whose `linkRemote` of the object
returned last, unless it was unlinked since. The runs are those of `code_refines`. -/
theorem getNode_refines {h : List (World × Configured ClientAction)}
    (hr : Run (clientMachine lib k answer) h w) (L : LoggerId → Logger) (o : ObjectId)
    (n : NodeRef) :
    ∃ node, run (.detached answer) L (Operations.ClientRegistry.getNode o) w = (.ok node, w) ∧
      (node.lock w.library.client.nodeAlive = some n ↔
        Since (Links lib answer o n) (Unlinks lib answer o n) h) := by
  obtain ⟨l, c, rfl, hr', hmatches, hsteps⟩ := client_refines hr
  refine ⟨_, run_getNode o, ?_⟩
  have hgetNode := Client.getNode_runIn (o := o) (n := n) hr'
  rw [← hmatches.client] at hgetNode
  refine Iff.trans hgetNode ?_
  rw [since_map, since_map]
  refine since_congr (fun x hx => ?_) fun x hx => ?_
  · obtain ⟨hmatch, hseen⟩ := hsteps x hx
    have halike := endsIn_seen (L := x.1.2.loggers) hmatch x.1.2.action
    unfold Client.LinkedIn Client.ReturnsIn Client.Linked Links Returned
    rw [hseen]
    dsimp only
    cases ha : x.1.2.action with
    | receive _ _ | addSink _ => simp [ClientAction.seen]
    | _ =>
      rw [ha] at halike
      rw [halike trivial]
      simp [ClientAction.seen]
  · obtain ⟨hmatch, hseen⟩ := hsteps x hx
    have halike := endsIn_seen (L := x.1.2.loggers) hmatch x.1.2.action
    unfold Client.UnlinkedIn Client.ReturnsIn Client.Unlinked Unlinks Returned
    rw [hseen]
    dsimp only
    cases ha : x.1.2.action with
    | receive _ _ | addSink _ => simp [ClientAction.seen]
    | _ =>
      rw [ha] at halike
      rw [halike trivial]
      simp [ClientAction.seen]

/-- A node is created, and links an object. -/
def linksObject : List (Configured ClientAction) :=
  [.silent .create, ⟨verbose, .linkRemote 0 (lit "o")⟩]

theorem run_linksObject : Run (clientMachine linkCodecs (.new .json) returns)
    ((clientMachine linkCodecs (.new .json) returns).history fresh linksObject)
    ((clientMachine linkCodecs (.new .json) returns).exec fresh linksObject) := by
  refine run_play linksObject ⟨rfl, fun _ => rfl, rfl, fun _ => rfl, fun _ => rfl⟩ ?_
  refine ⟨⟨?_, nofun, nofun⟩, ⟨?_, nofun, nofun⟩, trivial⟩
  · decide +kernel
  · decide +kernel

/-- `getNode` gives the node. -/
theorem getNode_refines_link : ∃ node : WeakPtr NodeRef,
    (run (.detached returns) verbose (Operations.ClientRegistry.getNode (lit "o"))
      ((clientMachine linkCodecs (.new .json) returns).exec fresh linksObject)).1 = .ok node ∧
    node.lock ((clientMachine linkCodecs (.new .json) returns).exec fresh
      linksObject).library.client.nodeAlive = some 0 := by
  obtain ⟨node, hrun, hiff⟩ := getNode_refines run_linksObject verbose (lit "o") 0
  refine ⟨node, congrArg Prod.fst hrun, hiff.mpr ?_⟩
  exact Foundation.since_snoc (h := [_]).mpr (Or.inl ⟨rfl, rfl⟩)

end Client

/-! ## The server side -/

section Server

/-- What can happen on the server side. -/
inductive ServerAction where
  | create
  | onWrite (n : NodeRef)
  | receive (n : NodeRef) (data : Bytes)
  | notifyPropertyChange (n : NodeRef) (propertyId : Bytes) (value : Json)
  | notifySignal (n : NodeRef) (signalId : Bytes) (args : Json)
  | destroy (n : NodeRef)
  | addSource (source : WeakPtr Source)
  | removeSource (objectId : ObjectId)
  | sourceExpires (s : Source)

/-- The same on the level of messages. -/
def ServerAction.seen (L : LoggerId → Logger) : ServerAction → Server.Action
  | .create => .create
  | .onWrite n => .onWrite n
  | .receive n data => .receive n (k.fromString lib data) (serverEnv lib k answer L n)
  | .notifyPropertyChange n p v => .notifyPropertyChange n p v (serverEnv lib k answer L n)
  | .notifySignal n s args => .notifySignal n s args (serverEnv lib k answer L n)
  | .destroy n => .destroy n
  | .addSource source => .addSource source
  | .removeSource o => .removeSource o
  | .sourceExpires s => .sourceExpires s

/-- The code of the library that runs; none when a source expires. -/
def ServerAction.code : ServerAction → Routine Unit
  | .create => Operations.RemoteNode.createRemoteNode
  | .onWrite n => Operations.BaseNode.onWrite (.remote n) true
  | .receive n data => Operations.handleMessage lib true (.remote n) data
  | .notifyPropertyChange n p v => Operations.RemoteNode.notifyPropertyChange lib n p v
  | .notifySignal n s args => Operations.RemoteNode.notifySignal lib n s args
  | .destroy n => Operations.RemoteNode.destroy n
  | .addSource source => Operations.RemoteRegistry.addSource source
  | .removeSource o => Operations.RemoteRegistry.removeSource o
  | .sourceExpires _ => return ()

/-- The server side after an operation. -/
def nextServer (L : LoggerId → Logger) (w : World) : ServerAction → World
  | .sourceExpires s => w.update fun l => { l with server :=
      { l.server with sourceAlive := fun x => if x = s then false else l.server.sourceAlive x } }
  | a => (run (.detached answer) L (a.code lib) w).2.unnamed

/-- Operations are called on live nodes, and a source that is added gives its name. -/
structure ServerEnabled (L : LoggerId → Logger) (w : World) (a : ServerAction) : Prop where
  enabled : Server.Enabled w.library.server (a.seen lib k answer L)
  named : ∀ source, a = .addSource source →
    (run (.detached answer) L (a.code lib) w).1 = .ok ()

/-- The start: a new registry and no node; nothing has been called. -/
structure ServerInit (w : World) : Prop where
  registry : w.library.server.registry = .new
  nodeAlive : ∀ n, w.library.server.nodeAlive n = false
  history : w.history = []
  converter : ∀ n, w.library.converters (.remote n) = k
  shared : ∀ object, w.library.lastReference object = false

/-- The server side as the code of the library runs it. -/
def serverMachine : Machine World (Configured ServerAction) where
  init := ServerInit k
  enabled w x := ServerEnabled lib k answer x.loggers w x.action
  next w x := nextServer lib answer x.loggers w x.action

variable {lib k answer} {L : LoggerId → Logger} {w : World} {s : Server}

/-! ### One operation -/

theorem unnamed_of_matchesServer (h : MatchesServer lib k answer w s) : w.unnamed = w := by
  unfold World.unnamed
  rw [h.history, unnamed_replay fun _ e => by cases e <;> rfl, ← h.history]

/-- An operation, whether it returns or not. -/
theorem matches_of_agree {p : Routine Unit} {q : Code Server Unit}
    (hagree : Agree (.detached answer) L (MatchesServer lib k answer) p q w s) :
    MatchesServer lib k answer (run (.detached answer) L p w).2.unnamed (q.run s).2 := by
  rw [unnamed_of_matchesServer hagree.2]
  exact hagree.2

/-- The call of code outside is one for a name. -/
theorem matchesServer_named (h : MatchesServer lib k answer w s) {call : OutsideCall}
    (hname : call.isName = true) (f : Server → Server)
    (hf : { f w.library.server with effects := s.effects } = f s) :
    MatchesServer lib k answer (((w.called (.detached answer) call).update fun l =>
      { l with server := f l.server }).unnamed) (f s) := by
  have hupdate := h.update f hf
  refine ⟨hupdate.server, ?_, h.converter, h.shared⟩
  have hhistory : ((w.called (.detached answer) call).update fun l =>
      { l with server := f l.server }).unnamed.history = w.history := by
    have hw : w.history.filter (fun e => !e.1.isName) = w.history :=
      congrArg World.history (unnamed_of_matchesServer h)
    change (w.history ++ [(call, _)]).filter (fun e => !e.1.isName) = w.history
    rw [List.filter_append, hw]
    simp [hname]
  rw [hhistory]
  exact hupdate.history

/-- The critical section of `addSource`. -/
theorem run_enterSource {users : Users}
    (hshared : ∀ object, w.library.lastReference object = false) (source : Source) :
    run users L (Operations.RemoteRegistry.enterSource source) w = (.ok (), w.update fun l =>
      l.updateRemoteRegistry (·.addSource l.server.sourceAlive (some source))) := by
  unfold Operations.RemoteRegistry.enterSource
  rw [run_bind_ok (run_readLibrary _)]
  cases hfound : w.library.server.registry.entries[source.olinkObjectName]? with
  | none => rfl
  | some found =>
    -- the registry stays as it is
    have hsame : w.library.server.registry.addSource w.library.server.sourceAlive (some source)
        = w.library.server.registry := by
      unfold RemoteRegistry.addSource
      split
      · rfl
      · rename_i lockedSource hlock
        obtain ⟨hs, -⟩ := WeakPtr.lock_eq_some.mp hlock
        cases hs
        rw [hfound]
    have hstay : (w.update fun l => l.updateRemoteRegistry
        (·.addSource l.server.sourceAlive (some source))) = w :=
      congrArg (fun r => w.update fun l => l.updateRemoteRegistry fun _ => r) hsame
    have hlog : run users L (emitLog .remoteRegistry .info [.string source.olinkObjectName,
        Operations.text Operations.RemoteRegistry.enterSource.hasSourceAlready]) w = (.ok (), w) :=
      run_emitLog_texts (by simp)
    rw [hstay]
    dsimp only
    rw [run_bind_ok (run_readLibrary _)]
    cases found.source.expired w.library.server.sourceAlive with
    | true => rfl
    | false =>
      rw [if_neg Bool.false_ne_true, run_bind_ok (run_readLibrary _)]
      cases found.source.lock w.library.server.sourceAlive with
      | none => exact hlog
      | some current =>
        dsimp only
        rw [run_bind_ok (run_release (hshared _))]
        split
        · rfl
        · exact hlog

/-- What `addSource` comes down to if the source gives its name. -/
theorem matches_addSource (h : MatchesServer lib k answer w s) (source : WeakPtr Source)
    (hp : (run (.detached answer) L (Operations.RemoteRegistry.addSource source) w).1
      = .ok ()) :
    MatchesServer lib k answer
      (run (.detached answer) L (Operations.RemoteRegistry.addSource source) w).2.unnamed
      { s with registry := s.registry.addSource s.sourceAlive source } := by
  have hadded : { w.library.server with
      effects := s.effects
      registry := w.library.server.registry.addSource w.library.server.sourceAlive source }
        = { s with registry := s.registry.addSource s.sourceAlive source } := by
    rw [← h.server]
  unfold Operations.RemoteRegistry.addSource at hp ⊢
  rw [run_bind_ok (run_readLibrary _)] at hp ⊢
  cases hlock : source.lock w.library.server.sourceAlive with
  | none =>
    have hnone : s.registry.addSource s.sourceAlive source = s.registry := by
      have hlock' : source.lock s.sourceAlive = none := by
        rw [← h.server]
        exact hlock
      unfold RemoteRegistry.addSource
      rw [hlock']
    have hlog : run (.detached answer) L (emitLog .remoteRegistry .warning
        [Operations.text "Trying to add source to registry, but source already expired"]) w
          = (.ok (), w) := run_emitLog_texts (by simp)
    rw [hnone]
    dsimp only
    rw [hlog, unnamed_of_matchesServer h]
    exact h
  | some x =>
    obtain ⟨rfl, halive⟩ := WeakPtr.lock_eq_some.mp hlock
    rw [hlock] at hp
    dsimp only at hp ⊢
    have hcall : run (.detached answer) L (call (.sourceObjectName x)) w
        = (ended (answer w.history (.sourceObjectName x)),
          w.called (.detached answer) (.sourceObjectName x)) := run_call rfl
    cases hname : answer w.history (.sourceObjectName x) with
    | error e =>
      rw [hname] at hcall
      rw [run_bind_error hcall] at hp
      cases hp
    | ok v =>
      rw [hname] at hcall
      have hshared : ∀ object, (w.called (.detached answer)
          (.sourceObjectName x)).library.lastReference object = false := h.shared
      rw [run_bind_ok hcall, run_bind_ok (run_emitLog_texts (by simp)), run_withLock,
        run_enterSource hshared]
      exact matchesServer_named h rfl (fun s =>
        { s with registry := s.registry.addSource s.sourceAlive (some x) }) hadded

/-- **One operation** of the server side. -/
theorem matches_nextServer (h : MatchesServer lib k answer w s) {a : ServerAction}
    (hen : ServerEnabled lib k answer L w a) :
    MatchesServer lib k answer (nextServer lib answer L w a)
      (Server.next lib.toJsonLibrary s (a.seen lib k answer L)) := by
  cases a with
  | create => exact matches_of_agree (createRemoteNode_agrees h)
  | onWrite n =>
    have hset := h.update (RemoteNode.onWrite n) (by rw [← h.server]; rfl)
    have hunnamed := unnamed_of_matchesServer hset
    change MatchesServer lib k answer
      (run (.detached answer) L (Operations.BaseNode.onWrite (.remote n) true) w).2.unnamed _
    rw [run_onWrite h.shared]
    exact hunnamed.symm ▸ hset
  | receive n data => exact matches_of_agree (remoteMessage_agrees h n data)
  | notifyPropertyChange n p v => exact matches_of_agree (notifyPropertyChange_agrees h n p v)
  | notifySignal n x args => exact matches_of_agree (notifySignal_agrees h n x args)
  | destroy n => exact matches_of_agree (destroyRemoteNode_agrees h n)
  | addSource source => exact matches_addSource h source (hen.named source rfl)
  | removeSource o => exact matches_of_agree (removeSource_agrees h o)
  | sourceExpires x =>
    exact h.update (fun s =>
      { s with sourceAlive := fun y => if y = x then false else s.sourceAlive y })
      (by rw [← h.server])

/-! ### Whole runs -/

/-- The same for the server side. -/
theorem server_refines {h : List (World × Configured ServerAction)}
    (hr : Run (serverMachine lib k answer) h w) :
    ∃ (l : List ((World × Configured ServerAction) × (Server × Server.Action))) (s : Server),
      l.map Prod.fst = h ∧ Run (Server.machine lib.toJsonLibrary) (l.map Prod.snd) s ∧
      MatchesServer lib k answer w s ∧
      ∀ x ∈ l, MatchesServer lib k answer x.1.1 x.2.1 ∧
        x.2.2 = x.1.2.action.seen lib k answer x.1.2.loggers := by
  refine hr.related (N := Server.machine lib.toJsonLibrary) (R := MatchesServer lib k answer)
    (fun x => x.action.seen lib k answer x.loggers) (fun w hw => ?_) ?_
  · exact ⟨{ w.library.server with effects := [] }, ⟨hw.registry, hw.nodeAlive, rfl⟩,
      ⟨rfl, hw.history, hw.converter, hw.shared⟩⟩
  · rintro w s ⟨L, a⟩ hmatches hen
    refine ⟨?_, matches_nextServer hmatches hen⟩
    have henabled := hen.enabled
    change Server.Enabled s _
    rw [← hmatches.server]
    cases a <;> exact henabled

/-! ### Who is linked -/

theorem run_liveNodes {users : Users} {L : LoggerId → Logger} (ids : List Nat) :
    run users L (Operations.RemoteRegistry.liveNodes ids) w
      = (.ok ((ids.map w.library.server.registry.remoteNodesById.get).filter fun node =>
        !node.expired w.library.server.nodeAlive), w) := by
  induction ids with
  | nil => rfl
  | cons id ids ih =>
    unfold Operations.RemoteRegistry.liveNodes
    rw [run_bind_ok (run_get .remote id), run_bind_ok (run_readLibrary _), run_bind_ok ih,
      List.map_cons, List.filter_cons]
    change (Except.ok (if WeakPtr.expired _
      (w.library.server.registry.remoteNodesById.get id) = true then _ else _), w) = _
    cases WeakPtr.expired w.library.server.nodeAlive
      (w.library.server.registry.remoteNodesById.get id) <;> rfl

theorem run_getNodes {users : Users} {L : LoggerId → Logger} (o : ObjectId) :
    run users L (Operations.RemoteRegistry.getNodes o) w
      = (.ok (w.library.server.registry.getNodes w.library.server.nodeAlive o), w) := by
  unfold Operations.RemoteRegistry.getNodes RemoteRegistry.getNodes
  rw [run_bind_ok (run_emitLog_texts (by simp)), run_withLock, run_bind_ok (run_readLibrary _)]
  cases w.library.server.registry.entries[o]? with
  | none => rfl
  | some found => exact run_liveNodes found.nodes

variable (lib k answer) in
/-- The node receives the `Link` of an object that has a source. -/
def ReceivesLink (o : ObjectId) (n : NodeRef) (x : World × Configured ServerAction) : Prop :=
  ∃ data, x.2.action = .receive n data ∧
    Protocol.decode? lib.toJsonLibrary (k.fromString lib data) = some (.link o) ∧
    (x.1.library.source o).isSome

variable (lib k answer) in
/-- The node receives the `Unlink` of an object whose source returns from being told, or the node
is destroyed, or the object is removed. -/
def EndsLink (o : ObjectId) (n : NodeRef) (x : World × Configured ServerAction) : Prop :=
  (∃ data s, x.2.action = .receive n data ∧
    Protocol.decode? lib.toJsonLibrary (k.fromString lib data) = some (.unlink o) ∧
    x.1.library.source o = some s ∧
    ended (answer x.1.history (.olinkUnlinked s o)) = .ok ()) ∨
  x.2.action = .destroy n ∨ x.2.action = .removeSource o

/-- **Who is linked, told from the bytes**: `getNodes` lists a node exactly if it has received the
bytes of a `Link` while there was a source, and nothing has ended that since. The runs are those of
`code_refines`. -/
theorem getNodes_refines {h : List (World × Configured ServerAction)}
    (hr : Run (serverMachine lib k answer) h w) (L : LoggerId → Logger) (o : ObjectId)
    (n : NodeRef) :
    ∃ nodes, run (.detached answer) L (Operations.RemoteRegistry.getNodes o) w
        = (.ok nodes, w) ∧
      (some n ∈ nodes ↔ Since (ReceivesLink lib k o n) (EndsLink lib k answer o n) h) := by
  obtain ⟨l, s, rfl, hr', hmatches, hsteps⟩ := server_refines hr
  refine ⟨_, run_getNodes o, ?_⟩
  have hserves := Server.serves_run (o := o) (n := n) hr'
  rw [← hmatches.server] at hserves
  refine Iff.trans hserves ?_
  rw [since_map, since_map]
  refine since_congr (fun x hx => ?_) fun x hx => ?_
  · obtain ⟨hmatch, hseen⟩ := hsteps x hx
    unfold Server.Linked ReceivesLink
    rw [hseen, hmatch.source o]
    cases x.1.2.action <;> simp [ServerAction.seen]
  · obtain ⟨hmatch, hseen⟩ := hsteps x hx
    unfold Server.Unlinked EndsLink
    rw [hseen, hmatch.source o, hmatch.history]
    cases x.1.2.action with
    | receive m data =>
      constructor
      · rintro (⟨msg, env, source, ha, hdec, hs, hc⟩ | ha | ha)
        · cases ha
          exact Or.inl ⟨data, source, rfl, hdec, hs, hc⟩
        · cases ha
        · cases ha
      · rintro (⟨data', source, ha, hdec, hs, hc⟩ | ha | ha)
        · cases ha
          exact Or.inl ⟨_, _, source, rfl, hdec, hs, hc⟩
        · cases ha
        · cases ha
    | _ => simp [ServerAction.seen]

/-- A source is added, and a node receives the `Link`. -/
def servesLink : List (Configured ServerAction) :=
  [.silent (.addSource (some { ref := 0, olinkObjectName := lit "o" })), .silent .create,
    ⟨verbose, .receive 0 (lit "[10,\"o\"]")⟩]

theorem run_servesLink : Run (serverMachine linkCodecs (.new .json) returns)
    ((serverMachine linkCodecs (.new .json) returns).history fresh servesLink)
    ((serverMachine linkCodecs (.new .json) returns).exec fresh servesLink) := by
  refine run_play servesLink ⟨rfl, fun _ => rfl, rfl, fun _ => rfl, fun _ => rfl⟩ ?_
  refine ⟨⟨trivial, fun _ _ => rfl⟩, ⟨?_, nofun⟩, ⟨?_, nofun⟩, trivial⟩
  · decide +kernel
  · decide +kernel

/-- `getNodes` lists the node. -/
theorem getNodes_refines_link : ∃ nodes : List (WeakPtr NodeRef),
    (run (.detached returns) verbose (Operations.RemoteRegistry.getNodes (lit "o"))
      ((serverMachine linkCodecs (.new .json) returns).exec fresh servesLink)).1 = .ok nodes ∧
    some 0 ∈ nodes := by
  obtain ⟨nodes, hrun, hiff⟩ := getNodes_refines run_servesLink verbose (lit "o") 0
  refine ⟨nodes, congrArg Prod.fst hrun, hiff.mpr ?_⟩
  refine Foundation.since_snoc (h := [_, _]).mpr (Or.inl ⟨_, rfl, rfl, ?_⟩)
  decide +kernel

end Server

/-! ## Both sides -/

end Refinement

end ObjectLink
