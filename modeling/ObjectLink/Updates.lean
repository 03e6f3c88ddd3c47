import ObjectLink.Connections

/-!
# Linking while a source is being updated

A source with any number of properties, any number of remote nodes, each on a connection that
delivers what is written on it in order, and a client at the other end of each that keeps the value
of each property from the last `Init` or `PropertyChange` it has received.

* The setter of the source stores the new value, asks the registry for the nodes of the object, and
  calls `notifyPropertyChange` on each of them; one thread makes the updates, one after the other.
* On the thread of each connection `handleLink` (`remotenode.cpp:33-48`) enters the node, tells the
  source, asks it for its properties, and writes the `Init`.

The steps of the update and of all the connections follow each other in any order.

Results:
* `handleLink_alone`: a `handleLink` whose steps follow each other is the operation.
* `Informed`: what a linked client will have of a property when everything on the way to it is
  delivered is the value of the source, or the update on its way has still to notify it;
  `informed_next_iff`: a step keeps that exactly if it `Keeps`.
* `updates_arrive`: the same over whole runs, and agreement when all is done and delivered.
* `update_lost`: an update between the collection of the properties and the write of the `Init`.
-/

namespace ObjectLink

open Foundation (Machine Run run_play)

/-- An object with its source and the names of its properties. -/
structure Service where
  objectId : ObjectId
  source : Source
  properties : List Bytes

/-- The next step of an update of a property to a value. -/
inductive UpdatePhase where
  | getNodes (property : Bytes) (value : Json)
  | notify (property : Bytes) (value : Json) (nodes : List (WeakPtr NodeRef))

/-- The next step of a `handleLink`. -/
inductive HandlePhase where
  | addNodeForSource
  | olinkLinked
  | olinkCollectProperties
  | writeInit (props : Json)

/-- The server side with the values of the source's properties, the threads, what is on its way on
each connection, oldest first, and what the clients have. -/
structure Updates where
  server : Server
  values : Bytes → Json
  update : Option UpdatePhase
  handling : NodeRef → Option HandlePhase
  toClient : NodeRef → List Json
  clientValues : NodeRef → Bytes → Option Json

namespace Updates

/-- What can happen. -/
inductive Action where
  /-- A `Link` of the object arrives at a node. -/
  | link (n : NodeRef)
  /-- The `handleLink` of a node takes its next step. -/
  | handle (n : NodeRef)
  /-- The setter is called, and stores the value. -/
  | set (property : Bytes) (value : Json)
  /-- The update takes its next step. -/
  | update
  /-- The client of a node receives the next message. -/
  | deliver (n : NodeRef)

section Steps

variable (lib : JsonLibrary) (service : Service)

/-- What `olinkCollectProperties` returns. -/
def collect (values : Bytes → Json) : Json :=
  .object (service.properties.map fun p => (p, values p))

/-- A property in what `olinkCollectProperties` returned. -/
def propertyOf (props : Json) (p : Bytes) : Option Json :=
  match props with
  | .object members => members.lookup p
  | _ => none

/-- What a client has after a message. -/
def receive (values : Bytes → Option Json) (msg : Json) : Bytes → Option Json :=
  match Protocol.decode? lib msg with
  | some (.init o props) =>
    if o = service.objectId then fun p => (propertyOf props p).or (values p) else values
  | some (.propertyChange id value) =>
    fun p => if id = Name.createMemberId service.objectId p then some value else values p
  | _ => values

/-- A step of a thread on the server side, whose writes enter the connections. -/
def stepServer (s : Updates) (server : Server) : Updates :=
  { s with
    server := server
    toClient := fun n => s.toClient n ++
      Connections.writtenByServer n (server.effects.drop s.server.effects.length) }

/-- The `handleLink` of a node goes on to another step, or is over. -/
def setHandling (s : Updates) (n : NodeRef) (phase : Option HandlePhase) : Updates :=
  { s with handling := fun m => if m = n then phase else s.handling m }

/-- A step of the `handleLink` of the node. -/
def stepHandle (s : Updates) (n : NodeRef) : HandlePhase → Updates
  | .addNodeForSource =>
    (stepServer s (s.server.updateRegistry fun r => r.addNodeForSource s.server.nodeAlive
      (s.server.nodes n).nodeId service.objectId)).setHandling n (some .olinkLinked)
  | .olinkLinked =>
    (stepServer s ((RemoteNode.perform .returning
      (.olinkLinked service.source service.objectId n)).run s.server).2).setHandling n
        (some .olinkCollectProperties)
  | .olinkCollectProperties =>
    let props := collect service s.values
    (stepServer s { s.server with
      effects := s.server.effects ++ [.olinkCollectProperties service.source (.ok props)]
      }).setHandling n (some (.writeInit props))
  | .writeInit props =>
    (stepServer s ((RemoteNode.emitWrite .returning n
      (Protocol.initMessage service.objectId props)).run s.server).2).setHandling n none

/-- The source notifies a node, unless it has expired. -/
def notify (s : Updates) (p : Bytes) (value : Json) (node : WeakPtr NodeRef) : Updates :=
  match node.lock s.server.nodeAlive with
  | some n => stepServer s ((RemoteNode.notifyPropertyChange .returning n
      (Name.createMemberId service.objectId p) value).run s.server).2
  | none => s

/-- A step of the update. -/
def stepUpdate (s : Updates) : UpdatePhase → Updates
  | .getNodes p value =>
    let nodes := s.server.registry.getNodes s.server.nodeAlive service.objectId
    { s with update := some (.notify p value nodes) }
  | .notify p value (node :: nodes) =>
    { notify service s p value node with update := some (.notify p value nodes) }
  | .notify _ _ [] => { s with update := none }

/-- The server and its clients after it. -/
def next (s : Updates) : Action → Updates
  | .link n => s.setHandling n (some .addNodeForSource)
  | .handle n =>
    match s.handling n with
    | some phase => stepHandle service s n phase
    | none => s
  | .set p value =>
    { s with
      values := fun q => if q = p then value else s.values q
      update := some (.getNodes p value) }
  | .update =>
    match s.update with
    | some phase => stepUpdate service s phase
    | none => s
  | .deliver n =>
    match s.toClient n with
    | msg :: msgs =>
      { s with
        toClient := fun m => if m = n then msgs else s.toClient m
        clientValues := fun m => if m = n then receive lib service (s.clientValues n) msg
          else s.clientValues m }
    | [] => s

/-- A live node handles one `Link` at a time, and one update is on its way at a time. -/
def Enabled (s : Updates) : Action → Prop
  | .link n => s.server.nodeAlive n = true ∧ s.handling n = none
  | .handle n => s.handling n ≠ none
  | .set p _ => p ∈ service.properties ∧ s.update = none
  | .update => s.update ≠ none
  | .deliver n => s.toClient n ≠ []

instance decidableEnabled (s : Updates) : (a : Action) → Decidable (Enabled service s a)
  | .link _ => inferInstanceAs (Decidable (_ ∧ _ = none))
  | .handle _ | .update => inferInstanceAs (Decidable (_ ≠ none))
  | .set _ _ => inferInstanceAs (Decidable (_ ∧ _ = none))
  | .deliver _ => inferInstanceAs (Decidable (_ ≠ []))

/-- Nothing is on its way. -/
def Quiet (s : Updates) : Prop :=
  s.update = none ∧ ∀ n, s.server.nodeAlive n = true → s.handling n = none ∧ s.toClient n = []

/-- **The client has the value of each property.** -/
def UpToDate (s : Updates) (n : NodeRef) : Prop :=
  ∀ p ∈ service.properties, s.clientValues n p = some (s.values p)

/-- The start: a registered source and any nodes with write functions, on a server in any state in
which nothing is on its way and the clients of linked nodes are up to date. -/
structure Init (s : Updates) : Prop where
  server : Server.Inv s.server
  source : s.server.source service.objectId = some service.source
  writeFunc : ∀ n, s.server.nodeAlive n = true → (s.server.nodes n).writeFunc = true
  update : s.update = none
  handling : ∀ n, s.handling n = none
  toClient : ∀ n, s.toClient n = []
  upToDate : ∀ n, Server.Serves s.server service.objectId n → UpToDate service s n

/-- Any interleaving from a start on. -/
def machine : Machine Updates Action where
  init := Init service
  enabled := Enabled service
  next := next lib service

instance (s : Updates) (a : Action) : Decidable ((machine lib service).enabled s a) :=
  decidableEnabled service s a

end Steps

variable {lib : JsonLibrary} {service : Service} {s : Updates} {n m : NodeRef} {p q : Bytes}
  {a : Action} {o : ObjectId}

/-! ## A `handleLink` alone -/

/-- The source returns its properties, and no code outside throws. -/
def collecting (service : Service) (values : Bytes → Json) : ServerEnv :=
  { ServerEnv.returning with olinkCollectProperties := fun _ _ => .ok (collect service values) }

theorem setHandling_self (phase : Option HandlePhase) :
    (s.setHandling n phase).handling n = phase :=
  if_pos rfl

theorem next_handle {phase : HandlePhase} (h : s.handling n = some phase) :
    next lib service s (.handle n) = stepHandle service s n phase := by
  unfold next
  dsimp only
  rw [h]

theorem next_update {phase : UpdatePhase} (h : s.update = some phase) :
    next lib service s .update = stepUpdate service s phase := by
  unfold next
  dsimp only
  rw [h]

theorem emitWrite_returning {w : Server} {msg : Json} :
    ((RemoteNode.emitWrite .returning n msg).run w).2 =
      { w with effects :=
          w.effects ++ if (w.nodes n).writeFunc then [.write n msg] else [] } := by
  rw [RemoteNode.emitWrite_state, RemoteNode.written_of_writable ⟨rfl, rfl⟩]

/-- **`handleLink`** is its steps one after the other. -/
theorem handleLink_alone (hs : s.server.source service.objectId = some service.source) :
    ((machine lib service).exec s [.link n, .handle n, .handle n, .handle n, .handle n]).server =
      ((RemoteNode.handleLink (collecting service s.values) n service.objectId).run
        s.server).2 := by
  rw [RemoteNode.handleLink_state]
  unfold RemoteNode.received RemoteNode.callsOf RemoteNode.registryAfter
  dsimp only
  rw [hs, Option.elim_some]
  have hcall : ∀ before e, (collecting service s.values).call before e = .ok () :=
    fun _ _ => rfl
  have hcollect : ∀ before source,
      (collecting service s.values).olinkCollectProperties before source
        = .ok (collect service s.values) := fun _ _ => rfl
  have hwritable : ∀ msg, RemoteNode.Writable (collecting service s.values) msg :=
    fun _ => ⟨rfl, rfl⟩
  simp [machine, Machine.exec, next, setHandling, stepHandle, stepServer, emitWrite_returning,
    RemoteNode.perform_run, Server.updateRegistry, RemoteNode.linkCalls, RemoteNode.answered,
    hcall, hcollect, RemoteNode.written_of_writable (hwritable _)]

/-! ## What the clients will have -/

/-- What the client of the node will have of each property when all that is on its way to it is
delivered. -/
def final (lib : JsonLibrary) (service : Service) (s : Updates) (n : NodeRef) :
    Bytes → Option Json :=
  (s.toClient n).foldl (receive lib service) (s.clientValues n)

theorem propertyOf_collect {values : Bytes → Json} (hp : p ∈ service.properties) :
    propertyOf (collect service values) p = some (values p) := by
  unfold collect propertyOf
  dsimp only
  generalize service.properties = names at hp
  induction names with
  | nil => cases hp
  | cons q qs ih =>
    rw [List.map_cons, List.lookup_cons]
    by_cases hpq : p = q
    · simp [hpq]
    · rw [beq_false_of_ne hpq]
      exact ih ((List.mem_cons.mp hp).resolve_left hpq)

theorem receive_init {values : Bytes → Option Json} {props : Json} :
    receive lib service values (Protocol.initMessage service.objectId props)
      = fun p => (propertyOf props p).or (values p) := by
  have hd : Protocol.decode? lib (Protocol.initMessage service.objectId props)
      = some (.init service.objectId props) := Protocol.decode?_composed lib (.init _ props)
  unfold receive
  rw [hd]
  exact if_pos rfl

theorem receive_propertyChange {values : Bytes → Option Json} {value : Json} :
    receive lib service values
        (Protocol.propertyChangeMessage (Name.createMemberId service.objectId p) value)
      = fun q => if q = p then some value else values q := by
  have hd : Protocol.decode? lib
      (Protocol.propertyChangeMessage (Name.createMemberId service.objectId p) value)
      = some (.propertyChange (Name.createMemberId service.objectId p) value) :=
    Protocol.decode?_composed lib (.propertyChange _ value)
  unfold receive
  rw [hd]
  funext q
  simp [Name.createMemberId, eq_comm]

theorem final_stepServer {server : Server} {calls : List ServerEffect}
    (heffects : server.effects = s.server.effects ++ calls) :
    final lib service (stepServer s server) m =
      (Connections.writtenByServer m calls).foldl (receive lib service)
        (final lib service s m) := by
  unfold final stepServer
  dsimp only
  rw [heffects, List.drop_left, List.foldl_append]

/-- A delivery concerns only the client. -/
theorem next_deliver (lib : JsonLibrary) (service : Service) (s : Updates) (n : NodeRef) :
    (next lib service s (.deliver n)).server = s.server ∧
    (next lib service s (.deliver n)).handling = s.handling ∧
    (next lib service s (.deliver n)).values = s.values ∧
    (next lib service s (.deliver n)).update = s.update := by
  unfold next
  dsimp only
  split <;> exact ⟨rfl, rfl, rfl, rfl⟩

theorem final_deliver : final lib service (next lib service s (.deliver n)) m
    = final lib service s m := by
  unfold next
  dsimp only
  split
  · rename_i msg msgs h
    unfold final
    dsimp only
    by_cases hm : m = n
    · rw [if_pos hm, if_pos hm, hm, h, List.foldl_cons]
    · rw [if_neg hm, if_neg hm]
  · rfl

/-! ## The invariant -/

/-- The update has still to notify the node of the property. -/
def Pending (s : Updates) (n : NodeRef) (p : Bytes) : Prop :=
  match s.update with
  | some (.getNodes q _) => q = p
  | some (.notify q _ nodes) => q = p ∧ some n ∈ nodes
  | none => False

/-- **A linked client will have the value of each property**, or the update on its way has still to
notify its node. -/
def Informed (lib : JsonLibrary) (service : Service) (s : Updates) (n : NodeRef) : Prop :=
  Server.Serves s.server service.objectId n → s.handling n = none → ∀ p ∈ service.properties,
    final lib service s n p = some (s.values p) ∨ Pending s n p

/-- **The condition on a step**: when the `Init` is written, each property in it has the value that
the source has now, or the update on its way has still to notify the node. -/
def Keeps (service : Service) (s : Updates) : Action → Prop
  | .handle n =>
    match s.handling n with
    | some (.writeInit props) => ∀ p ∈ service.properties,
      propertyOf props p = some (s.values p) ∨ Pending s n p
    | _ => True
  | _ => True

/-- What every step keeps. -/
structure Inv (service : Service) (s : Updates) : Prop where
  server : Server.Inv s.server
  source : s.server.source service.objectId = some service.source
  writeFunc : ∀ n, s.server.nodeAlive n = true → (s.server.nodes n).writeFunc = true
  /-- A node that handles a `Link` is entered before the source is told. -/
  handled : ∀ n phase, s.handling n = some phase → s.server.nodeAlive n = true ∧
    (phase ≠ .addNodeForSource → Server.Serves s.server service.objectId n)
  collected : ∀ n props, s.handling n = some (.writeInit props) →
    ∃ values, props = collect service values
  /-- The source has the value that the update is about. -/
  stored : ∀ p value, (s.update = some (.getNodes p value) ∨
    ∃ nodes, s.update = some (.notify p value nodes)) → s.values p = value

/-- The server after a node has been entered. -/
theorem serves_addNodeForSource (hi : Inv service s) (hn : s.server.nodeAlive n = true) :
    Server.Serves (s.server.updateRegistry fun r => r.addNodeForSource s.server.nodeAlive
      (s.server.nodes n).nodeId service.objectId) service.objectId m ↔
      m = n ∨ Server.Serves s.server service.objectId m := by
  have hlink : Server.Serves (RemoteNode.received .returning s.server n (.link service.objectId))
      service.objectId m ↔ (m = n ∧ service.objectId = service.objectId ∧
        (s.server.source service.objectId).isSome ∧ (s.server.nodes n).nodeId ≠ invalidId) ∨
          Server.Serves s.server service.objectId m :=
    Server.serves_link hi.server.toEntered hn
  have hregistry : RemoteNode.registryAfter .returning s.server n (.link service.objectId)
      = s.server.registry.addNodeForSource s.server.nodeAlive (s.server.nodes n).nodeId
        service.objectId := by
    unfold RemoteNode.registryAfter
    dsimp only
    rw [hi.source]
  rw [hi.source] at hlink
  unfold RemoteNode.received at hlink
  rw [hregistry] at hlink
  simp only [Option.isSome_some, hi.server.valid n hn, ne_eq, not_false_eq_true, and_true] at hlink
  exact hlink

/-- A step of a `handleLink` that writes nothing. -/
theorem informed_handle {s' : Updates} (hs : ∀ m, Informed lib service s m)
    (hserves : ∀ m, Server.Serves s'.server service.objectId m →
      m = n ∨ Server.Serves s.server service.objectId m)
    (hhandling : ∀ m, m ≠ n → s'.handling m = s.handling m) (hn : s'.handling n ≠ none)
    (hfinal : ∀ m, final lib service s' m = final lib service s m)
    (hvalues : s'.values = s.values) (hupdate : s'.update = s.update) (m : NodeRef) :
    Informed lib service s' m := by
  intro hm hnone p hp
  by_cases hmn : m = n
  · rw [hmn] at hnone
    exact absurd hnone hn
  · have hpending : Pending s' m p ↔ Pending s m p := by
      unfold Pending
      rw [hupdate]
    rw [hfinal, hvalues, hpending]
    rw [hhandling m hmn] at hnone
    exact hs m ((hserves m hm).resolve_left hmn) hnone p hp

/-- The write of a message on a connection. -/
theorem final_write {msg : Json} (hw : (s.server.nodes n).writeFunc = true) :
    final lib service (stepServer s ((RemoteNode.emitWrite .returning n msg).run s.server).2) m =
      if m = n then receive lib service (final lib service s m) msg else final lib service s m := by
  rw [emitWrite_returning, if_pos hw, final_stepServer rfl]
  by_cases hm : m = n
  · rw [if_pos hm]
    have hwritten : Connections.writtenByServer m [ServerEffect.write n msg] = [msg] := by
      simp [Connections.writtenByServer, hm]
    rw [hwritten]
    rfl
  · rw [if_neg hm]
    have hwritten : Connections.writtenByServer m [ServerEffect.write n msg] = [] := by
      simp [Connections.writtenByServer, Ne.symm hm]
    rw [hwritten]
    rfl

/-- A step that calls something that is no write function. -/
theorem final_call {e : ServerEffect} (he : ∀ m msg, e ≠ .write m msg) :
    final lib service (stepServer s { s.server with effects := s.server.effects ++ [e] }) m
      = final lib service s m := by
  rw [final_stepServer rfl, Connections.writtenByServer_eq_nil]
  · rfl
  · intro msg hmem
    exact he m msg (List.mem_singleton.mp hmem).symm

theorem stepHandle_addNodeForSource : stepHandle service s n .addNodeForSource =
    (stepServer s (s.server.updateRegistry fun r => r.addNodeForSource s.server.nodeAlive
      (s.server.nodes n).nodeId service.objectId)).setHandling n (some .olinkLinked) := rfl

theorem stepHandle_olinkLinked : stepHandle service s n .olinkLinked =
    (stepServer s { s.server with
      effects := s.server.effects ++ [.olinkLinked service.source service.objectId n]
      }).setHandling n (some .olinkCollectProperties) := by
  unfold stepHandle
  dsimp only
  rw [RemoteNode.perform_run]

theorem stepHandle_olinkCollectProperties : stepHandle service s n .olinkCollectProperties =
    (stepServer s { s.server with effects := s.server.effects ++
      [.olinkCollectProperties service.source (.ok (collect service s.values))]
      }).setHandling n (some (.writeInit (collect service s.values))) := rfl

theorem stepHandle_writeInit {props : Json} : stepHandle service s n (.writeInit props) =
    (stepServer s ((RemoteNode.emitWrite .returning n
      (Protocol.initMessage service.objectId props)).run s.server).2).setHandling n none := rfl

theorem final_setHandling {phase : Option HandlePhase} :
    final lib service (s.setHandling n phase) m = final lib service s m := rfl

/-- The step that writes the `Init`. -/
theorem informed_writeInit_iff (hi : Inv service s) {props : Json}
    (hphase : s.handling n = some (.writeInit props)) (hs : ∀ m, Informed lib service s m) :
    (∀ m, Informed lib service (stepHandle service s n (.writeInit props)) m) ↔
      ∀ p ∈ service.properties, propertyOf props p = some (s.values p) ∨ Pending s n p := by
  obtain ⟨halive, hserves⟩ := hi.handled n _ hphase
  obtain ⟨values, rfl⟩ := hi.collected n props hphase
  have hfinal : ∀ m,
      final lib service (stepHandle service s n (.writeInit (collect service values))) m
        = if m = n then receive lib service (final lib service s m)
            (Protocol.initMessage service.objectId (collect service values))
          else final lib service s m := fun m => final_write (hi.writeFunc n halive)
  have hsame : ∀ m, Server.Serves
      (stepHandle service s n (.writeInit (collect service values))).server service.objectId m ↔
      Server.Serves s.server service.objectId m := fun m => by
    rw [stepHandle_writeInit, emitWrite_returning]
    exact Iff.rfl
  constructor
  · intro h p hp
    have hn := h n ((hsame n).mpr (hserves (by simp))) (setHandling_self none) p hp
    rw [hfinal, if_pos rfl, receive_init] at hn
    dsimp only at hn
    rw [propertyOf_collect hp] at hn
    rw [propertyOf_collect hp]
    exact hn
  · intro hkeeps m hm hnone p hp
    by_cases hmn : m = n
    · subst hmn
      rw [hfinal, if_pos rfl, receive_init]
      dsimp only
      have hk := hkeeps p hp
      rw [propertyOf_collect hp] at hk ⊢
      exact hk
    · rw [hfinal, if_neg hmn]
      exact hs m ((hsame m).mp hm) ((if_neg hmn).symm.trans hnone) p hp

/-- **The steps of a `handleLink`** leave the clients informed exactly if the `Init` says what the
source says, or what it is about to say. -/
theorem informed_handle_iff (hi : Inv service s) {phase : HandlePhase}
    (hphase : s.handling n = some phase) (hs : ∀ m, Informed lib service s m) :
    (∀ m, Informed lib service (stepHandle service s n phase) m) ↔ Keeps service s (.handle n) := by
  have halive : s.server.nodeAlive n = true := (hi.handled n phase hphase).1
  unfold Keeps
  dsimp only
  rw [hphase]
  cases phase with
  | addNodeForSource =>
    refine iff_of_true ?_ trivial
    rw [stepHandle_addNodeForSource]
    refine informed_handle (n := n) hs ?_ (fun m hm => if_neg hm) ?_ ?_ rfl rfl
    · intro m hm
      exact (serves_addNodeForSource hi halive).mp hm
    · exact fun h => Option.some_ne_none _ ((setHandling_self _).symm.trans h)
    · intro m
      have heffects : (s.server.updateRegistry fun r => r.addNodeForSource s.server.nodeAlive
        (s.server.nodes n).nodeId service.objectId).effects = s.server.effects ++ [] :=
        (List.append_nil _).symm
      rw [final_setHandling, final_stepServer heffects]
      rfl
  | olinkLinked =>
    refine iff_of_true ?_ trivial
    rw [stepHandle_olinkLinked]
    refine informed_handle (n := n) hs (fun m hm => Or.inr hm) (fun m hm => if_neg hm) ?_ ?_ rfl rfl
    · exact fun h => Option.some_ne_none _ ((setHandling_self _).symm.trans h)
    · intro m
      rw [final_setHandling]
      exact final_call (by simp)
  | olinkCollectProperties =>
    refine iff_of_true ?_ trivial
    rw [stepHandle_olinkCollectProperties]
    refine informed_handle (n := n) hs (fun m hm => Or.inr hm) (fun m hm => if_neg hm) ?_ ?_ rfl rfl
    · exact fun h => Option.some_ne_none _ ((setHandling_self _).symm.trans h)
    · intro m
      rw [final_setHandling]
      exact final_call (by simp)
  | writeInit props => exact informed_writeInit_iff hi hphase hs

/-- Notifying a node calls code outside at most. -/
theorem notify_eq (service : Service) (s : Updates) (p : Bytes) (value : Json)
    (node : WeakPtr NodeRef) : ∃ effects,
    (notify service s p value node).server = { s.server with effects := effects } ∧
    (notify service s p value node).handling = s.handling ∧
    (notify service s p value node).values = s.values := by
  unfold notify
  split
  · exact ⟨_, emitWrite_returning, rfl, rfl⟩
  · exact ⟨_, rfl, rfl, rfl⟩

/-- And so does a step of the update. -/
theorem stepUpdate_eq (service : Service) (s : Updates) (phase : UpdatePhase) : ∃ effects,
    (stepUpdate service s phase).server = { s.server with effects := effects } ∧
    (stepUpdate service s phase).handling = s.handling ∧
    (stepUpdate service s phase).values = s.values := by
  cases phase with
  | getNodes p value => exact ⟨_, rfl, rfl, rfl⟩
  | notify p value nodes =>
    cases nodes with
    | nil => exact ⟨_, rfl, rfl, rfl⟩
    | cons node nodes => exact notify_eq service s p value node

theorem pending_notify {value : Json} {nodes : List (WeakPtr NodeRef)}
    (h : s.update = some (.notify q value nodes)) : Pending s n p ↔ q = p ∧ some n ∈ nodes := by
  unfold Pending
  rw [h]

/-- A notification reaches the client of its node, if the node is alive. -/
theorem final_notify (hi : Inv service s) (value : Json) (node : WeakPtr NodeRef) :
    final lib service (notify service s q value node) m p =
      if node.lock s.server.nodeAlive = some m ∧ p = q then some value
      else final lib service s m p := by
  cases hlock : node.lock s.server.nodeAlive with
  | none =>
    have heq : notify service s q value node = s := by
      unfold notify
      rw [hlock]
    rw [heq, if_neg fun h => Option.some_ne_none _ h.1.symm]
  | some n =>
    have heq : notify service s q value node = stepServer s ((RemoteNode.emitWrite .returning n
        (Protocol.propertyChangeMessage (Name.createMemberId service.objectId q) value)).run
          s.server).2 := by
      unfold notify
      rw [hlock]
      rfl
    obtain ⟨-, halive⟩ := WeakPtr.lock_eq_some.mp hlock
    rw [heq, final_write (hi.writeFunc n halive)]
    by_cases hmn : m = n
    · simp [hmn, receive_propertyChange]
    · rw [if_neg hmn, if_neg fun h => hmn (Option.some.inj h.1).symm]

/-- **The steps of an update** leave the clients informed. -/
theorem informed_update (hi : Inv service s) {phase : UpdatePhase} (hphase : s.update = some phase)
    (hs : ∀ m, Informed lib service s m) (m : NodeRef) :
    Informed lib service (stepUpdate service s phase) m := by
  intro hm hnone p hp
  obtain ⟨effects, hserver, hhandling, hvalues⟩ := stepUpdate_eq service s phase
  rw [hserver] at hm
  rw [hhandling] at hnone
  have hold : final lib service s m p = some (s.values p) ∨ Pending s m p := hs m hm hnone p hp
  rw [hvalues]
  cases phase with
  | getNodes q value =>
    refine hold.imp_right fun h => ?_
    -- the nodes that are asked for include every linked one
    unfold Pending at h
    rw [hphase] at h
    exact ⟨h, (Server.getNodes_iff hi.server.toEntered).mpr hm⟩
  | notify q value nodes =>
    rw [pending_notify hphase] at hold
    cases nodes with
    | nil => exact Or.inl (hold.resolve_right fun h => List.not_mem_nil h.2)
    | cons node nodes =>
      have hfinal : final lib service (stepUpdate service s (.notify q value (node :: nodes))) m p
          = if node.lock s.server.nodeAlive = some m ∧ p = q then some value
            else final lib service s m p := final_notify hi value node
      rw [hfinal]
      by_cases hhere : node.lock s.server.nodeAlive = some m ∧ p = q
      · left
        rw [if_pos hhere, hhere.2, hi.stored q value (Or.inr ⟨_, hphase⟩)]
      · rw [if_neg hhere]
        refine hold.imp_right fun h => ⟨h.1, (List.mem_cons.mp h.2).resolve_left ?_⟩
        -- the node is alive, so it would have been notified
        rintro rfl
        rw [WeakPtr.lock_some, if_pos hm.1] at hhere
        exact hhere ⟨rfl, h.1.symm⟩

/-- **One step** leaves the clients informed exactly if it meets the condition. -/
theorem informed_next_iff (hi : Inv service s) (hen : Enabled service s a)
    (hs : ∀ m, Informed lib service s m) :
    (∀ m, Informed lib service (next lib service s a) m) ↔ Keeps service s a := by
  cases a with
  | link n =>
    refine iff_of_true ?_ trivial
    refine informed_handle (n := n) hs (fun m hm => Or.inr hm) (fun m hm => if_neg hm) ?_
      (fun _ => rfl) rfl rfl
    exact fun h => Option.some_ne_none _ ((setHandling_self _).symm.trans h)
  | handle n =>
    obtain ⟨phase, hphase⟩ := Option.ne_none_iff_exists'.mp hen
    rw [next_handle hphase]
    exact informed_handle_iff hi hphase hs
  | set q value =>
    refine iff_of_true ?_ trivial
    intro m hm hnone p hp
    by_cases hpq : p = q
    · exact Or.inr hpq.symm
    · have hold := hs m hm hnone p hp
      unfold Pending at hold
      rw [hen.2] at hold
      left
      show final lib service s m p = some (if p = q then value else s.values p)
      rw [if_neg hpq]
      exact hold.resolve_right id
  | update =>
    refine iff_of_true ?_ trivial
    obtain ⟨phase, hphase⟩ := Option.ne_none_iff_exists'.mp hen
    rw [next_update hphase]
    exact informed_update hi hphase hs
  | deliver n =>
    refine iff_of_true ?_ trivial
    obtain ⟨hserver, hhandling, hvalues, hupdate⟩ := next_deliver lib service s n
    intro m hm hnone p hp
    unfold Pending
    rw [final_deliver, hvalues, hupdate]
    rw [hserver] at hm
    rw [hhandling] at hnone
    exact hs m hm hnone p hp

/-! ## Runs -/

theorem inv_init (hs : Init service s) : Inv service s := by
  refine ⟨hs.server, hs.source, hs.writeFunc, ?_, ?_, ?_⟩
  · intro n phase h
    rw [hs.handling n] at h
    cases h
  · intro n props h
    rw [hs.handling n] at h
    cases h
  · intro p value h
    rw [hs.update] at h
    rcases h with h | ⟨_, h⟩ <;> cases h

/-- A step that changes at most the registry, by entering a node, and what the threads do. -/
theorem Inv.of_server {s' : Updates} (hi : Inv service s) (hserver : Server.Inv s'.server)
    (hsource : s'.server.source service.objectId = s.server.source service.objectId)
    (halive : s'.server.nodeAlive = s.server.nodeAlive) (hnodes : s'.server.nodes = s.server.nodes)
    (hhandled : ∀ n phase, s'.handling n = some phase → s.server.nodeAlive n = true ∧
      (phase ≠ .addNodeForSource → Server.Serves s'.server service.objectId n))
    (hcollected : ∀ n props, s'.handling n = some (.writeInit props) →
      ∃ values, props = collect service values)
    (hstored : ∀ p value, (s'.update = some (.getNodes p value) ∨
      ∃ nodes, s'.update = some (.notify p value nodes)) → s'.values p = value) :
    Inv service s' := by
  refine ⟨hserver, hsource.trans hi.source, ?_, ?_, hcollected, hstored⟩
  · rw [halive, hnodes]
    exact hi.writeFunc
  · rw [halive]
    exact hhandled

/-- A step that leaves the server's registry and nodes alone. -/
theorem Inv.of_effects {s' : Updates} {effects : List ServerEffect} (hi : Inv service s)
    (hserver : s'.server = { s.server with effects := effects })
    (hhandling : ∀ n phase, s'.handling n = some phase → s.server.nodeAlive n = true ∧
      (phase ≠ .addNodeForSource → Server.Serves s.server service.objectId n))
    (hcollected : ∀ n props, s'.handling n = some (.writeInit props) →
      ∃ values, props = collect service values)
    (hstored : ∀ p value, (s'.update = some (.getNodes p value) ∨
      ∃ nodes, s'.update = some (.notify p value nodes)) → s'.values p = value) :
    Inv service s' := by
  refine hi.of_server ?_ ?_ ?_ ?_ ?_ hcollected hstored
  · rw [hserver]
    exact hi.server.of_links hi.server.links rfl rfl rfl fun _ => rfl
  · rw [hserver]
    rfl
  · rw [hserver]
  · rw [hserver]
  · intro n phase h
    refine ⟨(hhandling n phase h).1, fun hne => ?_⟩
    rw [hserver]
    exact (hhandling n phase h).2 hne

theorem inv_stepHandle (hi : Inv service s) {phase : HandlePhase}
    (hphase : s.handling n = some phase) : Inv service (stepHandle service s n phase) := by
  obtain ⟨halive, hserves⟩ := hi.handled n phase hphase
  -- the node goes on to the next phase, and the other nodes stay where they are
  have hset : ∀ next : Option HandlePhase,
      (∀ phase', next = some phase' → Server.Serves s.server service.objectId n) →
      ∀ m phase', (if m = n then next else s.handling m) = some phase' →
        s.server.nodeAlive m = true ∧
        (phase' ≠ .addNodeForSource → Server.Serves s.server service.objectId m) := by
    intro next hnext m phase' h
    split at h
    · rename_i hm
      rw [hm]
      exact ⟨halive, fun _ => hnext phase' h⟩
    · exact hi.handled m phase' h
  have hcollected : ∀ next : Option HandlePhase,
      (∀ props, next = some (.writeInit props) → ∃ values, props = collect service values) →
      ∀ m props, (if m = n then next else s.handling m) = some (.writeInit props) →
        ∃ values, props = collect service values := by
    intro next hnext m props h
    split at h
    · exact hnext props h
    · exact hi.collected m props h
  cases phase with
  | addNodeForSource =>
    rw [stepHandle_addNodeForSource]
    refine hi.of_server ?_ ?_ rfl rfl ?_ (hcollected _ (by simp)) hi.stored
    · exact hi.server.of_links (RemoteRegistry.inv_next hi.server.links
        (.addNodeForSource (s.server.nodes n).nodeId service.objectId) trivial)
        RemoteRegistry.remoteNodesById_addNodeForSource rfl rfl fun _ => rfl
    · exact congrArg (WeakPtr.lock s.server.sourceAlive) RemoteRegistry.getSource_addNodeForSource
    · intro m phase' h
      have hserved := fun {k} => (serves_addNodeForSource (m := k) hi halive).mpr
      have h : (if m = n then some .olinkLinked else s.handling m) = some phase' := h
      split at h
      · rename_i hm
        rw [hm]
        exact ⟨halive, fun _ => hserved (Or.inl rfl)⟩
      · exact ⟨(hi.handled m phase' h).1,
          fun hne => hserved (Or.inr ((hi.handled m phase' h).2 hne))⟩
  | olinkLinked =>
    rw [stepHandle_olinkLinked]
    exact hi.of_effects rfl (hset _ fun _ _ => hserves (by simp)) (hcollected _ (by simp)) hi.stored
  | olinkCollectProperties =>
    rw [stepHandle_olinkCollectProperties]
    refine hi.of_effects rfl (hset _ fun _ _ => hserves (by simp)) (hcollected _ ?_) hi.stored
    intro props h
    cases h
    exact ⟨s.values, rfl⟩
  | writeInit props =>
    rw [stepHandle_writeInit]
    exact hi.of_effects emitWrite_returning (hset none (by simp)) (hcollected none (by simp))
      hi.stored

theorem inv_next (hi : Inv service s) (a : Action) (hen : Enabled service s a) :
    Inv service (next lib service s a) := by
  cases a with
  | link n =>
    refine hi.of_effects rfl ?_ ?_ hi.stored
    · intro m phase h
      have h : (if m = n then some .addNodeForSource else s.handling m) = some phase := h
      split at h
      · rename_i hm
        cases h
        rw [hm]
        exact ⟨hen.1, fun hne => absurd rfl hne⟩
      · exact hi.handled m phase h
    · intro m props h
      have h : (if m = n then some .addNodeForSource else s.handling m)
        = some (.writeInit props) := h
      split at h
      · cases h
      · exact hi.collected m props h
  | handle n =>
    obtain ⟨phase, hphase⟩ := Option.ne_none_iff_exists'.mp hen
    rw [next_handle hphase]
    exact inv_stepHandle hi hphase
  | set q value =>
    refine hi.of_effects rfl hi.handled hi.collected ?_
    intro p v h
    rcases h with h | ⟨_, h⟩
    · cases h
      exact if_pos rfl
    · cases h
  | update =>
    obtain ⟨phase, hphase⟩ := Option.ne_none_iff_exists'.mp hen
    obtain ⟨effects, hserver, hhandling, hvalues⟩ := stepUpdate_eq service s phase
    rw [next_update hphase]
    refine hi.of_effects hserver ?_ ?_ ?_
    · rw [hhandling]
      exact hi.handled
    · rw [hhandling]
      exact hi.collected
    · -- the update goes on with the same value
      rw [hvalues]
      intro p v h
      cases phase with
      | getNodes q value =>
        rcases h with h | ⟨_, h⟩
        · cases h
        · cases h
          exact hi.stored _ _ (Or.inl hphase)
      | notify q value nodes =>
        cases nodes with
        | nil => rcases h with h | ⟨_, h⟩ <;> cases h
        | cons node nodes =>
          rcases h with h | ⟨_, h⟩
          · cases h
          · cases h
            exact hi.stored _ _ (Or.inr ⟨_, hphase⟩)
  | deliver n =>
    obtain ⟨hserver, hhandling, hvalues, hupdate⟩ := next_deliver lib service s n
    refine hi.of_effects hserver ?_ ?_ ?_
    · rw [hhandling]
      exact hi.handled
    · rw [hhandling]
      exact hi.collected
    · rw [hupdate, hvalues]
      exact hi.stored

theorem inv_run (h : List (Updates × Action)) (s : Updates)
    (hr : Run (machine lib service) h s) : Inv service s :=
  hr.invariant (fun _ hs => inv_init hs) fun _ a hi hen => inv_next hi a hen

/-- No step takes a node out. -/
theorem serves_next (hi : Inv service s) (hen : Enabled service s a)
    (hn : Server.Serves s.server service.objectId n) :
    Server.Serves (next lib service s a).server service.objectId n := by
  cases a with
  | link m | set p value => exact hn
  | handle m =>
    obtain ⟨phase, hphase⟩ := Option.ne_none_iff_exists'.mp hen
    rw [next_handle hphase]
    cases phase with
    | addNodeForSource =>
      rw [stepHandle_addNodeForSource]
      exact (serves_addNodeForSource hi (hi.handled m _ hphase).1).mpr (Or.inr hn)
    | olinkLinked =>
      rw [stepHandle_olinkLinked]
      exact hn
    | olinkCollectProperties => exact hn
    | writeInit props =>
      rw [stepHandle_writeInit, emitWrite_returning]
      exact hn
  | update =>
    obtain ⟨phase, hphase⟩ := Option.ne_none_iff_exists'.mp hen
    obtain ⟨effects, hserver, -, -⟩ := stepUpdate_eq service s phase
    rw [next_update hphase, hserver]
    exact hn
  | deliver m =>
    rw [(next_deliver lib service s m).1]
    exact hn

/-- Only its own steps end a `handleLink`, and the last one leaves the node entered. -/
theorem handling_next (hi : Inv service s) (hen : Enabled service s a) (ha : a ≠ .link n)
    (hn : s.handling n ≠ none) : (next lib service s a).handling n ≠ none ∨
      Server.Serves (next lib service s a).server service.objectId n := by
  cases a with
  | handle m =>
    obtain ⟨phase, hphase⟩ := Option.ne_none_iff_exists'.mp hen
    rw [next_handle hphase]
    by_cases hmn : m = n
    · subst hmn
      cases phase with
      | writeInit props =>
        refine Or.inr ?_
        rw [stepHandle_writeInit, emitWrite_returning]
        exact (hi.handled m _ hphase).2 (by simp)
      | addNodeForSource | olinkLinked | olinkCollectProperties =>
        exact Or.inl fun h => Option.some_ne_none _ ((setHandling_self _).symm.trans h)
    · have hsame : (stepHandle service s m phase).handling n = s.handling n := by
        cases phase <;> exact if_neg (Ne.symm hmn)
      rw [hsame]
      exact Or.inl hn
  | link m =>
    have hsame : (next lib service s (.link m)).handling n = s.handling n :=
      if_neg fun h => ha (by rw [h])
    rw [hsame]
    exact Or.inl hn
  | set p value => exact Or.inl hn
  | update =>
    obtain ⟨phase, hphase⟩ := Option.ne_none_iff_exists'.mp hen
    obtain ⟨effects, -, hhandling, -⟩ := stepUpdate_eq service s phase
    rw [next_update hphase, hhandling]
    exact Or.inl hn
  | deliver m =>
    rw [(next_deliver lib service s m).2.1]
    exact Or.inl hn

/-- A node whose `Link` has arrived is entered, or is handling a `Link`. -/
theorem linked_run {h : List (Updates × Action)} (hr : Run (machine lib service) h s)
    (hn : ∃ x ∈ h, x.2 = .link n) :
    s.handling n ≠ none ∨ Server.Serves s.server service.objectId n := by
  induction hr with
  | init _ => simp at hn
  | @snoc h s a hr hen ih =>
    have hi := inv_run h s hr
    have hen : Enabled service s a := hen
    show (next lib service s a).handling n ≠ none ∨
      Server.Serves (next lib service s a).server service.objectId n
    by_cases ha : a = .link n
    · rw [ha]
      exact Or.inl fun h => Option.some_ne_none _ ((setHandling_self _).symm.trans h)
    · obtain ⟨x, hx, hlink⟩ := hn
      rcases List.mem_append.mp hx with hx | hx
      · rcases ih ⟨x, hx, hlink⟩ with hhandling | hserves
        · exact handling_next hi hen ha hhandling
        · exact Or.inr (serves_next hi hen hserves)
      · rw [List.mem_singleton.mp hx] at hlink
        exact absurd hlink ha

/-- **Runs.** All steps of a run meet the condition exactly if the clients are informed in every
state; then the client of every node that was linked is up to date whenever nothing is on its
way. -/
theorem updates_arrive {h : List (Updates × Action)} (hr : Run (machine lib service) h s) :
    ((∀ x ∈ h, Keeps service x.1 x.2) ↔
      (∀ x ∈ h, ∀ n, Informed lib service x.1 n) ∧ ∀ n, Informed lib service s n) ∧
    ((∀ x ∈ h, Keeps service x.1 x.2) → Quiet s → ∀ n,
      (∃ x ∈ h, x.2 = .link n) ∨
        some n ∈ s.server.registry.getNodes s.server.nodeAlive service.objectId →
      UpToDate service s n) := by
  have hinit : ∀ s, (machine lib service).init s → Inv service s ∧
      ∀ n, Informed lib service s n := by
    intro s hs
    refine ⟨inv_init hs, ?_⟩
    intro n hn _ p hp
    left
    unfold final
    rw [hs.toClient n]
    exact hs.upToDate n hn p hp
  have hiff := hr.guard_iff (A := fun _ _ => True) hinit (fun _ a hi hen _ => inv_next hi a hen)
    (fun _ _ hi hen _ hn => informed_next_iff hi hen hn) (fun _ _ => trivial)
  refine ⟨hiff, ?_⟩
  intro hg hq n hn p hp
  have hi := inv_run h s hr
  have hserves : Server.Serves s.server service.objectId n := by
    rcases hn with hlink | hmem
    · rcases linked_run hr hlink with hhandling | hserves
      · obtain ⟨phase, hphase⟩ := Option.ne_none_iff_exists'.mp hhandling
        exact absurd (hq.2 n (hi.handled n phase hphase).1).1 hhandling
      · exact hserves
    · exact (Server.getNodes_iff hi.server.toEntered).mp hmem
  obtain ⟨hhandling, hclient⟩ := hq.2 n hserves.1
  have hinformed := (hiff.mp hg).2 n hserves hhandling p hp
  unfold final Pending at hinformed
  rw [hq.1, hclient] at hinformed
  exact hinformed.resolve_right id

/-! ## An update that is lost -/

/-- The object `"o"` with one property. -/
def someService : Service where
  objectId := lit "o"
  source := Server.someSource
  properties := [lit "p"]

/-- The source is registered, and there is a node with a write function. -/
def start : Updates where
  server := (Server.machine .truncating).exec Server.empty
    [.addSource (some Server.someSource), .create, .onWrite 0]
  values _ := .null
  update := none
  handling _ := none
  toClient _ := []
  clientValues _ _ := none

theorem eq_zero_of_alive (hn : start.server.nodeAlive n = true) : n = 0 := by
  have hzero : (if n = 0 then true else false) = true := hn
  split at hzero
  · assumption
  · cases hzero

theorem init_start : Init someService start := by
  have hr : Run (Server.machine .truncating) _ start.server :=
    run_play [Server.Action.addSource (some Server.someSource), .create, .onWrite 0]
      Server.init_empty (by decide)
  have hi := Server.inv_run _ _ hr
  refine ⟨hi, by decide +kernel, ?_, rfl, fun _ => rfl, fun _ => rfl, ?_⟩
  · intro n hn
    rw [eq_zero_of_alive hn]
    rfl
  · intro n hn
    have hempty : (start.server.nodes n).nodeId ∈ ([] : List Nat) := hn.2
    cases hempty

/-- A link, and an update after it. -/
def inTurn : List Action :=
  [.link 0, .handle 0, .handle 0, .handle 0, .handle 0, .set (lit "p") (.boolean true), .update,
    .update, .update, .deliver 0, .deliver 0]

theorem updates_arrive_inTurn :
    ((machine .truncating someService).exec start inTurn).clientValues 0 (lit "p")
      = some (.boolean true) := by
  have hr : Run (machine .truncating someService) _ _ :=
    run_play inTurn init_start (by decide +kernel)
  refine (updates_arrive hr).2 ?_ ⟨rfl, ?_⟩ 0 (Or.inl ⟨_, List.mem_cons_self, rfl⟩) (lit "p")
    List.mem_cons_self
  · intro x hx
    simp only [inTurn, Machine.history, List.mem_cons, List.not_mem_nil, or_false] at hx
    rcases hx with rfl | rfl | rfl | rfl | rfl | rfl | rfl | rfl | rfl | rfl | rfl
    all_goals try trivial
    -- the `Init` has the value that the source has
    intro p hp
    left
    obtain rfl := List.mem_singleton.mp hp
    rfl
  · intro n hn
    rw [eq_zero_of_alive hn]
    exact ⟨rfl, rfl⟩

/-- The source is updated after it has been asked for its properties, and before the `Init` is
written. -/
def overlap : List Action :=
  [.link 0, .handle 0, .handle 0, .handle 0, .set (lit "p") (.boolean true), .update, .update,
    .update, .handle 0, .deliver 0, .deliver 0]

theorem update_lost : ¬ ∀ (h : List (Updates × Action)) (s : Updates),
    Run (machine .truncating someService) h s → Quiet s → ∀ n, (∃ x ∈ h, x.2 = .link n) →
      UpToDate someService s n := by
  intro hall
  have hr : Run (machine .truncating someService) _ _ :=
    run_play overlap init_start (by decide +kernel)
  have hq : Quiet ((machine .truncating someService).exec start overlap) := by
    refine ⟨rfl, ?_⟩
    intro n hn
    rw [eq_zero_of_alive hn]
    exact ⟨rfl, rfl⟩
  have hup := hall _ _ hr hq 0 ⟨_, List.mem_cons_self, rfl⟩ (lit "p") List.mem_cons_self
  have hup : some Json.null = some (.boolean true) := hup
  cases hup

end Updates

end ObjectLink
