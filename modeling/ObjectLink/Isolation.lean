import ObjectLink.Connections

/-!
# What connections do to each other

The nodes of the server side share the registry and the sources. What a node is sent
(`remotenode.cpp:33-86`) may leave another one with nothing new: the handlers add or remove the node
that received the message, and write to it (`remoteregistry.cpp:97-140`). Sources may notify any
node, which is up to them.

* `Undisturbed`: two servers that are the same but for the nodes that some connections have linked,
  and for what was written to them; `undisturbed_received`, `undisturbed_next`.
* `isolation`: leaving out what some connections send, in any run, changes nothing for the others:
  no call that they or the application make, nothing that is written to them, and no link of them.
-/

namespace ObjectLink

open Foundation (Machine Run Since run_play since_congr since_filter since_map)

namespace RemoteRegistry

variable {r r' : RemoteRegistry} {o k : ObjectId} {id : Nat} {nodeAlive : NodeRef → Bool}
  {sourceAlive : Source → Bool}

/-- The source in the entry of an object. -/
def registered (r : RemoteRegistry) (o : ObjectId) : Option (WeakPtr Source) :=
  r.entries[o]?.map fun entry => entry.source

theorem registered_insert (e : SourceToNodesEntry) :
    ({ r with entries := r.entries.insert k e } : RemoteRegistry).registered o
      = if o = k then some e.source else r.registered o := by
  unfold registered
  rw [Foundation.find_insert]
  split <;> rfl

/-- Entering an object again with its source changes no source. -/
theorem registered_insert_of_find {e e' : SourceToNodesEntry} (he : r.entries[k]? = some e)
    (hsource : e'.source = e.source) :
    ({ r with entries := r.entries.insert k e' } : RemoteRegistry).registered o
      = r.registered o := by
  rw [registered_insert]
  split
  · rename_i ho
    unfold registered
    rw [ho, he, hsource]
    rfl
  · rfl

theorem registered_addNodeForSource :
    (r.addNodeForSource nodeAlive id k).registered o = r.registered o := by
  rcases addNodeForSource_cases nodeAlive r id k with ⟨-, e, he, heq⟩ | ⟨-, heq⟩
  · rw [heq]
    exact registered_insert_of_find he rfl
  · rw [heq]

theorem registered_removeNodeFromSource :
    (r.removeNodeFromSource id k).registered o = r.registered o := by
  unfold removeNodeFromSource
  split
  · rename_i e he
    exact registered_insert_of_find he rfl
  · rfl

theorem registered_unregisterNode : (r.unregisterNode id).registered o = r.registered o := by
  unfold unregisterNode
  split
  · rfl
  · unfold registered
    rw [Std.ExtTreeMap.getElem?_map, Option.map_map]
    rfl

theorem getSource_eq_registered : r.getSource o = (r.registered o).getD none := by
  unfold getSource registered
  cases r.entries[o]? <;> rfl

/-- Adding a source looks at no node. -/
theorem registered_addSource (h : ∀ o, r'.registered o = r.registered o)
    (source : WeakPtr Source) (o : ObjectId) :
    (r'.addSource sourceAlive source).registered o
      = (r.addSource sourceAlive source).registered o := by
  unfold addSource
  cases source.lock sourceAlive with
  | none => exact h o
  | some s =>
    have hs := h s.olinkObjectName
    unfold registered at hs
    cases he : r.entries[s.olinkObjectName]? with
    | none =>
      rw [he] at hs
      dsimp only
      rw [Option.map_eq_none_iff.mp hs, he]
      dsimp only
      rw [registered_insert, registered_insert, h]
    | some e =>
      rw [he] at hs
      obtain ⟨e', he', -⟩ := Option.map_eq_some_iff.mp hs
      dsimp only
      rw [he', he]
      exact h o

theorem registered_removeSource (h : ∀ o, r'.registered o = r.registered o) (o : ObjectId) :
    (r'.removeSource k).registered o = (r.removeSource k).registered o := by
  have ho := h o
  unfold registered removeSource at *
  dsimp only
  rw [Foundation.find_erase, Foundation.find_erase]
  split
  · rfl
  · exact ho

end RemoteRegistry

namespace ServerEnv

variable {env : ServerEnv} {before before' : List ServerEffect}

/-- The environment that ends the calls made after `before'` as `env` does after `before`. -/
def resumed (env : ServerEnv) (before before' : List ServerEffect) : ServerEnv where
  toLogging := env.toLogging
  toString := env.toString
  call l e := env.call (before ++ l.drop before'.length) e
  olinkCollectProperties l source :=
    env.olinkCollectProperties (before ++ l.drop before'.length) source
  olinkInvoke l source methodId args :=
    env.olinkInvoke (before ++ l.drop before'.length) source methodId args

theorem call_resumed (e : ServerEffect) :
    (env.resumed before before').call before' e = env.call before e := by
  unfold resumed
  dsimp only
  rw [List.drop_length, List.append_nil]

theorem olinkCollectProperties_resumed (l : List ServerEffect) (source : Source) :
    (env.resumed before before').olinkCollectProperties (before' ++ l) source
      = env.olinkCollectProperties (before ++ l) source := by
  unfold resumed
  dsimp only
  rw [List.drop_left]

theorem olinkInvoke_resumed (source : Source) (methodId : Bytes) (args : Json) :
    (env.resumed before before').olinkInvoke before' source methodId args
      = env.olinkInvoke before source methodId args := by
  unfold resumed
  dsimp only
  rw [List.drop_length, List.append_nil]

end ServerEnv

namespace Server

/-- The action in another server, where the code outside does what it does in `w`. -/
def Action.resumed (w w' : Server) : Action → Action
  | .receive n msg env => .receive n msg (env.resumed w.effects w'.effects)
  | .notifyPropertyChange n propertyId value env =>
    .notifyPropertyChange n propertyId value (env.resumed w.effects w'.effects)
  | .notifySignal n signalId args env =>
    .notifySignal n signalId args (env.resumed w.effects w'.effects)
  | a => a

/-- The action is a message from one of the connections. -/
def Action.from (others : NodeRef → Bool) : Action → Bool
  | .receive n _ _ => others n
  | _ => false

theorem from_resumed {others : NodeRef → Bool} (w w' : Server) (a : Action) :
    (a.resumed w w').from others = a.from others := by
  cases a <;> rfl

/-- The servers are the same but for what messages from these connections can change. -/
structure Undisturbed (others : NodeRef → Bool) (w w' : Server) : Prop where
  nodes : w'.nodes = w.nodes
  nodeAlive : w'.nodeAlive = w.nodeAlive
  nextNode : w'.nextNode = w.nextNode
  sourceAlive : w'.sourceAlive = w.sourceAlive
  storage : w'.registry.remoteNodesById = w.registry.remoteNodesById
  registered : ∀ o, w'.registry.registered o = w.registry.registered o
  written : ∀ m, others m = false → Connections.writtenByServer m w'.effects
    = Connections.writtenByServer m w.effects

variable {others : NodeRef → Bool} {lib : JsonLibrary} {w w' : Server} {env : ServerEnv}
  {n m : NodeRef} {o : ObjectId}

theorem undisturbed_refl (w : Server) : Undisturbed others w w :=
  ⟨rfl, rfl, rfl, rfl, rfl, fun _ => rfl, fun _ _ => rfl⟩

theorem Undisturbed.source (h : Undisturbed others w w') (o : ObjectId) :
    w'.source o = w.source o := by
  unfold Server.source
  rw [RemoteRegistry.getSource_eq_registered, RemoteRegistry.getSource_eq_registered,
    h.registered, h.sourceAlive]

/-! ## What a node calls -/

theorem written_resumed (h : Undisturbed others w w') (msg : Json) :
    RemoteNode.written (env.resumed w.effects w'.effects) w' n msg
      = RemoteNode.written env w n msg := by
  unfold RemoteNode.written
  rw [h.nodes]
  rfl

theorem answered_resumed (h : Undisturbed others w w') (message : Json → Json)
    (result : Except Thrown Json) :
    RemoteNode.answered (env.resumed w.effects w'.effects) w' n message result
      = RemoteNode.answered env w n message result := by
  cases result with
  | ok value => exact written_resumed h _
  | error t => rfl

/-- A message leads to the same calls. -/
theorem callsOf_resumed (h : Undisturbed others w w') (c : Call) :
    RemoteNode.callsOf (env.resumed w.effects w'.effects) w' n c
      = RemoteNode.callsOf env w n c := by
  cases c with
  | link o =>
    unfold RemoteNode.callsOf
    dsimp only
    rw [h.source]
    cases w.source o with
    | none => rfl
    | some source =>
      unfold RemoteNode.linkCalls
      dsimp only [Option.elim_some]
      rw [ServerEnv.call_resumed, ServerEnv.olinkCollectProperties_resumed]
      cases env.call w.effects (.olinkLinked source o n) with
      | error t => rfl
      | ok u =>
        dsimp only
        rw [answered_resumed h]
  | unlink o =>
    unfold RemoteNode.callsOf
    dsimp only
    rw [h.source]
  | setProperty p v =>
    unfold RemoteNode.callsOf
    dsimp only
    rw [h.source]
  | invoke id m args =>
    unfold RemoteNode.callsOf
    dsimp only
    rw [h.source]
    cases w.source (Name.getObjectId m) with
    | none => rfl
    | some source =>
      unfold RemoteNode.invokeCalls
      dsimp only [Option.elim_some]
      rw [ServerEnv.olinkInvoke_resumed, answered_resumed h]
  | _ => rfl

/-- An action leads to the same calls. -/
theorem callsOfAction_resumed (h : Undisturbed others w w') (a : Action) :
    callsOfAction lib w' (a.resumed w w') = callsOfAction lib w a := by
  cases a with
  | receive n msg env =>
    unfold Action.resumed callsOfAction
    dsimp only
    cases Protocol.decode? lib msg with
    | none => rfl
    | some c => exact callsOf_resumed h c
  | notifyPropertyChange n p v env => exact written_resumed h _
  | notifySignal n s args env => exact written_resumed h _
  | _ => rfl

/-! ## One step -/

theorem registered_registryAfter (env : ServerEnv) (w : Server) (n : NodeRef) (c : Call) :
    (RemoteNode.registryAfter env w n c).registered o = w.registry.registered o := by
  rcases registryAfter_cases env w n c with h | ⟨k, h⟩ | ⟨k, h⟩
  · rw [h]
  · rw [h]
    exact RemoteRegistry.registered_addNodeForSource
  · rw [h]
    exact RemoteRegistry.registered_removeNodeFromSource

theorem storage_registryAfter (env : ServerEnv) (w : Server) (n : NodeRef) (c : Call) :
    (RemoteNode.registryAfter env w n c).remoteNodesById = w.registry.remoteNodesById := by
  rcases registryAfter_cases env w n c with h | ⟨k, h⟩ | ⟨k, h⟩
  · rw [h]
  · rw [h]
    exact RemoteRegistry.remoteNodesById_addNodeForSource
  · rw [h]
    exact RemoteRegistry.remoteNodesById_removeNodeFromSource

/-- A message is answered on its own connection only. -/
theorem writtenByServer_callsOf {c : Call} (hm : m ≠ n) :
    Connections.writtenByServer m (RemoteNode.callsOf env w n c) = [] := by
  refine Connections.writtenByServer_eq_nil ?_
  intro msg he
  have hdue : RemoteNode.Due env w n c (.write m msg) := RemoteNode.due_of_mem_callsOf he
  exact hm hdue.1

/-- **What is left out**: a message from one of the connections changes nothing but the links of
its node, and what is written to it. -/
theorem undisturbed_received {c : Call} (h : Undisturbed others w w') (hn : others n = true) :
    Undisturbed others (RemoteNode.received env w n c) w' := by
  have hregistered : ∀ o, w'.registry.registered o
      = (RemoteNode.received env w n c).registry.registered o := fun o =>
    (h.registered o).trans (registered_registryAfter env w n c).symm
  refine ⟨h.nodes, h.nodeAlive, h.nextNode, h.sourceAlive,
    h.storage.trans (storage_registryAfter env w n c).symm, hregistered, ?_⟩
  intro m hm
  have hmn : m ≠ n := by
    rintro rfl
    rw [hm] at hn
    cases hn
  unfold RemoteNode.received
  dsimp only
  rw [Connections.writtenByServer_append, writtenByServer_callsOf hmn, List.append_nil]
  exact h.written m hm

theorem undisturbed_receive {msg : Json} (h : Undisturbed others w w') (hn : others n = true) :
    Undisturbed others (next lib w (.receive n msg env)) w' := by
  rw [next_receive]
  split
  · exact undisturbed_received h hn
  · exact h

theorem undisturbed_of_from (w w' : Server) (a : Action) (h : Undisturbed others w w')
    (_ : Enabled w a) (ha : (!a.from others) = false) : Undisturbed others (next lib w a) w' := by
  cases a with
  | receive n msg env => exact undisturbed_receive h (by simpa [Action.from] using ha)
  | _ => cases ha

/-- An operation may be used in both servers or in none. -/
theorem enabled_resumed (h : Undisturbed others w w') (a : Action) :
    Enabled w' (a.resumed w w') ↔ Enabled w a := by
  cases a with
  | create =>
    unfold Action.resumed Enabled
    dsimp only
    rw [h.storage]
  | onWrite n | receive n _ _ | notifyPropertyChange n _ _ _ | notifySignal n _ _ _ | destroy n =>
    unfold Action.resumed Enabled
    dsimp only
    rw [h.nodeAlive]
  | addSource _ | removeSource _ | sourceExpires _ => exact Iff.rfl

/-- What an operation writes, it writes in both. -/
theorem written_next (h : Undisturbed others w w') (a : Action) (m : NodeRef)
    (hm : others m = false) :
    Connections.writtenByServer m (next lib w' (a.resumed w w')).effects
      = Connections.writtenByServer m (next lib w a).effects := by
  rw [effects_next, effects_next, callsOfAction_resumed h, Connections.writtenByServer_append,
    Connections.writtenByServer_append, h.written m hm]

/-- A node is registered under the same id in both. -/
theorem undisturbed_create (h : Undisturbed others w w') :
    Undisturbed others (next lib w .create) (next lib w' .create) := by
  unfold next RemoteNode.createRemoteNode
  dsimp only
  rw [RemoteRegistry.registerNode_eq, RemoteRegistry.registerNode_eq, h.nodes, h.nodeAlive,
    h.nextNode, h.storage]
  exact ⟨rfl, rfl, rfl, h.sourceAlive, rfl, h.registered, h.written⟩

/-- **What is kept** finds the two servers the same and leaves them the same. -/
theorem undisturbed_next (h : Undisturbed others w w') (a : Action) :
    Undisturbed others (next lib w a) (next lib w' (a.resumed w w')) := by
  have hwritten : ∀ m, others m = false →
      Connections.writtenByServer m (next lib w' (a.resumed w w')).effects
        = Connections.writtenByServer m (next lib w a).effects := written_next h a
  unfold Action.resumed at hwritten ⊢
  cases a with
  | create => exact undisturbed_create h
  | onWrite n =>
    refine ⟨?_, h.nodeAlive, h.nextNode, h.sourceAlive, h.storage, h.registered, hwritten⟩
    show (fun m => if m = n then _ else w'.nodes m) = _
    rw [h.nodes]
    rfl
  | receive n msg env =>
    rw [next_receive, next_receive] at *
    cases hdec : Protocol.decode? lib msg with
    | none => exact h
    | some c =>
      rw [hdec] at hwritten
      refine ⟨h.nodes, h.nodeAlive, h.nextNode, h.sourceAlive, ?_, ?_, hwritten⟩
      · show (RemoteNode.registryAfter _ w' n c).remoteNodesById
          = (RemoteNode.registryAfter env w n c).remoteNodesById
        rw [storage_registryAfter, storage_registryAfter, h.storage]
      · intro o
        show (RemoteNode.registryAfter _ w' n c).registered o
          = (RemoteNode.registryAfter env w n c).registered o
        rw [registered_registryAfter, registered_registryAfter, h.registered]
  | notifyPropertyChange n p v env =>
    rw [next_notifyPropertyChange, next_notifyPropertyChange] at *
    exact ⟨h.nodes, h.nodeAlive, h.nextNode, h.sourceAlive, h.storage, h.registered, hwritten⟩
  | notifySignal n s args env =>
    rw [next_notifySignal, next_notifySignal] at *
    exact ⟨h.nodes, h.nodeAlive, h.nextNode, h.sourceAlive, h.storage, h.registered, hwritten⟩
  | destroy n =>
    rw [next_destroy, next_destroy] at *
    refine ⟨h.nodes, ?_, h.nextNode, h.sourceAlive, ?_, ?_, hwritten⟩
    · dsimp only
      rw [h.nodeAlive]
    · dsimp only
      rw [h.nodes]
      by_cases hid : (w.nodes n).nodeId = invalidId
      · rw [hid, RemoteRegistry.unregisterNode_invalidId, RemoteRegistry.unregisterNode_invalidId,
          h.storage]
      · rw [RemoteRegistry.remoteNodesById_unregisterNode hid,
          RemoteRegistry.remoteNodesById_unregisterNode hid, h.storage]
    · intro o
      dsimp only
      rw [RemoteRegistry.registered_unregisterNode, RemoteRegistry.registered_unregisterNode,
        h.registered]
  | addSource source =>
    refine ⟨h.nodes, h.nodeAlive, h.nextNode, h.sourceAlive, ?_, ?_, hwritten⟩
    · unfold next
      dsimp only
      rw [RemoteRegistry.remoteNodesById_addSource, RemoteRegistry.remoteNodesById_addSource,
        h.storage]
    · intro o
      unfold next
      dsimp only
      rw [h.sourceAlive]
      exact RemoteRegistry.registered_addSource h.registered source o
  | removeSource k =>
    refine ⟨h.nodes, h.nodeAlive, h.nextNode, h.sourceAlive, h.storage, ?_, hwritten⟩
    exact fun o => RemoteRegistry.registered_removeSource h.registered o
  | sourceExpires s =>
    refine ⟨h.nodes, h.nodeAlive, h.nextNode, ?_, h.storage, h.registered, hwritten⟩
    unfold next
    dsimp only
    rw [h.sourceAlive]

/-! ## Whole runs -/

/-- A `Link` that enters a node does so in both servers. -/
theorem linked_resumed (h : Undisturbed others w w') (a : Action) :
    Linked lib o n (w', a.resumed w w') ↔ Linked lib o n (w, a) := by
  cases a with
  | receive m msg env =>
    unfold Action.resumed
    cases hdec : Protocol.decode? lib msg with
    | none => simp [Linked, hdec]
    | some c =>
      dsimp only
      rw [linked_receive hdec, linked_receive hdec, h.source]
  | _ => simp [Linked, Action.resumed]

theorem unlinked_resumed (h : Undisturbed others w w') (a : Action) :
    Unlinked lib o n (w', a.resumed w w') ↔ Unlinked lib o n (w, a) := by
  cases a with
  | receive m msg env =>
    unfold Action.resumed
    cases hdec : Protocol.decode? lib msg with
    | none => simp [Unlinked, hdec]
    | some c =>
      dsimp only
      rw [unlinked_receive hdec, unlinked_receive hdec, h.source]
      simp only [ServerEnv.call_resumed]
  | _ => simp [Unlinked, Action.resumed]

/-- A message enters and takes out the node that receives it, and no other. -/
theorem not_linked_of_from {x : Server × Action} (hx : x.2.from others = true)
    (hn : others n = false) : ¬ Linked lib o n x ∧ ¬ Unlinked lib o n x := by
  refine ⟨?_, ?_⟩
  · rintro ⟨msg, env, ha, -⟩
    rw [ha] at hx
    exact absurd hx (by rw [Action.from, hn]; exact Bool.false_ne_true)
  · rintro (⟨msg, env, s, ha, -⟩ | ha | ha)
    · rw [ha] at hx
      exact absurd hx (by rw [Action.from, hn]; exact Bool.false_ne_true)
    · rw [ha] at hx
      cases hx
    · rw [ha] at hx
      cases hx

/-- **Isolation**: next to any run there is one in which some connections send nothing. What else
happens, happens in it as well, with the same calls of code outside, which ends them as it did, and
the other nodes have been written the same and are linked with the same objects. -/
theorem isolation {h : List (Server × Action)} (hr : Run (machine lib) h w)
    (others : NodeRef → Bool) :
    ∃ (l : List ((Server × Action) × (Server × Action))) (w' : Server),
      l.map Prod.fst = h.filter (fun x => !x.2.from others) ∧
      Run (machine lib) (l.map Prod.snd) w' ∧
      (∀ x ∈ l, x.2.2 = x.1.2.resumed x.1.1 x.2.1 ∧
        callsOfAction lib x.2.1 x.2.2 = callsOfAction lib x.1.1 x.1.2) ∧
      ∀ n, others n = false →
        Connections.writtenByServer n w'.effects = Connections.writtenByServer n w.effects ∧
        ∀ o, some n ∈ w'.registry.getNodes w'.nodeAlive o ↔
          some n ∈ w.registry.getNodes w.nodeAlive o := by
  obtain ⟨l, w', hl, hr', hrel, hsteps⟩ :=
    hr.purge (R := Undisturbed others) (fun a => !a.from others) (fun s s' a => a.resumed s s')
      (fun s _ => undisturbed_refl s) undisturbed_of_from
      (fun s s' a hrel hen _ => ⟨(enabled_resumed hrel a).mpr hen, undisturbed_next hrel a⟩)
  refine ⟨l, w', hl, hr', ?_, fun n hn => ⟨hrel.written n hn, fun o => ?_⟩⟩
  · intro x hx
    obtain ⟨hx', ha⟩ := hsteps x hx
    exact ⟨ha, by rw [ha, callsOfAction_resumed hx']⟩
  · have hout : ∀ x ∈ h, (!x.2.from others) = false →
        ¬ Linked lib o n x ∧ ¬ Unlinked lib o n x := fun x _ hx =>
      not_linked_of_from (by simpa using hx) hn
    -- both are told from the messages, and those that are left out tell nothing of the node
    rw [serves_run hr', serves_run hr, since_map, ← since_filter
      (fun x hx hk => (hout x hx hk).1) fun x hx hk => (hout x hx hk).2, ← hl, since_map]
    refine since_congr ?_ ?_
    · intro x hx
      obtain ⟨hx', ha⟩ := hsteps x hx
      have hiff : Linked lib o n (x.2.1, x.1.2.resumed x.1.1 x.2.1) ↔ Linked lib o n x.1 :=
        linked_resumed hx' x.1.2
      rw [← ha] at hiff
      exact hiff
    · intro x hx
      obtain ⟨hx', ha⟩ := hsteps x hx
      have hiff : Unlinked lib o n (x.2.1, x.1.2.resumed x.1.1 x.2.1) ↔ Unlinked lib o n x.1 :=
        unlinked_resumed hx' x.1.2
      rw [← ha] at hiff
      exact hiff

/-- Two nodes that are linked with an object. -/
def bothLinked : List Action :=
  [.addSource (some someSource), .create, .create, .onWrite 0, .onWrite 1,
    .receive 0 (Protocol.linkMessage (lit "o")) .returning,
    .receive 1 (Protocol.linkMessage (lit "o")) .returning]

/-- Without what the first one sent, the second one is answered and linked as before. -/
theorem isolation_bothLinked : ∃ (h : List (Server × Action)) (w : Server),
    Run (machine .truncating) h w ∧ h.length = 6 ∧ (∀ x ∈ h, x.2.from (fun n => n == 0) = false) ∧
      Connections.writtenByServer 1 w.effects = [Protocol.initMessage (lit "o") .null] ∧
      some 1 ∈ w.registry.getNodes w.nodeAlive (lit "o") := by
  have hr : Run (machine .truncating) _ _ := run_play bothLinked init_empty (by decide +kernel)
  obtain ⟨l, w, hl, hr', hsteps, hothers⟩ := isolation hr fun n => n == 0
  obtain ⟨hwritten, hlinked⟩ := hothers 1 rfl
  have hlength : (l.map Prod.snd).length = 6 := by
    rw [List.length_map, ← List.length_map Prod.fst, hl]
    decide +kernel
  have hfrom : ∀ x ∈ l.map Prod.snd, x.2.from (fun n => n == 0) = false := by
    intro x hx
    obtain ⟨y, hy, rfl⟩ := List.mem_map.mp hx
    have hkept := List.of_mem_filter (hl ▸ List.mem_map_of_mem hy)
    rw [(hsteps y hy).1, from_resumed]
    simpa using hkept
  exact ⟨_, w, hr', hlength, hfrom, hwritten.trans rfl, (hlinked _).mpr (by decide +kernel)⟩

end Server

end ObjectLink
