import ObjectLink.ClientRuns

/-!
# Calls that may throw

The operations that the user calls send a message, and that may throw: as it cannot be dumped for
its log message or converted, or as the write function throws; so may the sink that an
`unlinkRemote` releases. In `machine` of `ClientRuns.lean` they return. Here each call ends as an
environment of its own says (`nextIn`).

Results:
* `keeps_perform` to `keeps_destroy`: what the operations leave alone however they end.
* `nextIn_of_returns`, `sameLinks_nextIn`: an operation that returns does what it does in `machine`;
  one that throws leaves the links alone.
* `registry_refines`: the registry is a map in which the last link that returned wins, next to a map
  in which the first live sink stays.
-/

namespace ObjectLink

open Foundation (Machine Run Since run_play)

/-! ## The frames of the operations -/

namespace ClientNode

variable {env : ClientEnv} {n : NodeRef} {τ : Type} {f : Client → τ}

/-- A call of code outside the library leaves everything but the record of the calls alone. -/
theorem keeps_perform (hf : ∀ w effects, f { w with effects := effects } = f w) (e : ClientEffect) :
    Code.Keeps f (perform env e) := by
  intro w
  rw [perform_run]
  exact hf w _

theorem keeps_emitWrite (hf : ∀ w effects, f { w with effects := effects } = f w) (msg : Json) :
    Code.Keeps f (emitWrite env n msg) := by
  intro w
  rw [emitWrite_state]
  exact hf w _

/-- What an operation on the registry leaves alone. -/
theorem keeps_updateRegistry (hf : ∀ w effects registry,
      f { w with effects := effects, registry := registry } = f w)
    (g : Client → ClientRegistry → ClientRegistry) :
    Code.Keeps f (modify fun w => w.updateRegistry (g w)) :=
  Code.keeps_modify fun w => hf w w.effects _

theorem keeps_linkRemote (hf : ∀ w effects registry,
      f { w with effects := effects, registry := registry } = f w) (o : ObjectId) :
    Code.Keeps f (linkRemote env n o) :=
  Code.keeps_bind (keeps_emitWrite (fun w effects => hf w effects w.registry) _) fun _ =>
    Code.keeps_bind (keeps_updateRegistry hf _) fun _ => keeps_updateRegistry hf _

theorem keeps_unlinkRemote (hf : ∀ w effects registry,
      f { w with effects := effects, registry := registry } = f w) (o : ObjectId) :
    Code.Keeps f (unlinkRemote env n o) := by
  have hf' : ∀ w effects, f { w with effects := effects } = f w :=
    fun w effects => hf w effects w.registry
  refine Code.keeps_bind Code.keeps_get fun w => ?_
  have hrest : Code.Keeps f (do
      emitWrite env n (Protocol.unlinkMessage o)
      modify fun w => w.updateRegistry fun r => r.unsetNode o) :=
    Code.keeps_bind (keeps_emitWrite hf' _) fun _ => keeps_updateRegistry hf _
  cases (w.registry.getSink o).lock w.sinkAlive with
  | some sink => exact Code.keeps_bind (keeps_perform hf' _) fun _ => hrest
  | none => exact hrest

theorem keeps_unlinkAll (hf : ∀ w effects registry,
      f { w with effects := effects, registry := registry } = f w) :
    ∀ ids : List ObjectId, Code.Keeps f (unlinkAll env n ids)
  | [] => Code.keeps_pure _
  | o :: ids => Code.keeps_bind (keeps_unlinkRemote hf o) fun _ => keeps_unlinkAll hf ids

theorem keeps_destroy (hf : ∀ w effects registry alive,
      f { w with effects := effects, registry := registry, nodeAlive := alive } = f w) :
    Code.Keeps f (destroy env n) := by
  have hf' : ∀ w effects registry, f { w with effects := effects, registry := registry } = f w :=
    fun w effects registry => hf w effects registry w.nodeAlive
  refine Code.keeps_bind (Code.keeps_modify fun w => hf w w.effects w.registry _) fun _ => ?_
  refine Code.keeps_bind Code.keeps_get fun w => ?_
  exact Code.keeps_bind (keeps_unlinkAll hf' _) fun _ => keeps_updateRegistry hf' _

/-! ## The operations that return -/

theorem returning_perform (env : ClientEnv) (e : ClientEffect) :
    Code.Returning (perform env e) (perform .returning e) := by
  intro s a s' h
  rw [perform_run] at h ⊢
  cases hcall : env.call s.effects e with
  | error t =>
    rw [hcall] at h
    cases h
  | ok u =>
    rw [hcall] at h
    exact h

theorem returning_emitWrite (env : ClientEnv) (n : NodeRef) (msg : Json) :
    Code.Returning (emitWrite env n msg) (emitWrite .returning n msg) := by
  refine Code.returning_bind (Code.returning_ofExcept_ok _) fun _ =>
    Code.returning_bind (Code.returning_refl _) fun w => ?_
  cases (w.nodes n).writeFunc with
  | false => exact Code.returning_refl _
  | true =>
    cases env.toString msg with
    | ok u => exact returning_perform env _
    | error t =>
      intro s a s' h
      cases h

theorem returning_linkRemote (env : ClientEnv) (n : NodeRef) (o : ObjectId) :
    Code.Returning (linkRemote env n o) (linkRemote .returning n o) :=
  Code.returning_bind (returning_emitWrite env n _) fun _ => Code.returning_refl _

theorem returning_unlinkRemote (env : ClientEnv) (n : NodeRef) (o : ObjectId) :
    Code.Returning (unlinkRemote env n o) (unlinkRemote .returning n o) := by
  have hrest (env : ClientEnv) : Code.Returning (do
      emitWrite env n (Protocol.unlinkMessage o)
      modify fun w : Client => w.updateRegistry fun r => r.unsetNode o) (do
      emitWrite .returning n (Protocol.unlinkMessage o)
      modify fun w : Client => w.updateRegistry fun r => r.unsetNode o) :=
    Code.returning_bind (returning_emitWrite env n _) fun _ => Code.returning_refl _
  refine Code.returning_bind (Code.returning_refl _) fun w => ?_
  cases (w.registry.getSink o).lock w.sinkAlive with
  | none => exact hrest env
  | some sink => exact Code.returning_bind (returning_perform env _) fun _ => hrest env

theorem returning_invokeRemote (env : ClientEnv) (n : NodeRef) (methodId : Bytes) (args : Json)
    (func : Option InvokeReplyFunc) :
    Code.Returning (invokeRemote env n methodId args func)
      (invokeRemote .returning n methodId args func) := by
  refine Code.returning_bind (Code.returning_refl _) fun id => ?_
  exact Code.returning_bind (Code.returning_refl _) fun _ => returning_emitWrite env n _

theorem returning_unlinkAll (env : ClientEnv) (n : NodeRef) (ids : List ObjectId) :
    Code.Returning (unlinkAll env n ids) (unlinkAll .returning n ids) := by
  induction ids with
  | nil => exact Code.returning_refl _
  | cons o ids ih => exact Code.returning_bind (returning_unlinkRemote env n o) fun _ => ih

theorem returning_destroy (env : ClientEnv) (n : NodeRef) :
    Code.Returning (destroy env n) (destroy .returning n) := by
  refine Code.returning_bind (Code.returning_refl _) fun _ =>
    Code.returning_bind (Code.returning_refl _) fun w => ?_
  exact Code.returning_bind (returning_unlinkAll env n _) fun _ => Code.returning_refl _

/-! ## The operations that throw -/

/-- The client without the record of what has been called. -/
def unrecorded (w : Client) : Client := { w with effects := [] }

theorem sameLinks_of_unrecorded {w w' : Client} (h : unrecorded w' = unrecorded w) :
    SameLinks w w' := by
  obtain ⟨hregistry, hnodes, hnodeAlive, hsinkAlive, hnextNode, -⟩ := Client.mk.inj h
  exact ⟨hregistry, hnodeAlive, hsinkAlive, hnextNode, fun m => by rw [hnodes]⟩

/-- The `Link` is sent before the registry is changed. -/
theorem keepsThrowing_linkRemote (o : ObjectId) :
    Code.KeepsThrowing unrecorded (linkRemote env n o) := by
  refine Code.keepsThrowing_bind (keeps_emitWrite (fun _ _ => rfl) _) fun _ => ?_
  intro w e w' h
  cases h

/-- And so is the `Unlink`. -/
theorem keepsThrowing_unlinkRemote (o : ObjectId) :
    Code.KeepsThrowing unrecorded (unlinkRemote env n o) := by
  have hrest : Code.KeepsThrowing unrecorded (do
      emitWrite env n (Protocol.unlinkMessage o)
      modify fun w : Client => w.updateRegistry fun r => r.unsetNode o) :=
    Code.keepsThrowing_bind (keeps_emitWrite (fun _ _ => rfl) _) fun _ =>
      Code.keepsThrowing_modify _
  refine Code.keepsThrowing_bind Code.keeps_get fun w => ?_
  cases (w.registry.getSink o).lock w.sinkAlive with
  | none => exact hrest
  | some sink => exact Code.keepsThrowing_bind (keeps_perform (fun _ _ => rfl) _) fun _ => hrest

end ClientNode

namespace Client

/-! ## Runs -/

/-- An operation whose calls of code outside the library end as `env` says. -/
def nextIn (lib : JsonLibrary) (w : Client) (env : ClientEnv) : Action → Client
  | .linkRemote n o => ((ClientNode.linkRemote env n o).run w).2
  | .unlinkRemote n o => ((ClientNode.unlinkRemote env n o).run w).2
  | .invokeRemote n m args func => ((ClientNode.invokeRemote env n m args func).run w).2
  | .setRemoteProperty n p v => ((ClientNode.setRemoteProperty env n p v).run w).2
  | .destroy n => ((ClientNode.destroy env n).run w).2
  | a => next lib w a

/-- How an operation that the user calls ends. -/
def endsIn (w : Client) (env : ClientEnv) : Action → Except Thrown Unit
  | .linkRemote n o => ((ClientNode.linkRemote env n o).run w).1
  | .unlinkRemote n o => ((ClientNode.unlinkRemote env n o).run w).1
  | .invokeRemote n m args func => ((ClientNode.invokeRemote env n m args func).run w).1
  | .setRemoteProperty n p v => ((ClientNode.setRemoteProperty env n p v).run w).1
  | .destroy n => ((ClientNode.destroy env n).run w).1
  | _ => .ok ()

/-- A destructor returns; one that throws ends the program. -/
def DestructorReturns (w : Client) (x : ClientEnv × Action) : Prop :=
  ∀ n, x.2 = .destroy n → endsIn w x.1 x.2 = .ok ()

/-- The client side, with calls that may throw. -/
def machineIn (lib : JsonLibrary) : Machine Client (ClientEnv × Action) where
  init := Init
  enabled w x := Enabled w x.2 ∧ DestructorReturns w x
  next w x := nextIn lib w x.1 x.2

variable {lib : JsonLibrary} {w : Client} {env : ClientEnv} {a : Action} {o : ObjectId}
  {n : NodeRef}

/-- **An operation that returns** does what it does when nothing throws. -/
theorem nextIn_of_returns (h : endsIn w env a = .ok ()) : nextIn lib w env a = next lib w a := by
  have hrun : ∀ {p q : Code Client Unit}, Code.Returning p q → (p.run w).1 = .ok () →
      (p.run w).2 = (q.run w).2 := by
    intro p q hpq hp
    rw [hpq w () _ (Prod.ext hp rfl)]
  cases a with
  | linkRemote n o => exact hrun (ClientNode.returning_linkRemote env n o) h
  | unlinkRemote n o => exact hrun (ClientNode.returning_unlinkRemote env n o) h
  | invokeRemote n m args func => exact hrun (ClientNode.returning_invokeRemote env n m args func) h
  | setRemoteProperty n p v => exact hrun (ClientNode.returning_emitWrite env n _) h
  | destroy n => exact hrun (ClientNode.returning_destroy env n) h
  | _ => rfl

/-- **An operation that throws** leaves the links alone. -/
theorem sameLinks_nextIn (hd : DestructorReturns w (env, a)) (h : endsIn w env a ≠ .ok ()) :
    ClientNode.SameLinks w (nextIn lib w env a) := by
  have hthrows : ∀ {p : Code Client Unit},
      Code.KeepsThrowing ClientNode.unrecorded p → (p.run w).1 ≠ .ok () →
      ClientNode.SameLinks w (p.run w).2 := by
    intro p hp hend
    cases hrun : p.run w with
    | mk r w' =>
      rw [hrun] at hend
      cases r with
      | ok u => exact absurd rfl hend
      | error e => exact ClientNode.sameLinks_of_unrecorded (hp w e w' hrun)
  cases a with
  | linkRemote n o => exact hthrows (ClientNode.keepsThrowing_linkRemote o) h
  | unlinkRemote n o => exact hthrows (ClientNode.keepsThrowing_unlinkRemote o) h
  | setRemoteProperty n p v =>
    exact hthrows (ClientNode.keeps_emitWrite (fun _ _ => rfl) _).throwing h
  | invokeRemote n m args func =>
    unfold nextIn
    dsimp only
    rw [ClientNode.invokeRemote_state]
    exact ClientNode.sameLinks_updateNode fun _ => rfl
  | destroy n => exact absurd (hd n rfl) h
  | _ => exact absurd rfl h

theorem inv_nextIn (hi : Inv w) (hen : Enabled w a) (hd : DestructorReturns w (env, a)) :
    Inv (nextIn lib w env a) := by
  by_cases h : endsIn w env a = .ok ()
  · rw [nextIn_of_returns h]
    exact inv_next hi a hen
  · exact hi.of_sameLinks (sameLinks_nextIn hd h)

theorem inv_runIn (h : List (Client × ClientEnv × Action)) (w : Client)
    (hr : Run (machineIn lib) h w) : Inv w := by
  refine hr.invariant (fun _ hw => inv_init hw) ?_
  rintro w ⟨env, a⟩ hi ⟨hen, hd⟩
  exact inv_nextIn hi hen hd

/-! ## The last link wins -/

/-- The call returns. -/
def ReturnsIn (x : Client × ClientEnv × Action) : Prop := endsIn x.1 x.2.1 x.2.2 = .ok ()

/-- The node links the object, and the call returns. -/
def LinkedIn (o : ObjectId) (n : NodeRef) (x : Client × ClientEnv × Action) : Prop :=
  ReturnsIn x ∧ Linked o n (x.1, x.2.2)

/-- Any node links or unlinks the object, its sink is removed, or the node is destroyed, and the
call returns. -/
def UnlinkedIn (o : ObjectId) (n : NodeRef) (x : Client × ClientEnv × Action) : Prop :=
  ReturnsIn x ∧ Unlinked o n (x.1, x.2.2)

/-- **One step** makes the slot of the object hold the node, or leaves it as it was. -/
theorem holds_nextIn (hi : Inv w) (hen : Enabled w a) (hd : DestructorReturns w (env, a)) :
    Holds (nextIn lib w env a) o n ↔
      LinkedIn o n (w, env, a) ∨ (Holds w o n ∧ ¬ UnlinkedIn o n (w, env, a)) := by
  unfold LinkedIn UnlinkedIn ReturnsIn
  by_cases h : endsIn w env a = .ok ()
  · rw [nextIn_of_returns h, holds_next hi a hen, and_iff_right h, and_iff_right h]
  · have hs : ClientNode.SameLinks w (nextIn lib w env a) := sameLinks_nextIn hd h
    have hsame : Holds (nextIn lib w env a) o n ↔ Holds w o n :=
      holds_congr hs.nodeAlive hs.nodeId (by rw [hs.registry])
    simp [hsame, h]

theorem getNode_runIn {h : List (Client × ClientEnv × Action)} (hr : Run (machineIn lib) h w) :
    (w.registry.getNode o).lock w.nodeAlive = some n ↔ Since (LinkedIn o n) (UnlinkedIn o n) h := by
  rw [getNode_iff (inv_runIn h w hr).nodes]
  refine Run.iff_since (M := machineIn lib) (Q := fun w => Holds w o n) inv_runIn ?_ ?_ hr
  · intro w hw hholds
    have halive := hholds.1
    rw [hw.nodeAlive] at halive
    cases halive
  · rintro w ⟨env, a⟩ hi ⟨hen, hd⟩
    exact holds_nextIn hi hen hd

/-! ## The first live sink stays -/

/-- Whatever becomes of the call, the sink registered for an object changes as told. -/
theorem lock_getSink_nextIn (hd : DestructorReturns w (env, a)) :
    ((nextIn lib w env a).registry.getSink o).lock (nextIn lib w env a).sinkAlive
      = sinkAfter o ((w.registry.getSink o).lock w.sinkAlive) (w, a) := by
  by_cases h : endsIn w env a = .ok ()
  · rw [nextIn_of_returns h, lock_getSink_next]
  · have hs : ClientNode.SameLinks w (nextIn lib w env a) := sameLinks_nextIn hd h
    rw [lock_getSink_congr hs.sinkAlive (by rw [hs.registry])]
    cases a with
    | addSink _ | removeSink _ | sinkExpires _ => exact absurd rfl h
    | _ => rfl

theorem getSink_runIn {h : List (Client × ClientEnv × Action)} (hr : Run (machineIn lib) h w) :
    (w.registry.getSink o).lock w.sinkAlive
      = registeredSink o (h.map fun x => (x.1, x.2.2)) := by
  induction hr with
  | init hs =>
    rw [hs.registry]
    rfl
  | snoc hr hen ih =>
    unfold registeredSink at ih ⊢
    rw [List.map_append, List.foldl_append, ← ih]
    exact lock_getSink_nextIn hen.2

/-! ## Both maps -/

/-- **The registry of sinks is two maps.** In every state of every run, in which each call ends as
the environment it is made in says and the destructors return:
* `getNode` yields the node whose `linkRemote` of the object returned last, unless the
  `unlinkRemote` of any node returned, its sink was removed or that node was destroyed since, and
  nothing when there is none;
* `getSink` yields the first live sink added since the last removal or expiration;
* an operation about other objects, or one that throws, changes neither, except that destroying a
  node clears `getNode` for exactly the objects it held. -/
theorem registry_refines {h : List (Client × ClientEnv × Action)} (hr : Run (machineIn lib) h w) :
    (∀ o n, (w.registry.getNode o).lock w.nodeAlive = some n ↔
      Since (LinkedIn o n) (UnlinkedIn o n) h) ∧
    (∀ o, (w.registry.getSink o).lock w.sinkAlive
      = registeredSink o (h.map fun x => (x.1, x.2.2))) ∧
    (∀ env a, Enabled w a → DestructorReturns w (env, a) →
      ∀ o, (¬ Concerns o a ∨ endsIn w env a ≠ .ok ()) →
      let w' := nextIn lib w env a
      (w'.registry.getSink o).lock w'.sinkAlive = (w.registry.getSink o).lock w.sinkAlive ∧
      ((∀ n, a ≠ .destroy n) →
        (w'.registry.getNode o).lock w'.nodeAlive = (w.registry.getNode o).lock w.nodeAlive)) ∧
    ∀ env n, w.nodeAlive n = true → DestructorReturns w (env, .destroy n) → ∀ o,
      let w' := nextIn lib w env (.destroy n)
      (w'.registry.getNode o).lock w'.nodeAlive
        = if (w.registry.getNode o).lock w.nodeAlive = some n then none
          else (w.registry.getNode o).lock w.nodeAlive := by
  have hi := inv_runIn h w hr
  refine ⟨fun o n => getNode_runIn hr, fun o => getSink_runIn hr, fun env a hen hd o ha => ?_,
    fun env n hn hd o => ?_⟩
  · by_cases hend : endsIn w env a = .ok ()
    · have hno : ¬ Concerns o a := ha.resolve_right fun h => h hend
      rw [nextIn_of_returns hend]
      refine ⟨?_, lock_getNode_of_not_concerns hi hen hno⟩
      rw [lock_getSink_next a, sinkAfter_of_not_concerns hno hi]
    · have hs : ClientNode.SameLinks w (nextIn lib w env a) := sameLinks_nextIn hd hend
      dsimp only
      rw [hs.registry, hs.sinkAlive, hs.nodeAlive]
      exact ⟨rfl, fun _ => rfl⟩
  · rw [nextIn_of_returns (hd n rfl)]
    exact lock_getNode_destroy hi hn

/-- The write function throws. -/
def refusing : ClientEnv :=
  { ClientEnv.returning with call := fun _ _ => .error .other }

/-- Two nodes link an object. The link of the second one throws the first time, and the sink that is
added second is not registered. -/
def secondLink : List (ClientEnv × Action) :=
  let first : Sink := { ref := 0, olinkObjectName := lit "o" }
  let second : Sink := { ref := 1, olinkObjectName := lit "o" }
  [(.returning, .create), (.returning, .create), (.returning, .onWrite 1),
    (.returning, .addSink (some first)), (.returning, .addSink (some second)),
    (.returning, .linkRemote 0 (lit "o")), (refusing, .linkRemote 1 (lit "o"))]

/-- The first node and the first sink stay. -/
theorem registry_refines_second :
    let w := (machineIn .truncating).exec empty secondLink
    (w.registry.getNode (lit "o")).lock w.nodeAlive = some 0 ∧
      (w.registry.getSink (lit "o")).lock w.sinkAlive
        = some { ref := 0, olinkObjectName := lit "o" } := by
  have hr : Run (machineIn .truncating) ((machineIn .truncating).history empty secondLink)
      ((machineIn .truncating).exec empty secondLink) := by
    refine run_play secondLink init_empty ?_
    exact ⟨⟨by decide, nofun⟩, ⟨by decide, nofun⟩, ⟨by decide, nofun⟩, ⟨trivial, nofun⟩,
      ⟨trivial, nofun⟩, ⟨by decide, nofun⟩, ⟨by decide, nofun⟩, trivial⟩
  obtain ⟨hnode, hsink, -⟩ := registry_refines hr
  refine ⟨(hnode _ 0).mpr ?_, (hsink _).trans (by decide +kernel)⟩
  refine Foundation.since_snoc (h := [_, _, _, _, _, _]).mpr (Or.inr ⟨?_, fun hunlinked => ?_⟩)
  · exact Foundation.since_snoc (h := [_, _, _, _, _]).mpr (Or.inl ⟨rfl, rfl⟩)
  · have hreturns : (.error .other : Except Thrown Unit) = .ok () := hunlinked.1
    cases hreturns

end Client

end ObjectLink
