import ObjectLink.RemoteRuns

/-!
# Sources and the nodes they were given

`handleLink` (`remotenode.cpp:33-48`) hands a source a bare pointer to the node, and only
`handleUnlink` (`:50-57`) ever tells the source that an object is no longer linked. The destructor
(`:28-31`) takes the node out of the registry without a word to the sources, where that of a client
node unlinks its objects first (`clientnode.cpp:76-84`).

Results:
* `owed_next`, `owed_run`: whether a source is still to be told of a node, from the messages
  received.
* `told_iff`: no destruction leaves a source untold exactly if each `Link` that the node received
  was followed by an `Unlink` of the same object before.
* `disconnect_untold`: a node that is destroyed without an `Unlink`.
-/

namespace ObjectLink

open Foundation (Machine Run Since since_append_iff since_append_of_mem run_play)

namespace Server

variable {lib : JsonLibrary} {w : Server} {o : ObjectId} {n m : NodeRef} {s : Source}

/-- After each `olinkLinked` that handed the source the node, the source was told of the end. -/
def Told (s : Source) (o : ObjectId) (n : NodeRef) (effects : List ServerEffect) : Prop :=
  ∀ before after, effects = before ++ .olinkLinked s o n :: after → .olinkUnlinked s o ∈ after

/-- The source was handed the node and not told of the end since. -/
def Owed (s : Source) (o : ObjectId) (n : NodeRef) (effects : List ServerEffect) : Prop :=
  Since (fun e => e = .olinkLinked s o n) (fun e => e = .olinkUnlinked s o) effects

theorem told_iff_not_owed {effects : List ServerEffect} :
    Told s o n effects ↔ ¬ Owed s o n effects := by
  constructor
  · rintro htold ⟨before, _, after, rfl, rfl, hno⟩
    exact hno _ (htold before after rfl) rfl
  · intro howed before after he
    by_contra hno
    refine howed ⟨before, _, after, he, rfl, fun e hmem hee => hno ?_⟩
    rw [← hee]
    exact hmem

/-! ## What the messages say -/

/-- The node receives the `Link` of the object while the source is registered for it. -/
def LinkTaken (lib : JsonLibrary) (s : Source) (o : ObjectId) (n : NodeRef)
    (x : Server × Action) : Prop :=
  ∃ msg env, x.2 = .receive n msg env ∧ Protocol.decode? lib msg = some (.link o) ∧
    x.1.source o = some s

/-- Some node receives an `Unlink` of the object. -/
def UnlinkReceived (lib : JsonLibrary) (o : ObjectId) (x : Server × Action) : Prop :=
  ∃ m msg env, x.2 = .receive m msg env ∧ Protocol.decode? lib msg = some (.unlink o)

theorem mem_callsOfAction {a : Action} {e : ServerEffect} (he : e ∈ callsOfAction lib w a) :
    (∃ n msg env c, a = .receive n msg env ∧ Protocol.decode? lib msg = some c ∧
      e ∈ RemoteNode.callsOf env w n c) ∨ ∃ n msg, e = .write n msg := by
  cases a with
  | receive n msg env =>
    unfold callsOfAction at he
    dsimp only at he
    cases hdec : Protocol.decode? lib msg with
    | none =>
      rw [hdec] at he
      cases he
    | some c =>
      rw [hdec] at he
      exact Or.inl ⟨n, msg, env, c, rfl, hdec, he⟩
  | notifyPropertyChange n p v env => exact Or.inr ⟨n, _, RemoteNode.mem_written he⟩
  | notifySignal n s args env => exact Or.inr ⟨n, _, RemoteNode.mem_written he⟩
  | _ => cases he

theorem olinkLinked_mem {a : Action} :
    .olinkLinked s o n ∈ callsOfAction lib w a ↔ LinkTaken lib s o n (w, a) := by
  constructor
  · intro he
    rcases mem_callsOfAction he with ⟨m, msg, env, c, rfl, hdec, he⟩ | ⟨m, msg, he⟩
    · obtain ⟨rfl, rfl, hs⟩ := RemoteNode.olinkLinked_mem_callsOf.mp he
      exact ⟨msg, env, rfl, hdec, hs⟩
    · cases he
  · rintro ⟨msg, env, rfl, hdec, hs⟩
    show _ ∈ (Protocol.decode? lib msg).elim [] (RemoteNode.callsOf env w n)
    rw [hdec, Option.elim_some]
    exact RemoteNode.olinkLinked_mem_callsOf.mpr ⟨rfl, rfl, hs⟩

theorem olinkUnlinked_mem {a : Action} : .olinkUnlinked s o ∈ callsOfAction lib w a ↔
    UnlinkReceived lib o (w, a) ∧ w.source o = some s := by
  constructor
  · intro he
    rcases mem_callsOfAction he with ⟨m, msg, env, c, rfl, hdec, he⟩ | ⟨m, msg, he⟩
    · obtain ⟨rfl, hs⟩ := RemoteNode.olinkUnlinked_mem_callsOf.mp he
      exact ⟨⟨m, msg, env, rfl, hdec⟩, hs⟩
    · cases he
  · rintro ⟨⟨m, msg, env, rfl, hdec⟩, hs⟩
    show _ ∈ (Protocol.decode? lib msg).elim [] (RemoteNode.callsOf env w m)
    rw [hdec, Option.elim_some]
    exact RemoteNode.olinkUnlinked_mem_callsOf.mpr ⟨rfl, hs⟩

/-- **One step** hands the source the node, or tells it of the end, or neither. -/
theorem owed_next {a : Action} : Owed s o n (next lib w a).effects ↔ LinkTaken lib s o n (w, a) ∨
    (Owed s o n w.effects ∧ ¬ (UnlinkReceived lib o (w, a) ∧ w.source o = some s)) := by
  unfold Owed
  rw [effects_next, ← olinkLinked_mem, ← olinkUnlinked_mem]
  by_cases hlink : .olinkLinked s o n ∈ callsOfAction lib w a
  · -- a message is a `Link` or an `Unlink`, not both
    refine iff_of_true (since_append_of_mem hlink rfl ?_) (Or.inl hlink)
    rintro _ hmem rfl
    obtain ⟨_, _, ha, hdec, -⟩ := olinkLinked_mem.mp hlink
    obtain ⟨⟨_, _, _, ha', hdec'⟩, -⟩ := olinkUnlinked_mem.mp hmem
    have ha : a = .receive _ _ _ := ha
    subst ha
    cases ha'
    rw [hdec] at hdec'
    cases hdec'
  · have hne : ∀ e ∈ callsOfAction lib w a, e ≠ .olinkLinked s o n := fun e he hee => by
      rw [hee] at he
      exact hlink he
    rw [since_append_iff hne]
    simp only [hlink, false_or]
    refine and_congr_right fun _ => ⟨fun hno hmem => hno _ hmem rfl, ?_⟩
    rintro hno _ hmem rfl
    exact hno hmem

theorem owed_run {h : List (Server × Action)} (hr : Run (unboundedMachine lib) h w) :
    Owed s o n w.effects ↔ Since (LinkTaken lib s o n)
      (fun x => UnlinkReceived lib o x ∧ x.1.source o = some s) h := by
  refine Run.iff_since (M := unboundedMachine lib) (I := fun _ => True)
    (Q := fun w => Owed s o n w.effects) (fun _ _ _ => trivial) ?_
    (fun w a _ _ => owed_next) hr
  intro w hw hh
  unfold Owed at hh
  rw [hw.effects] at hh
  exact Foundation.not_since_nil hh

/-! ## Destruction -/

/-- Once registered, the source stays so. -/
def StaysRegistered (s : Source) (o : ObjectId) (h : List (Server × Action)) : Prop :=
  ∀ x ∈ h, x.1.source o = some s → x.2 ≠ .removeSource o ∧ x.2 ≠ .sourceExpires s

theorem StaysRegistered.source {h : List (Server × Action)} (hr : Run (unboundedMachine lib) h w)
    (hstay : StaysRegistered s o h) {x : Server × Action} (hx : x ∈ h)
    (hs : x.1.source o = some s) : w.source o = some s := by
  induction hr with
  | init _ => cases hx
  | @snoc h v a hr hen ih =>
    have hlast : (v, a) ∈ h ++ [(v, a)] := List.mem_append_right _ (List.mem_singleton.mpr rfl)
    have hv : v.source o = some s := by
      rcases List.mem_append.mp hx with hx | hx
      · exact ih (fun y hy => hstay y (List.mem_append_left _ hy)) hx
      · rw [List.mem_singleton.mp hx] at hs
        exact hs
    obtain ⟨hrem, hexp⟩ := hstay (v, a) hlast hv
    exact source_next hv hrem hexp

/-- For a source that stays registered, what it is owed can be read off the messages alone. -/
theorem owed_iff_since {h : List (Server × Action)} (hr : Run (unboundedMachine lib) h w)
    (hstay : StaysRegistered s o h) :
    Owed s o n w.effects ↔ Since (LinkTaken lib s o n) (UnlinkReceived lib o) h := by
  rw [owed_run hr]
  constructor
  · rintro ⟨h₁, x, h₂, rfl, hlink, hno⟩
    refine ⟨h₁, x, h₂, rfl, hlink, fun y hy hunlink => hno y hy ⟨hunlink, ?_⟩⟩
    obtain ⟨h₃, h₄, rfl⟩ := List.append_of_mem hy
    rw [← List.cons_append, ← List.append_assoc] at hr hstay
    refine StaysRegistered.source hr.split.1
      (fun z hz => hstay z (List.mem_append_left _ hz)) ?_ hlink.choose_spec.choose_spec.2.2
    exact List.mem_append_right _ List.mem_cons_self
  · rintro ⟨h₁, x, h₂, rfl, hlink, hno⟩
    exact ⟨h₁, x, h₂, rfl, hlink, fun y hy hunlink => hno y hy hunlink.1⟩

/-- **No destruction leaves a source untold** exactly if, whenever a node is destroyed, each object
whose `Link` it received while the source was registered was the subject of an `Unlink` since. -/
theorem told_iff {h : List (Server × Action)} (hr : Run (unboundedMachine lib) h w)
    (hstay : StaysRegistered s o h) :
    (∀ h₁ v n h₂, h = h₁ ++ (v, .destroy n) :: h₂ →
      Told s o n (next lib v (.destroy n)).effects) ↔
    ∀ h₁ v n h₂, h = h₁ ++ (v, .destroy n) :: h₂ →
      ¬ Since (LinkTaken lib s o n) (UnlinkReceived lib o) h₁ := by
  refine forall₄_congr fun h₁ v n h₂ => forall_congr' fun he => ?_
  subst he
  rw [told_iff_not_owed, ← owed_iff_since hr.split.1
    fun x hx => hstay x (List.mem_append_left _ hx)]
  rfl

/-! ## A disconnect -/

/-- The node goes away without an `Unlink`. -/
def disconnect : List Action :=
  [.addSource (some someSource), .create, .receive 0 (Protocol.linkMessage (lit "o")) .returning,
    .destroy 0]

/-- The node receives an `Unlink` before. -/
def goodbye : List Action :=
  [.addSource (some someSource), .create, .receive 0 (Protocol.linkMessage (lit "o")) .returning,
    .receive 0 (Protocol.unlinkMessage (lit "o")) .returning, .destroy 0]

theorem staysRegistered_of_forall {h : List (Server × Action)}
    (hh : ∀ x ∈ h, x.2 ≠ .removeSource o ∧ x.2 ≠ .sourceExpires s) : StaysRegistered s o h :=
  fun x hx _ => hh x hx

theorem told_iff_goodbye :
    let h := (unboundedMachine .truncating).history empty goodbye
    (∀ h₁ v n h₂, h = h₁ ++ (v, .destroy n) :: h₂ →
      Told someSource (lit "o") n (next .truncating v (.destroy n)).effects) ↔
    ∀ h₁ v n h₂, h = h₁ ++ (v, .destroy n) :: h₂ →
      ¬ Since (LinkTaken .truncating someSource (lit "o") n)
        (UnlinkReceived .truncating (lit "o")) h₁ :=
  told_iff (run_play goodbye init_empty (by decide))
    (staysRegistered_of_forall (by simp [goodbye, Machine.history]))

theorem disconnect_untold : ¬ ∀ (h : List (Server × Action)) (w : Server) (s : Source)
    (o : ObjectId), Run (unboundedMachine .truncating) h w → StaysRegistered s o h →
    ∀ h₁ v n h₂, h = h₁ ++ (v, .destroy n) :: h₂ →
      Told s o n (next .truncating v (.destroy n)).effects := by
  intro hall
  have hr : Run (unboundedMachine .truncating) _ _ := run_play disconnect init_empty (by decide)
  have htold := hall _ _ someSource (lit "o") hr
    (staysRegistered_of_forall (by simp [disconnect, Machine.history]))
    ((unboundedMachine .truncating).history empty (disconnect.take 3))
    ((unboundedMachine .truncating).exec empty (disconnect.take 3)) 0 [] rfl
    [] [.olinkCollectProperties someSource (.ok .null)] rfl
  simp at htold

end Server

end ObjectLink
