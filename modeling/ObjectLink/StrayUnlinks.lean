import ObjectLink.RemoteLifetime

/-!
# Unlinks from nodes that are not linked

Whether its node is linked with the object is something no handler of a `RemoteNode` asks
(`remotenode.cpp:33-76`): a received message goes to the source "chosen based on registry entries
and objectId" (`remotenode.h:24`). `handleUnlink` (`:50-57`) tells the source of every `Unlink`,
also of one that repeats another or that no `Link` came before; it is `removeNodeFromSource` that
does nothing then (`remoteregistry.h:86`).

Results:
* `registry_stray`: the `Unlink` of a node that is not linked changes nothing in the registry.
* `serves_unlink_other`: that of a linked node takes out this node and no other.
* `unlinks_told`: when a source is told, and which runs have only linked nodes tell it.
* `stray_unlink`: the `Unlink` of a second node.
-/

namespace ObjectLink

open Foundation (Machine Run run_play)

/-- A node that is not in the entry is not taken out. -/
theorem RemoteRegistry.removeNodeFromSource_of_not_mem {r : RemoteRegistry} {id : Nat}
    {o : ObjectId} (h : id ∉ r.nodeIds o) : r.removeNodeFromSource id o = r := by
  unfold RemoteRegistry.removeNodeFromSource
  cases he : r.entries[o]? with
  | none => rfl
  | some e =>
    rw [RemoteRegistry.nodeIds_of_find he] at h
    dsimp only
    rw [List.erase_of_not_mem h, Foundation.insert_self he]

namespace Server

variable {lib : JsonLibrary} {w : Server} {o k : ObjectId} {n m : NodeRef} {s : Source}

/-! ## One `Unlink` -/

variable {msg : Json} {env : ServerEnv}

/-- The registry after an `Unlink`. -/
theorem registry_unlink (w : Server) (n : NodeRef) (env : ServerEnv)
    (hdec : Protocol.decode? lib msg = some (.unlink o)) :
    (next lib w (.receive n msg env)).registry = w.registry ∨
      (next lib w (.receive n msg env)).registry
        = w.registry.removeNodeFromSource (w.nodes n).nodeId o := by
  rw [next_receive, hdec]
  show RemoteNode.registryAfter env w n (.unlink o) = _ ∨
    RemoteNode.registryAfter env w n (.unlink o) = _
  unfold RemoteNode.registryAfter
  dsimp only
  split
  · split
    · exact Or.inr rfl
    · exact Or.inl rfl
  · exact Or.inl rfl

/-- **A stray `Unlink`** changes nothing in the registry. -/
theorem registry_stray (hi : Entered w) (hn : w.nodeAlive n = true)
    (hdec : Protocol.decode? lib msg = some (.unlink o))
    (hstray : some n ∉ w.registry.getNodes w.nodeAlive o) :
    (next lib w (.receive n msg env)).registry = w.registry := by
  rw [getNodes_iff hi] at hstray
  rcases registry_unlink w n env hdec with heq | heq
  · exact heq
  · rw [heq]
    exact RemoteRegistry.removeNodeFromSource_of_not_mem fun hmem => hstray ⟨hn, hmem⟩

/-- **The `Unlink` of a node** takes out no other node, and takes it out of no other object. -/
theorem serves_unlink_other (hi : Entered w) (hn : w.nodeAlive n = true)
    (hdec : Protocol.decode? lib msg = some (.unlink o)) (hne : m ≠ n ∨ k ≠ o) :
    Serves (next lib w (.receive n msg env)) k m ↔ Serves w k m := by
  have hnodes : (next lib w (.receive n msg env)).nodes = w.nodes := by
    rw [next_receive]
    split <;> rfl
  unfold Serves
  rw [(receive_nodes lib w msg env).1, hnodes]
  refine and_congr_right fun hm => ?_
  rcases registry_unlink w n env hdec with heq | heq
  · rw [heq]
  · rw [heq, RemoteRegistry.nodeIds_removeNodeFromSource]
    split
    · rename_i hk
      have hmn : m ≠ n := hne.resolve_right fun h => h hk
      refine ⟨List.mem_of_mem_erase, fun hmem => ?_⟩
      exact (List.mem_erase_of_ne fun he => hmn (hi.nodeId_inj ⟨hm, hmem⟩ hn he)).mpr hmem
    · exact Iff.rfl

/-! ## Runs -/

/-- Each time a node tells a source of the end, it is among the nodes of the object. -/
def OnlyLinked (lib : JsonLibrary) (h : List (Server × Action)) : Prop :=
  ∀ x ∈ h, ∀ n msg env s o, x.2 = .receive n msg env →
    .olinkUnlinked s o ∈ callsOfAction lib x.1 x.2 →
      some n ∈ x.1.registry.getNodes x.1.nodeAlive o

/-- **When a source is told of the end**, in every run:
* at each step the source registered for an object is told exactly if it is alive and some node
  receives an `Unlink` of the object, whether or not the node is linked with it;
* the `Unlink` of a node that is not among the nodes of the object changes nothing in the registry,
  and that of any node changes nothing for the other nodes and the other objects;
* only linked nodes tell sources exactly if each `Unlink` that finds a live source was received by
  a node among those of the object. -/
theorem unlinks_told {h : List (Server × Action)} (hr : Run (unboundedMachine lib) h w) :
    (∀ a, ∃ calls, (next lib w a).effects = w.effects ++ calls ∧
      ∀ s o, .olinkUnlinked s o ∈ calls ↔ UnlinkReceived lib o (w, a) ∧ w.source o = some s) ∧
    (∀ n msg env o, w.nodeAlive n = true → Protocol.decode? lib msg = some (.unlink o) →
      (some n ∉ w.registry.getNodes w.nodeAlive o →
        (next lib w (.receive n msg env)).registry = w.registry) ∧
      ∀ m k, m ≠ n ∨ k ≠ o →
        (some m ∈ (next lib w (.receive n msg env)).registry.getNodes
            (next lib w (.receive n msg env)).nodeAlive k ↔
          some m ∈ w.registry.getNodes w.nodeAlive k)) ∧
    (OnlyLinked lib h ↔ ∀ x ∈ h, ∀ n msg env o, x.2 = .receive n msg env →
      Protocol.decode? lib msg = some (.unlink o) → (x.1.source o).isSome →
        some n ∈ x.1.registry.getNodes x.1.nodeAlive o) := by
  have hi := entered_run hr
  refine ⟨?_, ?_, ?_⟩
  · exact fun a => ⟨_, effects_next a, fun s o => olinkUnlinked_mem⟩
  · intro n msg env o hn hdec
    refine ⟨registry_stray hi hn hdec, fun m k hne => ?_⟩
    have hi' : Entered (next lib w (.receive n msg env)) := entered_next hi _ hn
    rw [getNodes_iff hi', getNodes_iff hi]
    exact serves_unlink_other hi hn hdec hne
  · constructor
    · intro hall x hx n msg env o ha hdec hs
      obtain ⟨s, hs⟩ := Option.isSome_iff_exists.mp hs
      exact hall x hx n msg env s o ha (olinkUnlinked_mem.mpr ⟨⟨n, msg, env, ha, hdec⟩, hs⟩)
    · intro hall x hx n msg env s o ha hcall
      obtain ⟨⟨n', msg', env', ha', hdec⟩, hs⟩ := olinkUnlinked_mem.mp hcall
      have heq : Action.receive n msg env = .receive n' msg' env' := ha.symm.trans ha'
      cases heq
      exact hall x hx n msg env o ha hdec (Option.isSome_iff_exists.mpr ⟨s, hs⟩)

/-- Two nodes, of which the first is linked and the second sends an `Unlink`. -/
def secondNode : List Action :=
  [.addSource (some someSource), .create, .create,
    .receive 0 (Protocol.linkMessage (lit "o")) .returning,
    .receive 1 (Protocol.unlinkMessage (lit "o")) .returning]

theorem unlinks_told_secondNode :
    let w := (unboundedMachine .truncating).exec empty (secondNode.take 4)
    (next .truncating w (.receive 1 (Protocol.unlinkMessage (lit "o")) .returning)).registry
      = w.registry := by
  intro w
  have hr : Run (unboundedMachine .truncating) _ w :=
    run_play (secondNode.take 4) init_empty (by decide)
  have hdec : Protocol.decode? .truncating (Protocol.unlinkMessage (lit "o"))
      = some (.unlink (lit "o")) := Protocol.decode?_composed _ (.unlink (lit "o"))
  exact ((unlinks_told hr).2.1 1 _ .returning (lit "o") (by decide) hdec).1 (by decide +kernel)

/-- **A stray `Unlink` reaches the source**: the second node was never linked. -/
theorem stray_unlink : ¬ ∀ (h : List (Server × Action)) (w : Server),
    Run (unboundedMachine .truncating) h w → OnlyLinked .truncating h := by
  intro hall
  have hr : Run (unboundedMachine .truncating) _ _ := run_play secondNode init_empty (by decide)
  have hlast : ((unboundedMachine .truncating).exec empty (secondNode.take 4),
      .receive 1 (Protocol.unlinkMessage (lit "o")) .returning)
      ∈ (unboundedMachine .truncating).history empty secondNode := by
    simp [Machine.history, Machine.exec, secondNode]
  have hdec : Protocol.decode? .truncating (Protocol.unlinkMessage (lit "o"))
      = some (.unlink (lit "o")) := Protocol.decode?_composed _ (.unlink (lit "o"))
  have hmem := hall _ _ hr _ hlast 1 _ _ someSource (lit "o") rfl
    (olinkUnlinked_mem.mpr ⟨⟨1, _, _, rfl, hdec⟩, by decide +kernel⟩)
  exact absurd hmem (by decide +kernel)

end Server

end ObjectLink
