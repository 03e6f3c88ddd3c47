import Mathlib
import ObjectLink.Concurrency
import ObjectLink.Foundation.Budget

/-!
# Callbacks are called at most once per call

The function given to `invokeRemote` is kept in the table of pending calls until a reply or an error
message names its request, and is then taken out before it is called. A call of it is paid for by
the entry that was taken out, and the entry by the call of `invokeRemote`: replies that name the
same request, from any number of threads, cannot both find it. No condition on the code outside or
on the interleaving is needed.

* `spends_code`: every operation gets along with an allowance of one call of the function for
  `invokeRemote` with that function, and none for all others.
* `callbacks`: in every run of any threads the calls of a function and the entries that still wait
  for theirs come to no more than the calls of `invokeRemote` with it.
-/

namespace ObjectLink

open Foundation (Program Budget Pool PoolAction Machine Run pool run_play paid_run)
open Foundation.Budget (spends_bind spends_bind_add spends_bind_of_pays spends_done spends_exchange
  spends_outside spends_pure spends_read spends_tryCatch spends_withLock pays_withLock)
open LoggerBase (emitLog emitLogWithPayload logged onLog setLogLevel LogParameter)
open Routine (readLibrary updateLibrary exchangeLibrary locked call ask release)
open LockDiscipline (Operation code dropped)

namespace Callbacks

/-! ## The account -/

/-- Where the function waits for a reply. -/
def pendingFor (func : InvokeReplyFunc) (c : Client) : Set (NodeRef × UInt32) :=
  {x | (c.nodes x.1).invokesPending[x.2]? = some (some func)}

/-- Whether it is a call of the function. -/
def replies (func : InvokeReplyFunc) : OutsideCall → Bool
  | .invokeReply func' _ _ => decide (func' = func)
  | _ => false

/-- Whether it is `invokeRemote` with the function. -/
def invokes (func : InvokeReplyFunc) : Operation → Bool
  | .invokeRemote _ _ _ func' => decide (func' = some func)
  | _ => false

/-- A call of the function costs one, and every entry with it is worth one. -/
noncomputable def budget (func : InvokeReplyFunc) : Budget platform ℕ∞ where
  stock p := (pendingFor func p.library.client).encard
  cost c := if replies func c then 1 else 0

variable {func : InvokeReplyFunc} {α : Type}

/-- The code gets along with this credit. -/
abbrev Spends (func : InvokeReplyFunc) (k : ℕ∞) (p : Routine α) : Prop :=
  (budget func).Spends (P := platform) k p

/-! ## Pieces of code -/

theorem spends_exchangeLibrary {f : Library → α × Library}
    (hf : ∀ l, pendingFor func (f l).2.client ⊆ pendingFor func l.client) :
    Spends func 0 (exchangeLibrary f) :=
  spends_exchange fun p => Set.encard_le_encard (hf p.library)

theorem spends_readLibrary (f : Library → α) : Spends func 0 (readLibrary f) :=
  spends_exchangeLibrary fun _ => subset_rfl

/-- An access that leaves the client nodes alone. -/
theorem spends_nodes {f : Library → α × Library}
    (hf : ∀ l, (f l).2.client.nodes = l.client.nodes) : Spends func 0 (exchangeLibrary f) := by
  refine spends_exchangeLibrary fun l => ?_
  unfold pendingFor
  rw [hf]

/-- Where the function waits once a node has changed. -/
theorem mem_pendingFor_updateNode {c : Client} {n : NodeRef} {f : ClientNodeState → ClientNodeState}
    {x : NodeRef × UInt32} : x ∈ pendingFor func (c.updateNode n f) ↔
      if x.1 = n then (f (c.nodes n)).invokesPending[x.2]? = some (some func)
      else x ∈ pendingFor func c := by
  unfold pendingFor Client.updateNode
  by_cases hx : x.1 = n
  · simp [hx]
  · simp [hx]

/-- An access that leaves the tables of the nodes alone. -/
theorem pendingFor_updateNode {c : Client} {n : NodeRef} {f : ClientNodeState → ClientNodeState}
    (hf : ∀ s, (f s).invokesPending = s.invokesPending) :
    pendingFor func (c.updateNode n f) = pendingFor func c := by
  refine Set.ext fun x => ?_
  rw [mem_pendingFor_updateNode]
  split
  · rename_i hx
    rw [hf, ← hx]
    rfl
  · rfl

theorem spends_ofExcept (r : Except Thrown α) : Spends func 0 (Routine.ofExcept r) :=
  spends_done (P := platform) r

theorem spends_return (a : α) : Spends func 0 (return a) := spends_pure a

theorem spends_ask {c : OutsideCall} (hc : replies func c = false) : Spends func 0 (ask c) := by
  refine spends_outside ?_
  change (if replies func c = true then (1 : ℕ∞) else 0) ≤ 0
  rw [hc]
  exact le_rfl

theorem spends_call {c : OutsideCall} (hc : replies func c = false) : Spends func 0 (call c) :=
  spends_bind (spends_ask hc) fun _ => spends_return _

theorem spends_locked {m : Mutex} {p : Routine α} (hp : Spends func 0 p) :
    Spends func 0 (locked m p) :=
  spends_withLock hp

theorem spends_dropped {p : Routine α} (hp : Spends func 0 p) : Spends func 0 (dropped p) :=
  spends_bind hp fun _ => spends_return _

theorem spends_ite_bind {b : Prop} [Decidable b] {p : Routine Unit} {f : Unit → Routine α}
    (hp : Spends func 0 p) (hf : ∀ u, Spends func 0 (f u)) :
    Spends func 0 (if b then p >>= f else f ()) := by
  split
  · exact spends_bind hp hf
  · exact hf ()

theorem spends_emitLog (l : LoggerId) (level : LogLevel) (params : List LogParameter) :
    Spends func 0 (emitLog l level params) := by
  refine spends_bind (spends_locked (spends_read _)) fun logs => ?_
  cases logs with
  | false => exact spends_return _
  | true => exact spends_bind (spends_ofExcept _) fun message => spends_call rfl

theorem spends_emitLogWithPayload (lib : Codecs) (l : LoggerId) (level : LogLevel) (payload : Json)
    (params : List LogParameter) :
    Spends func 0 (emitLogWithPayload lib l level payload params) := by
  refine spends_bind (spends_locked (spends_read _)) fun logs => ?_
  cases logs with
  | false => exact spends_return _
  | true => exact spends_bind (spends_ofExcept _) fun text => spends_emitLog _ _ _

theorem spends_release (object : Referent) : Spends func 0 (release object) := by
  refine spends_bind (spends_readLibrary _) fun last => ?_
  cases last with
  | false => exact spends_return _
  | true => exact spends_call rfl

/-- A critical section that replaces a function, and releases the old one if there was one. -/
theorem spends_replace {m : Mutex} {replace : Routine Bool} {object : Referent}
    (hreplace : Spends func 0 replace) :
    Spends func 0 (locked m do if ← replace then release object) := by
  refine spends_locked (spends_bind hreplace fun replaced => ?_)
  cases replaced with
  | false => exact spends_return _
  | true => exact spends_release object

/-! ## The registries -/

section Registries

variable (id : Nat) (o : ObjectId)

theorem nodes_setStorage (l : Library) (s : UniqueIdObjectStorage NodeRef) (side : Side) :
    (l.setStorage s side).client.nodes = l.client.nodes := by
  cases side <;> rfl

theorem spends_get (side : Side) : Spends func 0 (Operations.UniqueIdObjectStorage.get side id) :=
  spends_locked (spends_readLibrary _)

theorem spends_remove (side : Side) :
    Spends func 0 (Operations.UniqueIdObjectStorage.remove side id) :=
  spends_locked (spends_nodes fun l => nodes_setStorage l _ side)

theorem spends_scan (side : Side) (object : NodeRef) (entries : List NodeRef) :
    Spends func 0 (Operations.UniqueIdObjectStorage.scan side object entries) := by
  induction entries with
  | nil => exact spends_return _
  | cons current rest ih =>
    refine spends_bind (spends_readLibrary _) fun alive => ?_
    cases alive with
    | false => exact ih
    | true =>
      refine spends_bind (spends_release _) fun _ => ?_
      split
      · exact spends_return _
      · exact ih

theorem spends_add (side : Side) (object : WeakPtr NodeRef) :
    Spends func 0 (Operations.UniqueIdObjectStorage.add side object) := by
  refine spends_bind (spends_readLibrary _) fun lockedObject => ?_
  cases lockedObject with
  | none => exact spends_return _
  | some lockedObject =>
    refine spends_locked (spends_bind (spends_nodes fun l => nodes_setStorage l _ side) fun full =>
      ?_)
    split
    · exact spends_return _
    · refine spends_bind (spends_readLibrary _) fun entries => ?_
      refine spends_bind (spends_scan side lockedObject entries) fun _ => ?_
      exact spends_nodes fun l => nodes_setStorage l _ side

theorem spends_setNode : Spends func 0 (Operations.ClientRegistry.setNode id o) := by
  refine spends_bind (spends_get id _) fun node => ?_
  refine spends_bind (spends_readLibrary _) fun lockedNode => ?_
  refine spends_ite_bind (spends_emitLog _ _ _) fun _ => ?_
  refine spends_bind (spends_emitLog _ _ _) fun _ => ?_
  refine spends_bind (spends_locked (spends_nodes fun _ => rfl)) fun other => ?_
  split
  · exact spends_emitLog _ _ _
  · exact spends_return _

theorem spends_unsetNode : Spends func 0 (Operations.ClientRegistry.unsetNode o) :=
  spends_bind (spends_emitLog _ _ _) fun _ => spends_locked (spends_nodes fun _ => rfl)

theorem spends_enterSink (lockedSink : Sink) :
    Spends func 0 (Operations.ClientRegistry.enterSink lockedSink) := by
  have hadd : Spends func 0 (do
      updateLibrary fun l =>
        l.updateClientRegistry (·.addSink l.client.sinkAlive (some lockedSink))
      return false) :=
    spends_bind (spends_nodes fun _ => rfl) fun _ => spends_return _
  refine spends_bind (spends_readLibrary _) fun found => ?_
  cases found with
  | none => exact hadd
  | some entry =>
    refine spends_bind (spends_readLibrary _) fun expired => ?_
    cases expired with
    | true => exact hadd
    | false =>
      refine spends_bind (spends_readLibrary _) fun current => ?_
      cases current with
      | none => exact spends_return _
      | some current => exact spends_bind (spends_release _) fun _ => spends_return _

theorem spends_addSink (sink : WeakPtr Sink) :
    Spends func 0 (Operations.ClientRegistry.addSink sink) := by
  refine spends_bind (spends_readLibrary _) fun lockedSink => ?_
  cases lockedSink with
  | none => exact spends_emitLog _ _ _
  | some lockedSink =>
    refine spends_bind (spends_call rfl) fun _ => spends_bind (spends_emitLog _ _ _) fun _ => ?_
    refine spends_bind (spends_locked (spends_enterSink lockedSink)) fun other => ?_
    split
    · exact spends_emitLog _ _ _
    · exact spends_return _

theorem spends_removeSink : Spends func 0 (Operations.ClientRegistry.removeSink o) :=
  spends_bind (spends_emitLog _ _ _) fun _ => spends_locked (spends_nodes fun _ => rfl)

theorem spends_getSink : Spends func 0 (Operations.ClientRegistry.getSink o) :=
  spends_bind (spends_emitLog _ _ _) fun _ => spends_locked (spends_readLibrary _)

theorem spends_clientObjectIds : Spends func 0 (Operations.ClientRegistry.getObjectIds id) :=
  spends_bind (spends_readLibrary _) fun _ => spends_locked (spends_readLibrary _)

theorem spends_getNode : Spends func 0 (Operations.ClientRegistry.getNode o) := by
  refine spends_bind (spends_emitLog _ _ _) fun _ => spends_locked ?_
  refine spends_bind (spends_readLibrary _) fun found => ?_
  cases found with
  | none => exact spends_return _
  | some entry => exact spends_get entry.nodeId _

theorem spends_registerClientNode (node : WeakPtr NodeRef) :
    Spends func 0 (Operations.ClientRegistry.registerNode node) := by
  refine spends_bind (spends_readLibrary _) fun lockedNode => ?_
  cases lockedNode with
  | none => exact spends_bind (spends_emitLog _ _ _) fun _ => spends_return _
  | some lockedNode => exact spends_add _ _

theorem spends_unregisterClientNode :
    Spends func 0 (Operations.ClientRegistry.unregisterNode id) := by
  unfold Operations.ClientRegistry.unregisterNode
  split
  · exact spends_bind (spends_locked (spends_nodes fun _ => rfl)) fun _ => spends_remove id _
  · exact spends_return _

theorem spends_enterSource (lockedSource : Source) :
    Spends func 0 (Operations.RemoteRegistry.enterSource lockedSource) := by
  refine spends_bind (spends_readLibrary _) fun found => ?_
  cases found with
  | none => exact spends_nodes fun _ => rfl
  | some found =>
    refine spends_bind (spends_readLibrary _) fun expired => ?_
    cases expired with
    | true => exact spends_return _
    | false =>
      refine spends_bind (spends_readLibrary _) fun current => ?_
      cases current with
      | none => exact spends_emitLog _ _ _
      | some current =>
        refine spends_bind (spends_release _) fun _ => ?_
        split
        · exact spends_return _
        · exact spends_emitLog _ _ _

theorem spends_addSource (source : WeakPtr Source) :
    Spends func 0 (Operations.RemoteRegistry.addSource source) := by
  refine spends_bind (spends_readLibrary _) fun lockedSource => ?_
  cases lockedSource with
  | none => exact spends_emitLog _ _ _
  | some lockedSource =>
    refine spends_bind (spends_call rfl) fun _ => spends_bind (spends_emitLog _ _ _) fun _ => ?_
    exact spends_locked (spends_enterSource lockedSource)

theorem spends_removeSource : Spends func 0 (Operations.RemoteRegistry.removeSource o) :=
  spends_bind (spends_emitLog _ _ _) fun _ => spends_locked (spends_nodes fun _ => rfl)

theorem spends_getSource : Spends func 0 (Operations.RemoteRegistry.getSource o) :=
  spends_bind (spends_emitLog _ _ _) fun _ => spends_locked (spends_readLibrary _)

theorem spends_liveNodes (ids : List Nat) :
    Spends func 0 (Operations.RemoteRegistry.liveNodes ids) := by
  induction ids with
  | nil => exact spends_return _
  | cons id ids ih =>
    refine spends_bind (spends_get id _) fun node => ?_
    refine spends_bind (spends_readLibrary _) fun expired => ?_
    exact spends_bind ih fun nodes => spends_return _

theorem spends_getNodes : Spends func 0 (Operations.RemoteRegistry.getNodes o) := by
  refine spends_bind (spends_emitLog _ _ _) fun _ => spends_locked ?_
  refine spends_bind (spends_readLibrary _) fun found => ?_
  cases found with
  | none => exact spends_return _
  | some found => exact spends_liveNodes found.nodes

theorem spends_addNodeForSource :
    Spends func 0 (Operations.RemoteRegistry.addNodeForSource id o) := by
  refine spends_bind (spends_get id _) fun node => ?_
  refine spends_bind (spends_readLibrary _) fun lockedNode => ?_
  cases lockedNode with
  | none => exact spends_emitLog _ _ _
  | some lockedNode =>
    exact spends_bind (spends_emitLog _ _ _) fun _ => spends_locked (spends_nodes fun _ => rfl)

theorem spends_removeNodeFromSource :
    Spends func 0 (Operations.RemoteRegistry.removeNodeFromSource id o) :=
  spends_bind (spends_emitLog _ _ _) fun _ => spends_locked (spends_nodes fun _ => rfl)

theorem spends_registerRemoteNode (node : WeakPtr NodeRef) :
    Spends func 0 (Operations.RemoteRegistry.registerNode node) := by
  refine spends_bind (spends_readLibrary _) fun lockedNode => ?_
  cases lockedNode with
  | none => exact spends_bind (spends_emitLog _ _ _) fun _ => spends_return _
  | some lockedNode => exact spends_add _ _

theorem spends_unregisterRemoteNode :
    Spends func 0 (Operations.RemoteRegistry.unregisterNode id) := by
  unfold Operations.RemoteRegistry.unregisterNode
  split
  · exact spends_bind (spends_locked (spends_nodes fun _ => rfl)) fun _ => spends_remove id _
  · exact spends_return _

end Registries

/-! ## The nodes -/

section Nodes

variable (lib : Codecs)

theorem spends_convert (n : NodeId) (msg : Json) :
    Spends func 0 (Operations.BaseNode.convert lib n msg) := by
  refine spends_bind (spends_readLibrary _) fun writeFunc => ?_
  cases writeFunc with
  | false => exact spends_return _
  | true =>
    refine spends_bind (spends_readLibrary _) fun converter => ?_
    exact spends_bind (spends_ofExcept _) fun converted => spends_return _

theorem spends_emitWrite (n : NodeId) (msg : Json) :
    Spends func 0 (Operations.BaseNode.emitWrite lib n msg) := by
  refine spends_bind (spends_emitLogWithPayload lib _ _ _ _) fun _ => ?_
  refine spends_bind (spends_locked (spends_convert lib n msg)) fun converted => ?_
  cases converted with
  | none => exact spends_emitLog _ _ _
  | some converted => exact spends_call rfl

theorem spends_tryBlock (msg : Json) {handle : Call → Routine Unit}
    (hh : ∀ c, Spends func 0 (handle c)) : Spends func 0 (Protocol.tryBlock lib msg handle) := by
  cases hc : Protocol.decode? lib.toJsonLibrary msg with
  | some c =>
    rw [Protocol.tryBlock_of_decode hc]
    exact hh c
  | none =>
    rw [Protocol.tryBlock_of_reject hc]
    split
    · split
      · exact spends_return _
      · exact spends_ofExcept _
    · exact spends_return _

theorem spends_dispatch (x : HasExceptions) (msg : Json) {handle : Call → Routine Unit}
    (hh : ∀ c, Spends func 0 (handle c)) : Spends func 0 (Protocol.dispatch lib msg x handle) := by
  cases x with
  | false => exact spends_tryBlock lib msg hh
  | true =>
    refine spends_tryCatch (spends_tryBlock lib msg hh) fun e => ?_
    cases e with
    | json what => exact spends_return _
    | _ => exact spends_ofExcept _

theorem spends_handleMessage (x : HasExceptions) (n : NodeId) (data : Bytes)
    {handle : Call → Routine Unit} (hh : ∀ c, Spends func 0 (handle c)) :
    Spends func 0 (Operations.BaseNode.handleMessage lib n x handle data) := by
  refine spends_bind (spends_locked (spends_readLibrary _)) fun parsed => ?_
  cases x with
  | false => exact spends_dispatch lib false parsed hh
  | true =>
    refine spends_tryCatch (spends_dispatch lib true parsed hh) fun e => ?_
    cases e with
    | other => exact spends_ofExcept _
    | _ => exact spends_emitLog _ _ _

theorem spends_baseHandle (n : NodeId) (c : Call) :
    Spends func 0 (Operations.BaseNode.handle lib n c) := by
  cases c with
  | link _ | unlink _ | invokeReply _ _ _ | error _ _ _ => exact spends_emitLog _ _ _
  | _ => exact spends_emitLogWithPayload lib _ _ _ _

theorem spends_onWrite (n : NodeId) (w : Bool) :
    Spends func 0 (Operations.BaseNode.onWrite n w) := by
  refine spends_replace (spends_exchangeLibrary fun l => subset_of_eq ?_)
  cases n with
  | base n => rfl
  | client n =>
    have hnode : pendingFor func (l.client.updateNode n fun node =>
        { node with writeFunc := w }) = pendingFor func l.client :=
      pendingFor_updateNode fun _ => rfl
    exact hnode
  | remote n => rfl

end Nodes

section ClientNodes

variable (lib : Codecs) (n : NodeRef) (o : Bytes)

/-- A new node waits for nothing. -/
theorem spends_create : Spends func 0 Operations.ClientNode.create := by
  refine spends_bind (spends_exchangeLibrary fun l x hx => ?_) fun n => ?_
  · change (Function.update l.client.nodes l.client.nextNode _ x.1).invokesPending[x.2]? = _ at hx
    by_cases hn : x.1 = l.client.nextNode
    · rw [hn, Function.update_self] at hx
      exact absurd hx (by simp)
    · rw [Function.update_of_ne hn] at hx
      exact hx
  · refine spends_bind (spends_registerClientNode _) fun id => ?_
    refine spends_exchangeLibrary fun l => subset_of_eq ?_
    have hnode : pendingFor func (l.client.updateNode n fun node =>
        { node with nodeId := id }) = pendingFor func l.client :=
      pendingFor_updateNode fun _ => rfl
    exact hnode

theorem spends_linkRemote : Spends func 0 (Operations.ClientNode.linkRemote lib n o) := by
  refine spends_bind (spends_emitLog _ _ _) fun _ => ?_
  refine spends_bind (spends_emitWrite lib _ _) fun _ => ?_
  refine spends_bind (spends_unsetNode o) fun _ => ?_
  exact spends_bind (spends_readLibrary _) fun id => spends_setNode id o

theorem spends_sinkOf : Spends func 0 (Operations.ClientNode.sinkOf o) :=
  spends_bind (spends_getSink o) fun _ => spends_readLibrary _

theorem spends_unlinkRemote : Spends func 0 (Operations.ClientNode.unlinkRemote lib n o) := by
  have hrest : Spends func 0 (do
      Operations.BaseNode.emitWrite lib (.client n) (Protocol.unlinkMessage o)
      Operations.ClientRegistry.unsetNode o) :=
    spends_bind (spends_emitWrite lib _ _) fun _ => spends_unsetNode o
  refine spends_bind (spends_emitLog _ _ _) fun _ => spends_bind (spends_sinkOf o) fun sink => ?_
  cases sink with
  | none => exact hrest
  | some sink => exact spends_bind (spends_call rfl) fun _ => hrest

theorem spends_setRemoteProperty (value : Json) :
    Spends func 0 (Operations.ClientNode.setRemoteProperty lib n o value) :=
  spends_bind (spends_emitLog _ _ _) fun _ => spends_emitWrite lib _ _

theorem spends_unlinkAll (ids : List ObjectId) :
    Spends func 0 (Operations.ClientNode.unlinkAll lib n ids) := by
  induction ids with
  | nil => exact spends_return _
  | cons id ids ih => exact spends_bind (spends_unlinkRemote lib n id) fun _ => ih

theorem spends_destroyClientNode : Spends func 0 (Operations.ClientNode.destroy lib n) := by
  refine spends_bind (spends_nodes fun _ => rfl) fun _ => ?_
  refine spends_bind (spends_readLibrary _) fun id => ?_
  refine spends_bind (spends_clientObjectIds _) fun ids => ?_
  refine spends_bind (spends_unlinkAll lib n ids) fun _ => ?_
  exact spends_bind (spends_readLibrary _) fun id => spends_unregisterClientNode id

/-- What is passed on to a sink, if there is one. -/
theorem spends_passOn {c : Sink → OutsideCall} (hc : ∀ sink, replies func (c sink) = false)
    (l : LoggerId) (level : LogLevel) (params : List LogParameter) : Spends func 0 (do
      match ← Operations.ClientNode.sinkOf o with
      | some sink => call (c sink)
      | none => emitLog l level params) := by
  refine spends_bind (spends_sinkOf o) fun sink => ?_
  cases sink with
  | none => exact spends_emitLog _ _ _
  | some sink => exact spends_call (hc sink)

/-- Entering a call is worth one more where it is a call with the function. -/
theorem encard_called (c : Client) (f : Option InvokeReplyFunc) :
    (pendingFor func (ClientNode.called c n f)).encard
      ≤ (pendingFor func c).encard + if f = some func then 1 else 0 := by
  have hsub : ∀ x ∈ pendingFor func (ClientNode.called c n f),
      (x = (n, (c.nodes n).nextRequestId + 1) ∧ f = some func) ∨ x ∈ pendingFor func c := by
    intro x hx
    rw [ClientNode.called, mem_pendingFor_updateNode] at hx
    split at hx
    · rename_i hn
      change ((c.nodes n).invokesPending.insert ((c.nodes n).nextRequestId + 1) f)[x.2]?
        = some (some func) at hx
      rw [Foundation.find_insert] at hx
      split at hx
      · rename_i hid
        exact Or.inl ⟨Prod.ext hn hid, Option.some.inj hx⟩
      · rw [← hn] at hx
        exact Or.inr hx
    · exact Or.inr hx
  split
  · calc (pendingFor func (ClientNode.called c n f)).encard
        ≤ (insert (n, (c.nodes n).nextRequestId + 1) (pendingFor func c)).encard :=
          Set.encard_le_encard fun x hx => (hsub x hx).imp And.left id
      _ ≤ (pendingFor func c).encard + 1 := Set.encard_insert_le _ _
  · rename_i hf
    rw [add_zero]
    exact Set.encard_le_encard fun x hx => (hsub x hx).resolve_left fun h => hf h.2

/-- **Entering a call** costs the allowance for it. -/
theorem spends_enterPending (f : Option InvokeReplyFunc) :
    Spends func (if f = some func then 1 else 0)
      (Operations.ClientNode.enterPending n f) := by
  refine spends_bind_of_pays fun p => ⟨0, ?_, fun entered _ => ?_⟩
  · rw [add_zero]
    exact encard_called n p.library.client f
  · match entered with
    | (requestId, some (some callback)) =>
      exact spends_bind (spends_release _) fun _ => spends_return _
    | (requestId, none) => exact spends_return _
    | (requestId, some none) => exact spends_return _

theorem spends_invokeRemote (args : Json) (f : Option InvokeReplyFunc) :
    Spends func (if f = some func then 1 else 0)
      (Operations.ClientNode.invokeRemote lib n o args f) := by
  refine spends_bind (spends_emitLog _ _ _) fun _ => ?_
  rw [← add_zero (ite _ _ _)]
  refine spends_bind_add (spends_withLock (spends_enterPending n f)) fun requestId => ?_
  exact spends_emitWrite lib _ _

/-- Taking a call out is worth one less where it is a call with the function. -/
theorem encard_taken (c : Client) (requestId : UInt32) :
    (pendingFor func (c.updateNode n fun node => { node with
        invokesPending := node.invokesPending.erase requestId })).encard
      + (if (c.nodes n).invokesPending[requestId]? = some (some func) then 1 else 0)
      ≤ (pendingFor func c).encard + 0 := by
  have hsub : ∀ x ∈ pendingFor func (c.updateNode n fun node => { node with
      invokesPending := node.invokesPending.erase requestId }),
      x ≠ (n, requestId) ∧ x ∈ pendingFor func c := by
    intro x hx
    rw [mem_pendingFor_updateNode] at hx
    split at hx
    · rename_i hn
      change ((c.nodes n).invokesPending.erase requestId)[x.2]? = some (some func) at hx
      rw [Foundation.find_erase] at hx
      split at hx
      · cases hx
      · rename_i hid
        refine ⟨fun h => hid (congrArg Prod.snd h), ?_⟩
        rw [← hn] at hx
        exact hx
    · rename_i hn
      exact ⟨fun h => hn (congrArg Prod.fst h), hx⟩
  rw [add_zero]
  split
  · rename_i hfound
    have hmem : (n, requestId) ∈ pendingFor func c := hfound
    rw [← Set.encard_sdiff_singleton_add_one hmem]
    gcongr
    exact fun x hx => ⟨(hsub x hx).2, (hsub x hx).1⟩
  · rw [add_zero]
    exact Set.encard_le_encard fun x hx => (hsub x hx).2

/-- **Taking a call out** pays for a call of its function. -/
theorem spends_takePending {β : Type} (requestId : UInt32)
    {rest : Option (Option InvokeReplyFunc) → Routine β}
    (hrest : ∀ found, Spends func (if found = some (some func) then 1 else 0) (rest found)) :
    Spends func 0 (Operations.ClientNode.takePending n requestId >>= rest) := by
  refine spends_bind_of_pays (pays_withLock fun p => ?_)
  refine ⟨if (p.library.client.nodes n).invokesPending[requestId]? = some (some func)
    then 1 else 0, ?_, fun found hfound => ?_⟩
  · exact encard_taken n p.library.client requestId
  · cases hfound
    exact hrest _

/-- The call of a function that has been taken out. -/
theorem spends_reply (callback : InvokeReplyFunc) (m : Bytes) (value : Json) :
    Spends func (if some (some callback) = some (some func) then 1 else 0)
      (call (.invokeReply callback m value)) := by
  by_cases hf : callback = func
  · subst hf
    rw [if_pos rfl]
    have hask : Spends callback 1 (ask (.invokeReply callback m value)) := by
      refine spends_outside ?_
      change (if decide (callback = callback) = true then (1 : ℕ∞) else 0) ≤ 1
      rw [if_pos (decide_eq_true rfl)]
    exact spends_bind_of_pays (hask.mono fun _ _ _ _ _ => spends_pure _)
  · rw [if_neg fun h => hf (Option.some.inj (Option.some.inj h))]
    exact spends_call (decide_eq_false hf)

theorem spends_clientHandle (c : Call) :
    Spends func 0 (Operations.ClientNode.handle lib n c) := by
  cases c with
  | init o props =>
    exact spends_bind (spends_emitLogWithPayload lib _ _ _ _) fun _ =>
      spends_passOn o (fun _ => rfl) _ _ _
  | propertyChange p v =>
    exact spends_bind (spends_emitLogWithPayload lib _ _ _ _) fun _ =>
      spends_passOn _ (fun _ => rfl) _ _ _
  | signal s args =>
    exact spends_bind (spends_emitLog _ _ _) fun _ => spends_passOn _ (fun _ => rfl) _ _ _
  | invokeReply id m v =>
    refine spends_bind (spends_emitLogWithPayload lib _ _ _ _) fun _ => ?_
    refine spends_takePending n id fun found => ?_
    match found with
    | none => exact (spends_emitLog _ _ _).le zero_le
    | some none => exact (spends_emitLog _ _ _).le zero_le
    | some (some callback) => exact spends_reply callback m v
  | error t id e =>
    refine spends_bind (spends_emitLog _ _ _) fun _ => ?_
    split
    · refine spends_takePending n id.toUInt32 fun found => ?_
      match found with
      | none => exact (spends_return _).le zero_le
      | some none => exact (spends_return _).le zero_le
      | some (some callback) => exact spends_reply callback [] .null
    · exact spends_return _
  | link o => exact spends_baseHandle lib _ (.link o)
  | unlink o => exact spends_baseHandle lib _ (.unlink o)
  | setProperty p v => exact spends_baseHandle lib _ (.setProperty p v)
  | invoke id m args => exact spends_baseHandle lib _ (.invoke id m args)

end ClientNodes

section RemoteNodes

variable (lib : Codecs) (n : NodeRef) (o : Bytes)

theorem spends_createRemoteNode : Spends func 0 Operations.RemoteNode.createRemoteNode := by
  refine spends_bind (spends_nodes fun _ => rfl) fun n => ?_
  exact spends_bind (spends_registerRemoteNode _) fun id => spends_nodes fun _ => rfl

theorem spends_destroyRemoteNode : Spends func 0 (Operations.RemoteNode.destroy n) := by
  refine spends_bind (spends_nodes fun _ => rfl) fun _ => ?_
  exact spends_bind (spends_readLibrary _) fun id => spends_unregisterRemoteNode id

theorem spends_sourceOf : Spends func 0 (Operations.RemoteNode.sourceOf o) :=
  spends_bind (spends_getSource o) fun _ => spends_readLibrary _

theorem spends_remoteHandle (c : Call) :
    Spends func 0 (Operations.RemoteNode.handle lib n c) := by
  cases c with
  | link o =>
    refine spends_bind (spends_emitLog _ _ _) fun _ => ?_
    refine spends_bind (spends_sourceOf o) fun source => ?_
    cases source with
    | none => exact spends_emitLog _ _ _
    | some source =>
      refine spends_bind (spends_readLibrary _) fun id => ?_
      refine spends_bind (spends_addNodeForSource id o) fun _ => ?_
      refine spends_bind (spends_call rfl) fun _ => ?_
      exact spends_bind (spends_ask rfl) fun props => spends_emitWrite lib _ _
  | unlink o =>
    refine spends_bind (spends_sourceOf o) fun source => ?_
    cases source with
    | none => exact spends_return _
    | some source =>
      refine spends_bind (spends_call rfl) fun _ => spends_bind (spends_readLibrary _) fun id => ?_
      exact spends_removeNodeFromSource id o
  | setProperty p v =>
    refine spends_bind (spends_sourceOf _) fun source => ?_
    cases source with
    | none => exact spends_return _
    | some source => exact spends_call rfl
  | invoke id m args =>
    refine spends_bind (spends_sourceOf _) fun source => ?_
    cases source with
    | none => exact spends_return _
    | some source => exact spends_bind (spends_ask rfl) fun value => spends_emitWrite lib _ _
  | init o props => exact spends_baseHandle lib _ (.init o props)
  | propertyChange p v => exact spends_baseHandle lib _ (.propertyChange p v)
  | invokeReply id m v => exact spends_baseHandle lib _ (.invokeReply id m v)
  | signal s args => exact spends_baseHandle lib _ (.signal s args)
  | error t id e => exact spends_baseHandle lib _ (.error t id e)

end RemoteNodes

theorem spends_handle (lib : Codecs) (n : NodeId) (c : Call) :
    Spends func 0 (Operations.handle lib n c) := by
  cases n with
  | base n => exact spends_baseHandle lib (.base n) c
  | client n => exact spends_clientHandle lib n c
  | remote n => exact spends_remoteHandle lib n c

/-! ## All operations -/

/-- What an operation is allowed. -/
noncomputable def allowance (func : InvokeReplyFunc) (op : Operation) : ℕ∞ :=
  if invokes func op then 1 else 0

/-- **Each operation** gets along with its allowance. -/
theorem spends_code (func : InvokeReplyFunc) (lib : Codecs) (op : Operation) :
    Spends func (allowance func op) (code lib op) := by
  cases op with
  | invokeRemote n m args f =>
    have hallowance : allowance func (.invokeRemote n m args f)
        = if f = some func then 1 else 0 := by
      unfold allowance invokes
      simp only [decide_eq_true_eq]
    rw [hallowance]
    exact spends_invokeRemote lib n m args f
  | onLog l logFunc => exact spends_replace (spends_exchange fun _ => le_rfl)
  | setLogLevel l level => exact spends_locked (spends_exchange fun _ => le_rfl)
  | setNode id o => exact spends_setNode id o
  | unsetNode o => exact spends_unsetNode o
  | addSink sink => exact spends_addSink sink
  | removeSink o => exact spends_removeSink o
  | getSink o => exact spends_dropped (spends_getSink o)
  | getClientObjectIds id => exact spends_dropped (spends_clientObjectIds id)
  | getNode o => exact spends_dropped (spends_getNode o)
  | registerClientNode node => exact spends_dropped (spends_registerClientNode node)
  | unregisterClientNode id => exact spends_unregisterClientNode id
  | addSource source => exact spends_addSource source
  | removeSource o => exact spends_removeSource o
  | getSource o => exact spends_dropped (spends_getSource o)
  | getNodes o => exact spends_dropped (spends_getNodes o)
  | getRemoteObjectIds id => exact spends_dropped (spends_locked (spends_readLibrary _))
  | addNodeForSource id o => exact spends_addNodeForSource id o
  | removeNodeFromSource id o => exact spends_removeNodeFromSource id o
  | registerRemoteNode node => exact spends_dropped (spends_registerRemoteNode node)
  | unregisterRemoteNode id => exact spends_unregisterRemoteNode id
  | onWrite n writeFunc => exact spends_onWrite n writeFunc
  | setMessageFormat n format => exact spends_locked (spends_nodes fun _ => rfl)
  | setMaxMessageSize n size => exact spends_locked (spends_nodes fun _ => rfl)
  | emitWrite n msg => exact spends_emitWrite lib n msg
  | handleMessage x n data => exact spends_handleMessage lib x n data (spends_handle lib n)
  | handle n c => exact spends_handle lib n c
  | handleBase n c => exact spends_baseHandle lib n c
  | create => exact spends_create
  | destroyClientNode n => exact spends_destroyClientNode lib n
  | linkRemote n o => exact spends_linkRemote lib n o
  | unlinkRemote n o => exact spends_unlinkRemote lib n o
  | setRemoteProperty n p value => exact spends_setRemoteProperty lib n p value
  | createRemoteNode => exact spends_createRemoteNode
  | destroyRemoteNode n => exact spends_destroyRemoteNode n
  | notifyPropertyChange n p value => exact spends_emitWrite lib _ _
  | notifySignal n s args => exact spends_emitWrite lib _ _

/-! ## Runs -/

variable {ι : Type}

/-- Whether a thread calls the function in this step. -/
def isReply (func : InvokeReplyFunc)
    (x : Pool platform ι × PoolAction platform Operation ι) : Bool :=
  (x.1.calls x.2).any (replies func)

/-- Whether code outside calls `invokeRemote` with the function. -/
def isInvoke (func : InvokeReplyFunc)
    (x : Pool platform ι × PoolAction platform Operation ι) : Bool :=
  match x.2 with
  | .start _ op => invokes func op
  | _ => false

theorem spent_eq (x : Pool platform ι × PoolAction platform Operation ι) :
    x.1.spent (budget func) x.2 = if isReply func x then 1 else 0 := by
  unfold Pool.spent isReply
  cases x.1.calls x.2 with
  | none => rfl
  | some c => rfl

theorem allowed_eq (x : Pool platform ι × PoolAction platform Operation ι) :
    x.2.allowed (allowance func) = if isInvoke func x then 1 else 0 := by
  obtain ⟨p, a⟩ := x
  cases a <;> rfl

/-- Adding one for each element that meets a condition counts them. -/
theorem sum_eq_countP {β : Type*} {f : β → ℕ∞} {b : β → Bool} (hf : ∀ x, f x = if b x then 1 else 0)
    (xs : List β) : (xs.map f).sum = xs.countP b := by
  induction xs with
  | nil => rfl
  | cons x xs ih =>
    rw [List.map_cons, List.sum_cons, ih, hf, List.countP_cons, Nat.cast_add, add_comm]
    split <;> rfl

variable [DecidableEq ι] {lib : Codecs} {start : Process}

/-- **At most one callback per call.** In every run of any number of threads, whatever code outside
does: a function is called at most as often as `invokeRemote` has been called with it, less the
calls that are still pending (and more those that were at the start). -/
theorem callbacks {h : List (Pool platform ι × PoolAction platform Operation ι)}
    {p : Pool platform ι} (hr : Run (Concurrency.machine lib start ι) h p)
    (func : InvokeReplyFunc) :
    h.countP (isReply func) + (pendingFor func p.state.library.client).encard
      ≤ h.countP (isInvoke func) + (pendingFor func start.library.client).encard := by
  have hpaid := paid_run (B := budget func) (spends_code func lib) (fun s s' hs => ?_)
    (fun s hs => le_of_eq (congrArg (budget func).stock hs)) hr
  · have hspent : (h.map fun x => x.1.spent (budget func) x.2).sum = h.countP (isReply func) :=
      sum_eq_countP spent_eq h
    have hallowed : (h.map fun x => x.2.allowed (allowance func)).sum
        = h.countP (isInvoke func) := sum_eq_countP allowed_eq h
    rwa [hspent, hallowed] at hpaid
  · have hnodes : pendingFor func s'.library.client = pendingFor func s.library.client := by
      unfold pendingFor
      rw [hs.clientNodes]
    exact le_of_eq (congrArg Set.encard hnodes)

/-! ## A reply and a duplicate -/

theorem eq_empty_of_add_encard_le {β : Type*} {k : ℕ} {s : Set β}
    (h : (k : ℕ∞) + s.encard ≤ k) : s = ∅ := by
  have hle : s.encard ≤ 0 :=
    (ENat.add_le_add_iff_left (ENat.natCast_ne_top k)).mp (h.trans_eq (add_zero _).symm)
  exact Set.encard_eq_zero.mp (nonpos_iff_eq_zero.mp hle)

/-- The reply to the first call. -/
def reply : Operation := .handle (.client 0) (.invokeReply 1 (lit "o/m") .null)

/-- A client node with a write function, and nothing else. -/
def oneNode : Process where
  library := { Library.new with
    client := ClientNode.onWrite 0 (ClientNode.create Library.new.client).2 }
  loggers := fun _ => .new

/-- Two threads, none of which runs. -/
def idleThreads : Pool platform Bool where
  state := oneNode
  workers := fun _ => { held := [], running := none, waiting := [] }

/-- Two threads that use the node. -/
abbrev twoThreads : Machine (Pool platform Bool) (PoolAction platform Operation Bool) :=
  Concurrency.machine LockDiscipline.nullCodecs oneNode Bool

/-- A call is entered and written on one thread. While the write function is running, the reply
arrives on the other one and calls the function; while that is running, a copy of the reply arrives
on the first one. -/
def repliesTwice : List (PoolAction platform Operation Bool) :=
  .start true (.invokeRemote 0 (lit "o/m") .null (some 7)) :: List.replicate 14 (.step true) ++
  .start false reply :: List.replicate 7 (.step false) ++
  .start true reply :: List.replicate 10 (.step true)

theorem run_repliesTwice : Run twoThreads (twoThreads.history idleThreads repliesTwice)
    (twoThreads.exec idleThreads repliesTwice) := by
  refine run_play repliesTwice ⟨rfl, fun _ => rfl⟩ ?_
  refine ⟨rfl, ?_, trivial, trivial, ?_, trivial, trivial, ?_, trivial, trivial, ?_, trivial,
    trivial, trivial, trivial, rfl, ?_, trivial, trivial, ?_, trivial, trivial, trivial,
    rfl, ?_, trivial, trivial, ?_, trivial, trivial, ?_, trivial, trivial, trivial, trivial⟩ <;>
    rintro (_ | _) h <;> cases h

theorem pendingFor_oneNode : pendingFor 7 oneNode.library.client = ∅ := by
  refine Set.eq_empty_iff_forall_notMem.mpr fun ⟨n, id⟩ hx => ?_
  have hempty : (oneNode.library.client.nodes n).invokesPending = ∅ := by
    cases n <;> rfl
  have hx' : (oneNode.library.client.nodes n).invokesPending[id]? = some (some 7) := hx
  rw [hempty] at hx'
  simp at hx'

/-- The function has been called once, and the call is no longer pending. -/
theorem callbacks_repliesTwice :
    (twoThreads.history idleThreads repliesTwice).countP (isReply 7) = 1 ∧
    pendingFor 7 (twoThreads.exec idleThreads repliesTwice).state.library.client = ∅ := by
  have hreplies : (twoThreads.history idleThreads repliesTwice).countP (isReply 7) = 1 := by
    decide +kernel
  have hinvokes : (twoThreads.history idleThreads repliesTwice).countP (isInvoke 7) = 1 := by
    decide +kernel
  have hle := callbacks run_repliesTwice 7
  rw [pendingFor_oneNode, Set.encard_empty, add_zero, hreplies, hinvokes] at hle
  exact ⟨hreplies, eq_empty_of_add_encard_le hle⟩

end Callbacks

end ObjectLink
