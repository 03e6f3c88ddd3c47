import ObjectLink.ClientCalls

/-!
# The table of pending calls

`invokeRemote` (`clientnode.cpp:51-61`) draws the next number of an unsigned 32-bit counter, enters
the callback under it, and only then writes the message. The number is "a unique, non negative id"
(`clientnode.h:89`) until the counter comes round to it again; the entry stays if the message cannot
be sent.

Results:
* `table_next`: what each operation does to the table of a node, whether or not code outside the
  library throws.
* `pending_iff`: a number is pending since a call that drew it, as long as no message named it.
* `storesAnew_iff`: a call overwrites none exactly if no unanswered call was made a multiple of
  2^32 calls before; `calls_overwrite_iff` the same over whole runs, `overwrites_wrapped` a run of
  2^32 calls.
* `error_resolves`: an `Error` ends the call it names, for every number.
* `undone_iff`: which operations leave the client as it was when their message is not sent.
-/

namespace ObjectLink

open Foundation (Machine Run Since run_play)

/-! ## The table of one node -/

namespace Client

open ClientNode (requestOf called forget)

/-- What happens on the client side from the creation of the node `n` on, with operations that may
throw. -/
def lifeOf (lib : JsonLibrary) (n : NodeRef) : Machine Client (ClientEnv × Action) where
  init w := ∃ v, w = (ClientNode.create v).2 ∧ n = v.nextNode
  enabled w x := Possible w x.2
  next w x := nextIn lib w x.1 x.2

/-- The operation is a call of a method through the node. -/
def IsCall (n : NodeRef) : Action → Prop
  | .invokeRemote m _ _ _ => m = n
  | _ => False

/-- The node receives a message that names the call with this number, and gets past logging it. -/
def Answers (lib : JsonLibrary) (n : NodeRef) (id : UInt32) : Action → Prop
  | .receive m msg env => m = n ∧ (ClientNode.handled env lib msg).bind requestOf = some id
  | _ => False

variable {lib : JsonLibrary} {w : Client} {n : NodeRef} {env : ClientEnv} {a : Action}
  {id : UInt32}

/-- What the node knows of its calls. -/
def calls (w : Client) (n : NodeRef) : UInt32 × Foundation.Map UInt32 (Option InvokeReplyFunc) :=
  ((w.nodes n).nextRequestId, (w.nodes n).invokesPending)

theorem calls_updateNode {f : ClientNodeState → ClientNodeState} {effects : List ClientEffect} :
    calls { w.updateNode n f with effects := effects } n =
      ((f (w.nodes n)).nextRequestId, (f (w.nodes n)).invokesPending) := by
  unfold calls updateNode
  simp

/-- Changing the other nodes, or other members of this one. -/
theorem calls_updateNode_of_same {m : NodeRef} {f : ClientNodeState → ClientNodeState}
    {effects : List ClientEffect} (hf : m = n → ∀ node,
      (f node).nextRequestId = node.nextRequestId ∧
        (f node).invokesPending = node.invokesPending) :
    calls { w.updateNode m f with effects := effects } n = calls w n := by
  unfold calls updateNode
  dsimp only
  by_cases hm : n = m
  · rw [if_pos hm, (hf hm.symm _).1, (hf hm.symm _).2]
  · rw [if_neg hm]

/-- **A call** draws the next number and is entered under it, whether or not its message can be
sent. -/
theorem calls_invokeRemote {methodId : Bytes} {args : Json} {func : Option InvokeReplyFunc} :
    calls (nextIn lib w env (.invokeRemote n methodId args func)) n =
      ((w.nodes n).nextRequestId + 1,
        (w.nodes n).invokesPending.insert ((w.nodes n).nextRequestId + 1) func) := by
  unfold nextIn
  dsimp only
  rw [ClientNode.invokeRemote_state]
  exact calls_updateNode

/-- A received message takes the call it names out of the table, unless logging it throws. -/
theorem calls_receive {msg : Json} {env' : ClientEnv} :
    calls (nextIn lib w env (.receive n msg env')) n = ((w.nodes n).nextRequestId,
      ((ClientNode.handled env' lib msg).bind requestOf).elim (w.nodes n).invokesPending
        (w.nodes n).invokesPending.erase) := by
  have hstate : nextIn lib w env (.receive n msg env') =
    (ClientNode.handleMessage env' n lib msg w).2 := rfl
  rw [hstate, ClientNode.handleMessage_state]
  cases ClientNode.handled env' lib msg with
  | none => rfl
  | some c =>
    unfold ClientNode.received
    dsimp only [Option.bind_some]
    cases requestOf c with
    | none => rfl
    | some id => exact calls_updateNode

/-- **No other operation touches the table**, the counter or the callbacks. -/
theorem calls_other (hcall : ¬ IsCall n a) (hans : ∀ id, ¬ Answers lib n id a)
    (hn : n < w.nextNode) : calls (nextIn lib w env a) n = calls w n := by
  cases a with
  | create =>
    have hne : n ≠ w.nextNode := Nat.ne_of_lt hn
    have hnode : (nextIn lib w env .create).nodes n = w.nodes n := if_neg hne
    unfold calls
    rw [hnode]
  | onWrite m =>
    exact calls_updateNode_of_same (m := m) (f := fun node => { node with writeFunc := true })
      fun _ _ => ⟨rfl, rfl⟩
  | linkRemote m o =>
    exact ClientNode.keeps_linkRemote (f := fun w => calls w n) (fun _ _ _ => rfl) o w
  | unlinkRemote m o =>
    exact ClientNode.keeps_unlinkRemote (f := fun w => calls w n) (fun _ _ _ => rfl) o w
  | setRemoteProperty m p v =>
    exact ClientNode.keeps_emitWrite (f := fun w => calls w n) (fun _ _ => rfl) _ w
  | destroy m =>
    exact ClientNode.keeps_destroy (f := fun w => calls w n) (fun _ _ _ _ => rfl) w
  | invokeRemote m methodId args func =>
    unfold nextIn
    dsimp only
    rw [ClientNode.invokeRemote_state]
    exact calls_updateNode_of_same (m := m) (f := fun node => { node with
      nextRequestId := node.nextRequestId + 1
      invokesPending := node.invokesPending.insert (node.nextRequestId + 1) func })
      fun hm => absurd hm hcall
  | receive m msg env' =>
    have hstate : nextIn lib w env (.receive m msg env') =
      (ClientNode.handleMessage env' m lib msg w).2 := rfl
    rw [hstate, ClientNode.handleMessage_state]
    cases hdec : ClientNode.handled env' lib msg with
    | none => rfl
    | some c =>
      unfold ClientNode.received
      dsimp only
      cases hreq : requestOf c with
      | none => rfl
      | some id =>
        refine calls_updateNode_of_same (m := m) (f := fun node => { node with
          invokesPending := node.invokesPending.erase id }) fun hm => ?_
        exact absurd ⟨hm, by rw [hdec, Option.bind_some, hreq]⟩ (hans id)
  | addSink _ | removeSink _ | sinkExpires _ => rfl

/-! ## Runs -/

instance decidableIsCall (n : NodeRef) : (a : Action) → Decidable (IsCall n a)
  | .invokeRemote m _ _ _ => inferInstanceAs (Decidable (m = n))
  | .create | .onWrite _ | .linkRemote _ _ | .unlinkRemote _ _ | .setRemoteProperty _ _ _
  | .receive _ _ _ | .destroy _ | .addSink _ | .removeSink _ | .sinkExpires _ =>
    inferInstanceAs (Decidable False)

variable {h : List (Client × ClientEnv × Action)}

/-- The number of calls made through the node. -/
def callCount (n : NodeRef) (h : List (Client × ClientEnv × Action)) : Nat :=
  h.countP fun x => decide (IsCall n x.2.2)

theorem callCount_append (h₁ h₂ : List (Client × ClientEnv × Action)) :
    callCount n (h₁ ++ h₂) = callCount n h₁ + callCount n h₂ := List.countP_append

theorem callCount_cons (x : Client × ClientEnv × Action) (h : List (Client × ClientEnv × Action)) :
    callCount n (x :: h) = callCount n h + if IsCall n x.2.2 then 1 else 0 := by
  unfold callCount
  rw [List.countP_cons]
  simp only [decide_eq_true_eq]

/-- A run only goes on to later nodes. -/
theorem nextNode_nextIn (lib : JsonLibrary) (w : Client) (env : ClientEnv) (a : Action) :
    w.nextNode ≤ (nextIn lib w env a).nextNode := by
  cases a with
  | create => exact Nat.le_succ _
  | linkRemote m o =>
    exact Nat.le_of_eq (ClientNode.keeps_linkRemote (f := nextNode) (fun _ _ _ => rfl) o w).symm
  | unlinkRemote m o =>
    exact Nat.le_of_eq (ClientNode.keeps_unlinkRemote (f := nextNode) (fun _ _ _ => rfl) o w).symm
  | setRemoteProperty m p v =>
    exact Nat.le_of_eq (ClientNode.keeps_emitWrite (f := nextNode) (fun _ _ => rfl) _ w).symm
  | destroy m =>
    exact Nat.le_of_eq (ClientNode.keeps_destroy (f := nextNode) (fun _ _ _ _ => rfl) w).symm
  | invokeRemote m methodId args func =>
    unfold nextIn
    dsimp only
    rw [ClientNode.invokeRemote_state]
    exact Nat.le_refl _
  | receive m msg env' =>
    exact Nat.le_of_eq (ClientNode.sameLinks_handleMessage lib msg).nextNode.symm
  | onWrite _ | addSink _ | removeSink _ | sinkExpires _ => exact Nat.le_refl _

theorem lt_nextNode (hr : Run (lifeOf lib n) h w) : n < w.nextNode := by
  refine hr.invariant (I := fun w => n < w.nextNode) ?_ ?_
  · rintro w ⟨v, rfl, rfl⟩
    exact Nat.lt_succ_self _
  · intro w x hn _
    exact Nat.lt_of_lt_of_le hn (nextNode_nextIn lib w x.1 x.2)

theorem calls_init (hw : (lifeOf lib n).init w) : calls w n = (0, ∅) := by
  obtain ⟨v, rfl, rfl⟩ := hw
  unfold calls ClientNode.create
  simp

/-- **The counter** is the number of calls, modulo 2^32. -/
theorem counter_run (hr : Run (lifeOf lib n) h w) :
    (w.nodes n).nextRequestId = UInt32.ofNat (callCount n h) := by
  induction hr with
  | init hw => exact congrArg Prod.fst (calls_init hw)
  | @snoc h w x hr _ ih =>
    obtain ⟨env, a⟩ := x
    show (calls (nextIn lib w env a) n).1 = _
    rw [callCount_append, callCount_cons]
    by_cases hcall : IsCall n a
    · rw [if_pos hcall]
      cases a with
      | invokeRemote m methodId args func =>
        have hm : m = n := hcall
        rw [hm, calls_invokeRemote]
        dsimp only
        rw [ih]
        exact (UInt32.ofNat_add _ 1).symm
      | _ => exact hcall.elim
    · rw [if_neg hcall]
      by_cases hans : ∃ id, Answers lib n id a
      · obtain ⟨id, hans⟩ := hans
        cases a with
        | receive m msg env' =>
          have hm : m = n := hans.1
          rw [hm, calls_receive]
          exact ih
        | _ => exact hans.elim
      · rw [not_exists] at hans
        rw [calls_other hcall hans (lt_nextNode hr)]
        exact ih

/-- The call that draws this number. -/
def Draws (n : NodeRef) (id : UInt32) (x : Client × ClientEnv × Action) : Prop :=
  IsCall n x.2.2 ∧ (x.1.nodes n).nextRequestId + 1 = id

/-- **One step**: a number is pending after it if the step draws it, or if it was before and the
step does not answer it. -/
theorem pending_next (hn : n < w.nextNode) : id ∈ (calls (nextIn lib w env a) n).2 ↔
    Draws n id (w, env, a) ∨ (id ∈ (calls w n).2 ∧ ¬ Answers lib n id a) := by
  unfold Draws
  dsimp only
  by_cases hcall : IsCall n a
  · cases a with
    | invokeRemote m methodId args func =>
      have hm : m = n := hcall
      rw [hm, calls_invokeRemote, Foundation.mem_insert_iff, eq_comm]
      simp [IsCall, Answers, calls]
    | _ => exact hcall.elim
  · by_cases hans : ∃ j, Answers lib n j a
    · obtain ⟨j, hans⟩ := hans
      cases a with
      | receive m msg env' =>
        obtain ⟨rfl, hj⟩ := hans
        rw [calls_receive, hj, Option.elim_some, Foundation.mem_erase_iff]
        simp [IsCall, Answers, hj, calls, eq_comm, and_comm]
      | _ => exact hans.elim
    · rw [not_exists] at hans
      rw [calls_other hcall hans hn]
      simp [hcall, hans id]

/-- **A number is pending** since a call that drew it, as long as no message named it. -/
theorem pending_iff (hr : Run (lifeOf lib n) h w) : id ∈ (calls w n).2 ↔
    Since (Draws n id) (fun x => Answers lib n id x.2.2) h := by
  refine Run.iff_since (M := lifeOf lib n) (I := fun w => n < w.nextNode)
    (Q := fun w => id ∈ (calls w n).2) (fun _ _ hr => lt_nextNode hr) ?_ ?_ hr
  · intro w hw
    rw [calls_init hw]
    exact Std.ExtTreeMap.not_mem_empty
  · intro w x hn _
    exact pending_next hn

/-! ## Overwritten calls -/

/-- **What a call should do** to the table: it is entered under a number that is not pending, every
other pending call stays, and there is one more than before. -/
structure StoresAnew (lib : JsonLibrary) (w : Client) (n : NodeRef) (env : ClientEnv)
    (methodId : Bytes) (args : Json) (func : Option InvokeReplyFunc) : Prop where
  fresh : ∀ id, ((ClientNode.nextRequestId n).run w).1 = .ok id →
    id ∉ (w.nodes n).invokesPending ∧
    ((nextIn lib w env (.invokeRemote n methodId args func)).nodes n).invokesPending[id]?
      = some func
  kept : ∀ (id : UInt32) (f : Option InvokeReplyFunc), (w.nodes n).invokesPending[id]? = some f →
    ((nextIn lib w env (.invokeRemote n methodId args func)).nodes n).invokesPending[id]? = some f
  size : ((nextIn lib w env (.invokeRemote n methodId args func)).nodes n).invokesPending.size
    = (w.nodes n).invokesPending.size + 1

/-- Each call that was made a multiple of 2^32 calls before the next one has been answered. -/
def Answered (lib : JsonLibrary) (n : NodeRef) (h : List (Client × ClientEnv × Action)) : Prop :=
  ∀ h₁ x h₂, h = h₁ ++ x :: h₂ → IsCall n x.2.2 → 2 ^ 32 ∣ callCount n h₂ + 1 →
    ∃ y ∈ h₂, Answers lib n (UInt32.ofNat (callCount n h₁ + 1)) y.2.2

/-- Everything hangs on the number being free. -/
theorem storesAnew_iff_not_mem {methodId : Bytes} {args : Json} {func : Option InvokeReplyFunc} :
    StoresAnew lib w n env methodId args func ↔
      (w.nodes n).nextRequestId + 1 ∉ (w.nodes n).invokesPending := by
  have hid : ∀ id, ((ClientNode.nextRequestId n).run w).1 = .ok id ↔
      id = (w.nodes n).nextRequestId + 1 := fun id => by
    rw [ClientNode.nextRequestId_run]
    simp [eq_comm]
  have htable : ((nextIn lib w env (.invokeRemote n methodId args func)).nodes n).invokesPending
      = (w.nodes n).invokesPending.insert ((w.nodes n).nextRequestId + 1) func :=
    congrArg Prod.snd calls_invokeRemote
  constructor
  · exact fun hs => (hs.fresh _ ((hid _).mpr rfl)).1
  · intro hfree
    refine ⟨?_, ?_, ?_⟩
    · intro id h
      rw [(hid id).mp h, htable, Foundation.find_insert, if_pos rfl]
      exact ⟨hfree, rfl⟩
    · intro id f hf
      rw [htable, Foundation.find_insert, if_neg, hf]
      rintro rfl
      exact hfree ((Foundation.mem_iff_find _ _).mpr ⟨f, hf⟩)
    · rw [htable, Std.ExtTreeMap.size_insert, if_neg]
      rwa [Std.ExtTreeMap.contains_iff_mem]

/-- Numbers drawn `d` calls apart. -/
theorem ofNat_add_eq_iff (a d : Nat) : UInt32.ofNat (a + d) = UInt32.ofNat a ↔ 2 ^ 32 ∣ d := by
  have hmod : (UInt32.ofNat (a + d) = UInt32.ofNat a) ↔ (a + d) % 2 ^ 32 = a % 2 ^ 32 := by
    rw [← UInt32.toNat_inj, UInt32.toNat_ofNat', UInt32.toNat_ofNat']
  rw [hmod]
  omega

/-- A call of the run drew the number of the next one exactly if the next one comes a multiple of
2^32 calls after it. -/
theorem draws_iff {h₁ h₂ : List (Client × ClientEnv × Action)} {x : Client × ClientEnv × Action}
    (hr : Run (lifeOf lib n) (h₁ ++ x :: h₂) w) (hx : IsCall n x.2.2) :
    UInt32.ofNat (callCount n h₁ + 1) = (x.1.nodes n).nextRequestId + 1 ∧
      (Draws n ((w.nodes n).nextRequestId + 1) x ↔ 2 ^ 32 ∣ callCount n h₂ + 1) := by
  have hbefore : (x.1.nodes n).nextRequestId = UInt32.ofNat (callCount n h₁) :=
    counter_run hr.split.1
  have hdrawn : UInt32.ofNat (callCount n h₁ + 1) = (x.1.nodes n).nextRequestId + 1 := by
    rw [hbefore]
    exact UInt32.ofNat_add _ 1
  refine ⟨hdrawn, ?_⟩
  have hnow : (w.nodes n).nextRequestId + 1
      = UInt32.ofNat (callCount n h₁ + 1 + (callCount n h₂ + 1)) := by
    rw [counter_run hr, callCount_append, callCount_cons, if_pos hx]
    refine (UInt32.ofNat_add _ 1).symm.trans (congrArg UInt32.ofNat ?_)
    omega
  unfold Draws
  rw [and_iff_right hx, ← hdrawn, hnow, eq_comm, ofNat_add_eq_iff]

/-- **The next call** overwrites none exactly if each call a multiple of 2^32 calls before it has
been answered. -/
theorem storesAnew_iff (hr : Run (lifeOf lib n) h w) {methodId : Bytes} {args : Json}
    {func : Option InvokeReplyFunc} :
    StoresAnew lib w n env methodId args func ↔ Answered lib n h := by
  rw [storesAnew_iff_not_mem]
  have hpending : (w.nodes n).nextRequestId + 1 ∈ (calls w n).2 ↔ _ := pending_iff hr
  have hcalls : (calls w n).2 = (w.nodes n).invokesPending := rfl
  rw [← hcalls, hpending]
  constructor
  · rintro hno h₁ x h₂ rfl hx hdvd
    obtain ⟨hdrawn, hiff⟩ := draws_iff hr hx
    by_contra hnone
    refine hno ⟨h₁, x, h₂, rfl, hiff.mpr hdvd, ?_⟩
    intro y hy hans
    refine hnone ⟨y, hy, ?_⟩
    rwa [hdrawn, (hiff.mpr hdvd).2]
  · rintro hall ⟨h₁, x, h₂, rfl, hdraws, hno⟩
    obtain ⟨hdrawn, hiff⟩ := draws_iff hr hdraws.1
    obtain ⟨y, hy, hans⟩ := hall h₁ x h₂ rfl hdraws.1 (hiff.mp hdraws)
    rw [hdrawn, hdraws.2] at hans
    exact hno y hy hans

/-- **Overwritten calls over whole runs.** In every state a client can reach after the node was
made, with any operations in any order, throwing ones included: the next call draws a number that is
not pending, stores its callback without removing another one and makes the table larger by one,
exactly if each call that was made a multiple of 2^32 calls before has been answered. So all calls
of a run do that exactly if this holds at each of them. -/
theorem calls_overwrite_iff (hr : Run (lifeOf lib n) h w) :
    (∀ env methodId args func,
      StoresAnew lib w n env methodId args func ↔ Answered lib n h) ∧
    ((∀ h₁ v env methodId args func h₂,
        h = h₁ ++ (v, env, .invokeRemote n methodId args func) :: h₂ →
        StoresAnew lib v n env methodId args func) ↔
      ∀ h₁ x h₂, h = h₁ ++ x :: h₂ → IsCall n x.2.2 → Answered lib n h₁) := by
  refine ⟨fun env methodId args func => storesAnew_iff hr, ?_, ?_⟩
  · rintro hall h₁ ⟨v, env, a⟩ h₂ rfl hx
    cases a with
    | invokeRemote m methodId args func =>
      have hm : m = n := hx
      subst hm
      exact (storesAnew_iff hr.split.1).mp (hall h₁ v env methodId args func h₂ rfl)
    | _ => exact hx.elim
  · rintro hall h₁ v env methodId args func h₂ rfl
    exact (storesAnew_iff hr.split.1).mpr (hall h₁ _ h₂ rfl rfl)

/-- A run can go on with any number of calls that nothing answers. -/
theorem more_calls (hr : Run (lifeOf lib n) h w) (halive : w.nodeAlive n = true) (k : Nat) :
    ∃ calls w', Run (lifeOf lib n) (h ++ calls) w' ∧ w'.nodeAlive n = true ∧
      calls.length = k ∧ ∀ x ∈ calls, IsCall n x.2.2 := by
  induction k with
  | zero => exact ⟨[], w, by rwa [List.append_nil], halive, rfl, fun _ hx => nomatch hx⟩
  | succ k ih =>
    obtain ⟨calls, v, hr, halive, hlen, hcalls⟩ := ih
    have hen : (lifeOf lib n).enabled v (.returning, .invokeRemote n [] .null none) := halive
    refine ⟨calls ++ [(v, .returning, .invokeRemote n [] .null none)], _,
      List.append_assoc _ _ _ ▸ hr.snoc hen, ?_, ?_, ?_⟩
    · show (nextIn lib v .returning (.invokeRemote n [] .null none)).nodeAlive n = true
      unfold nextIn
      dsimp only
      rw [ClientNode.invokeRemote_state]
      exact halive
    · rw [List.length_append, hlen, List.length_singleton]
    · intro x hx
      rcases List.mem_append.mp hx with hx | hx
      · exact hcalls x hx
      · rw [List.mem_singleton.mp hx]
        rfl

theorem callCount_of_calls {calls : List (Client × ClientEnv × Action)}
    (hcalls : ∀ x ∈ calls, IsCall n x.2.2) : callCount n calls = calls.length :=
  List.countP_eq_length.mpr fun x hx => decide_eq_true (hcalls x hx)

/-- A run of one call and its reply. -/
theorem answered_call : ∃ x y w, Run (lifeOf .truncating 0) [x, y] w ∧ w.nodeAlive 0 = true ∧
    IsCall 0 x.2.2 ∧ ¬ IsCall 0 y.2.2 ∧ Answers .truncating 0 1 y.2.2 := by
  let w := (ClientNode.create empty).2
  let call : ClientEnv × Action := (.returning, .invokeRemote 0 (lit "o/m") .null (some 7))
  let reply : ClientEnv × Action :=
    (.returning, .receive 0 (Protocol.invokeReplyMessage 1 (lit "o/m") .null) .returning)
  have hstart : Run (lifeOf .truncating 0) [] w := .init ⟨empty, rfl, rfl⟩
  have hcall : (lifeOf .truncating 0).enabled w call := rfl
  have hreply : (lifeOf .truncating 0).enabled ((lifeOf .truncating 0).next w call) reply := rfl
  refine ⟨_, _, _, (hstart.snoc hcall).snoc hreply, rfl, rfl, id, rfl, ?_⟩
  rw [ClientNode.handled_returning]
  exact congrArg (Option.bind · requestOf)
    (Protocol.decode?_composed .truncating (.invokeReply 1 (lit "o/m") .null))

/-- **The counter comes round**: after 2^32 calls of which only the first has been answered, the
next one gets the number of the first, and overwrites none. -/
theorem calls_overwrite_iff_wrapped : ∃ h w, Run (lifeOf .truncating 0) h w ∧
    callCount 0 h = 2 ^ 32 ∧ ∀ env methodId args func,
      StoresAnew .truncating w 0 env methodId args func := by
  obtain ⟨call, reply, v, hr, halive, hcall, hreply, hans⟩ := answered_call
  obtain ⟨calls, w, hr, -, hlen, hcalls⟩ := more_calls hr halive (2 ^ 32 - 1)
  have hcount : callCount 0 calls = 2 ^ 32 - 1 := (callCount_of_calls hcalls).trans hlen
  have hall : callCount 0 (call :: reply :: calls) = 2 ^ 32 := by
    rw [callCount_cons, callCount_cons, if_pos hcall, if_neg hreply, hcount, Nat.add_zero,
      Nat.sub_add_cancel (Nat.one_le_two_pow)]
  refine ⟨_, w, hr, hall, fun env methodId args func =>
    ((calls_overwrite_iff hr).1 env methodId args func).mpr ?_⟩
  intro h₁ x h₂ he hx hdvd
  cases h₁ with
  | nil =>
    obtain ⟨rfl, rfl⟩ := List.cons.inj he
    exact ⟨reply, List.mem_cons_self, hans⟩
  | cons y h₁ =>
    -- fewer than 2^32 calls have been made since any later one
    obtain ⟨rfl, -⟩ := List.cons.inj he
    have hsum := hall.symm.trans (congrArg (callCount 0) he)
    rw [callCount_append, callCount_cons, callCount_cons, if_pos hcall, if_pos hx] at hsum
    omega

/-- **The counter comes round** too early: after 2^32 calls without an answer the next one gets the
number of the first, which is still pending. -/
theorem overwrites_wrapped : ¬ ∀ (h : List (Client × ClientEnv × Action)) (w : Client),
    Run (lifeOf .truncating 0) h w → ∀ env methodId args func,
      StoresAnew .truncating w 0 env methodId args func := by
  intro hall
  have hstart : Run (lifeOf .truncating 0) [] (ClientNode.create empty).2 := .init ⟨empty, rfl, rfl⟩
  obtain ⟨calls, w, hr, -, hlen, hcalls⟩ := more_calls hstart rfl (2 ^ 32)
  have hans := (storesAnew_iff hr).mp (hall _ w hr .returning [] .null none)
  cases calls with
  | nil => cases hlen
  | cons x calls =>
    have hcount : callCount 0 calls + 1 = 2 ^ 32 := by
      rw [callCount_of_calls fun y hy => hcalls y (List.mem_cons_of_mem _ hy)]
      exact hlen
    obtain ⟨y, hy, ha⟩ := hans [] x calls rfl (hcalls x List.mem_cons_self) ⟨1, hcount⟩
    obtain ⟨v, env, a⟩ := y
    have hcall : IsCall 0 a := hcalls _ (List.mem_cons_of_mem _ hy)
    cases a with
    | receive _ _ _ => exact hcall
    | _ => exact ha

end Client

namespace ClientNode

variable {env : ClientEnv} {lib : JsonLibrary} {w : Client} {n : NodeRef}

/-! ## Errors about calls -/

/-- **An `Error` ends exactly the call it names**, for every table, every number and every text, and
whether or not the callback throws. An `Error` about an `Invoke` or `InvokeReply` takes the call
with that number out of the table of the node, if there is one, and runs its callback, if it has
one, once and with an empty method id and `null`; all other calls of all nodes stay pending. An
`Error` about anything else changes nothing. -/
theorem error_resolves (env : ClientEnv) (lib : JsonLibrary) (n : NodeRef) (w : Client)
    (msgType : Int32) (id : UInt32) (text : Bytes) :
    let w' := (handleMessage env n lib (Protocol.errorMessage msgType id.toInt32 text) w).2
    (AboutCall msgType →
      (∀ k, (w'.nodes n).invokesPending[k]?
        = if k = id then none else (w.nodes n).invokesPending[k]?) ∧
      (∀ func, (w.nodes n).invokesPending[id]? = some (some func) →
        w'.effects = w.effects ++ [.invokeReply func [] .null]) ∧
      ((∀ func, (w.nodes n).invokesPending[id]? ≠ some (some func)) → w'.effects = w.effects) ∧
      ∀ m, m ≠ n → w'.nodes m = w.nodes m) ∧
    (¬ AboutCall msgType → w' = w) := by
  have hdec : handled env lib (Protocol.errorMessage msgType id.toInt32 text)
      = some (.error msgType id.toInt32 text) :=
    handled_eq_some.mpr ⟨Protocol.decode?_composed lib (.error msgType id.toInt32 text), rfl⟩
  have hback : id.toInt32.toUInt32 = id := UInt32.toUInt32_toInt32 id
  rw [handleMessage_state, hdec]
  dsimp only [received, requestOf]
  rw [callsOf_error, hback]
  refine ⟨?_, ?_⟩
  · intro habout
    rw [if_pos habout, if_pos habout]
    refine ⟨?_, ?_, ?_, ?_⟩
    · intro k
      unfold forget Client.updateNode
      dsimp only
      rw [if_pos rfl, Foundation.find_erase]
    · intro func hfunc
      unfold callback
      rw [hfunc]
    · intro hnone
      unfold callback
      cases hentry : (w.nodes n).invokesPending[id]? with
      | none => exact List.append_nil _
      | some entry =>
        cases entry with
        | none => exact List.append_nil _
        | some func => exact absurd hentry (hnone func)
    · intro m hm
      exact if_neg hm
  · intro habout
    rw [if_neg habout, if_neg habout]
    dsimp only
    rw [List.append_nil]

/-! ## Messages that are not sent -/

/-- The operations that send a message and record something about it. -/
inductive Request where
  | linkRemote (objectId : ObjectId)
  | unlinkRemote (objectId : ObjectId)
  | invokeRemote (methodId : Bytes) (args : Json) (func : Option InvokeReplyFunc)

/-- The call of it. -/
def Request.run (env : ClientEnv) (n : NodeRef) : Request → Code Client Unit
  | .linkRemote o => ClientNode.linkRemote env n o
  | .unlinkRemote o => ClientNode.unlinkRemote env n o
  | .invokeRemote m args func => ClientNode.invokeRemote env n m args func

/-- **A failed operation leaves the client as it was**: if it throws, the registry and the pending
calls are those from before, and the callback is not kept under the number drawn for it. -/
def Undone (env : ClientEnv) (w : Client) (n : NodeRef) (q : Request) : Prop :=
  ∀ t w', (q.run env n).run w = (.error t, w') → w'.registry = w.registry ∧
    (∀ m, (w'.nodes m).invokesPending = (w.nodes m).invokesPending) ∧
    ∀ methodId args func, q = .invokeRemote methodId args func →
      (w'.nodes n).invokesPending[(w.nodes n).nextRequestId + 1]? ≠ some func

/-- The message is sent, or there is no write function: its log message returns, it can be
converted, and the write function returns. -/
def Sent (env : ClientEnv) (w : Client) (n : NodeRef) (msg : Json) : Prop :=
  env.emitLogWithPayload .debug msg = .ok () ∧ ((w.nodes n).writeFunc = true →
    env.toString msg = .ok () ∧ env.call w.effects (.write n msg) = .ok ())

/-- `emitWrite` throws exactly if the message is not sent. -/
theorem emitWrite_returns_iff {msg : Json} :
    ((emitWrite env n msg).run w).1 = .ok () ↔ Sent env w n msg := by
  unfold emitWrite Sent
  rw [Code.bind_run, Code.ofExcept_run]
  cases env.emitLogWithPayload .debug msg with
  | error t => simp
  | ok u =>
    dsimp only
    rw [Code.bind_run_ok Code.get_run, and_iff_right rfl]
    by_cases hw : (w.nodes n).writeFunc = true
    · rw [if_pos hw, forall_prop_of_true hw]
      cases env.toString msg with
      | error t => simp
      | ok u =>
        rw [perform_run]
        simp
    · rw [if_neg hw]
      simp [hw]

/-- What follows a message is not done if the message is not sent. -/
theorem emitWrite_throws {msg : Json} {x : Unit → Code Client Unit} {t : Thrown} {w' : Client}
    (hx : ∀ w, ((x ()).run w).1 = .ok ())
    (hrun : (emitWrite env n msg >>= x).run w = (.error t, w')) :
    w'.registry = w.registry ∧ w'.nodes = w.nodes := by
  have hstate : ((emitWrite env n msg).run w).2 = _ := emitWrite_state msg
  rw [Code.bind_run] at hrun
  generalize (emitWrite env n msg).run w = r at hrun hstate
  obtain ⟨_ | u, v⟩ := r
  · cases hrun
    dsimp only at hstate
    rw [hstate]
    exact ⟨rfl, rfl⟩
  · have hok := hx v
    dsimp only at hrun
    rw [hrun] at hok
    cases hok

/-- **`linkRemote`** writes before it changes anything. -/
theorem undone_linkRemote (o : ObjectId) : Undone env w n (.linkRemote o) := by
  intro t w' hrun
  obtain ⟨hr, hn⟩ := emitWrite_throws (fun _ => rfl) hrun
  refine ⟨hr, fun m => by rw [hn], ?_⟩
  intro _ _ _ hq
  cases hq

/-- **`unlinkRemote`** too, though its sink has been released by then. -/
theorem undone_unlinkRemote (o : ObjectId) : Undone env w n (.unlinkRemote o) := by
  intro t w' hrun
  have hsame : w'.registry = w.registry ∧ w'.nodes = w.nodes := by
    unfold Request.run unlinkRemote at hrun
    dsimp only at hrun
    rw [Code.bind_run_ok Code.get_run] at hrun
    cases hsink : (w.registry.getSink o).lock w.sinkAlive with
    | none =>
      rw [hsink] at hrun
      exact emitWrite_throws (fun _ => rfl) hrun
    | some sink =>
      rw [hsink] at hrun
      dsimp only at hrun
      rw [Code.bind_run, perform_run] at hrun
      cases hcall : env.call w.effects (.olinkOnRelease sink) with
      | error e =>
        rw [hcall] at hrun
        cases hrun
        exact ⟨rfl, rfl⟩
      | ok u =>
        rw [hcall] at hrun
        dsimp only at hrun
        exact emitWrite_throws (w := { w with effects := w.effects ++ [.olinkOnRelease sink] })
          (fun _ => rfl) hrun
  refine ⟨hsame.1, fun m => by rw [hsame.2], ?_⟩
  intro _ _ _ hq
  cases hq

/-- **`invokeRemote`** has entered its callback by then, so it must not fail. -/
theorem undone_invokeRemote_iff {methodId : Bytes} {args : Json} {func : Option InvokeReplyFunc} :
    Undone env w n (.invokeRemote methodId args func) ↔ Sent env w n
      (Protocol.invokeMessage ((w.nodes n).nextRequestId + 1) methodId args) := by
  have hsent : ∀ msg, Sent env (called w n func) n msg ↔ Sent env w n msg := fun msg => by
    unfold Sent
    rw [writeFunc_called]
    rfl
  have hkept : ∀ r w', (invokeRemote env n methodId args func).run w = (r, w') →
      (w'.nodes n).invokesPending[(w.nodes n).nextRequestId + 1]? = some func := fun r w' hrun => by
    have hstate : ((invokeRemote env n methodId args func).run w).2 = _ :=
      invokeRemote_state methodId args func
    rw [hrun] at hstate
    dsimp only at hstate
    rw [hstate]
    unfold called Client.updateNode
    dsimp only
    rw [if_pos rfl, Foundation.find_insert, if_pos rfl]
  have hthrows : ((invokeRemote env n methodId args func).run w).1 = .ok () ↔ Sent env w n
      (Protocol.invokeMessage ((w.nodes n).nextRequestId + 1) methodId args) := by
    rw [invokeRemote_eq, emitWrite_returns_iff, hsent]
  rw [← hthrows]
  constructor
  · intro hu
    cases hrun : (invokeRemote env n methodId args func).run w with
    | mk r w' =>
      cases r with
      | ok u => rfl
      | error t => exact absurd (hkept _ _ hrun) ((hu t w' hrun).2.2 _ _ _ rfl)
  · intro hok t w' hrun
    have hrun : (invokeRemote env n methodId args func).run w = (.error t, w') := hrun
    rw [hrun] at hok
    cases hok

/-- **Which operations leave the client as it was when they fail**, in every state, for all
arguments and however the code outside the library ends: `linkRemote` and `unlinkRemote` always
do; `invokeRemote` exactly if its message is sent, so never when it fails. -/
theorem undone_iff (env : ClientEnv) (w : Client) (n : NodeRef) (q : Request) :
    Undone env w n q ↔ ∀ methodId args func, q = .invokeRemote methodId args func →
      Sent env w n (Protocol.invokeMessage ((w.nodes n).nextRequestId + 1) methodId args) := by
  cases q with
  | linkRemote o =>
    refine iff_of_true (undone_linkRemote o) ?_
    intro _ _ _ hq
    cases hq
  | unlinkRemote o =>
    refine iff_of_true (undone_unlinkRemote o) ?_
    intro _ _ _ hq
    cases hq
  | invokeRemote methodId args func =>
    rw [undone_invokeRemote_iff]
    constructor
    · intro hs _ _ _ hq
      cases hq
      exact hs
    · exact fun hs => hs _ _ _ rfl

/-- A converter that throws, as it does for a method id that is not UTF-8. -/
def unconvertible : ClientEnv where
  logs _ := false
  dump _ := .error (.json (lit "[json.exception.type_error.316]"))
  toString _ := .error (.json (lit "[json.exception.type_error.316]"))
  call _ _ := .ok ()

/-- **A callback that is kept**: a node with a write function calls a method, and the message cannot
be converted. -/
theorem unsent_call_kept :
    ¬ ∀ (env : ClientEnv) (w : Client) (n : NodeRef) (q : Request), Undone env w n q := by
  intro hall
  have hundone := hall unconvertible (onWrite 0 (create Client.empty).2) 0
    (.invokeRemote (lit "o/m") .null (some 7))
  have hsent := (undone_invokeRemote_iff.mp hundone).2 rfl
  cases hsent.1

end ClientNode

end ObjectLink
