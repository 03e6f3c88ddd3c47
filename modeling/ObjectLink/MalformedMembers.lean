import ObjectLink.MemberMessages
import ObjectLink.ClientLifetime

/-!
# Messages for strings that are not member ids

For a string that "doesn't follow the protocol requirement for member id" `types.h:67-76` promises
that `getObjectId` yields "the input parameter memberId" and `getMemberName` "the empty string".
`getMemberName` asks `isMemberId` first (`types.cpp:22-29`). `getObjectId` does not (`:17-20`): it
cuts `"a/b/c"` at its first slash, and what is received for this member goes to the object `"a"`.

Results:
* `Server.source_name`, `Client.sink_name`: a source or a sink is registered under its own name.
* `Server.toPrefix_iff`, `Client.toPrefix_iff`: when a message reaches an object whose id is a
  proper prefix of the member it is for.
* `treatedWhole_iff`: the strings for which the promise is kept, and no message for them goes to
  such an object in any run, are those with at most one slash.
* `treatedWhole_nested`: `"a/b/c"`.
-/

namespace ObjectLink

open Foundation (Machine Run run_play)
open Name (ProperPrefix slash isMemberId getObjectId getMemberName)

variable {lib : JsonLibrary} {o s : Bytes}

/-- Where the object that is called is looked up under what `getObjectId` yields, and found under
its own name, the name is a proper prefix of the member exactly if there is a slash to cut at. -/
theorem calledToPrefix_iff {Obj : Type} {name : Obj → Bytes} (find : Bytes → Option Obj)
    (hname : ∀ o x, find o = some x → name x = o) :
    (∃ x ∈ (find (getObjectId s)).toList, ProperPrefix (name x) s) ↔
      slash ∈ s ∧ (find (getObjectId s)).isSome := by
  rw [← Name.properPrefix_getObjectId]
  constructor
  · rintro ⟨x, hx, hcut⟩
    rw [Option.mem_toList] at hx
    rw [hname _ x hx] at hcut
    exact ⟨hcut, Option.isSome_iff_exists.mpr ⟨x, hx⟩⟩
  · rintro ⟨hcut, hfound⟩
    obtain ⟨x, hx⟩ := Option.isSome_iff_exists.mp hfound
    refine ⟨x, Option.mem_toList.mpr hx, ?_⟩
    rw [hname _ x hx]
    exact hcut

/-! ## The server side -/

namespace Server

variable {w : Server} {n : NodeRef} {msg : Json} {env : ServerEnv}

/-- A source that is registered after an operation was so before, or is registered under its
name. -/
theorem source_of_next {a : Action} {x : Source} (hx : (next lib w a).source o = some x) :
    w.source o = some x ∨ x.olinkObjectName = o := by
  cases a with
  | addSource source =>
    obtain ⟨hget, halive⟩ := WeakPtr.lock_eq_some.mp hx
    rcases RemoteRegistry.getSource_addSource_cases hget with hold | hname
    · exact Or.inl (WeakPtr.lock_eq_some.mpr ⟨hold, halive⟩)
    · exact Or.inr hname
  | removeSource k =>
    obtain ⟨hget, halive⟩ := WeakPtr.lock_eq_some.mp hx
    have hget' : (w.registry.removeSource k).getSource o = some x := hget
    rw [RemoteRegistry.getSource_removeSource] at hget'
    split at hget'
    · cases hget'
    · exact Or.inl (WeakPtr.lock_eq_some.mpr ⟨hget', halive⟩)
  | sourceExpires y =>
    obtain ⟨hget, halive⟩ := WeakPtr.lock_eq_some.mp hx
    have halive' : (if x = y then false else w.sourceAlive x) = true := halive
    split at halive'
    · cases halive'
    · exact Or.inl (WeakPtr.lock_eq_some.mpr ⟨hget, halive'⟩)
  | _ =>
    rw [source_eq_of_keepsSources lib (by trivial)] at hx
    exact Or.inl hx

/-- **A source is registered under its name.** -/
theorem source_name {h : List (Server × Action)} (hr : Run (unboundedMachine lib) h w) :
    ∀ o x, w.source o = some x → x.olinkObjectName = o := by
  refine hr.invariant (I := fun w => ∀ o x, w.source o = some x → x.olinkObjectName = o) ?_ ?_
  · intro w hw o x hx
    have hnew := (WeakPtr.lock_eq_some.mp hx).1
    rw [hw.registry, RemoteRegistry.getSource_of_not_mem Std.ExtTreeMap.getElem?_empty] at hnew
    cases hnew
  · intro w a hi _ o x hx
    rcases source_of_next hx with hold | hname
    · exact hi o x hold
    · exact hname

/-- **A message reaches a source whose id is a proper prefix** of the member it is for exactly if
the member has a slash and there is a source for what precedes the first one. -/
theorem toPrefix_iff {h : List (Server × Action)} (hr : Run (unboundedMachine lib) h w)
    (hmember : (Protocol.decode? lib msg).bind Call.toMember = some s) :
    (∃ x ∈ RemoteNode.sourcesCalled env lib w n msg, ProperPrefix x.olinkObjectName s) ↔
      slash ∈ s ∧ (w.source (getObjectId s)).isSome := by
  rw [RemoteNode.sourcesCalled_toMember hmember]
  exact calledToPrefix_iff w.source (source_name hr)

/-- In no run does a `SetProperty` or an `Invoke` for the member reach a source whose id is a
proper prefix of it. -/
def KeepsFromPrefixes (lib : JsonLibrary) (s : Bytes) : Prop :=
  ∀ (h : List (Server × Action)) (w : Server), Run (unboundedMachine lib) h w →
    ∀ n msg env, w.nodeAlive n = true →
      (Protocol.decode? lib msg).bind Call.toMember = some s →
      ¬ ∃ x ∈ RemoteNode.sourcesCalled env lib w n msg, ProperPrefix x.olinkObjectName s

/-- Any object can have a source, and a node to send to. -/
theorem exists_source (lib : JsonLibrary) (o : ObjectId) :
    ∃ h w, Run (unboundedMachine lib) h w ∧ w.nodeAlive 0 = true ∧ (w.source o).isSome := by
  have hr : Run (unboundedMachine lib) _
      (next lib (next lib empty (.addSource (some ⟨0, o⟩))) .create) :=
    run_play (M := unboundedMachine lib) [.addSource (some ⟨0, o⟩), .create] init_empty
      ⟨trivial, trivial, trivial⟩
  refine ⟨_, _, hr, rfl, ?_⟩
  rw [source_eq_of_keepsSources lib (by trivial)]
  have hget : (RemoteRegistry.new.addSource (fun _ => true) (some ⟨0, o⟩)).getSource o
      = some ⟨0, o⟩ :=
    RemoteRegistry.getSource_addSource_of_not_mem rfl Std.ExtTreeMap.getElem?_empty
  have hsource : (next lib empty (.addSource (some ⟨0, o⟩))).source o = some ⟨0, o⟩ :=
    WeakPtr.lock_eq_some.mpr ⟨hget, rfl⟩
  rw [hsource]
  rfl

theorem keepsFromPrefixes_iff : KeepsFromPrefixes lib s ↔ slash ∉ s := by
  constructor
  · intro hkeeps hslash
    obtain ⟨h, w, hr, hn, hsource⟩ := exists_source lib (getObjectId s)
    have hmember : (Protocol.decode? lib (Call.setProperty s .null).message).bind Call.toMember
        = some s := by
      rw [Protocol.decode?_composed]
      rfl
    exact hkeeps h w hr 0 _ .returning hn hmember ((toPrefix_iff hr hmember).mpr ⟨hslash, hsource⟩)
  · intro hslash h w hr n msg env _ hmember hreached
    exact hslash ((toPrefix_iff hr hmember).mp hreached).1

end Server

/-! ## The client side -/

namespace Client

variable {w : Client} {n : NodeRef} {msg : Json} {env : ClientEnv}

/-- **A sink is registered under its name.** -/
theorem sink_name {h : List (Client × Action)} (hr : Run (unboundedMachine lib) h w) :
    ∀ o x, Registered w o x → x.olinkObjectName = o := by
  refine hr.invariant (I := fun w => ∀ o x, Registered w o x → x.olinkObjectName = o) ?_ ?_
  · intro w hw
    exact (sinkInv_init hw).sinkName
  · intro w a hi _ o x hx
    rcases hx.of_next with hold | ⟨-, hname, -⟩
    · exact hi o x hold
    · exact hname

/-- **A message reaches a sink whose id is a proper prefix** of the member it comes from exactly if
the member has a slash and there is a sink for what precedes the first one. -/
theorem toPrefix_iff {h : List (Client × Action)} (hr : Run (unboundedMachine lib) h w)
    (hmember : (ClientNode.handled env lib msg).bind Call.fromMember = some s) :
    (∃ x ∈ ClientNode.sinksCalled env lib w n msg, ProperPrefix x.olinkObjectName s) ↔
      slash ∈ s ∧ ((w.registry.getSink (getObjectId s)).lock w.sinkAlive).isSome := by
  rw [ClientNode.sinksCalled_fromMember hmember]
  exact calledToPrefix_iff (fun o => (w.registry.getSink o).lock w.sinkAlive) (sink_name hr)

/-- In no run does a `PropertyChange` or a `Signal` of the member reach a sink whose id is a proper
prefix of it. -/
def KeepsFromPrefixes (lib : JsonLibrary) (s : Bytes) : Prop :=
  ∀ (h : List (Client × Action)) (w : Client), Run (unboundedMachine lib) h w →
    ∀ n msg env, w.nodeAlive n = true →
      (Protocol.decode? lib msg).bind Call.fromMember = some s →
      ¬ ∃ x ∈ ClientNode.sinksCalled env lib w n msg, ProperPrefix x.olinkObjectName s

/-- Any object can have a sink, and a node to hear from. -/
theorem exists_sink (lib : JsonLibrary) (o : ObjectId) :
    ∃ h w, Run (unboundedMachine lib) h w ∧ w.nodeAlive 0 = true ∧
      ((w.registry.getSink o).lock w.sinkAlive).isSome := by
  have hr : Run (unboundedMachine lib) _
      (next lib (next lib empty (.addSink (some ⟨0, o⟩))) .create) :=
    run_play (M := unboundedMachine lib) [.addSink (some ⟨0, o⟩), .create] init_empty
      ⟨trivial, trivial, trivial⟩
  refine ⟨_, _, hr, rfl, ?_⟩
  have hnone : (empty.registry.getSink o).lock empty.sinkAlive = none := by
    rw [init_empty.registry, ClientRegistry.getSink_of_not_mem Std.ExtTreeMap.getElem?_empty]
    rfl
  rw [lock_getSink_next, lock_getSink_next, hnone]
  simp [sinkAfter, empty]

theorem keepsFromPrefixes_iff : KeepsFromPrefixes lib s ↔ slash ∉ s := by
  constructor
  · intro hkeeps hslash
    obtain ⟨h, w, hr, hn, hsink⟩ := exists_sink lib (getObjectId s)
    have hmember : (Protocol.decode? lib (Call.signal s .null).message).bind Call.fromMember
        = some s := by
      rw [Protocol.decode?_composed]
      rfl
    refine hkeeps h w hr 0 _ .returning hn hmember ((toPrefix_iff hr ?_).mpr ⟨hslash, hsink⟩)
    rwa [ClientNode.handled_returning]
  · intro hslash h w hr n msg env _ hmember hreached
    cases hd : ClientNode.handled env lib msg with
    | none =>
      rw [ClientNode.sinksCalled_of_not_handled hd] at hreached
      obtain ⟨_, hx, -⟩ := hreached
      cases hx
    | some c =>
      rw [ClientNode.decode?_of_handled hd, ← hd] at hmember
      exact hslash ((toPrefix_iff hr hmember).mp hreached).1

end Client

/-! ## What is promised -/

/-- **What is promised for a string** that is not a member id: it stands for itself and has no
member name, and no message for it goes to an object whose id is only the beginning of it. -/
def TreatedWhole (lib : JsonLibrary) (s : Bytes) : Prop :=
  isMemberId s = false →
    getObjectId s = s ∧ getMemberName s = [] ∧
      Server.KeepsFromPrefixes lib s ∧ Client.KeepsFromPrefixes lib s

/-- **The promise is kept** for the strings with at most one slash. For one that is not a member id
`getMemberName` always keeps it; `getObjectId` and the routing on either side do so exactly if there
is no slash at all. -/
theorem treatedWhole_iff (lib : JsonLibrary) (s : Bytes) :
    (TreatedWhole lib s ↔ s.count slash ≤ 1) ∧
    (isMemberId s = false →
      getMemberName s = [] ∧ (getObjectId s = s ↔ slash ∉ s) ∧
      (Server.KeepsFromPrefixes lib s ↔ slash ∉ s) ∧
      (Client.KeepsFromPrefixes lib s ↔ slash ∉ s)) := by
  have hcount : isMemberId s = false → (slash ∉ s ↔ s.count slash ≤ 1) := fun hs => by
    have hne : s.count slash ≠ 1 := fun hone => by
      rw [Name.isMemberId_iff_count.mpr hone] at hs
      cases hs
    rw [← List.count_eq_zero]
    omega
  constructor
  · constructor
    · intro hwhole
      by_cases hs : isMemberId s = true
      · rw [Name.isMemberId_iff_count.mp hs]
      · have hs' : isMemberId s = false := by simpa using hs
        exact (hcount hs').mp (Name.getObjectId_eq_self_iff.mp (hwhole hs').1)
    · intro hle hs
      have hslash := (hcount hs).mpr hle
      exact ⟨Name.getObjectId_eq_self_iff.mpr hslash, Name.getMemberName_eq_nil hs,
        Server.keepsFromPrefixes_iff.mpr hslash, Client.keepsFromPrefixes_iff.mpr hslash⟩
  · intro hs
    exact ⟨Name.getMemberName_eq_nil hs, Name.getObjectId_eq_self_iff,
      Server.keepsFromPrefixes_iff, Client.keepsFromPrefixes_iff⟩

/-- **Two slashes.** `"a/b/c"` is not a member id, but stands for the object `"a"`; a `SetProperty`
and a `Signal` for it are routed there. -/
theorem treatedWhole_nested :
    let s := lit "a/b/c"
    isMemberId s = false ∧ getObjectId s = lit "a" ∧ ¬ Server.KeepsFromPrefixes .truncating s ∧
      ¬ Client.KeepsFromPrefixes .truncating s ∧ ¬ TreatedWhole .truncating s := by
  intro s
  have hs : isMemberId s = false := by decide
  have hslash : slash ∈ s := by decide
  have hserver : ¬ Server.KeepsFromPrefixes .truncating s := fun hkeeps =>
    Server.keepsFromPrefixes_iff.mp hkeeps hslash
  have hclient : ¬ Client.KeepsFromPrefixes .truncating s := fun hkeeps =>
    Client.keepsFromPrefixes_iff.mp hkeeps hslash
  exact ⟨hs, by decide, hserver, hclient, fun hwhole => hserver (hwhole hs).2.2.1⟩

end ObjectLink
