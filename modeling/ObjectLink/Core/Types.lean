import Mathlib.Data.Nat.Notation

/-!
# Types shared by both sides

Model of `src/olink/core/types.h` and `types.cpp`, without the message converter, which is in
`MessageConverter.lean`, and the logger (`LoggerBase`), which is in `Operations/Process.lean`; what
a log message can change for the rest is in `BaseNode.lean`.

A `std::string` is its list of bytes: ids, method names and payload strings need not be valid
UTF-8. A `std::weak_ptr` is the identity of the object it was made from, if any; whether it has
expired depends on which objects are alive.
-/

namespace ObjectLink

/-- A `std::string`. -/
abbrev Bytes := List UInt8

/-- A string literal of the source (ASCII only). -/
def lit (s : String) : Bytes := s.toList.map fun c => UInt8.ofNat c.toNat

/-- What an object is called in the protocol. -/
abbrev ObjectId := Bytes

/-! ## Message types -/

/-- `enum class MsgType : int` (`types.h`). -/
inductive MsgType where
  | link | init | unlink | setProperty | propertyChange | invoke | invokeReply | signal | error
  deriving DecidableEq

/-- The number an enumerator stands for. -/
def MsgType.toInt : MsgType → Int32
  | .link => 10
  | .init => 11
  | .unlink => 12
  | .setProperty => 20
  | .propertyChange => 21
  | .invoke => 30
  | .invokeReply => 31
  | .signal => 40
  | .error => 99

/-- The enumerator a number stands for: the labels of `switch(msgType)`. -/
def MsgType.ofInt? (n : Int32) : Option MsgType :=
  if n = 10 then some .link
  else if n = 11 then some .init
  else if n = 12 then some .unlink
  else if n = 20 then some .setProperty
  else if n = 21 then some .propertyChange
  else if n = 30 then some .invoke
  else if n = 31 then some .invokeReply
  else if n = 40 then some .signal
  else if n = 99 then some .error
  else none

@[simp] theorem MsgType.ofInt?_toInt (t : MsgType) : MsgType.ofInt? t.toInt = some t := by
  cases t <;> decide

theorem MsgType.toInt_of_ofInt? {n : Int32} {t : MsgType} (h : MsgType.ofInt? n = some t) :
    t.toInt = n := by
  unfold MsgType.ofInt? at h
  repeat
    split at h
    · rename_i hn
      cases h
      exact hn.symm
  cases h

/-! ## Log levels -/

/-- `enum class LogLevel`, lowest first. -/
inductive LogLevel where
  | info | debug | warning | error
  deriving DecidableEq

/-- The number of an enumerator. -/
def LogLevel.toNat : LogLevel → Nat
  | .info => 0
  | .debug => 1
  | .warning => 2
  | .error => 3

/-! ## Member ids -/

namespace Name

/-- The separator `"/"` of a member id. -/
def slash : UInt8 := 47

/-- `id.find("/")` and `id.find_first_of("/")`; `none` is `npos`. -/
def find (id : Bytes) : Option Nat := id.idxOf? slash

/-- `id.find_last_of("/")`. -/
def findLastOf (id : Bytes) : Option Nat :=
  (id.reverse.idxOf? slash).map fun i => id.length - 1 - i

/-- `isMemberId`: there is a slash, and the first is the last. -/
def isMemberId (id : Bytes) : Bool := (find id).isSome && find id == findLastOf id

/-- `getObjectId`: `substr(0, find("/"))`, the whole string for `npos`. -/
def getObjectId (memberId : Bytes) : ObjectId :=
  match find memberId with
  | some i => memberId.take i
  | none => memberId

/-- `getMemberName`: empty unless it is a member id. -/
def getMemberName (memberId : Bytes) : Bytes :=
  if isMemberId memberId then
    match findLastOf memberId with
    | some i => memberId.drop (i + 1)
    | none => memberId
  else []

/-- `createMemberId`. -/
def createMemberId (objectId memberName : Bytes) : Bytes := objectId ++ [slash] ++ memberName

end Name

/-! ## Weak references -/

/-- A `std::weak_ptr`: empty, or made from some object. -/
abbrev WeakPtr (Obj : Type) := Option Obj

namespace WeakPtr

variable {Obj : Type} (alive : Obj → Bool)

/-- `lock()`: the object, while it is alive. -/
def lock (w : WeakPtr Obj) : Option Obj := w.filter alive

/-- `expired()`. -/
def expired (w : WeakPtr Obj) : Bool := (lock alive w).isNone

variable {alive}

@[simp] theorem lock_none : lock alive none = none := rfl

theorem lock_some {o : Obj} : lock alive (some o) = if alive o then some o else none := by
  simp [lock, Option.filter]

theorem lock_eq_some {w : WeakPtr Obj} {o : Obj} :
    lock alive w = some o ↔ w = some o ∧ alive o = true := by
  simp [lock, Option.filter_eq_some_iff]

theorem expired_eq_true_iff {w : WeakPtr Obj} : expired alive w = true ↔ lock alive w = none :=
  Option.isNone_iff_eq_none

theorem expired_eq_false_iff {w : WeakPtr Obj} :
    expired alive w = false ↔ ∃ o, lock alive w = some o := by
  unfold expired
  rw [Option.isNone_eq_false_iff, Option.isSome_iff_exists]

theorem expired_iff {w : WeakPtr Obj} :
    expired alive w = true ↔ ∀ o, w = some o → alive o = false := by
  cases w with
  | none => simp [expired]
  | some o => cases h : alive o <;> simp [expired, lock_some, h]

end WeakPtr

/-- The identity of a node object, on either side. -/
abbrev NodeRef := Nat

/-! ## Exceptions -/

/-- What a call may throw: `nlohmann::json::exception`, another `std::exception`, or anything
else; with the text of `what()` where there is one. -/
inductive Thrown where
  | json (what : Bytes)
  | std (what : Bytes)
  | other

/-- Code that may throw, over a state `σ`. What it did before throwing stays done. -/
abbrev Code (σ α : Type) := ExceptT Thrown (StateM σ) α

namespace Code

variable {σ α β : Type} {s s' : σ}

theorem bind_run (x : Code σ α) (f : α → Code σ β) (s : σ) : (x >>= f).run s =
    match x.run s with
    | (.ok a, s') => (f a).run s'
    | (.error e, s') => (.error e, s') := by
  have h : (x >>= f).run s = (ExceptT.bindCont f (x.run s).1 : StateM σ _) (x.run s).2 := rfl
  rw [h]
  rcases x.run s with ⟨_ | _, s'⟩
  · rfl
  · rfl

/-- After code that returned. -/
theorem bind_run_ok {x : Code σ α} {f : α → Code σ β} {a : α} (h : x.run s = (.ok a, s')) :
    (x >>= f).run s = (f a).run s' := by
  rw [bind_run, h]

@[simp] theorem pure_run (a : α) : (pure a : Code σ α).run s = (.ok a, s) := rfl

@[simp] theorem get_run : (get : Code σ σ).run s = (.ok s, s) := rfl

@[simp] theorem modify_run (f : σ → σ) : (modify f : Code σ PUnit).run s = (.ok ⟨⟩, f s) := rfl

@[simp] theorem throw_run (e : Thrown) : (throw e : Code σ α).run s = (.error e, s) := rfl

/-- What has been computed, or the exception of the computation. -/
def ofExcept (r : Except Thrown α) : Code σ α := ExceptT.mk (pure r)

@[simp] theorem ofExcept_run (r : Except Thrown α) : (ofExcept r : Code σ α).run s = (r, s) := rfl

/-- **The frame of a piece of code**: whether it returns or throws, it leaves `f` of the state
alone. -/
def Keeps {τ : Type} (f : σ → τ) (x : Code σ α) : Prop := ∀ s, f (x.run s).2 = f s

section Keeps

variable {τ : Type} {f : σ → τ}

theorem keeps_pure (a : α) : Keeps f (pure a : Code σ α) := fun _ => rfl

theorem keeps_get : Keeps f (get : Code σ σ) := fun _ => rfl

theorem keeps_ofExcept (r : Except Thrown α) : Keeps f (ofExcept r : Code σ α) := fun _ => rfl

theorem keeps_modify {g : σ → σ} (h : ∀ s, f (g s) = f s) :
    Keeps f (modify g : Code σ PUnit) := h

/-- **The frame rule** for code after code. -/
theorem keeps_bind {x : Code σ α} {g : α → Code σ β} (hx : Keeps f x) (hg : ∀ a, Keeps f (g a)) :
    Keeps f (x >>= g) := by
  intro s
  have hs := hx s
  rw [bind_run]
  generalize x.run s = r at hs
  obtain ⟨_ | a, s'⟩ := r
  · exact hs
  · exact (hg a s').trans hs

/-- Where the code throws, it leaves `f` of the state alone. -/
def KeepsThrowing (f : σ → τ) (x : Code σ α) : Prop :=
  ∀ s e s', x.run s = (.error e, s') → f s' = f s

theorem Keeps.throwing {x : Code σ α} (h : Keeps f x) : KeepsThrowing f x := by
  intro s e s' hrun
  have hs := h s
  rw [hrun] at hs
  exact hs

/-- What follows may change `f` of the state if it does not throw. -/
theorem keepsThrowing_bind {x : Code σ α} {g : α → Code σ β} (hx : Keeps f x)
    (hg : ∀ a, KeepsThrowing f (g a)) : KeepsThrowing f (x >>= g) := by
  intro s e s' hrun
  have hs := hx s
  rw [bind_run] at hrun
  generalize x.run s = r at hs hrun
  obtain ⟨_ | a, s₁⟩ := r
  · cases hrun
    exact hs
  · exact (hg a s₁ e s' hrun).trans hs

/-- A change of the state does not throw. -/
theorem keepsThrowing_modify (g : σ → σ) : KeepsThrowing f (modify g : Code σ PUnit) := by
  intro s e s' hrun
  cases hrun

end Keeps

/-- **If the first piece of code returns**, it does what the second one does. -/
def Returning (p q : Code σ α) : Prop := ∀ s a s', p.run s = (.ok a, s') → q.run s = (.ok a, s')

theorem returning_refl (p : Code σ α) : Returning p p := fun _ _ _ h => h

theorem returning_bind {p q : Code σ α} {f g : α → Code σ β} (hp : Returning p q)
    (hf : ∀ a, Returning (f a) (g a)) : Returning (p >>= f) (q >>= g) := by
  intro s b s' h
  rw [bind_run] at h
  cases hrun : p.run s with
  | mk r s₁ =>
    rw [hrun] at h
    cases r with
    | error e => cases h
    | ok a =>
      rw [bind_run_ok (hp s a s₁ hrun)]
      exact hf a s₁ b s' h

theorem returning_ofExcept_ok (r : Except Thrown Unit) :
    Returning (ofExcept r) (ofExcept (.ok ()) : Code σ Unit) := by
  intro s a s' h
  rw [ofExcept_run] at h ⊢
  cases r with
  | error e => cases h
  | ok u => exact h

end Code

end ObjectLink
