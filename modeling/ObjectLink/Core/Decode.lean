import ObjectLink.Core.Protocol

/-!
# What the decoder does

`decode?` says which handler call a message stands for, if any, by the shape of the message. Each
branch of `Protocol::handleMessage` (`protocol.cpp:96-180`) is compared with it once.

Results:
* `handleMessage_of_decode` / `handleMessage_of_reject`: `handleMessage` makes exactly the call
  the message stands for, and none when it stands for none, for every listener, throwing ones
  included.
* `decode?_message`: the decoder gets a call back from the message composed for it, with any
  elements appended to the message.
* `handleMessage_exact`: for listeners that do not throw, decoding undoes encoding, and on every
  JSON value the result, the last error and the number of handlers called agree.
-/

namespace ObjectLink

namespace Protocol

variable {σ : Type} (lib : JsonLibrary)

/-! ## The call a message stands for -/

/-- A number that passes `is_number_integer`, narrowed by `get<int>`. -/
def int? : Json → Option Int32
  | .unsigned u => some u.toUInt32.toInt32
  | .integer i => some i.toInt32
  | _ => none

/-- A number that passes `is_number`, narrowed by `get<unsigned int>`. -/
def unsigned? : Json → Option UInt32
  | .unsigned u => some u.toUInt32
  | .integer i => some i.toUInt64.toUInt32
  | .float d => some (lib.floatToUnsigned d)
  | _ => none

/-- The elements after the type code of a message that carries an id. -/
def idArg? : List Json → Option Bytes
  | .string id :: _ => some id
  | _ => none

/-- The same for an id and a payload. -/
def payloadArgs? : List Json → Option (Bytes × Json)
  | .string id :: payload :: _ => some (id, payload)
  | _ => none

/-- The same for a request id, a method id and a payload. -/
def requestArgs? : List Json → Option (UInt32 × Bytes × Json)
  | n :: .string methodId :: payload :: _ => (unsigned? lib n).map fun id => (id, methodId, payload)
  | _ => none

/-- The same for the type and the request id an error is about, and its text. -/
def errorArgs? : List Json → Option (Int32 × Int32 × Bytes)
  | t :: n :: .string text :: _ => (int? t).bind fun ty => (int? n).map fun id => (ty, id, text)
  | _ => none

/-- The call that a type and the elements after the type code stand for. -/
def decodeArgs (ty : MsgType) (rest : List Json) : Option Call :=
  match ty with
  | .link => (idArg? rest).map fun o => .link o
  | .init => (payloadArgs? rest).map fun x => .init x.1 x.2
  | .unlink => (idArg? rest).map fun o => .unlink o
  | .setProperty => (payloadArgs? rest).map fun x => .setProperty x.1 x.2
  | .propertyChange => (payloadArgs? rest).map fun x => .propertyChange x.1 x.2
  | .invoke => (requestArgs? lib rest).map fun x => .invoke x.1 x.2.1 x.2.2
  | .invokeReply => (requestArgs? lib rest).map fun x => .invokeReply x.1 x.2.1 x.2.2
  | .signal => (payloadArgs? rest).map fun x => .signal x.1 x.2
  | .error => (errorArgs? rest).map fun x => .error x.1 x.2.1 x.2.2

/-- **The decoder**: the call a message stands for, `none` when it stands for none. -/
def decode? : Json → Option Call
  | .array (t :: rest) =>
    (int? t).bind fun code => (MsgType.ofInt? code).bind fun ty => decodeArgs lib ty rest
  | _ => none

/-- What passes `is_number_integer` has a narrowed value, and nothing else has. -/
theorem isNumberInteger_iff {j : Json} : j.isNumberInteger = true ↔ ∃ n, int? j = some n := by
  cases j <;> simp [Json.isNumberInteger, int?]

theorem isNumber_iff {j : Json} : j.isNumber = true ↔ ∃ n, unsigned? lib j = some n := by
  cases j <;> simp [Json.isNumber, unsigned?]

/-! ## The branches -/

/-- What a branch comes down to on a message of its shape. -/
def callThen (handler : Handler σ) : ProtocolM σ Bool := do
  call handler
  return true

theorem callThen_run (handler : Handler σ) (p : ProtocolState σ) :
    (callThen handler).run p = ((handler p.listener).1.map fun _ => true,
      { p with listener := (handler p.listener).2 }) := by
  have hcall : (call handler).run p =
      ((handler p.listener).1, { p with listener := (handler p.listener).2 }) := rfl
  unfold callThen
  rw [Code.bind_run, hcall]
  cases (handler p.listener).1 with
  | ok _ => rfl
  | error _ => rfl

/-- A computation that reports an error and touches nothing else. -/
def Fails (m : ProtocolM σ Bool) : Prop := ∃ text, text ≠ [] ∧ m = fail text

theorem fails_lit {s : String} (h : lit s ≠ []) : Fails (σ := σ) (fail (lit s)) := ⟨_, h, rfl⟩

section Branches

variable {lib} {t : Json} {rest : List Json} {a b c : Bytes}

theorem idCase_of_args {o : Bytes} (hr : idArg? rest = some o) (h : Bytes → Handler σ) :
    idCase a b (.array (t :: rest)) h = callThen (h o) := by
  unfold idArg? at hr
  split at hr
  · cases hr
    unfold idCase
    rw [if_neg (by simp [Json.size, Json.elements])]
    rfl
  · cases hr

theorem idCase_fails (ha : a ≠ []) (hb : b ≠ []) (hr : idArg? rest = none)
    (h : Bytes → Handler σ) : Fails (idCase a b (.array (t :: rest)) h) := by
  match rest, hr with
  | [], _ => exact ⟨a, ha, rfl⟩
  | x :: r, hr =>
    cases x with
    | string o => cases hr
    | _ =>
      refine ⟨b, hb, ?_⟩
      unfold idCase
      rw [if_neg (by simp [Json.size, Json.elements])]
      rfl

theorem payloadCase_of_args {x : Bytes × Json} (hr : payloadArgs? rest = some x)
    (h : Bytes → Json → Handler σ) :
    payloadCase a b (.array (t :: rest)) h = callThen (h x.1 x.2) := by
  unfold payloadArgs? at hr
  split at hr
  · cases hr
    unfold payloadCase
    rw [if_neg (by simp [Json.size, Json.elements])]
    rfl
  · cases hr

theorem payloadCase_fails (ha : a ≠ []) (hb : b ≠ []) (hr : payloadArgs? rest = none)
    (h : Bytes → Json → Handler σ) : Fails (payloadCase a b (.array (t :: rest)) h) := by
  match rest, hr with
  | [], _ => exact ⟨a, ha, rfl⟩
  | [_], _ => exact ⟨a, ha, rfl⟩
  | x :: v :: r, hr =>
    cases x with
    | string o => cases hr
    | _ =>
      refine ⟨b, hb, ?_⟩
      unfold payloadCase
      rw [if_neg (by simp [Json.size, Json.elements])]
      rfl

theorem requestCase_of_args {x : UInt32 × Bytes × Json} (hr : requestArgs? lib rest = some x)
    (h : UInt32 → Bytes → Json → Handler σ) :
    requestCase lib a b c (.array (t :: rest)) h = callThen (h x.1 x.2.1 x.2.2) := by
  unfold requestArgs? at hr
  split at hr
  · rename_i n m v r
    unfold requestCase
    rw [if_neg (by simp [Json.size, Json.elements])]
    cases n <;> cases hr <;> rfl
  · cases hr

theorem requestCase_fails (ha : a ≠ []) (hb : b ≠ []) (hc : c ≠ [])
    (hr : requestArgs? lib rest = none) (h : UInt32 → Bytes → Json → Handler σ) :
    Fails (requestCase lib a b c (.array (t :: rest)) h) := by
  match rest, hr with
  | [], _ => exact ⟨a, ha, rfl⟩
  | [_], _ => exact ⟨a, ha, rfl⟩
  | [_, _], _ => exact ⟨a, ha, rfl⟩
  | n :: x :: v :: r, hr =>
    unfold requestCase
    rw [if_neg (by simp [Json.size, Json.elements])]
    by_cases hnum : n.isNumber = true
    · obtain ⟨id, hid⟩ := (isNumber_iff lib).mp hnum
      rw [if_neg (by simpa [Json.item, Json.elements] using hnum)]
      cases x with
      | string m => simp [requestArgs?, hid] at hr
      | _ => exact ⟨c, hc, rfl⟩
    · rw [if_pos (by simpa [Json.item, Json.elements] using hnum)]
      exact ⟨b, hb, rfl⟩

theorem caseError_of_args {x : Int32 × Int32 × Bytes} (hr : errorArgs? rest = some x)
    (L : IProtocolListener σ) :
    caseError lib (.array (t :: rest)) L = callThen (L.handleError x.1 x.2.1 x.2.2) := by
  unfold errorArgs? at hr
  split at hr
  · rename_i u n text r
    unfold caseError
    rw [if_neg (by simp [Json.size, Json.elements])]
    obtain ⟨ty, hty, hr⟩ := Option.bind_eq_some_iff.mp hr
    obtain ⟨id, hid, rfl⟩ := Option.map_eq_some_iff.mp hr
    cases u <;> cases hty <;> cases n <;> cases hid <;> rfl
  · cases hr

theorem caseError_fails (hr : errorArgs? rest = none) (L : IProtocolListener σ) :
    Fails (caseError lib (.array (t :: rest)) L) := by
  match rest, hr with
  | [], _ => exact fails_lit (by decide)
  | [_], _ => exact fails_lit (by decide)
  | [_, _], _ => exact fails_lit (by decide)
  | u :: n :: x :: r, hr =>
    unfold caseError
    rw [if_neg (by simp [Json.size, Json.elements])]
    by_cases hu : u.isNumberInteger = true
    · obtain ⟨ty, hty⟩ := isNumberInteger_iff.mp hu
      rw [if_neg (by simpa [Json.item, Json.elements] using hu)]
      by_cases hn : n.isNumberInteger = true
      · obtain ⟨id, hid⟩ := isNumberInteger_iff.mp hn
        rw [if_neg (by simpa [Json.item, Json.elements] using hn)]
        cases x with
        | string text => simp [errorArgs?, hty, hid] at hr
        | _ => exact fails_lit (by decide)
      · rw [if_pos (by simpa [Json.item, Json.elements] using hn)]
        exact fails_lit (by decide)
    · rw [if_pos (by simpa [Json.item, Json.elements] using hu)]
      exact fails_lit (by decide)

/-! ## The switch -/

theorem switch_of_decodeArgs {code : Int32} {ty : MsgType} {c : Call}
    (hty : MsgType.ofInt? code = some ty) (hc : decodeArgs lib ty rest = some c)
    (L : IProtocolListener σ) :
    switch lib (.array (t :: rest)) L code = callThen (L.run c) := by
  unfold switch
  rw [hty]
  cases ty <;> obtain ⟨x, hx, rfl⟩ := Option.map_eq_some_iff.mp hc
  case link | unlink => exact idCase_of_args hx _
  case init | setProperty | propertyChange | signal => exact payloadCase_of_args hx _
  case invoke | invokeReply => exact requestCase_of_args hx _
  case error => exact caseError_of_args hx _

theorem switch_fails (t : Json) {code : Int32} {ty : MsgType}
    (hty : MsgType.ofInt? code = some ty) (hc : decodeArgs lib ty rest = none)
    (L : IProtocolListener σ) :
    Fails (switch lib (.array (t :: rest)) L code) := by
  unfold switch
  rw [hty]
  cases ty <;> have hx := Option.map_eq_none_iff.mp hc
  case link | unlink => exact idCase_fails (by decide) (by decide) hx _
  case init | setProperty | propertyChange | signal =>
    exact payloadCase_fails (by decide) (by decide) hx _
  case invoke | invokeReply => exact requestCase_fails (by decide) (by decide) (by decide) hx _
  case error => exact caseError_fails hx _

end Branches

/-! ## `handleMessage` -/

/-- How `handleMessage` ends once it has called a handler: the `try` block spans the call, so an
exception of the JSON library out of the handler is reported like one out of the decoder. -/
def afterCall : Except Thrown Unit × σ → Except Thrown Bool × ProtocolState σ
  | (.ok _, s) => (.ok true, ⟨[], s⟩)
  | (.error (.json what), s) => (.ok false, ⟨lit "message parse error: " ++ what, s⟩)
  | (.error e, s) => (.error e, ⟨[], s⟩)

theorem catchJson_callThen (handler : Handler σ) (s : σ) :
    (catchJson (callThen handler)).run ⟨[], s⟩ = afterCall (handler s) := by
  cases hh : handler s with
  | mk r s' =>
    have hrun := callThen_run handler ⟨[], s⟩
    rw [hh] at hrun
    unfold catchJson
    simp only [tryCatch, tryCatchThe, MonadExceptOf.tryCatch, ExceptT.tryCatch, ExceptT.run,
      ExceptT.mk, bind, StateT.bind] at hrun ⊢
    rw [hrun]
    match r with
    | .ok _ => rfl
    | .error (.json _) => rfl
    | .error (.std _) => rfl
    | .error .other => rfl

theorem handleMessage_array {t : Json} {rest : List Json} {code : Int32} (ht : int? t = some code)
    (L : IProtocolListener σ) (p : ProtocolState σ) :
    (handleMessage lib (.array (t :: rest)) L).run p
      = (catchJson (switch lib (.array (t :: rest)) L code)).run ⟨[], p.listener⟩ := by
  cases t <;> cases ht <;> rfl

/-- **A message the decoder accepts leads to its call**, and to nothing else. -/
theorem handleMessage_of_decode {msg : Json} {c : Call} (hc : decode? lib msg = some c)
    (L : IProtocolListener σ) (p : ProtocolState σ) :
    (handleMessage lib msg L).run p = afterCall (L.run c p.listener) := by
  unfold decode? at hc
  split at hc
  · obtain ⟨code, hcode, hc⟩ := Option.bind_eq_some_iff.mp hc
    obtain ⟨ty, hty, hc⟩ := Option.bind_eq_some_iff.mp hc
    rw [handleMessage_array lib hcode, switch_of_decodeArgs hty hc, catchJson_callThen]
  · cases hc

/-- The `default` branch ends in an error too, whether or not the message can be serialised. -/
theorem catchJson_caseDefault (msg : Json) (s : σ) :
    ∃ text, text ≠ [] ∧ (catchJson (caseDefault lib msg)).run ⟨[], s⟩ = (.ok false, ⟨text, s⟩) := by
  cases hd : lib.dump msg with
  | error what =>
    refine ⟨lit "message parse error: " ++ what, by simp [lit], ?_⟩
    simp only [caseDefault, hd, Except.mapError]
    rfl
  | ok text =>
    refine ⟨lit "message not supported: " ++ text, by simp [lit], ?_⟩
    simp only [caseDefault, hd, Except.mapError]
    rfl

/-- **A message the decoder rejects** is reported with an error and leaves the listener alone. -/
theorem handleMessage_of_reject {msg : Json} (hc : decode? lib msg = none)
    (L : IProtocolListener σ) (p : ProtocolState σ) :
    ∃ text, text ≠ [] ∧
      (handleMessage lib msg L).run p = (.ok false, ⟨text, p.listener⟩) := by
  cases msg with
  | array xs =>
    match xs, hc with
    | [], _ => exact ⟨lit "message array is empty", by decide, rfl⟩
    | t :: rest, hc =>
      cases ht : int? t with
      | none =>
        have hn : t.isNumberInteger = false := by
          rw [Bool.eq_false_iff]
          intro h
          obtain ⟨n, hn⟩ := isNumberInteger_iff.mp h
          rw [ht] at hn
          cases hn
        refine ⟨lit "message type must be integer", by decide, ?_⟩
        cases t <;> first | rfl | cases hn
      | some code =>
        rw [handleMessage_array lib ht]
        simp only [decode?, ht, Option.bind_some] at hc
        cases hty : MsgType.ofInt? code with
        | none =>
          have hsw : switch lib (.array (t :: rest)) L code
              = caseDefault lib (.array (t :: rest)) := by
            unfold switch
            rw [hty]
          rw [hsw]
          exact catchJson_caseDefault lib _ _
        | some ty =>
          rw [hty, Option.bind_some] at hc
          obtain ⟨text, htext, hsw⟩ := switch_fails t hty hc L
          refine ⟨text, htext, ?_⟩
          rw [hsw]
          rfl
  | _ => exact ⟨lit "message must be array", by decide, rfl⟩

/-! ## Decoding undoes encoding -/

/-- The message with further elements after the last one. -/
def withMore (msg : Json) (more : List Json) : Json := .array (msg.elements ++ more)

theorem int?_typeCode (ty : MsgType) : int? (typeCode ty) = some ty.toInt := by
  simp [typeCode, int?]

theorem decode?_array {ty : MsgType} (rest : List Json) :
    decode? lib (.array (typeCode ty :: rest)) = decodeArgs lib ty rest := by
  simp only [decode?, int?_typeCode, Option.bind_some, MsgType.ofInt?_toInt]

theorem requestArgs?_encoded (id : UInt32) (m : Bytes) (payload : Json) (more : List Json) :
    requestArgs? lib (.unsigned id.toUInt64 :: .string m :: payload :: more)
      = some (id, m, payload) := by
  simp [requestArgs?, unsigned?]

theorem errorArgs?_encoded (t id : Int32) (text : Bytes) (more : List Json) :
    errorArgs? (.integer t.toInt64 :: .integer id.toInt64 :: .string text :: more)
      = some (t, id, text) := by
  simp [errorArgs?, int?]

/-- The decoder gets the call back from its message, whatever follows the last element. -/
theorem decode?_message (c : Call) (more : List Json) :
    decode? lib (withMore c.message more) = some c := by
  cases c with
  | link _ | unlink _ => exact decode?_array lib _
  | init _ _ | setProperty _ _ | propertyChange _ _ | signal _ _ => exact decode?_array lib _
  | invoke id m args | invokeReply id m args =>
    refine (decode?_array lib _).trans ?_
    unfold decodeArgs
    exact Option.map_eq_some_iff.mpr ⟨_, requestArgs?_encoded lib id m args more, rfl⟩
  | error t id text =>
    refine (decode?_array lib _).trans ?_
    unfold decodeArgs
    exact Option.map_eq_some_iff.mpr ⟨_, errorArgs?_encoded t id text more, rfl⟩

theorem withMore_nil (c : Call) : withMore c.message [] = c.message := by
  cases c <;> rfl

/-- Nothing needs to follow. -/
theorem decode?_composed (c : Call) : decode? lib c.message = some c := by
  rw [← withMore_nil, decode?_message]

theorem afterCall_of_neverThrows {L : IProtocolListener σ} (hL : L.NeverThrows) (c : Call)
    (s : σ) : afterCall (L.run c s) = (.ok true, ⟨[], (L.run c s).2⟩) := by
  have h := hL c s
  cases hr : L.run c s with
  | mk r s' =>
    rw [hr] at h
    cases h
    rfl

/-- **Decoding undoes encoding and dispatch is exact.** For a listener that does not throw:
* the message of any of the nine constructors, whatever its arguments and with any elements
  appended, makes `handleMessage` return `true` after exactly the matching handler call with
  exactly those arguments;
* on any JSON value there is at most one handler call, the same for every listener; `true` comes
  with a call and an empty last error, `false` with none and a non-empty one. -/
theorem handleMessage_exact :
    (∀ (c : Call) (more : List Json) (σ : Type) (L : IProtocolListener σ), L.NeverThrows →
      ∀ p, (handleMessage lib (withMore c.message more) L).run p
        = (.ok true, ⟨[], (L.run c p.listener).2⟩)) ∧
    ∀ msg : Json,
      (∃ c : Call, ∀ (σ : Type) (L : IProtocolListener σ), L.NeverThrows → ∀ p,
        (handleMessage lib msg L).run p = (.ok true, ⟨[], (L.run c p.listener).2⟩)) ∨
      ∀ (σ : Type) (L : IProtocolListener σ), L.NeverThrows → ∀ p, ∃ text, text ≠ [] ∧
        (handleMessage lib msg L).run p = (.ok false, ⟨text, p.listener⟩) := by
  constructor
  · intro c more σ L hL p
    rw [handleMessage_of_decode lib (decode?_message lib c more), afterCall_of_neverThrows hL]
  · intro msg
    cases hd : decode? lib msg with
    | some c =>
      refine Or.inl ⟨c, ?_⟩
      intro σ L hL p
      rw [handleMessage_of_decode lib hd, afterCall_of_neverThrows hL]
    | none => exact Or.inr fun σ L _ p => handleMessage_of_reject lib hd L p

/-- An `Invoke` with one element too many. -/
theorem handleMessage_exact_invoke :
    (handleMessage .truncating
      (.array [.integer 30, .unsigned 7, .string (lit "o/m"), .null, .null]) recorder).run ⟨[], []⟩
      = (.ok true, ⟨[], [.invoke 7 (lit "o/m") .null]⟩) :=
  (handleMessage_exact .truncating).1 (.invoke 7 (lit "o/m") .null) [.null] _ recorder
    recorder_neverThrows ⟨[], []⟩

end Protocol

end ObjectLink
