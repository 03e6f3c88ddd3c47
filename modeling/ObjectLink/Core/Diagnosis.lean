import ObjectLink.Core.Decode

/-!
# What is wrong with a rejected message

`Protocol::handleMessage` (`protocol.cpp:77-185`) checks a message branch by branch, each branch
with its own texts. `schema` says once what each type of message consists of, and `diagnosis` what
the first thing is that a message lacks.

* `switch_diagnosed`: the nine branches report what the schemas say.
* `handleMessage_diagnosed`: a message has nothing wrong with it exactly if the decoder accepts it;
  otherwise `lastError` is the diagnosis, and no handler is called.
-/

namespace ObjectLink

namespace Protocol

variable {σ : Type}

/-! ## Schemas -/

/-- What an element of a message has to be. -/
inductive FieldKind where
  | string | number | integer | any
  deriving DecidableEq

namespace FieldKind

/-- Whether a value is of the kind. -/
def admits : FieldKind → Json → Bool
  | .string, j => j.isString
  | .number, j => j.isNumber
  | .integer, j => j.isNumberInteger
  | .any, _ => true

@[simp] theorem admits_string (j : Json) : FieldKind.string.admits j = j.isString := rfl

@[simp] theorem admits_number (j : Json) : FieldKind.number.admits j = j.isNumber := rfl

@[simp] theorem admits_integer (j : Json) : FieldKind.integer.admits j = j.isNumberInteger := rfl

@[simp] theorem admits_any (j : Json) : FieldKind.any.admits j = true := rfl

/-- What the kind is called in the texts. -/
def name : FieldKind → Bytes
  | .string => lit "string"
  | .number => lit "number"
  | .integer => lit "integer"
  | .any => lit "value"

end FieldKind

/-- An element of a message. -/
structure Field where
  name : Bytes
  kind : FieldKind

/-- What a type is called in the texts. -/
def typeName : MsgType → Bytes
  | .link => lit "Link"
  | .init => lit "Init"
  | .unlink => lit "Unlink"
  | .setProperty => lit "SetProperty"
  | .propertyChange => lit "PropertyChange"
  | .invoke => lit "Invoke"
  | .invokeReply => lit "InvokeReply"
  | .signal => lit "Signal"
  | .error => lit "Error"

/-- The elements after the type code. -/
def schema : MsgType → List Field
  | .link | .unlink => [⟨lit "objectId", .string⟩]
  | .init => [⟨lit "objectId", .string⟩, ⟨lit "props", .any⟩]
  | .setProperty | .propertyChange => [⟨lit "propertyId", .string⟩, ⟨lit "value", .any⟩]
  | .invoke => [⟨lit "requestId", .number⟩, ⟨lit "methodId", .string⟩, ⟨lit "args", .any⟩]
  | .invokeReply => [⟨lit "requestId", .number⟩, ⟨lit "methodId", .string⟩, ⟨lit "value", .any⟩]
  | .signal => [⟨lit "signalId", .string⟩, ⟨lit "args", .any⟩]
  | .error => [⟨lit "msgType", .integer⟩, ⟨lit "requestId", .integer⟩, ⟨lit "error", .string⟩]

/-- There are not enough elements. -/
def truncated (name : Bytes) : Bytes := lit "truncated " ++ name ++ lit " message"

/-- An element is not what it has to be. -/
def mustBe (name : Bytes) (f : Field) : Bytes :=
  name ++ lit ": " ++ f.name ++ lit " must be " ++ f.kind.name

/-- The first element that is not what it has to be. -/
def mismatch (name : Bytes) : List Field → List Json → Option Bytes
  | f :: fields, j :: rest =>
    if f.kind.admits j then mismatch name fields rest else some (mustBe name f)
  | _, _ => none

/-- What is wrong with the elements after the type code. -/
def diagnoseArgs (name : Bytes) (fields : List Field) (rest : List Json) : Option Bytes :=
  if rest.length < fields.length then some (truncated name) else mismatch name fields rest

/-- What is wrong with a message, `none` if nothing is. -/
def diagnosis (lib : JsonLibrary) : Json → Option Bytes
  | .array [] => some (lit "message array is empty")
  | .array (t :: rest) =>
    match int? t with
    | none => some (lit "message type must be integer")
    | some code =>
      match MsgType.ofInt? code with
      | some ty => diagnoseArgs (typeName ty) (schema ty) rest
      | none =>
        match lib.dump (.array (t :: rest)) with
        | .ok text => some (lit "message not supported: " ++ text)
        | .error what => some (lit "message parse error: " ++ what)
  | _ => some (lit "message must be array")

/-! ## The branches -/

section Branches

variable {lib : JsonLibrary} {t : Json} {rest : List Json} {name text a b c : Bytes}
  {f g v : Field}

/-- One element after the other is checked. -/
theorem mismatch_cons {fields : List Field} {x : Json} :
    mismatch name (f :: fields) (x :: rest) =
      if f.kind.admits x then mismatch name fields rest else some (mustBe name f) := rfl

theorem idCase_diagnosed (hf : f.kind = .string) (ha : a = truncated name) (hb : b = mustBe name f)
    (h : Bytes → Handler σ) (hd : diagnoseArgs name [f] rest = some text) :
    idCase a b (.array (t :: rest)) h = fail text := by
  subst ha hb
  match rest, hd with
  | [], hd =>
    cases hd
    rfl
  | x :: r, hd =>
    unfold diagnoseArgs at hd
    rw [if_neg (by simp), mismatch_cons, hf] at hd
    unfold idCase
    rw [if_neg (by simp [Json.size, Json.elements])]
    change (if !x.isString then _ else _) = _
    cases hx : x.isString with
    | true =>
      rw [FieldKind.admits_string, hx] at hd
      cases hd
    | false =>
      rw [FieldKind.admits_string, hx] at hd
      cases hd
      rfl

theorem payloadCase_diagnosed (hf : f.kind = .string) (hg : g.kind = .any)
    (ha : a = truncated name) (hb : b = mustBe name f) (h : Bytes → Json → Handler σ)
    (hd : diagnoseArgs name [f, g] rest = some text) :
    payloadCase a b (.array (t :: rest)) h = fail text := by
  subst ha hb
  match rest, hd with
  | [], hd =>
    cases hd
    rfl
  | [_], hd =>
    cases hd
    rfl
  | x :: v :: r, hd =>
    unfold diagnoseArgs at hd
    rw [if_neg (by simp), mismatch_cons, mismatch_cons, hf, hg] at hd
    unfold payloadCase
    rw [if_neg (by simp [Json.size, Json.elements])]
    change (if !x.isString then _ else _) = _
    cases hx : x.isString with
    | true =>
      rw [FieldKind.admits_string, hx] at hd
      cases hd
    | false =>
      rw [FieldKind.admits_string, hx] at hd
      cases hd
      rfl

theorem requestCase_diagnosed (hf : f.kind = .number) (hg : g.kind = .string)
    (hv : v.kind = .any) (ha : a = truncated name) (hb : b = mustBe name f)
    (hc : c = mustBe name g) (h : UInt32 → Bytes → Json → Handler σ)
    (hd : diagnoseArgs name [f, g, v] rest = some text) :
    requestCase lib a b c (.array (t :: rest)) h = fail text := by
  subst ha hb hc
  match rest, hd with
  | [], hd =>
    cases hd
    rfl
  | [_], hd =>
    cases hd
    rfl
  | [_, _], hd =>
    cases hd
    rfl
  | x :: y :: z :: r, hd =>
    unfold diagnoseArgs at hd
    rw [if_neg (by simp), mismatch_cons, mismatch_cons, mismatch_cons, hf, hg, hv] at hd
    unfold requestCase
    rw [if_neg (by simp [Json.size, Json.elements])]
    change (if !x.isNumber then _ else if !y.isString then _ else _) = _
    cases hx : x.isNumber with
    | true =>
      rw [FieldKind.admits_number, hx] at hd
      cases hy : y.isString with
      | true =>
        rw [FieldKind.admits_string, hy] at hd
        cases hd
      | false =>
        rw [FieldKind.admits_string, hy] at hd
        cases hd
        rfl
    | false =>
      rw [FieldKind.admits_number, hx] at hd
      cases hd
      rfl

theorem caseError_diagnosed (L : IProtocolListener σ)
    (hd : diagnoseArgs (typeName .error) (schema .error) rest = some text) :
    caseError lib (.array (t :: rest)) L = fail text := by
  have htruncated : truncated (typeName .error) = lit "truncated Error message" := by
    decide +kernel
  have htype : mustBe (typeName .error) ⟨lit "msgType", .integer⟩
      = lit "Error: msgType must be integer" := by
    decide +kernel
  have hid : mustBe (typeName .error) ⟨lit "requestId", .integer⟩
      = lit "Error: requestId must be integer" := by
    decide +kernel
  have herror : mustBe (typeName .error) ⟨lit "error", .string⟩
      = lit "Error: error must be string" := by
    decide +kernel
  unfold diagnoseArgs schema at hd
  rw [htruncated] at hd
  match rest, hd with
  | [], hd =>
    cases hd
    rfl
  | [_], hd =>
    cases hd
    rfl
  | [_, _], hd =>
    cases hd
    rfl
  | x :: y :: z :: r, hd =>
    rw [if_neg (by simp), mismatch_cons, mismatch_cons, mismatch_cons, htype, hid, herror] at hd
    unfold caseError
    rw [if_neg (by simp [Json.size, Json.elements])]
    change (if !x.isNumberInteger then _ else if !y.isNumberInteger then _ else
      if !z.isString then _ else _) = _
    cases hx : x.isNumberInteger with
    | true =>
      rw [FieldKind.admits_integer, hx] at hd
      cases hy : y.isNumberInteger with
      | true =>
        rw [FieldKind.admits_integer, hy] at hd
        cases hz : z.isString with
        | true =>
          rw [FieldKind.admits_string, hz] at hd
          cases hd
        | false =>
          rw [FieldKind.admits_string, hz] at hd
          cases hd
          rfl
      | false =>
        rw [FieldKind.admits_integer, hy] at hd
        cases hd
        rfl
    | false =>
      rw [FieldKind.admits_integer, hx] at hd
      cases hd
      rfl

/-- **The branches report what the schemas say.** -/
theorem switch_diagnosed (t : Json) {code : Int32} {ty : MsgType}
    (hty : MsgType.ofInt? code = some ty)
    (hd : diagnoseArgs (typeName ty) (schema ty) rest = some text) (L : IProtocolListener σ) :
    switch lib (.array (t :: rest)) L code = fail text := by
  unfold switch
  rw [hty]
  cases ty with
  | link | unlink => exact idCase_diagnosed rfl (by decide +kernel) (by decide +kernel) _ hd
  | init | setProperty | propertyChange | signal =>
    exact payloadCase_diagnosed rfl rfl (by decide +kernel) (by decide +kernel) _ hd
  | invoke | invokeReply =>
    exact requestCase_diagnosed rfl rfl rfl (by decide +kernel) (by decide +kernel)
      (by decide +kernel) _ hd
  | error => exact caseError_diagnosed L hd

/-! ## Nothing is wrong -/

theorem idArg_complete (hf : f.kind = .string) :
    diagnoseArgs name [f] rest = none ↔ (idArg? rest).isSome = true := by
  match rest with
  | [] => simp [diagnoseArgs, idArg?]
  | x :: r =>
    unfold diagnoseArgs
    rw [if_neg (by simp), mismatch_cons, hf, FieldKind.admits_string]
    cases x <;> simp [Json.isString, mismatch, idArg?]

theorem payloadArgs_complete (hf : f.kind = .string) (hg : g.kind = .any) :
    diagnoseArgs name [f, g] rest = none ↔ (payloadArgs? rest).isSome = true := by
  match rest with
  | [] => simp [diagnoseArgs, payloadArgs?]
  | [_] => simp [diagnoseArgs, payloadArgs?]
  | x :: y :: r =>
    unfold diagnoseArgs
    rw [if_neg (by simp), mismatch_cons, mismatch_cons, hf, hg, FieldKind.admits_string]
    cases x <;> simp [Json.isString, mismatch, payloadArgs?]

theorem requestArgs_complete (hf : f.kind = .number) (hg : g.kind = .string)
    (hv : v.kind = .any) :
    diagnoseArgs name [f, g, v] rest = none ↔ (requestArgs? lib rest).isSome = true := by
  match rest with
  | [] => simp [diagnoseArgs, requestArgs?]
  | [_] => simp [diagnoseArgs, requestArgs?]
  | [_, _] => simp [diagnoseArgs, requestArgs?]
  | x :: y :: z :: r =>
    unfold diagnoseArgs
    rw [if_neg (by simp), mismatch_cons, mismatch_cons, mismatch_cons, hf, hg, hv,
      FieldKind.admits_number, FieldKind.admits_string]
    cases y with
    | string m => cases x <;> simp [Json.isNumber, Json.isString, mismatch, requestArgs?, unsigned?]
    | _ => cases x <;> simp [Json.isNumber, Json.isString, requestArgs?]

theorem errorArgs_complete (hf : f.kind = .integer) (hg : g.kind = .integer)
    (hv : v.kind = .string) :
    diagnoseArgs name [f, g, v] rest = none ↔ (errorArgs? rest).isSome = true := by
  match rest with
  | [] => simp [diagnoseArgs, errorArgs?]
  | [_] => simp [diagnoseArgs, errorArgs?]
  | [_, _] => simp [diagnoseArgs, errorArgs?]
  | x :: y :: z :: r =>
    unfold diagnoseArgs
    rw [if_neg (by simp), mismatch_cons, mismatch_cons, mismatch_cons, hf, hg, hv,
      FieldKind.admits_integer, FieldKind.admits_integer, FieldKind.admits_string]
    cases z with
    | string text =>
      cases x <;> cases y <;>
        simp [Json.isNumberInteger, Json.isString, mismatch, errorArgs?, int?]
    | _ =>
      cases x.isNumberInteger <;> cases y.isNumberInteger <;> simp [Json.isString, errorArgs?]

/-- The schemas admit exactly the elements that the decoder takes. -/
theorem schema_complete (ty : MsgType) :
    diagnoseArgs (typeName ty) (schema ty) rest = none ↔
      (decodeArgs lib ty rest).isSome = true := by
  cases ty <;> unfold decodeArgs <;> rw [Option.isSome_map]
  case link | unlink => exact idArg_complete rfl
  case init | setProperty | propertyChange | signal => exact payloadArgs_complete rfl rfl
  case invoke | invokeReply => exact requestArgs_complete rfl rfl rfl
  case error => exact errorArgs_complete rfl rfl rfl

end Branches

/-! ## `handleMessage` -/

variable (lib : JsonLibrary)

/-- Nothing is wrong with exactly the messages that the decoder accepts. -/
theorem diagnosis_complete (msg : Json) :
    diagnosis lib msg = none ↔ (decode? lib msg).isSome = true := by
  cases msg with
  | array xs =>
    match xs with
    | [] => simp [diagnosis, decode?]
    | t :: rest =>
      unfold diagnosis decode?
      dsimp only
      cases int? t with
      | none => simp
      | some code =>
        rw [Option.bind_some]
        cases hty : MsgType.ofInt? code with
        | none => cases lib.dump (.array (t :: rest)) <;> simp [hty]
        | some ty =>
          rw [Option.bind_some]
          simp only [hty]
          exact schema_complete ty
  | _ => simp [diagnosis, decode?]

/-- The `default` branch reports the type, or that the message cannot be serialised. -/
theorem default_diagnosed {t : Json} {rest : List Json} {code : Int32}
    (ht : int? t = some code) (hty : MsgType.ofInt? code = none) (s : σ) :
    (catchJson (caseDefault lib (.array (t :: rest)))).run ⟨[], s⟩
      = (.ok false, ⟨(diagnosis lib (.array (t :: rest))).getD [], s⟩) := by
  unfold diagnosis
  simp only [ht, hty]
  cases hd : lib.dump (.array (t :: rest)) with
  | error what =>
    simp only [caseDefault, hd, Except.mapError]
    rfl
  | ok text =>
    simp only [caseDefault, hd, Except.mapError]
    rfl

/-- A message with something wrong is reported as such. -/
theorem handleMessage_rejects {msg : Json} (hc : decode? lib msg = none)
    (L : IProtocolListener σ) (p : ProtocolState σ) :
    (handleMessage lib msg L).run p
      = (.ok false, ⟨(diagnosis lib msg).getD [], p.listener⟩) := by
  cases msg with
  | array xs =>
    match xs, hc with
    | [], _ => rfl
    | t :: rest, hc =>
      cases ht : int? t with
      | none =>
        have hn : t.isNumberInteger = false := by
          rw [Bool.eq_false_iff]
          intro h
          obtain ⟨n, hn⟩ := isNumberInteger_iff.mp h
          rw [ht] at hn
          cases hn
        cases t <;> first | rfl | cases hn
      | some code =>
        rw [handleMessage_array lib ht]
        cases hty : MsgType.ofInt? code with
        | none =>
          have hdefault : switch lib (.array (t :: rest)) L code
              = caseDefault lib (.array (t :: rest)) := by
            unfold switch
            rw [hty]
          rw [hdefault]
          exact default_diagnosed lib ht hty _
        | some ty =>
          have hdiagnosis : diagnosis lib (.array (t :: rest))
              = diagnoseArgs (typeName ty) (schema ty) rest := by
            unfold diagnosis
            simp only [ht, hty]
          cases hd : diagnoseArgs (typeName ty) (schema ty) rest with
          | none =>
            have haccepted := (diagnosis_complete lib _).mp (hdiagnosis.trans hd)
            rw [hc] at haccepted
            cases haccepted
          | some text =>
            rw [hdiagnosis, hd, switch_diagnosed t hty hd L]
            rfl
  | _ => rfl

/-- **`handleMessage` diagnoses.** Nothing is wrong with a message exactly if it stands for a call
of a handler, which is then made; otherwise `lastError` is the first thing that is wrong with the
message, and no handler is called. -/
theorem handleMessage_diagnosed (msg : Json) (L : IProtocolListener σ) (p : ProtocolState σ) :
    (diagnosis lib msg = none ↔ (decode? lib msg).isSome = true) ∧
    (handleMessage lib msg L).run p =
      match decode? lib msg with
      | some c => afterCall (L.run c p.listener)
      | none => (.ok false, ⟨(diagnosis lib msg).getD [], p.listener⟩) := by
  refine ⟨diagnosis_complete lib msg, ?_⟩
  cases hc : decode? lib msg with
  | some c => exact handleMessage_of_decode lib hc L p
  | none => exact handleMessage_rejects lib hc L p

end Protocol

end ObjectLink
