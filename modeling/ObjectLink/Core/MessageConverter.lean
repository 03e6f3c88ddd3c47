import ObjectLink.Core.Protocol

/-!
# The message converter

Model of `MessageFormat` and `MessageConverter` (`types.h`, `types.cpp:46-110`). The encoders and
decoders of the formats are part of the JSON library; `Codecs` adds them to `JsonLibrary`, with
what is known of them: which values `dump` throws on, and that BSON has objects at the top level
only.

* `validUtf8`: well formed UTF-8, by the table of lead bytes and the ranges of the bytes that
  follow them; `Json.validUtf8`: all strings and member names of a value are.
* `fromString` gives `null` for what it cannot decode and for what is too long, and never throws;
  `toString` throws what the encoder throws.

Results:
* `validUtf8_message`: a composed message is well formed when the strings it is made of are.
* `toString_bson`, `isArray_fromString_bson`: BSON carries no message either way.
-/

namespace ObjectLink

/-! ## UTF-8 -/

/-- The ranges of the bytes that follow a lead byte; `none` if no character starts with it. -/
def following (lead : UInt8) : Option (List (UInt8 × UInt8)) :=
  if lead ≤ 0x7F then some []
  else if 0xC2 ≤ lead ∧ lead ≤ 0xDF then some [(0x80, 0xBF)]
  else if lead = 0xE0 then some [(0xA0, 0xBF), (0x80, 0xBF)]
  else if lead = 0xED then some [(0x80, 0x9F), (0x80, 0xBF)]
  else if 0xE1 ≤ lead ∧ lead ≤ 0xEF then some [(0x80, 0xBF), (0x80, 0xBF)]
  else if lead = 0xF0 then some [(0x90, 0xBF), (0x80, 0xBF), (0x80, 0xBF)]
  else if lead = 0xF4 then some [(0x80, 0x8F), (0x80, 0xBF), (0x80, 0xBF)]
  else if 0xF1 ≤ lead ∧ lead ≤ 0xF3 then some [(0x80, 0xBF), (0x80, 0xBF), (0x80, 0xBF)]
  else none

/-- The rest of a string, from within a character that still needs bytes of these ranges. -/
def validUtf8From : List (UInt8 × UInt8) → Bytes → Bool
  | [], [] => true
  | _ :: _, [] => false
  | [], lead :: rest =>
    match following lead with
    | some ranges => validUtf8From ranges rest
    | none => false
  | (low, high) :: ranges, b :: rest =>
    decide (low ≤ b) && decide (b ≤ high) && validUtf8From ranges rest

/-- Well formed UTF-8. -/
def validUtf8 (s : Bytes) : Bool := validUtf8From [] s

mutual

/-- All strings in the value are well formed. -/
def Json.validUtf8 : Json → Bool
  | .string s => ObjectLink.validUtf8 s
  | .array xs => validUtf8s xs
  | .object members => validUtf8Members members
  | _ => true

/-- All strings in the values are well formed. -/
def validUtf8s : List Json → Bool
  | [] => true
  | x :: xs => x.validUtf8 && validUtf8s xs

/-- All names and all strings in the values of the members are well formed. -/
def validUtf8Members : List (Bytes × Json) → Bool
  | [] => true
  | (name, value) :: members =>
    ObjectLink.validUtf8 name && value.validUtf8 && validUtf8Members members

end

example : validUtf8 [0xC3, 0xA4] = true ∧ validUtf8 [0xFF] = false ∧
    (Json.array [.string [0x41], .object [([], .string [0xC3])]]).validUtf8 = false := by
  decide

@[simp] theorem Json.validUtf8_null : Json.null.validUtf8 = true := rfl

@[simp] theorem Json.validUtf8_string (s : Bytes) :
    (Json.string s).validUtf8 = ObjectLink.validUtf8 s := by
  rw [Json.validUtf8]

@[simp] theorem Json.validUtf8_array (xs : List Json) :
    (Json.array xs).validUtf8 = validUtf8s xs := by
  rw [Json.validUtf8]

@[simp] theorem Json.validUtf8_integer (i : Int64) : (Json.integer i).validUtf8 = true := by
  rw [Json.validUtf8]
  all_goals simp

@[simp] theorem Json.validUtf8_unsigned (u : UInt64) : (Json.unsigned u).validUtf8 = true := by
  rw [Json.validUtf8]
  all_goals simp

@[simp] theorem validUtf8s_nil : validUtf8s [] = true := by rw [validUtf8s]

@[simp] theorem validUtf8s_cons (x : Json) (xs : List Json) :
    validUtf8s (x :: xs) = (x.validUtf8 && validUtf8s xs) := by
  rw [validUtf8s]

/-- All strings a call carries are well formed. -/
def Call.validUtf8 : Call → Bool
  | .link o | .unlink o => ObjectLink.validUtf8 o
  | .init id payload | .setProperty id payload | .propertyChange id payload
  | .invoke _ id payload | .invokeReply _ id payload | .signal id payload =>
    ObjectLink.validUtf8 id && payload.validUtf8
  | .error _ _ text => ObjectLink.validUtf8 text

/-- The numbers of a message are no matter. -/
theorem validUtf8_message (c : Call) : c.message.validUtf8 = c.validUtf8 := by
  cases c <;>
    simp [Call.message, Call.validUtf8, Protocol.typeCode, Protocol.linkMessage,
      Protocol.unlinkMessage, Protocol.initMessage, Protocol.setPropertyMessage,
      Protocol.propertyChangeMessage, Protocol.invokeMessage, Protocol.invokeReplyMessage,
      Protocol.signalMessage, Protocol.errorMessage]

/-! ## Encoders and decoders -/

/-- The JSON library with its network formats. A decoder gives `none` for what it discards. -/
structure Codecs extends JsonLibrary where
  parse : Bytes → Option Json
  fromBson : Bytes → Option Json
  fromMsgpack : Bytes → Option Json
  fromCbor : Bytes → Option Json
  /-- The encoding, or the `what()` of the exception. -/
  toBson : Json → Except Bytes Bytes
  toMsgpack : Json → Bytes
  toCbor : Json → Bytes
  /-- `dump` throws on strings that are not UTF-8, and on nothing else. -/
  dump_ok_iff : ∀ j, (∃ text, dump j = .ok text) ↔ j.validUtf8 = true
  /-- The top level of BSON is an object. -/
  toBson_object : ∀ {j data}, toBson j = .ok data → ∃ members, j = .object members
  fromBson_object : ∀ {data j}, fromBson data = some j → ∃ members, j = .object members

namespace Codecs

variable (lib : Codecs)

theorem dump_error_iff (j : Json) : (∃ what, lib.dump j = .error what) ↔ j.validUtf8 = false := by
  have hok := lib.dump_ok_iff j
  cases hd : lib.dump j with
  | ok text =>
    rw [hd] at hok
    simp [hok.mp ⟨text, rfl⟩]
  | error what =>
    rw [hd] at hok
    have hv : j.validUtf8 ≠ true := fun hv => by
      obtain ⟨text, ht⟩ := hok.mpr hv
      cases ht
    simpa using hv

theorem toBson_array (xs : List Json) : ∃ what, lib.toBson (.array xs) = .error what := by
  cases h : lib.toBson (.array xs) with
  | error what => exact ⟨what, rfl⟩
  | ok data =>
    obtain ⟨members, hm⟩ := lib.toBson_object h
    cases hm

/-- A library that knows one message, an array, in the formats that carry it, and one string that
is not UTF-8, `0xFF`. -/
def knowing (msg : Json) (text msgpack cbor : Bytes) : Codecs where
  toJsonLibrary := { JsonLibrary.truncating with
    dump := fun j => if j.validUtf8 then .ok text
      else .error (lit "[json.exception.type_error.316] invalid UTF-8 byte at index 0: 0xFF") }
  parse data := if data = text then some msg else none
  fromBson _ := none
  fromMsgpack data := if data = msgpack then some msg else none
  fromCbor data := if data = cbor then some msg else none
  toBson _ := .error (lit ("[json.exception.type_error.317] to serialize to BSON, " ++
    "top-level type must be object, but is array"))
  toMsgpack _ := msgpack
  toCbor _ := cbor
  dump_ok_iff j := by
    cases hv : j.validUtf8 <;> simp [hv]
  toBson_object h := by cases h
  fromBson_object h := by cases h

end Codecs

/-! ## The converter -/

/-- `enum MessageFormat`. -/
inductive MessageFormat where
  | json | bson | msgpack | cbor
  deriving DecidableEq

/-- The members of `MessageConverter`. -/
structure MessageConverter where
  format : MessageFormat
  maxMessageSize : Nat

namespace MessageConverter

/-- The constructor. -/
def new (format : MessageFormat) : MessageConverter where
  format := format
  maxMessageSize := 64 * 1024 * 1024

variable (lib : Codecs) (c : MessageConverter)

/-- `fromString`. No decoder is allowed to throw. -/
def fromString (message : Bytes) : Json :=
  if c.maxMessageSize < message.length then .null
  else
    let result := match c.format with
      | .json => lib.parse message
      | .bson => lib.fromBson message
      | .msgpack => lib.fromMsgpack message
      | .cbor => lib.fromCbor message
    match result with
    | some j => j
    | none => .null

/-- `toString`. -/
def toString (j : Json) : Except Thrown Bytes :=
  match c.format with
  | .json => (lib.dump j).mapError .json
  | .bson => (lib.toBson j).mapError .json
  | .msgpack => .ok (lib.toMsgpack j)
  | .cbor => .ok (lib.toCbor j)

variable {lib c}

/-- No BSON message is decoded to an array. -/
theorem isArray_fromString_bson (hc : c.format = .bson) (message : Bytes) :
    (c.fromString lib message).isArray = false := by
  unfold fromString
  split
  · rfl
  · rw [hc]
    dsimp only
    cases hp : lib.fromBson message with
    | none => rfl
    | some j =>
      obtain ⟨members, rfl⟩ := lib.fromBson_object hp
      rfl

/-- What `toString` throws is a JSON exception. -/
theorem toString_error {j : Json} {e : Thrown} (h : c.toString lib j = .error e) :
    ∃ what, e = .json what := by
  unfold toString at h
  split at h
  · cases hd : lib.dump j <;> rw [hd] at h <;> cases h
    exact ⟨_, rfl⟩
  · cases hd : lib.toBson j <;> rw [hd] at h <;> cases h
    exact ⟨_, rfl⟩
  · cases h
  · cases h

/-- **No message goes through BSON**: messages are arrays. -/
theorem toString_bson (hc : c.format = .bson) (xs : List Json) :
    ∃ what, c.toString lib (.array xs) = .error (.json what) := by
  obtain ⟨what, hw⟩ := lib.toBson_array xs
  refine ⟨what, ?_⟩
  unfold toString
  rw [hc]
  dsimp only
  rw [hw]
  rfl

end MessageConverter

end ObjectLink
