import ObjectLink.Operations.Handlers

/-!
# Which formats carry the messages

A message is composed as an array, converted by the sender's `emitWrite`, and converted back and
decoded by the receiver's `handleMessage`. What the encoders and decoders are taken to do is
`Codecs.Carries`: a value comes back equal, where the JSON library compares a non-negative integer
as equal however it is stored. `normal` stores all of them alike, and so what a decoder gives is
compared by its normal form.

* `decode?_normal`: which handler a message calls, and with what, is up to its normal form.
* `handleMessage_bson`: a node that is set to BSON ignores every message.
* `carried_iff`: a message of valid strings and payloads arrives at the handler it was composed for,
  with equal arguments, exactly if the format is not BSON.
* `bson_not_sent`: no `Link` is sent as BSON.
-/

namespace ObjectLink

open Running

/-! ## Numbers stored another way -/

mutual

/-- The value with all non-negative integers stored as unsigned, as the decoders store them. -/
def Json.normal : Json → Json
  | .integer i => if 0 ≤ i then .unsigned i.toUInt64 else .integer i
  | .array xs => .array (normals xs)
  | .object members => .object (normalMembers members)
  | j => j

/-- The same for the elements of an array. -/
def normals : List Json → List Json
  | [] => []
  | x :: xs => x.normal :: normals xs

/-- The same for the members of an object. -/
def normalMembers : List (Bytes × Json) → List (Bytes × Json)
  | [] => []
  | (name, value) :: members => (name, value.normal) :: normalMembers members

end

/-- The same for the arguments of a handler. -/
def Call.normal : Call → Call
  | .init o props => .init o props.normal
  | .setProperty p v => .setProperty p v.normal
  | .propertyChange p v => .propertyChange p v.normal
  | .invoke id m args => .invoke id m args.normal
  | .invokeReply id m v => .invokeReply id m v.normal
  | .signal s args => .signal s args.normal
  | c => c

@[simp] theorem normal_integer (i : Int64) :
    (Json.integer i).normal = if 0 ≤ i then .unsigned i.toUInt64 else .integer i := by
  rw [Json.normal]

@[simp] theorem normal_unsigned (u : UInt64) : (Json.unsigned u).normal = .unsigned u := by
  rw [Json.normal]
  all_goals simp

@[simp] theorem normal_string (s : Bytes) : (Json.string s).normal = .string s := by
  rw [Json.normal]
  all_goals simp

@[simp] theorem normal_array (xs : List Json) : (Json.array xs).normal = .array (normals xs) := by
  rw [Json.normal]

@[simp] theorem normals_nil : normals [] = [] := by rw [normals]

@[simp] theorem normals_cons (x : Json) (xs : List Json) :
    normals (x :: xs) = x.normal :: normals xs := by
  rw [normals]

namespace Protocol

variable {lib : JsonLibrary}

theorem toInt32_toUInt32_toUInt64 (i : Int64) : i.toUInt64.toUInt32.toInt32 = i.toInt32 := by
  apply Int32.toBitVec_inj.mp
  rw [Int64.toBitVec_toInt32, BitVec.signExtend_eq_setWidth_of_le _ (by omega)]
  rfl

/-- Narrowing does not care how the number is stored. -/
theorem int?_normal (j : Json) : int? j.normal = int? j := by
  cases j with
  | integer i =>
    rw [normal_integer]
    split
    · exact congrArg some (toInt32_toUInt32_toUInt64 i)
    · rfl
  | _ => simp [Json.normal, int?]

theorem unsigned?_normal (j : Json) : unsigned? lib j.normal = unsigned? lib j := by
  cases j with
  | integer i =>
    rw [normal_integer]
    split <;> rfl
  | _ => simp [Json.normal, unsigned?]

/-- A string stays one, and nothing else becomes one. -/
theorem idArg?_normals (rest : List Json) : idArg? (normals rest) = idArg? rest := by
  cases rest with
  | nil => simp
  | cons x xs =>
    rw [normals_cons]
    cases x with
    | integer i =>
      rw [normal_integer]
      split <;> rfl
    | _ => simp [Json.normal, idArg?]

theorem payloadArgs?_normals (rest : List Json) :
    payloadArgs? (normals rest) = (payloadArgs? rest).map fun x => (x.1, x.2.normal) := by
  match rest with
  | [] => simp [payloadArgs?]
  | [x] => simp [payloadArgs?]
  | x :: payload :: more =>
    rw [normals_cons, normals_cons]
    cases x with
    | integer i =>
      rw [normal_integer]
      split <;> rfl
    | _ => simp [Json.normal, payloadArgs?]

theorem requestArgs?_normals (rest : List Json) :
    requestArgs? lib (normals rest)
      = (requestArgs? lib rest).map fun x => (x.1, x.2.1, x.2.2.normal) := by
  match rest with
  | [] => simp [requestArgs?]
  | [n] => simp [requestArgs?]
  | [n, x] => simp [requestArgs?]
  | n :: x :: payload :: more =>
    rw [normals_cons, normals_cons, normals_cons]
    cases x with
    | string m => simp [requestArgs?, unsigned?_normal, Function.comp_def]
    | integer i =>
      rw [normal_integer]
      split <;> rfl
    | _ => simp [Json.normal, requestArgs?]

theorem errorArgs?_normals (rest : List Json) : errorArgs? (normals rest) = errorArgs? rest := by
  match rest with
  | [] => simp
  | [t] => simp [errorArgs?]
  | [t, n] => simp [errorArgs?]
  | t :: n :: x :: more =>
    rw [normals_cons, normals_cons, normals_cons]
    cases x with
    | string text => simp [errorArgs?, int?_normal]
    | integer i =>
      rw [normal_integer]
      split <;> rfl
    | _ => simp [Json.normal, errorArgs?]

theorem decodeArgs_normals (ty : MsgType) (rest : List Json) :
    decodeArgs lib ty (normals rest) = (decodeArgs lib ty rest).map Call.normal := by
  cases ty with
  | link | unlink => simp [decodeArgs, idArg?_normals, Function.comp_def, Call.normal]
  | init | setProperty | propertyChange | signal =>
    simp [decodeArgs, payloadArgs?_normals, Function.comp_def, Call.normal]
  | invoke | invokeReply =>
    simp [decodeArgs, requestArgs?_normals, Function.comp_def, Call.normal]
  | error => simp [decodeArgs, errorArgs?_normals, Function.comp_def, Call.normal]

/-- **The normal form of a message** stands for the same call, with its arguments in normal form. -/
theorem decode?_normal (msg : Json) :
    decode? lib msg.normal = (decode? lib msg).map Call.normal := by
  cases msg with
  | array xs =>
    rw [normal_array]
    cases xs with
    | nil =>
      rw [normals_nil]
      rfl
    | cons t rest =>
      rw [normals_cons]
      simp only [decode?, int?_normal]
      cases int? t with
      | none => rfl
      | some code =>
        cases hty : MsgType.ofInt? code with
        | none => simp [hty]
        | some ty => simpa [hty] using decodeArgs_normals ty rest
  | integer i =>
    rw [normal_integer]
    split <;> rfl
  | _ => simp [Json.normal, decode?]

/-- Messages with the same normal form call the same handler with equal arguments. -/
theorem decode?_of_normal {msg msg' : Json} {c : Call} (h : msg'.normal = msg.normal)
    (hc : decode? lib msg = some c) : ∃ c', decode? lib msg' = some c' ∧ c'.normal = c.normal := by
  have hmap : (decode? lib msg').map Call.normal = some c.normal := by
    rw [← decode?_normal, h, decode?_normal, hc]
    rfl
  exact Option.map_eq_some_iff.mp hmap

end Protocol

/-! ## What the formats carry -/

/-- The encoders and decoders carry a value: it comes back equal. -/
structure Codecs.Carries (lib : Codecs) (msg : Json) : Prop where
  json : ∀ text, lib.dump msg = .ok text → ∃ j, lib.parse text = some j ∧ j.normal = msg.normal
  msgpack : ∃ j, lib.fromMsgpack (lib.toMsgpack msg) = some j ∧ j.normal = msg.normal
  cbor : ∃ j, lib.fromCbor (lib.toCbor msg) = some j ∧ j.normal = msg.normal

/-- A valid value that is carried is converted, and converted back by every converter of the format
whose limit it does not exceed. -/
theorem MessageConverter.fromString_toString {lib : Codecs} {c : MessageConverter} {msg : Json}
    (hlib : lib.Carries msg) (hvalid : msg.validUtf8 = true) (hformat : c.format ≠ .bson) :
    ∃ data j, c.toString lib msg = .ok data ∧ j.normal = msg.normal ∧
      ∀ c' : MessageConverter, c'.format = c.format → data.length ≤ c'.maxMessageSize →
        c'.fromString lib data = j := by
  cases hf : c.format with
  | bson => exact absurd hf hformat
  | json =>
    obtain ⟨text, ht⟩ := (lib.dump_ok_iff msg).mpr hvalid
    obtain ⟨j, hj, hn⟩ := hlib.json text ht
    refine ⟨text, j, by simp [MessageConverter.toString, hf, ht, Except.mapError], hn, ?_⟩
    intro c' hc' hsize
    unfold fromString
    rw [if_neg (by omega), hc']
    dsimp only
    rw [hj]
  | msgpack =>
    obtain ⟨j, hj, hn⟩ := hlib.msgpack
    refine ⟨lib.toMsgpack msg, j, by simp [MessageConverter.toString, hf], hn, ?_⟩
    intro c' hc' hsize
    unfold fromString
    rw [if_neg (by omega), hc']
    dsimp only
    rw [hj]
  | cbor =>
    obtain ⟨j, hj, hn⟩ := hlib.cbor
    refine ⟨lib.toCbor msg, j, by simp [MessageConverter.toString, hf], hn, ?_⟩
    intro c' hc' hsize
    unfold fromString
    rw [if_neg (by omega), hc']
    dsimp only
    rw [hj]

namespace Formats

/-- A node that is set to the format, and takes a message of this size, calls this handler for it,
and does nothing else. It holds for every state, and whatever the handlers do. -/
def Received (lib : Codecs) (format : MessageFormat) (data : Bytes) (c : Call) : Prop :=
  ∀ (users : Users) (L : LoggerId → Logger) (w : World) (x : HasExceptions) (n : NodeId)
    (handle : Call → Routine Unit), (w.library.converters n).format = format →
    data.length ≤ (w.library.converters n).maxMessageSize →
    run users L (Operations.BaseNode.handleMessage lib n x handle data) w
      = caught x (run users L (handle c) w)

/-- A node sends the message of a call: the write function is called with bytes for which a
receiver that is set to the same format calls the same handler with equal arguments. -/
def Carried (lib : Codecs) (users : Users) (L : LoggerId → Logger) (w : World) (n : NodeId)
    (c : Call) : Prop :=
  ∃ data c', c'.normal = c.normal ∧
    run users L (Operations.BaseNode.emitWrite lib n c.message) w
      = performed users (.write n data) w ∧
    Received lib (w.library.converters n).format data c'

variable {lib : Codecs} {users : Users} {L : LoggerId → Logger} {w : World} {n : NodeId} {c : Call}

/-- **BSON is ignored**: a node that is set to it calls no handler, whatever it receives. -/
theorem handleMessage_bson (hformat : (w.library.converters n).format = .bson)
    (x : HasExceptions) (handle : Call → Routine Unit) (data : Bytes) :
    run users L (Operations.BaseNode.handleMessage lib n x handle data) w = (.ok (), w) := by
  have harray : ((w.library.converters n).fromString lib data).isArray = false :=
    MessageConverter.isArray_fromString_bson hformat data
  rw [run_handleMessage]
  generalize (w.library.converters n).fromString lib data = msg at harray ⊢
  have hrun : run users L (Protocol.tryBlock lib msg handle) w = (.ok (), w) := by
    cases msg with
    | array xs => cases harray
    | _ => rfl
  rw [hrun]
  cases x <;> rfl

/-- What is sent when the payload can be dumped. -/
theorem run_emitWrite_valid (hvalid : c.validUtf8 = true) :
    run users L (Operations.BaseNode.emitWrite lib n c.message) w
      = written users lib n c.message w := by
  rw [run_emitWrite, dumped_valid (by rw [validUtf8_message, hvalid])]
  rfl

theorem not_carried_bson (hvalid : c.validUtf8 = true) (hwrite : w.library.writeFunc n = true)
    (hformat : (w.library.converters n).format = .bson) : ¬ Carried lib users L w n c := by
  rintro ⟨data, c', -, hsent, -⟩
  obtain ⟨xs, hxs⟩ : ∃ xs, c.message = .array xs := by cases c <;> exact ⟨_, rfl⟩
  obtain ⟨what, ht⟩ : ∃ what, (w.library.converters n).toString lib (.array xs)
      = .error (.json what) := MessageConverter.toString_bson hformat xs
  rw [run_emitWrite_valid hvalid] at hsent
  unfold written at hsent
  rw [if_pos hwrite, hxs, ht] at hsent
  have hne : w.called users (.write n data) ≠ w := called_ne rfl _
  exact hne (congrArg Prod.snd hsent).symm

/-- **The formats**: a message of valid strings and payloads arrives exactly if the format is not
BSON. -/
theorem carried_iff (hvalid : c.validUtf8 = true) (hlib : lib.Carries c.message) (users : Users)
    (L : LoggerId → Logger) (hwrite : w.library.writeFunc n = true) :
    Carried lib users L w n c ↔ (w.library.converters n).format ≠ .bson := by
  constructor
  · intro hcarried hformat
    exact not_carried_bson hvalid hwrite hformat hcarried
  · intro hformat
    have hmsg : c.message.validUtf8 = true := by rw [validUtf8_message, hvalid]
    obtain ⟨data, j, ht, hn, hback⟩ :=
      MessageConverter.fromString_toString hlib hmsg hformat
    obtain ⟨c', hc', hcn⟩ :=
      Protocol.decode?_of_normal hn (Protocol.decode?_composed lib.toJsonLibrary c)
    refine ⟨data, c', hcn, ?_, ?_⟩
    · rw [run_emitWrite_valid hvalid]
      unfold written
      rw [if_pos hwrite, ht]
      rfl
    · intro users L w x n handle hf hsize
      rw [run_handleMessage, hback _ hf hsize, Protocol.tryBlock_of_decode hc']

/-- A node with a write function that is set to this format. -/
def sender (format : MessageFormat) : World where
  history := []
  library := (Library.new.setWriteFunc true (.client 0)).updateConverter (.client 0) fun c =>
    { c with format := format }

/-- The `Link` of an object `o`, as it is decoded: the type code is unsigned. -/
def decodedLink : Json := .array [.unsigned 10, .string (lit "o")]

/-- A library that carries it. -/
def linkCodecs : Codecs :=
  .knowing decodedLink (lit "[10,\"o\"]") [0x92, 0x0A, 0xA1, 0x6F]
    [0x82, 0x0A, 0x61, 0x6F]

theorem linkCodecs_carries : linkCodecs.Carries (Call.link (lit "o")).message where
  json text ht := by
    cases ht
    exact ⟨decodedLink, rfl, rfl⟩
  msgpack := ⟨decodedLink, rfl, rfl⟩
  cbor := ⟨decodedLink, rfl, rfl⟩

/-- The `Link` arrives as CBOR. -/
theorem carried_iff_cbor :
    Carried linkCodecs .idle verbose (sender .cbor) (.client 0) (.link (lit "o")) :=
  (carried_iff (by decide) linkCodecs_carries .idle verbose rfl).mpr (by decide)

/-- **BSON sends nothing**: the top level of a message is not an object. -/
theorem bson_not_sent :
    ¬ Carried linkCodecs .idle silent (sender .bson) (.client 0) (.link (lit "o")) :=
  not_carried_bson (by decide) rfl rfl

end Formats

end ObjectLink
