import ObjectLink.Core.Decode
import Mathlib.Tactic.NormNum

/-!
# Which messages are decoded faithfully

The handler of a message that is composed again should be given the numbers the message holds.
The branches check the type of these numbers, with `is_number_integer` for the type code and the
numbers of an `Error`, with `is_number` for the request id of an `Invoke` or `InvokeReply`, but
never their range; `get<int>` and `get<unsigned int>` then narrow them without a word.

Results:
* `number?_of_fitsInt`, `number?_of_fitsUnsigned`: narrowing keeps a number that fits.
* `handleMessage_faithful_iff`: the decoder is faithful on a message exactly when the message does
  not pass the guards of its branch with a number that does not fit.
* `invokeReply_not_faithful`: a reply with the request id `2 ^ 32 + 1` resolves call `1`.
-/

namespace ObjectLink

namespace Protocol

variable {lib : JsonLibrary} {t : Json} {rest : List Json}

/-! ## Numbers that fit -/

/-- The number is a value of `int`. -/
def FitsInt (j : Json) : Prop := ∃ n : Int32, j.number? = some (n.toInt : ℚ)

/-- The number is a value of `unsigned int`. -/
def FitsUnsigned (j : Json) : Prop := ∃ n : UInt32, j.number? = some (n.toNat : ℚ)

theorem toInt32_of_toInt_eq {i : Int64} {n : Int32} (h : i.toInt = n.toInt) : i.toInt32 = n := by
  have hi : i = n.toInt64 := Int64.toInt_inj.mp (by rw [h, Int32.toInt_toInt64])
  rw [hi, Int32.toInt32_toInt64]

theorem toInt32_of_toNat_eq {u : UInt64} {n : Int32} (h : (u.toNat : Int) = n.toInt) :
    u.toUInt32.toInt32 = n := by
  apply Int32.toInt_inj.mp
  have hlt := n.toInt_lt
  have hbits : u.toUInt32.toInt32.toInt = (u.toUInt32.toNat : Int).bmod (2 ^ 32) := by
    rw [← Int32.toInt_toBitVec, BitVec.toInt_eq_toNat_bmod]
    rfl
  have hu : u.toNat < 2 ^ 31 := by omega
  rw [hbits, UInt64.toNat_toUInt32, ← h, Nat.mod_eq_of_lt (by omega), Int.bmod_def]
  omega

theorem toUInt32_of_toInt_eq {i : Int64} {n : UInt32} (h : i.toInt = (n.toNat : Int)) :
    i.toUInt64.toUInt32 = n := by
  apply UInt32.toNat_inj.mp
  have hn := n.toNat_lt
  have hbits : i.toInt = i.toUInt64.toBitVec.toInt := rfl
  have hnat : i.toUInt64.toBitVec.toNat = i.toUInt64.toNat := rfl
  have hlt := i.toUInt64.toNat_lt
  rw [BitVec.toInt_eq_toNat_cond] at hbits
  rw [UInt64.toNat_toUInt32]
  split at hbits <;> omega

theorem trunc_natCast (n : Nat) : trunc (n : ℚ) = n := by
  unfold trunc
  rw [if_neg (not_lt.mpr (Nat.cast_nonneg n))]
  exact Int.floor_natCast n

/-- `get<int>` keeps an integer that fits. -/
theorem number?_of_fitsInt {j : Json} {n : Int32} (hj : int? j = some n) (hf : FitsInt j) :
    j.number? = some (n.toInt : ℚ) := by
  obtain ⟨k, hk⟩ := hf
  cases j with
  | integer i =>
    cases hj
    have hi : i.toInt = k.toInt := by exact_mod_cast Option.some.inj hk
    rw [hk, toInt32_of_toInt_eq hi]
  | unsigned u =>
    cases hj
    have hu : (u.toNat : Int) = k.toInt := by exact_mod_cast Option.some.inj hk
    rw [hk, toInt32_of_toNat_eq hu]
  | _ => cases hj

/-- `get<unsigned int>` keeps a number that fits, whichever of the three types it is stored in. -/
theorem number?_of_fitsUnsigned {j : Json} {n : UInt32} (hj : unsigned? lib j = some n)
    (hf : FitsUnsigned j) : j.number? = some (n.toNat : ℚ) := by
  obtain ⟨k, hk⟩ := hf
  cases j with
  | integer i =>
    cases hj
    have hi : i.toInt = (k.toNat : Int) := by exact_mod_cast Option.some.inj hk
    rw [hk, toUInt32_of_toInt_eq hi]
  | unsigned u =>
    cases hj
    have hu : u.toNat = k.toNat := by exact_mod_cast Option.some.inj hk
    have huk : u.toUInt32 = k := by
      apply UInt32.toNat_inj.mp
      rw [UInt64.toNat_toUInt32, hu, Nat.mod_eq_of_lt k.toNat_lt]
    rw [hk, huk]
  | float d =>
    cases hj
    have ht := trunc_natCast k.toNat
    have hd := lib.floatToUnsigned_trunc d k.toNat hk (by rw [ht]; omega)
      (by rw [ht]; exact_mod_cast k.toNat_lt)
    rw [ht] at hd
    have hdk : lib.floatToUnsigned d = k := UInt32.toNat_inj.mp (by exact_mod_cast hd)
    rw [hk, hdk]
  | _ => cases hj

/-! ## Faithful decoding -/

/-- Equal as JSON values: the same value, or numbers that denote the same number. -/
def Same (a b : Json) : Prop := a = b ∨ ∃ q, a.number? = some q ∧ b.number? = some q

/-- The elements of `built` are the leading elements of `msg`. -/
def Leading (built msg : Json) : Prop :=
  ∃ xs ys more, built = .array xs ∧ msg = .array (ys ++ more) ∧ List.Forall₂ Same xs ys

/-- The handler calls `handleMessage` makes. -/
def handlerCalls (lib : JsonLibrary) (msg : Json) : List Call :=
  ((handleMessage lib msg recorder).run ⟨[], []⟩).2.listener

/-- What `handleMessage` returns. -/
def returned (lib : JsonLibrary) (msg : Json) : Except Thrown Bool :=
  ((handleMessage lib msg recorder).run ⟨[], []⟩).1

/-- The type code denotes `ty`. -/
def OfType (ty : MsgType) (msg : Json) : Prop := (msg.item 0).number? = some (ty.toInt.toInt : ℚ)

/-- The type code, the request id or the type an error is about is not a value of the integer
type the decoder converts it to. -/
def Unrepresentable (msg : Json) : Prop :=
  ¬ FitsInt (msg.item 0) ∨
  ((OfType .invoke msg ∨ OfType .invokeReply msg) ∧ ¬ FitsUnsigned (msg.item 1)) ∨
  (OfType .error msg ∧ (¬ FitsInt (msg.item 1) ∨ ¬ FitsInt (msg.item 2)))

/-- **Faithful decoding** of a message: the message composed again from what the handler was given
leads it, and one with a number that cannot be represented is rejected. -/
def Faithful (lib : JsonLibrary) (msg : Json) : Prop :=
  (∀ c ∈ handlerCalls lib msg, Leading c.message msg) ∧
  (Unrepresentable msg → returned lib msg = .ok false ∧ handlerCalls lib msg = [])

/-- The guards of a branch of the `switch`. -/
def Guards (msg : Json) : MsgType → Prop
  | .link | .unlink => 2 ≤ msg.size ∧ (msg.item 1).isString
  | .init | .setProperty | .propertyChange | .signal => 3 ≤ msg.size ∧ (msg.item 1).isString
  | .invoke | .invokeReply =>
    4 ≤ msg.size ∧ (msg.item 1).isNumber ∧ (msg.item 2).isString
  | .error =>
    4 ≤ msg.size ∧ (msg.item 1).isNumberInteger ∧ (msg.item 2).isNumberInteger ∧
      (msg.item 3).isString

/-- The numbers a branch converts fit. -/
def Fits (msg : Json) : MsgType → Prop
  | .invoke | .invokeReply => FitsInt (msg.item 0) ∧ FitsUnsigned (msg.item 1)
  | .error => FitsInt (msg.item 0) ∧ FitsInt (msg.item 1) ∧ FitsInt (msg.item 2)
  | _ => FitsInt (msg.item 0)

/-- **The condition**: a message that passes every guard has numbers that fit. -/
def NumbersFit (msg : Json) : Prop :=
  msg.isArray → ∀ code, int? (msg.item 0) = some code → ∀ ty, MsgType.ofInt? code = some ty →
    Guards msg ty → Fits msg ty

theorem handlerCalls_of_decode {msg : Json} {c : Call} (hc : decode? lib msg = some c) :
    handlerCalls lib msg = [c] ∧ returned lib msg = .ok true := by
  unfold handlerCalls returned
  rw [handleMessage_of_decode lib hc, recorder_run]
  exact ⟨rfl, rfl⟩

theorem handlerCalls_of_reject {msg : Json} (hc : decode? lib msg = none) :
    handlerCalls lib msg = [] ∧ returned lib msg = .ok false := by
  obtain ⟨text, -, hrun⟩ := handleMessage_of_reject lib hc recorder ⟨[], []⟩
  unfold handlerCalls returned
  rw [hrun]
  exact ⟨rfl, rfl⟩

/-! ## Comparing element by element -/

theorem Same.refl (j : Json) : Same j j := Or.inl rfl

theorem leading_nil (zs : List Json) : Leading (.array []) (.array zs) :=
  ⟨[], [], zs, rfl, rfl, .nil⟩

theorem leading_cons {x z : Json} {xs zs : List Json} :
    Leading (.array (x :: xs)) (.array (z :: zs)) ↔
      Same x z ∧ Leading (.array xs) (.array zs) := by
  constructor
  · rintro ⟨us, ys, more, hus, hzs, hall⟩
    cases hus
    cases hall with
    | cons hxy hall =>
      cases hzs
      exact ⟨hxy, _, _, more, rfl, rfl, hall⟩
  · rintro ⟨hxz, us, ys, more, hus, hzs, hall⟩
    cases hus
    cases hzs
    exact ⟨_, z :: ys, more, rfl, rfl, .cons hxz hall⟩

/-- An integer converted by `get<int>` composes the same number again exactly when it fits. -/
theorem same_integer_iff {j : Json} {n : Int32} (hj : int? j = some n) :
    Same (.integer n.toInt64) j ↔ FitsInt j := by
  have hn : (Json.integer n.toInt64).number? = some (n.toInt : ℚ) := by
    simp [Json.number?, Int32.toInt_toInt64]
  constructor
  · rintro (rfl | ⟨q, hq, hjq⟩)
    · exact ⟨n, hn⟩
    · exact ⟨n, by rw [hjq, ← hq, hn]⟩
  · intro hf
    exact Or.inr ⟨_, hn, number?_of_fitsInt hj hf⟩

theorem same_unsigned_iff {j : Json} {n : UInt32} (hj : unsigned? lib j = some n) :
    Same (.unsigned n.toUInt64) j ↔ FitsUnsigned j := by
  have hn : (Json.unsigned n.toUInt64).number? = some (n.toNat : ℚ) := by
    simp [Json.number?]
  constructor
  · rintro (rfl | ⟨q, hq, hjq⟩)
    · exact ⟨n, hn⟩
    · exact ⟨n, by rw [hjq, ← hq, hn]⟩
  · intro hf
    exact Or.inr ⟨_, hn, number?_of_fitsUnsigned hj hf⟩

/-! ## One branch at a time -/

theorem eq_of_idArg? {o : Bytes} (h : idArg? rest = some o) : ∃ r, rest = .string o :: r := by
  unfold idArg? at h
  split at h <;> cases h
  exact ⟨_, rfl⟩

theorem eq_of_payloadArgs? {x : Bytes × Json} (h : payloadArgs? rest = some x) :
    ∃ r, rest = .string x.1 :: x.2 :: r := by
  unfold payloadArgs? at h
  split at h <;> cases h
  exact ⟨_, rfl⟩

theorem eq_of_requestArgs? {x : UInt32 × Bytes × Json} (h : requestArgs? lib rest = some x) :
    ∃ n r, rest = n :: .string x.2.1 :: x.2.2 :: r ∧ unsigned? lib n = some x.1 := by
  unfold requestArgs? at h
  split at h
  · obtain ⟨id, hid, rfl⟩ := Option.map_eq_some_iff.mp h
    exact ⟨_, _, rfl, hid⟩
  · cases h

theorem eq_of_errorArgs? {x : Int32 × Int32 × Bytes} (h : errorArgs? rest = some x) :
    ∃ u n r, rest = u :: n :: .string x.2.2 :: r ∧ int? u = some x.1 ∧ int? n = some x.2.1 := by
  unfold errorArgs? at h
  split at h
  · obtain ⟨ty, hty, h⟩ := Option.bind_eq_some_iff.mp h
    obtain ⟨id, hid, rfl⟩ := Option.map_eq_some_iff.mp h
    exact ⟨_, _, _, rfl, hty, hid⟩
  · cases h

theorem guards_of_decodeArgs {ty : MsgType} {c : Call} (hc : decodeArgs lib ty rest = some c) :
    Guards (.array (t :: rest)) ty := by
  unfold decodeArgs at hc
  cases ty <;> obtain ⟨x, hx, rfl⟩ := Option.map_eq_some_iff.mp hc
  case link | unlink =>
    obtain ⟨r, rfl⟩ := eq_of_idArg? hx
    simp [Guards, Json.size, Json.elements, Json.item, Json.isString]
  case init | setProperty | propertyChange | signal =>
    obtain ⟨r, rfl⟩ := eq_of_payloadArgs? hx
    simp [Guards, Json.size, Json.elements, Json.item, Json.isString]
  case invoke | invokeReply =>
    obtain ⟨n, r, rfl, hn⟩ := eq_of_requestArgs? hx
    have hnum := (isNumber_iff lib).mpr ⟨_, hn⟩
    simp [Guards, Json.size, Json.elements, Json.item, Json.isString, hnum]
  case error =>
    obtain ⟨u, n, r, rfl, hu, hn⟩ := eq_of_errorArgs? hx
    have hunum := isNumberInteger_iff.mpr ⟨_, hu⟩
    have hnnum := isNumberInteger_iff.mpr ⟨_, hn⟩
    simp [Guards, Json.size, Json.elements, Json.item, Json.isString, hunum, hnnum]

theorem isString_iff {j : Json} : j.isString = true ↔ ∃ s, j = .string s := by
  cases j <;> simp [Json.isString]

/-- What passes the guards of its branch is decoded. -/
theorem decodeArgs_of_guards (lib : JsonLibrary) {ty : MsgType}
    (h : Guards (.array (t :: rest)) ty) :
    ∃ c, decodeArgs lib ty rest = some c := by
  have hsize : (Json.array (t :: rest)).size = rest.length + 1 := rfl
  have hitem : ∀ i, (Json.array (t :: rest)).item (i + 1) = rest.getD i .null := fun i => rfl
  unfold decodeArgs
  cases ty
  case link | unlink =>
    obtain ⟨hlen, hs⟩ := h
    rw [hsize] at hlen
    rw [hitem] at hs
    match rest, hlen, hs with
    | x :: _, _, hs =>
      obtain ⟨o, rfl⟩ := isString_iff.mp hs
      exact ⟨_, rfl⟩
  case init | setProperty | propertyChange | signal =>
    obtain ⟨hlen, hs⟩ := h
    rw [hsize] at hlen
    rw [hitem] at hs
    match rest, hlen, hs with
    | x :: _ :: _, _, hs =>
      obtain ⟨o, rfl⟩ := isString_iff.mp hs
      exact ⟨_, rfl⟩
  case invoke | invokeReply =>
    obtain ⟨hlen, hn, hs⟩ := h
    rw [hsize] at hlen
    rw [hitem] at hn hs
    match rest, hlen, hn, hs with
    | x :: y :: _ :: _, _, hn, hs =>
      obtain ⟨id, hid⟩ := (isNumber_iff lib).mp hn
      obtain ⟨m, rfl⟩ := isString_iff.mp hs
      exact ⟨_, Option.map_eq_some_iff.mpr ⟨_, Option.map_eq_some_iff.mpr ⟨_, hid, rfl⟩, rfl⟩⟩
  case error =>
    obtain ⟨hlen, hu, hn, hs⟩ := h
    rw [hsize] at hlen
    rw [hitem] at hu hn hs
    match rest, hlen, hu, hn, hs with
    | x :: y :: z :: r, _, hu, hn, hs =>
      obtain ⟨ty, hty⟩ := isNumberInteger_iff.mp hu
      obtain ⟨id, hid⟩ := isNumberInteger_iff.mp hn
      obtain ⟨text, rfl⟩ := isString_iff.mp hs
      have hargs : errorArgs? (x :: y :: .string text :: r) = some (ty, id, text) :=
        Option.bind_eq_some_iff.mpr ⟨ty, hty, Option.map_eq_some_iff.mpr ⟨id, hid, rfl⟩⟩
      exact ⟨_, Option.map_eq_some_iff.mpr ⟨_, hargs, rfl⟩⟩

/-- **In each branch** the message composed again agrees with the received one exactly when the
numbers the branch converts fit. -/
theorem leading_iff_fits {ty : MsgType} {c : Call} (ht : int? t = some ty.toInt)
    (hc : decodeArgs lib ty rest = some c) :
    Leading c.message (.array (t :: rest)) ↔ Fits (.array (t :: rest)) ty := by
  have hcode : Same (typeCode ty) t ↔ FitsInt t := same_integer_iff ht
  unfold decodeArgs at hc
  cases ty <;> obtain ⟨x, hx, rfl⟩ := Option.map_eq_some_iff.mp hc
  case link | unlink =>
    obtain ⟨r, rfl⟩ := eq_of_idArg? hx
    simp [Call.message, linkMessage, unlinkMessage, leading_cons, leading_nil, Same.refl, hcode,
      Fits, Json.item, Json.elements]
  case init | setProperty | propertyChange | signal =>
    obtain ⟨r, rfl⟩ := eq_of_payloadArgs? hx
    simp [Call.message, initMessage, setPropertyMessage, propertyChangeMessage, signalMessage,
      leading_cons, leading_nil, Same.refl, hcode, Fits, Json.item, Json.elements]
  case invoke | invokeReply =>
    obtain ⟨n, r, rfl, hn⟩ := eq_of_requestArgs? hx
    simp [Call.message, invokeMessage, invokeReplyMessage, leading_cons, leading_nil, Same.refl,
      hcode, same_unsigned_iff hn, Fits, Json.item, Json.elements]
  case error =>
    obtain ⟨u, n, r, rfl, hu, hn⟩ := eq_of_errorArgs? hx
    simp [Call.message, errorMessage, leading_cons, leading_nil, Same.refl, hcode,
      same_integer_iff hu, same_integer_iff hn, Fits, Json.item, Json.elements]

/-! ## The decoder as a whole -/

theorem eq_of_decode {msg : Json} {c : Call} (hc : decode? lib msg = some c) :
    ∃ t rest ty, msg = .array (t :: rest) ∧ int? t = some ty.toInt ∧
      decodeArgs lib ty rest = some c := by
  unfold decode? at hc
  split at hc
  · obtain ⟨code, hcode, hc⟩ := Option.bind_eq_some_iff.mp hc
    obtain ⟨ty, hty, hc⟩ := Option.bind_eq_some_iff.mp hc
    rw [← MsgType.toInt_of_ofInt? hty] at hcode
    exact ⟨_, _, ty, rfl, hcode, hc⟩
  · cases hc

/-- A type code that fits denotes only the type it is decoded to. -/
theorem eq_of_ofType {ty ty' : MsgType} (ht : int? t = some ty.toInt) (hf : FitsInt t)
    (h : OfType ty' (.array (t :: rest))) : ty = ty' := by
  have hnum : t.number? = some (ty'.toInt.toInt : ℚ) := h
  rw [number?_of_fitsInt ht hf] at hnum
  have hint : ty.toInt.toInt = ty'.toInt.toInt := by exact_mod_cast Option.some.inj hnum
  have := congrArg MsgType.ofInt? (Int32.toInt_inj.mp hint)
  rw [MsgType.ofInt?_toInt, MsgType.ofInt?_toInt] at this
  exact Option.some.inj this

theorem Fits.fitsInt {msg : Json} {ty : MsgType} (h : Fits msg ty) : FitsInt (msg.item 0) := by
  cases ty <;> first | exact h | exact h.1

/-- Where the numbers a branch converts fit, nothing in the message is unrepresentable. -/
theorem not_unrepresentable {ty : MsgType} (ht : int? t = some ty.toInt)
    (hf : Fits (.array (t :: rest)) ty) : ¬ Unrepresentable (.array (t :: rest)) := by
  rintro (h | ⟨h | h, hno⟩ | ⟨h, hno⟩)
  · exact h hf.fitsInt
  · cases eq_of_ofType ht hf.fitsInt h
    exact hno hf.2
  · cases eq_of_ofType ht hf.fitsInt h
    exact hno hf.2
  · cases eq_of_ofType ht hf.fitsInt h
    rcases hno with hno | hno
    · exact hno hf.2.1
    · exact hno hf.2.2

/-- **The decoder is faithful on a message exactly when the numbers of one that passes the guards
fit.** -/
theorem handleMessage_faithful_iff (lib : JsonLibrary) (msg : Json) :
    Faithful lib msg ↔ NumbersFit msg := by
  cases hd : decode? lib msg with
  | none =>
    obtain ⟨hcalls, hret⟩ := handlerCalls_of_reject hd
    refine ⟨?_, fun _ => ⟨?_, fun _ => ⟨hret, hcalls⟩⟩⟩
    · intro _ harr code hcode ty hty hg
      -- a message that passes the guards would have been accepted
      exfalso
      match msg, harr with
      | .array (t :: rest), _ =>
        obtain ⟨c, hc⟩ := decodeArgs_of_guards lib hg
        have ht : int? t = some code := hcode
        simp [decode?, ht, hty, hc] at hd
    · intro c hc
      rw [hcalls] at hc
      exact absurd hc List.not_mem_nil
  | some c =>
    obtain ⟨hcalls, hret⟩ := handlerCalls_of_decode hd
    obtain ⟨t, rest, ty, rfl, ht, hc⟩ := eq_of_decode hd
    have hiff := leading_iff_fits ht hc
    constructor
    · intro hf _ code hcode ty' hty' _
      have hcode' : int? t = some code := hcode
      rw [ht] at hcode'
      cases hcode'
      rw [MsgType.ofInt?_toInt] at hty'
      cases hty'
      exact hiff.mp (hf.1 c (by rw [hcalls]; exact List.mem_singleton.mpr rfl))
    · intro hn
      have hfits := hn rfl _ ht ty (MsgType.ofInt?_toInt ty) (guards_of_decodeArgs hc)
      refine ⟨?_, fun hu => absurd hu (not_unrepresentable ht hfits)⟩
      intro c' hc'
      rw [hcalls] at hc'
      rw [List.mem_singleton.mp hc']
      exact hiff.mpr hfits

/-- A reply that names the call `2 ^ 32 + 1`. -/
def aliasedReply : Json :=
  .array [.integer 31, .unsigned 4294967297, .string (lit "o/m"), .null]

/-- It is decoded as a reply to call `1`. -/
theorem invokeReply_not_faithful : ¬ Faithful .truncating aliasedReply := by
  have hd : decode? .truncating aliasedReply = some (.invokeReply 1 (lit "o/m") .null) := rfl
  intro hf
  obtain ⟨hcalls, -⟩ := handlerCalls_of_decode hd
  have hlead := hf.1 _ (by rw [hcalls]; exact List.mem_singleton.mpr rfl)
  obtain ⟨-, hlead⟩ := leading_cons.mp hlead
  obtain ⟨hsame, -⟩ := leading_cons.mp hlead
  rcases hsame with h | ⟨q, hq, hq'⟩
  · cases h
  · rw [← hq] at hq'
    have hcast : ((4294967297 : UInt64).toNat : ℚ) = ((1 : UInt32).toUInt64.toNat : ℚ) :=
      Option.some.inj hq'
    have hnat : (4294967297 : UInt64).toNat = (1 : UInt32).toUInt64.toNat := by
      exact_mod_cast hcast
    exact absurd hnat (by decide)

end Protocol

end ObjectLink
