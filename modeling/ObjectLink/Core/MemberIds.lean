import ObjectLink.Core.Types
import ObjectLink.Foundation.Separator
import Mathlib.Data.List.TakeWhile

/-!
# Member ids

`Name` (`types.cpp:17-39`) combines the id of an object and the name of one of its members to a
member id, `"object/member"`, and takes it apart again. The three functions that take it apart look
for the separator in three ways: `getObjectId` cuts at the first slash, `getMemberName` after the
last one, and `isMemberId` asks whether these are the same.

Results:
* `isMemberId_iff`, `isMemberId_iff_count`: the member ids are the strings with one slash, and
  these are what `createMemberId` makes of two strings without.
* `memberId_pairing`: on them `createMemberId` and the two accessors are inverse to each other.
* `getObjectId_eq_self_iff`, `properPrefix_getObjectId`, `getMemberName_eq_nil`: what the accessors
  yield for other strings.
-/

namespace ObjectLink

open Foundation (Parted exists_parted_iff exists_parted_iff_count)

namespace Name

variable {o m s : Bytes}

theorem find_cons (b : UInt8) (id : Bytes) :
    find (b :: id) = if b = slash then some 0 else (find id).map (· + 1) := by
  unfold find
  rw [List.idxOf?_cons]
  simp only [beq_iff_eq]

/-- `getObjectId` cuts at the first slash. -/
theorem getObjectId_eq : ∀ id, getObjectId id = id.takeWhile (· != slash)
  | [] => rfl
  | b :: id => by
    have ih := getObjectId_eq id
    unfold getObjectId at ih ⊢
    rw [find_cons]
    by_cases hb : b = slash
    · rw [if_pos hb, hb]
      rfl
    · rw [if_neg hb, List.takeWhile_cons_of_pos (by simpa using hb), ← ih]
      cases find id <;> rfl

/-- Nothing is cut off a string without a slash. -/
theorem takeWhile_eq_self_iff : o.takeWhile (· != slash) = o ↔ slash ∉ o := by
  rw [List.takeWhile_eq_self_iff]
  constructor
  · intro h hmem
    simpa using h slash hmem
  · rintro h b hb
    simpa using fun he : b = slash => h (he ▸ hb)

/-- **The object id is what is cut off** a member id, exactly if it has no slash. -/
theorem getObjectId_createMemberId :
    getObjectId (createMemberId o m) = o ↔ slash ∉ o := by
  have hcut : getObjectId (createMemberId o m) = o.takeWhile (· != slash) := by
    rw [getObjectId_eq]
    unfold createMemberId
    induction o with
    | nil => rfl
    | cons b o ih =>
      rw [List.cons_append, List.cons_append, List.takeWhile_cons, List.takeWhile_cons, ih]
  rw [hcut, takeWhile_eq_self_iff]

/-! ## Member ids -/

/-- A member id is its object id and its member name around the only slash. -/
theorem parted_createMemberId (ho : slash ∉ o) (hm : slash ∉ m) :
    Parted slash (createMemberId o m) o m :=
  ⟨by simp [createMemberId], ho, hm⟩

theorem createMemberId_of_parted (h : Parted slash s o m) : createMemberId o m = s := by
  rw [h.eq]
  simp [createMemberId]

/-- **The test** `isMemberId`: the searches from the two ends meet at one slash. -/
theorem isMemberId_iff : isMemberId s = true ↔ ∃ o m, Parted slash s o m := by
  rw [exists_parted_iff]
  unfold isMemberId
  rw [Bool.and_eq_true, beq_iff_eq]
  rfl

/-- The strings with one slash, wherever it stands. -/
theorem isMemberId_iff_count : isMemberId s = true ↔ s.count slash = 1 := by
  rw [isMemberId_iff, exists_parted_iff_count]

/-- The accessors take a member id apart at its slash. -/
theorem getObjectId_of_parted (h : Parted slash s o m) : getObjectId s = o := by
  have hfind : find s = some o.length := h.idxOf?
  unfold getObjectId
  rw [hfind]
  exact h.left_eq

theorem getMemberName_of_parted (h : Parted slash s o m) : getMemberName s = m := by
  have hfind : findLastOf s = some o.length := h.lastIdxOf?
  unfold getMemberName
  rw [if_pos (isMemberId_iff.mpr ⟨o, m, h⟩), hfind]
  exact h.right_eq

/-- **Member ids are a faithful pairing.** For strings `o` and `m` without a slash
`createMemberId` makes a member id that the accessors take apart into `o` and `m`; conversely every
member id has two parts without a slash, and is what `createMemberId` makes of them. So two pairs
never share an id. -/
theorem memberId_pairing (o m s : Bytes) :
    (slash ∉ o → slash ∉ m →
      isMemberId (createMemberId o m) = true ∧ getObjectId (createMemberId o m) = o ∧
      getMemberName (createMemberId o m) = m ∧
      ∀ o' m', slash ∉ o' → slash ∉ m' → createMemberId o m = createMemberId o' m' →
        o = o' ∧ m = m') ∧
    (isMemberId s = true →
      slash ∉ getObjectId s ∧ slash ∉ getMemberName s ∧
      createMemberId (getObjectId s) (getMemberName s) = s) := by
  constructor
  · intro ho hm
    have h := parted_createMemberId ho hm
    refine ⟨isMemberId_iff.mpr ⟨o, m, h⟩, getObjectId_of_parted h, getMemberName_of_parted h, ?_⟩
    intro o' m' ho' hm' he
    exact h.unique (he ▸ parted_createMemberId ho' hm')
  · intro hs
    obtain ⟨o, m, h⟩ := isMemberId_iff.mp hs
    rw [getObjectId_of_parted h, getMemberName_of_parted h]
    exact ⟨h.left, h.right, createMemberId_of_parted h⟩

example : isMemberId (lit "demo.Calc/count") = true ∧
    getObjectId (lit "demo.Calc/count") = lit "demo.Calc" ∧
    getMemberName (lit "demo.Calc/count") = lit "count" := by decide

/-! ## The other strings -/

/-- `getObjectId` yields the whole string exactly if it has no slash. -/
theorem getObjectId_eq_self_iff : getObjectId s = s ↔ slash ∉ s := by
  rw [getObjectId_eq, takeWhile_eq_self_iff]

/-- What is cut off before the end. -/
def ProperPrefix (o s : Bytes) : Prop := o <+: s ∧ o ≠ s

/-- Otherwise it yields a proper prefix of it. -/
theorem properPrefix_getObjectId : ProperPrefix (getObjectId s) s ↔ slash ∈ s := by
  have hbegin : getObjectId s <+: s := getObjectId_eq s ▸ List.takeWhile_prefix _
  unfold ProperPrefix
  rw [and_iff_right hbegin, Ne, getObjectId_eq_self_iff, not_not]

/-- `getMemberName` has nothing for a string that is not a member id. -/
theorem getMemberName_eq_nil (h : isMemberId s = false) : getMemberName s = [] := by
  unfold getMemberName
  rw [h]
  rfl

end Name

end ObjectLink
