import FtyRest.Shared.StringToInt
import Mathlib.Data.Finset.Basic
import Mathlib.Data.Finset.Dedup

/-!
# The free size of a rack

`free_u_size`, from `web/src/asset_computed_impl.cc`.  An `int` that overflows wraps around.
-/

namespace FtyRest.Web

open Shared

/-- What the computation asks the database: whether there is a connection, the values of an
extended attribute of some elements, and the elements in a container.  `none` is a query that
failed, which gives `-1`. -/
structure USizeDb where
  connect : Bool
  selectAssetExtAttributeByKeytag : String → Finset Nat → Option (List String)
  selectAssetsByContainer : Nat → Option (List Nat)

/-- The callback for a row. -/
def sumarize (size : Int) (value : String) : Int :=
  let tmp := (Shared.stringToUint32 (some value)).2
  if tmp ≠ 2 ^ 32 - 1 then (size + tmp.bmod (2 ^ 32)).bmod (2 ^ 32) else size

section

variable (db : USizeDb)

def getDevicesUSize (elements : Finset Nat) : Int :=
  match db.selectAssetExtAttributeByKeytag "u_size" elements with
  | none => -1
  | some rows => rows.foldl sumarize 0

/-- `-1` is an error. -/
def freeUSize (elementId : Nat) : Int :=
  if !db.connect then -1
  else
    -- get the rack u_size
    let freeusize := getDevicesUSize db {elementId}
    if freeusize = 0 then -1
    else
      -- get id of the devices inside the rack
      match db.selectAssetsByContainer elementId with
      | none => -1
      | some rows =>
          let elementIds := rows.toFinset
          -- substract sum( device size ) if there are some
          let freeusize2 := getDevicesUSize db elementIds
          if freeusize2 = 0 then -1
          else (freeusize - if elementIds = ∅ then 0 else freeusize2).bmod (2 ^ 32)

end

/-! ## The sums -/

/-- The number that a text is read as. -/
def numericUSize (value : String) : Option Int :=
  let tmp := (Shared.stringToUint32 (some value)).2
  if tmp = 2 ^ 32 - 1 then none else some tmp

/-- The sum of the values that are numbers. -/
def totalUSize (rows : List String) : Int := (rows.filterMap numericUSize).sum

theorem foldl_sumarize (rows : List String) (size : Int) :
    rows.foldl sumarize (size.bmod (2 ^ 32)) = (size + totalUSize rows).bmod (2 ^ 32) := by
  induction rows generalizing size with
  | nil =>
    show size.bmod (2 ^ 32) = (size + 0).bmod (2 ^ 32)
    rw [Int.add_zero]
  | cons value rows ih =>
    rw [List.foldl_cons]
    by_cases hmax : (Shared.stringToUint32 (some value)).2 = 2 ^ 32 - 1
    · have hskip : sumarize (size.bmod (2 ^ 32)) value = size.bmod (2 ^ 32) := by
        unfold sumarize
        dsimp only
        rw [if_neg (not_not.mpr hmax)]
      have hnone : numericUSize value = none := if_pos hmax
      rw [hskip, ih, totalUSize, totalUSize, List.filterMap_cons_none hnone]
    · have hadd : sumarize (size.bmod (2 ^ 32)) value =
          (size + (Shared.stringToUint32 (some value)).2).bmod (2 ^ 32) := by
        unfold sumarize
        dsimp only
        rw [if_pos hmax, Int.bmod_add_bmod, Int.add_bmod_bmod]
      have hsome : numericUSize value = some (Shared.stringToUint32 (some value)).2 := if_neg hmax
      rw [hadd, ih, totalUSize, totalUSize, List.filterMap_cons_some hsome, List.sum_cons,
        Int.add_assoc]

variable {db : USizeDb}

theorem getDevicesUSize_failed {elements : Finset Nat}
    (h : db.selectAssetExtAttributeByKeytag "u_size" elements = none) :
    getDevicesUSize db elements = -1 := by
  rw [getDevicesUSize, h]

theorem getDevicesUSize_read {elements : Finset Nat} {rows : List String}
    (h : db.selectAssetExtAttributeByKeytag "u_size" elements = some rows) :
    getDevicesUSize db elements = (totalUSize rows).bmod (2 ^ 32) := by
  have hsum := foldl_sumarize rows 0
  rw [Int.zero_bmod, Int.zero_add] at hsum
  rw [getDevicesUSize, h]
  exact hsum

/-- The result once the contents of the rack are known. -/
theorem freeUSize_of_contents {elementId : Nat} {rows : List Nat} (hconnect : db.connect = true)
    (hrows : db.selectAssetsByContainer elementId = some rows) :
    freeUSize db elementId =
      if getDevicesUSize db {elementId} = 0 ∨ getDevicesUSize db rows.toFinset = 0 then -1
      else (getDevicesUSize db {elementId} -
        if rows = [] then 0 else getDevicesUSize db rows.toFinset).bmod (2 ^ 32) := by
  unfold freeUSize
  rw [hconnect, hrows]
  simp only [Bool.not_true, Bool.false_eq_true, if_false, List.toFinset_eq_empty_iff]
  by_cases hrack : getDevicesUSize db {elementId} = 0
  · rw [if_pos hrack, if_pos (Or.inl hrack)]
  · rw [if_neg hrack]
    by_cases hcontents : getDevicesUSize db rows.toFinset = 0
    · rw [if_pos hcontents, if_pos (Or.inr hcontents)]
    · rw [if_neg hcontents, if_neg (not_or.mpr ⟨hrack, hcontents⟩)]

/-! ## The law -/

/-- What the elements in a rack take. -/
def usedUSize (rows : List Nat) (contents : List String) : Int :=
  if rows = [] then 0 else totalUSize contents

/-- There is no connection, or one of the three reads failed. -/
def ReadFailed (db : USizeDb) (elementId : Nat) : Prop :=
  db.connect = false ∨
    db.selectAssetExtAttributeByKeytag "u_size" {elementId} = none ∨
    db.selectAssetsByContainer elementId = none ∨
    ∃ rows, db.selectAssetsByContainer elementId = some rows ∧
      db.selectAssetExtAttributeByKeytag "u_size" rows.toFinset = none

/-- The free size is the size of the rack without what is used, and `-1` if a read failed. -/
structure FreeUSizeLaw (db : USizeDb) (elementId : Nat) : Prop where
  size : ∀ rack rows contents, db.connect = true →
    db.selectAssetExtAttributeByKeytag "u_size" {elementId} = some rack →
    db.selectAssetsByContainer elementId = some rows →
    db.selectAssetExtAttributeByKeytag "u_size" rows.toFinset = some contents →
    0 < totalUSize rack → freeUSize db elementId = totalUSize rack - usedUSize rows contents
  failed : ReadFailed db elementId → freeUSize db elementId = -1

/-- With the contents of the rack at hand, the reads of the size of the rack and of the sizes in
it tell whether the law holds. -/
def ReadsTold (rows : List Nat) : Option (List String) → Option (List String) → Prop
  -- a sum of zero is taken for an error
  | some rack, some contents =>
      0 < totalUSize rack →
        totalUSize rack - usedUSize rows contents = -1 ∨
        ¬ 2 ^ 32 ∣ totalUSize rack ∧ ¬ 2 ^ 32 ∣ totalUSize contents ∧
          -2 ^ 31 ≤ totalUSize rack - usedUSize rows contents ∧
          totalUSize rack - usedUSize rows contents < 2 ^ 31
  -- and an error for a sum
  | some rack, none =>
      2 ^ 32 ∣ totalUSize rack ∨ 2 ^ 32 ∣ totalUSize rack + if rows = [] then 1 else 2
  | none, some contents => rows = [] ∨ 2 ^ 32 ∣ totalUSize contents
  | none, none => rows = []

theorem bmod_eq_zero (n : Int) : n.bmod (2 ^ 32) = 0 ↔ 2 ^ 32 ∣ n :=
  Int.dvd_iff_bmod_eq_zero.symm

theorem bmod_eq_neg_one (n : Int) : n.bmod (2 ^ 32) = -1 ↔ 2 ^ 32 ∣ n + 1 := by
  obtain ⟨k, hk, hlow, hhigh⟩ := IntType.bmod_spec n
  constructor
  · intro h
    exact ⟨k, by omega⟩
  · rintro ⟨l, hl⟩
    omega

/-- Both reads gave a sum. -/
theorem freeUSize_of_sums {elementId : Nat} {rack contents : List String} {rows : List Nat}
    (hconnect : db.connect = true)
    (hrack : db.selectAssetExtAttributeByKeytag "u_size" {elementId} = some rack)
    (hrows : db.selectAssetsByContainer elementId = some rows)
    (hcontents : db.selectAssetExtAttributeByKeytag "u_size" rows.toFinset = some contents) :
    freeUSize db elementId =
      if 2 ^ 32 ∣ totalUSize rack ∨ 2 ^ 32 ∣ totalUSize contents then -1
      else (totalUSize rack - usedUSize rows contents).bmod (2 ^ 32) := by
  rw [freeUSize_of_contents hconnect hrows, getDevicesUSize_read hrack,
    getDevicesUSize_read hcontents]
  simp only [bmod_eq_zero]
  unfold usedUSize
  split
  · rfl
  · split
    · rw [Int.bmod_sub_bmod]
    · rw [Int.bmod_sub_bmod, Int.sub_bmod_bmod]

section

variable {elementId : Nat}

theorem law_iff_of_failed (h : ReadFailed db elementId) :
    FreeUSizeLaw db elementId ↔ freeUSize db elementId = -1 := by
  constructor
  · exact fun hlaw ↦ hlaw.failed h
  · intro hfree
    refine ⟨fun rack rows contents hconnect hrack hrows hcontents ↦ ?_, fun _ ↦ hfree⟩
    rcases h with h | h | h | ⟨rows', hrows', h⟩
    · simp [h] at hconnect
    · simp [h] at hrack
    · simp [h] at hrows
    · cases hrows'.symm.trans hrows
      simp [h] at hcontents

theorem law_iff_of_read {rack contents : List String} {rows : List Nat}
    (hconnect : db.connect = true)
    (hrack : db.selectAssetExtAttributeByKeytag "u_size" {elementId} = some rack)
    (hrows : db.selectAssetsByContainer elementId = some rows)
    (hcontents : db.selectAssetExtAttributeByKeytag "u_size" rows.toFinset = some contents) :
    FreeUSizeLaw db elementId ↔
      (0 < totalUSize rack →
        freeUSize db elementId = totalUSize rack - usedUSize rows contents) := by
  constructor
  · exact fun hlaw ↦ hlaw.size rack rows contents hconnect hrack hrows hcontents
  · intro hsize
    refine ⟨fun rack' rows' contents' _ hrack' hrows' hcontents' ↦ ?_, fun hfailed ↦ ?_⟩
    · cases hrows.symm.trans hrows'
      cases hrack.symm.trans hrack'
      cases hcontents.symm.trans hcontents'
      exact hsize
    · rcases hfailed with h | h | h | ⟨rows', hrows', h⟩
      · simp [h] at hconnect
      · simp [h] at hrack
      · simp [h] at hrows
      · cases hrows'.symm.trans hrows
        simp [h] at hcontents

/-- The law when the contents of the rack are known: each read gave a sum or an error. -/
theorem law_iff_of_contents {rows : List Nat} (hconnect : db.connect = true)
    (hrows : db.selectAssetsByContainer elementId = some rows) :
    FreeUSizeLaw db elementId ↔
      ReadsTold rows (db.selectAssetExtAttributeByKeytag "u_size" {elementId})
        (db.selectAssetExtAttributeByKeytag "u_size" rows.toFinset) := by
  have hfree := freeUSize_of_contents hconnect hrows
  cases hrack : db.selectAssetExtAttributeByKeytag "u_size" {elementId} with
  | none =>
    -- the `-1` of the failed read is what the contents are subtracted from
    rw [law_iff_of_failed (.inr (.inl hrack)), hfree, getDevicesUSize_failed hrack]
    cases hcontents : db.selectAssetExtAttributeByKeytag "u_size" rows.toFinset with
    | none =>
      rw [getDevicesUSize_failed hcontents]
      show _ ↔ rows = []
      by_cases hempty : rows = []
      · simp [hempty]
      · simp [hempty]
    | some contents =>
      rw [getDevicesUSize_read hcontents]
      show _ ↔ rows = [] ∨ 2 ^ 32 ∣ totalUSize contents
      simp only [bmod_eq_zero]
      by_cases hdvd : 2 ^ 32 ∣ totalUSize contents
      · rw [if_pos (Or.inr hdvd)]
        exact ⟨fun _ ↦ .inr hdvd, fun _ ↦ rfl⟩
      · rw [if_neg (not_or.mpr ⟨by decide, hdvd⟩), bmod_eq_neg_one]
        by_cases hempty : rows = []
        · simp [hempty]
        · rw [if_neg hempty, or_iff_right hempty]
          obtain ⟨k, hk, -⟩ := IntType.bmod_spec (totalUSize contents)
          omega
  | some rack =>
    cases hcontents : db.selectAssetExtAttributeByKeytag "u_size" rows.toFinset with
    | none =>
      -- the `-1` of the failed read is subtracted from the size of a rack that is not empty
      rw [law_iff_of_failed (.inr (.inr (.inr ⟨rows, hrows, hcontents⟩))), hfree,
        getDevicesUSize_read hrack, getDevicesUSize_failed hcontents]
      show _ ↔ 2 ^ 32 ∣ totalUSize rack ∨ 2 ^ 32 ∣ totalUSize rack + if rows = [] then 1 else 2
      simp only [bmod_eq_zero]
      by_cases hdvd : 2 ^ 32 ∣ totalUSize rack
      · rw [if_pos (Or.inl hdvd)]
        exact ⟨fun _ ↦ .inl hdvd, fun _ ↦ rfl⟩
      · rw [if_neg (not_or.mpr ⟨hdvd, by decide⟩), or_iff_right hdvd, Int.bmod_sub_bmod,
          bmod_eq_neg_one]
        by_cases hempty : rows = []
        · rw [if_pos hempty, if_pos hempty, Int.sub_zero]
        · rw [if_neg hempty, if_neg hempty]
          omega
    | some contents =>
      rw [law_iff_of_read hconnect hrack hrows hcontents,
        freeUSize_of_sums hconnect hrack hrows hcontents]
      apply imp_congr_right
      intro hpos
      by_cases hdvd : 2 ^ 32 ∣ totalUSize rack ∨ 2 ^ 32 ∣ totalUSize contents
      · rw [if_pos hdvd, eq_comm]
        constructor
        · exact .inl
        · rintro (h | ⟨hrackDvd, hcontentsDvd, -⟩)
          · exact h
          · exact absurd hdvd (not_or.mpr ⟨hrackDvd, hcontentsDvd⟩)
      · rw [if_neg hdvd, IntType.bmod_eq_self]
        obtain ⟨hrackDvd, hcontentsDvd⟩ := not_or.mp hdvd
        constructor
        · exact fun h ↦ .inr ⟨hrackDvd, hcontentsDvd, h⟩
        · rintro (h | ⟨-, -, h⟩)
          · rw [h]
            decide
          · exact h

end

/-- The law holds if and only if the errors and the sums are told apart. -/
theorem freeUSizeLaw_iff (db : USizeDb) (elementId : Nat) : FreeUSizeLaw db elementId ↔
    (db.connect = true → ∀ rows, db.selectAssetsByContainer elementId = some rows →
      ReadsTold rows (db.selectAssetExtAttributeByKeytag "u_size" {elementId})
        (db.selectAssetExtAttributeByKeytag "u_size" rows.toFinset)) := by
  cases hconnect : db.connect with
  | false =>
    have hfree : freeUSize db elementId = -1 := by simp [freeUSize, hconnect]
    rw [law_iff_of_failed (.inl hconnect)]
    exact ⟨fun _ h ↦ absurd h Bool.false_ne_true, fun _ ↦ hfree⟩
  | true =>
    cases hrows : db.selectAssetsByContainer elementId with
    | none =>
      have hfree : freeUSize db elementId = -1 := by simp [freeUSize, hconnect, hrows]
      rw [law_iff_of_failed (.inr (.inr (.inl hrows)))]
      exact ⟨fun _ _ _ h ↦ absurd h (by simp), fun _ ↦ hfree⟩
    | some rows =>
      rw [law_iff_of_contents hconnect hrows]
      constructor
      · intro h _ rows' hrows'
        cases hrows'
        exact h
      · exact fun h ↦ h rfl rows rfl

/-- A rack of 42 units, the first with nothing in it, the second with an asset whose size cannot be
read. -/
def racks : USizeDb where
  connect := true
  selectAssetExtAttributeByKeytag _ elements :=
    if elements = {1} ∨ elements = {2} then some ["42"]
    else if elements = ∅ then some []
    else none
  selectAssetsByContainer elementId := if elementId = 1 then some [] else some [7]

/-- The free rack has no free size, and the error is subtracted. -/
theorem free_rack_is_error : freeUSize racks 1 = -1 ∧ freeUSize racks 2 = 43 ∧
    ¬ FreeUSizeLaw racks 1 ∧ ¬ FreeUSizeLaw racks 2 := by
  have hfree : freeUSize racks 1 = -1 := by decide +kernel
  have herror : freeUSize racks 2 = 43 := by decide +kernel
  refine ⟨hfree, herror, fun hlaw ↦ ?_, fun hlaw ↦ ?_⟩
  · have hsize := hlaw.size ["42"] [] [] rfl rfl rfl rfl (by decide +kernel)
    rw [hfree] at hsize
    revert hsize
    decide +kernel
  · have hfailed := hlaw.failed (.inr (.inr (.inr ⟨[7], rfl, rfl⟩)))
    rw [herror] at hfailed
    exact absurd hfailed (by decide)

end FtyRest.Web
