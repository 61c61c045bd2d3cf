import FtyRest.Web.AssetComputed
import Mathlib.Algebra.BigOperators.Group.List.Basic
import Mathlib.Algebra.Order.BigOperators.Group.List

/-!
# The free outlets of a rack

When the counts of `rack_outlets_available` add up.
-/

namespace FtyRest.Web

/-! ## The number in the text -/

/-- The text that is read: a text of C up to its first dot. -/
def countText (value : String) : List Char :=
  (value.toList.takeWhile (· ≠ '\x00')).takeWhile (· ≠ '.')

/-- The number that a text tells. -/
def countInText (value : String) : Option Int :=
  if 5 < (countText value).length then none
  else Strtol.decimal ((countText value).dropWhile Stoi.isSpace)

section

variable (db : RackDb)

def countAttribute (id : Nat) : Option String :=
  (db.selectExtAttributes id).bind (·.lookup "outlet.count")

/-- Nothing is left of the text to read. -/
def BlankCount (id : Nat) : Prop :=
  ∃ value, countAttribute db id = some value ∧ countText value = []

/-- The number of outlets where it is known. -/
def knownCount (id : Nat) : Option Int := (countAttribute db id).bind countInText

/-- The outlets that nothing is plugged in, where the count and the use are known. -/
def freeOutlets (id : Nat) : Option Int := do
  let count ← knownCount db id
  let used ← db.countOfLinkSrc id
  return count - used

/-- What `rack_outlets_available` takes for the number of outlets. -/
def takenCount (id : Nat) : Int :=
  if selectOutletCount db id ≠ uint32Max then (selectOutletCount db id).bmod (2 ^ 32) else -1

end

theorem stringToUint32_of_ne_nil {text : List Char} (hne : text ≠ []) (hlength : text.length ≤ 5) :
    (Shared.stringToUint32 (some (.ofList text))).2 =
      match Strtol.decimal (text.dropWhile Stoi.isSpace) with
      | some n => n % 2 ^ 32
      | none => uint32Max := by
  have htext : (String.ofList text).toList = text := String.toList_ofList
  have hempty : String.ofList text ≠ "" := by
    intro h
    rw [h] at htext
    exact hne htext.symm
  cases hdecimal : Strtol.decimal (text.dropWhile Stoi.isSpace) with
  | some n =>
    -- five characters at most, so the number is in range and errno stays zero
    have hsmall : n.natAbs < 10 ^ 5 := by
      calc n.natAbs
          < 10 ^ (text.dropWhile Stoi.isSpace).length := Strtol.natAbs_of_decimal hdecimal
        _ ≤ 10 ^ 5 := Nat.pow_le_pow_right (by decide)
            ((List.dropWhile_suffix _).length_le.trans hlength)
    have hscan : Strtol.scan (String.ofList text).toList = some (n, []) := by
      rw [htext]
      exact Strtol.scan_eq_some_nil.mpr hdecimal
    have hzero : Shared.stringToUint32 (some (.ofList text)) = (.zero, n % 2 ^ 32) := by
      apply Shared.IntType.uint32_zero.mpr
      right
      refine ⟨n, hscan, ⟨?_, ?_⟩, rfl⟩
      · change n.natAbs < 2 ^ 64
        omega
      · change 0 ≤ n % 2 ^ 32 ∧ n % 2 ^ 32 ≤ 2 ^ 32 - 1
        omega
    rw [hzero]
  | none =>
    apply Shared.IntType.uint32_value
    intro hzero
    have hconverted := Shared.IntType.uint32_zero.mp (Prod.ext hzero rfl)
    rcases hconverted with ⟨h, -⟩ | ⟨n, hscan, -⟩
    · exact hempty h
    · rw [htext, Strtol.scan_eq_some_nil, hdecimal] at hscan
      cases hscan

section

variable {db : RackDb} {id : Nat}

theorem selectOutletCount_of_attribute {value : String} (h : countAttribute db id = some value) :
    selectOutletCount db id =
      if 5 < (countText value).length then uint32Max
      else (Shared.stringToUint32 (some (.ofList (countText value)))).2 := by
  unfold selectOutletCount
  unfold countAttribute at h
  rw [h]
  rfl

theorem takenCount_blank (h : BlankCount db id) : takenCount db id = 0 := by
  obtain ⟨value, hvalue, hblank⟩ := h
  have hselect : selectOutletCount db id = 0 := by
    rw [selectOutletCount_of_attribute hvalue, hblank]
    rfl
  unfold takenCount
  rw [hselect]
  rfl

theorem knownCount_blank (h : BlankCount db id) : knownCount db id = none := by
  obtain ⟨value, hvalue, hblank⟩ := h
  unfold knownCount countInText
  rw [hvalue, Option.bind_some, hblank]
  rfl

theorem knownCount_range {n : Int} (h : knownCount db id = some n) : n.natAbs < 10 ^ 5 := by
  obtain ⟨value, _, hn⟩ := Option.bind_eq_some_iff.mp h
  unfold countInText at hn
  by_cases hlong : 5 < (countText value).length
  · rw [if_pos hlong] at hn
    cases hn
  · rw [if_neg hlong] at hn
    calc n.natAbs
        < 10 ^ ((countText value).dropWhile Stoi.isSpace).length := Strtol.natAbs_of_decimal hn
      _ ≤ 10 ^ 5 := Nat.pow_le_pow_right (by decide)
          ((List.dropWhile_suffix _).length_le.trans (Nat.le_of_not_lt hlong))

/-- But for a text that is blank, a count that is not known is taken for `-1`. -/
theorem takenCount_eq (h : ¬ BlankCount db id) :
    takenCount db id = (knownCount db id).getD (-1) := by
  cases hvalue : countAttribute db id with
  | none =>
    have hselect : selectOutletCount db id = uint32Max := by
      unfold selectOutletCount
      unfold countAttribute at hvalue
      rw [hvalue]
    unfold takenCount knownCount
    rw [hselect, hvalue]
    rfl
  | some value =>
    have hne : countText value ≠ [] := by
      intro hnil
      exact h ⟨value, hvalue, hnil⟩
    have hselect := selectOutletCount_of_attribute hvalue
    have hknown : knownCount db id = countInText value := by
      unfold knownCount
      rw [hvalue, Option.bind_some]
    unfold takenCount
    by_cases hlong : 5 < (countText value).length
    · rw [if_pos hlong] at hselect
      rw [hselect, hknown, countInText, if_pos hlong]
      rfl
    · rw [if_neg hlong, stringToUint32_of_ne_nil hne (Nat.le_of_not_lt hlong)] at hselect
      have hrange := @knownCount_range db id
      rw [hknown, countInText, if_neg hlong] at hrange ⊢
      cases hdecimal : Strtol.decimal ((countText value).dropWhile Stoi.isSpace) with
      | none =>
        rw [hdecimal] at hselect
        rw [hselect]
        rfl
      | some n =>
        have hn := hrange hdecimal
        have hself : n.bmod (2 ^ 32) = n := by
          rw [Shared.IntType.bmod_eq_self]
          omega
        rw [hdecimal] at hselect
        change selectOutletCount db id = n % 2 ^ 32 at hselect
        rw [hselect, Option.getD_some, uint32Max]
        -- the largest value is `-1` as well
        by_cases hmax : n % 2 ^ 32 = 2 ^ 32 - 1
        · rw [if_neg (not_not.mpr hmax)]
          omega
        · rw [if_pos hmax]
          exact (Int.emod_bmod n (2 ^ 32)).trans hself

/-- The value of an asset: its free outlets, or a negative one where these are not known. -/
def ShowsFree (db : RackDb) (id : Nat) (v : Int) : Prop :=
  match freeOutlets db id with
  | some n => v = n
  | none => v < 0

theorem outletCount_eq : outletCount db id =
    match db.countOfLinkSrc id with
    | none => -1
    | some used => (takenCount db id - used).bmod (2 ^ 32) :=
  rfl

/-- The uses are counted by an `int`. -/
theorem showsFree_iff (hint : ∀ used, db.countOfLinkSrc id = some used → used < 2 ^ 31) :
    ShowsFree db id (outletCount db id) ↔
      (BlankCount db id → db.countOfLinkSrc id ≠ some 0) ∧
        ∀ n, freeOutlets db id = some n → -2 ^ 31 ≤ n := by
  unfold ShowsFree
  rw [outletCount_eq]
  cases hused : db.countOfLinkSrc id with
  | none =>
    have hfree : freeOutlets db id = none := by
      unfold freeOutlets
      rw [hused]
      cases knownCount db id <;> rfl
    rw [hfree]
    simp
  | some used =>
    have hsmall := hint used hused
    have hfree : freeOutlets db id = (knownCount db id).map (· - (used : Int)) := by
      unfold freeOutlets
      rw [hused]
      cases knownCount db id <;> rfl
    obtain ⟨k, hk, hlow, hhigh⟩ := Shared.IntType.bmod_spec (takenCount db id - used)
    rw [hfree]
    by_cases hblank : BlankCount db id
    · -- a blank count is taken for a number, while no number of outlets is known
      rw [knownCount_blank hblank]
      rw [takenCount_blank hblank] at hk hlow hhigh ⊢
      simp only [Option.map_none, hblank, true_imp_iff, ne_eq, Option.some.injEq, reduceCtorEq,
        false_imp_iff, implies_true, and_true]
      omega
    · have htaken := takenCount_eq hblank
      rw [htaken] at hk hlow hhigh ⊢
      cases hknown : knownCount db id with
      | none =>
        rw [hknown] at hk hlow hhigh
        simp only [hblank, Option.map_none, Option.getD_none, false_imp_iff, reduceCtorEq,
          implies_true, and_true, iff_true] at hk hlow hhigh ⊢
        omega
      | some n =>
        have hn := knownCount_range hknown
        rw [hknown] at hk hlow hhigh
        simp only [hblank, Option.map_some, Option.getD_some, false_imp_iff, Option.some.injEq,
          forall_eq', true_and] at hk hlow hhigh ⊢
        omega

end

/-! ## The rows -/

theorem CountMap.lookup_set (res : CountMap) (key : String) (count : Int) (k : String) :
    (res.set key count).lookup k = if k = key then some count else res.lookup k := by
  unfold CountMap.set
  by_cases hkey : (res.lookup key).isSome = true
  · rw [if_pos hkey, AssocList.lookup_map_value (f := fun k n ↦ if k = key then count else n)]
    by_cases hk : k = key
    · obtain ⟨n, hn⟩ := Option.isSome_iff_exists.mp hkey
      rw [if_pos hk, hk, hn, Option.map_some, if_pos rfl]
    · rw [if_neg hk]
      cases hlookup : res.lookup k with
      | none => rfl
      | some n => rw [Option.map_some, if_neg hk]
  · have hnone : res.lookup key = none := by
      rwa [Bool.not_eq_true, Option.isSome_eq_false_iff, Option.isNone_iff_eq_none] at hkey
    rw [if_neg hkey, AssocList.lookup_orderedInsert hnone]
    by_cases hk : k = key
    · simp [hk]
    · simp [hk]

section

variable (db : RackDb)

def hasOutlets (row : Nat × Nat) : Bool := db.isEpdu row.2 || db.isPdu row.2

/-- The epdus and pdus among the assets. -/
def outletRows (rows : List (Nat × Nat)) : List (Nat × Nat) := rows.filter (hasOutlets db)

end

section

variable {db : RackDb} {row : Nat × Nat}

theorem outletRow_other (sums : OutletSums) (h : hasOutlets db row = false) :
    outletRow db sums row = sums := by
  unfold outletRow
  unfold hasOutlets at h
  dsimp only
  rw [if_pos]
  simpa using h

theorem outletRow_eq (sums : OutletSums) (h : hasOutlets db row = true) :
    outletRow db sums row =
      { sum := if 0 ≤ outletCount db row.1 then (sums.sum + outletCount db row.1).bmod (2 ^ 32)
          else sums.sum
        tainted := sums.tainted || decide (outletCount db row.1 < 0)
        res := sums.res.set (toString row.1) (outletCount db row.1) } := by
  unfold outletRow
  unfold hasOutlets at h
  dsimp only
  rw [if_neg]
  · by_cases hcount : 0 ≤ outletCount db row.1
    · rw [if_pos hcount, if_pos hcount, decide_eq_false (by omega), Bool.or_false]
    · rw [if_neg hcount, if_neg hcount, decide_eq_true (by omega), Bool.or_true]
  · simp only [Bool.and_eq_true, Bool.not_eq_true']
    intro hnot
    rw [hnot.1, hnot.2] at h
    cases h

theorem foldl_outletRow (rows : List (Nat × Nat)) (sums : OutletSums) :
    rows.foldl (outletRow db) sums = (outletRows db rows).foldl (outletRow db) sums := by
  induction rows generalizing sums with
  | nil => rfl
  | cons row rows ih =>
    rw [List.foldl_cons, ih]
    unfold outletRows
    cases h : hasOutlets db row with
    | false => rw [List.filter_cons_of_neg (by simp [h]), outletRow_other sums h]
    | true => rw [List.filter_cons_of_pos h, List.foldl_cons]

/-- No row has the key: the entry stays. -/
theorem lookup_foldl_of_forall_ne {rows : List (Nat × Nat)} {sums : OutletSums} {key : String}
    (h : ∀ row ∈ rows, hasOutlets db row = true) (hkey : ∀ row ∈ rows, key ≠ toString row.1) :
    (rows.foldl (outletRow db) sums).res.lookup key = sums.res.lookup key := by
  induction rows generalizing sums with
  | nil => rfl
  | cons row rows ih =>
    have hrow : (outletRow db sums row).res.lookup key = sums.res.lookup key := by
      rw [outletRow_eq sums (h row List.mem_cons_self), CountMap.lookup_set,
        if_neg (hkey row List.mem_cons_self)]
    rw [List.foldl_cons, ih, hrow]
    · exact fun row hrow ↦ h row (List.mem_cons_of_mem _ hrow)
    · exact fun row hrow ↦ hkey row (List.mem_cons_of_mem _ hrow)

theorem lookup_foldl_of_mem {rows : List (Nat × Nat)} {sums : OutletSums}
    (h : ∀ row ∈ rows, hasOutlets db row = true) {row : Nat × Nat} (hrow : row ∈ rows) :
    (rows.foldl (outletRow db) sums).res.lookup (toString row.1) =
      some (outletCount db row.1) := by
  induction rows using List.reverseRecOn with
  | nil => exact absurd hrow List.not_mem_nil
  | append_singleton rows last ih =>
    have hlast : hasOutlets db last = true := h last (by simp)
    rw [List.foldl_append, List.foldl_cons, List.foldl_nil, outletRow_eq _ hlast,
      CountMap.lookup_set]
    by_cases hkey : toString row.1 = toString last.1
    · rw [if_pos hkey, Stoi.toString_inj.mp hkey]
    · rw [if_neg hkey]
      apply ih
      · exact fun row hrow ↦ h row (List.mem_append_left _ hrow)
      · rcases List.mem_append.mp hrow with hrow | hrow
        · exact hrow
        · rw [List.mem_singleton.mp hrow] at hkey
          exact absurd rfl hkey

theorem foldl_tainted {rows : List (Nat × Nat)} (sums : OutletSums)
    (h : ∀ row ∈ rows, hasOutlets db row = true) :
    (rows.foldl (outletRow db) sums).tainted =
      (sums.tainted || rows.any fun row ↦ decide (outletCount db row.1 < 0)) := by
  induction rows generalizing sums with
  | nil => rw [List.foldl_nil, List.any_nil, Bool.or_false]
  | cons row rows ih =>
    rw [List.foldl_cons, ih _ fun row hrow ↦ h row (List.mem_cons_of_mem _ hrow),
      outletRow_eq sums (h row List.mem_cons_self), List.any_cons, Bool.or_assoc]

theorem foldl_sum {rows : List (Nat × Nat)} (sums : OutletSums)
    (h : ∀ row ∈ rows, hasOutlets db row = true)
    (hnonneg : ∀ row ∈ rows, 0 ≤ outletCount db row.1) :
    (rows.foldl (outletRow db) sums).sum.bmod (2 ^ 32) =
      (sums.sum + (rows.map fun row ↦ outletCount db row.1).sum).bmod (2 ^ 32) := by
  induction rows generalizing sums with
  | nil => rw [List.foldl_nil, List.map_nil, List.sum_nil, Int.add_zero]
  | cons row rows ih =>
    rw [List.foldl_cons, ih _ (fun row hrow ↦ h row (List.mem_cons_of_mem _ hrow))
      (fun row hrow ↦ hnonneg row (List.mem_cons_of_mem _ hrow)),
      outletRow_eq sums (h row List.mem_cons_self)]
    dsimp only
    rw [if_pos (hnonneg row List.mem_cons_self), Int.bmod_add_bmod, List.map_cons, List.sum_cons,
      Int.add_assoc]

end

/-! ## Adding up -/

/-- What the map of a rack tells. -/
structure CountsOutlets (db : RackDb) (rows : List (Nat × Nat)) (res : CountMap) : Prop where
  keys : ∀ key, (∃ v, res.lookup key = some v) ↔
    key = "sum" ∨ ∃ row ∈ outletRows db rows, key = toString row.1
  value : ∀ row ∈ outletRows db rows, ∃ v, res.lookup (toString row.1) = some v ∧
    ShowsFree db row.1 v
  sum : ∀ values : List Int,
    List.Forall₂ (fun row v ↦ res.lookup (toString row.1) = some v) (outletRows db rows) values →
    res.lookup "sum" = some (if ∀ v ∈ values, 0 ≤ v then values.sum else -1)

def RackDb.withRows (db : RackDb) (rows : List (Nat × Nat)) : RackDb :=
  { db with selectAssetsByContainer := fun _ ↦ some rows }

/-- The counts are right, whatever the order of the rows is. -/
def AddsUp (db : RackDb) (elementId : Nat) (rows : List (Nat × Nat)) : Prop :=
  ∃ res, rackOutletsAvailable db elementId = some res ∧ CountsOutlets db rows res ∧
    ∀ rows', rows'.Perm rows → ∃ res', rackOutletsAvailable (db.withRows rows') elementId = some res' ∧
      ∀ key, res'.lookup key = res.lookup key

/-- The texts and the numbers that are counted right. -/
structure Countable (db : RackDb) (rows : List (Nat × Nat)) : Prop where
  text : ∀ row ∈ outletRows db rows, BlankCount db row.1 → db.countOfLinkSrc row.1 ≠ some 0
  value : ∀ row ∈ outletRows db rows, ∀ n, freeOutlets db row.1 = some n → -2 ^ 31 ≤ n
  sum : ∀ values : List Int,
    List.Forall₂ (fun row n ↦ freeOutlets db row.1 = some n) (outletRows db rows) values →
    (∀ n ∈ values, 0 ≤ n) → values.sum < 2 ^ 31

section

variable {db : RackDb}

/-- The map that is made of the rows. -/
def rowsMap (db : RackDb) (rows : List (Nat × Nat)) : CountMap :=
  let sums := rows.foldl (outletRow db) {}
  if sums.tainted then sums.res else sums.res.set "sum" ((sums.sum + 1).bmod (2 ^ 32))

theorem rackOutletsAvailable_rows {elementId : Nat} {rows : List (Nat × Nat)}
    (h : db.selectAssetsByContainer elementId = some rows) :
    rackOutletsAvailable db elementId = some (rowsMap db rows) := by
  unfold rackOutletsAvailable
  rw [h]
  rfl

theorem hasOutlets_of_mem (db : RackDb) (rows : List (Nat × Nat)) :
    ∀ row ∈ outletRows db rows, hasOutlets db row = true :=
  fun _ hrow ↦ (List.mem_filter.mp hrow).2

theorem toString_ne_sum (id : Nat) : toString id ≠ "sum" := by
  intro h
  have hs : 's' ∈ (toString id).toList := by
    rw [h]
    decide
  rw [Nat.toString_eq_repr, Nat.toList_repr] at hs
  exact absurd (Stoi.isDigit_of_mem_toDigits hs) (by decide)

theorem lookup_rowsMap_sum (rows : List (Nat × Nat)) :
    (rowsMap db rows).lookup "sum" =
      some (if ∀ row ∈ outletRows db rows, 0 ≤ outletCount db row.1 then
        ((outletRows db rows).map fun row ↦ outletCount db row.1).sum.bmod (2 ^ 32) else -1) := by
  have htainted := foldl_tainted {} (hasOutlets_of_mem db rows)
  unfold rowsMap
  rw [foldl_outletRow]
  dsimp only
  by_cases hnonneg : ∀ row ∈ outletRows db rows, 0 ≤ outletCount db row.1
  · have hany : ((outletRows db rows).any fun row ↦ decide (outletCount db row.1 < 0)) = false := by
      rw [List.any_eq_false]
      intro row hrow
      have := hnonneg row hrow
      simpa using this
    -- the int is wrapped at each addition, which is the same as once at the end
    have hsum := foldl_sum {} (hasOutlets_of_mem db rows) hnonneg
    rw [hany] at htainted
    rw [htainted, if_pos hnonneg, if_neg (by decide), CountMap.lookup_set, if_pos rfl]
    rw [← Int.bmod_add_bmod, hsum, Int.bmod_add_bmod]
    congr 2
    dsimp only
    omega
  · have hany : ((outletRows db rows).any fun row ↦ decide (outletCount db row.1 < 0)) = true := by
      rw [List.any_eq_true]
      simp only [not_forall] at hnonneg
      obtain ⟨row, hrow, hneg⟩ := hnonneg
      exact ⟨row, hrow, decide_eq_true (by omega)⟩
    rw [hany] at htainted
    rw [htainted, if_neg hnonneg, if_pos (by decide), lookup_foldl_of_forall_ne (hasOutlets_of_mem db rows)]
    · rfl
    · exact fun row _ ↦ (toString_ne_sum row.1).symm

/-- The other entries are those of the rows. -/
theorem lookup_rowsMap_ne_sum (rows : List (Nat × Nat)) {key : String} (hkey : key ≠ "sum") :
    (rowsMap db rows).lookup key =
      ((outletRows db rows).foldl (outletRow db) {}).res.lookup key := by
  unfold rowsMap
  rw [foldl_outletRow]
  dsimp only
  split
  · rfl
  · rw [CountMap.lookup_set, if_neg hkey]

theorem lookup_rowsMap_mem {rows : List (Nat × Nat)} {row : Nat × Nat}
    (h : row ∈ outletRows db rows) :
    (rowsMap db rows).lookup (toString row.1) = some (outletCount db row.1) := by
  rw [lookup_rowsMap_ne_sum rows (toString_ne_sum row.1), lookup_foldl_of_mem (hasOutlets_of_mem db rows) h]

theorem lookup_rowsMap_none {rows : List (Nat × Nat)} {key : String} (hkey : key ≠ "sum")
    (h : ∀ row ∈ outletRows db rows, key ≠ toString row.1) :
    (rowsMap db rows).lookup key = none := by
  rw [lookup_rowsMap_ne_sum rows hkey, lookup_foldl_of_forall_ne (hasOutlets_of_mem db rows) h]
  change List.lookup key [("sum", (-1 : Int))] = none
  rw [List.lookup_cons, beq_eq_false_iff_ne.mpr hkey]
  rfl

theorem rowsMap_keys (rows : List (Nat × Nat)) (key : String) :
    (∃ v, (rowsMap db rows).lookup key = some v) ↔
      key = "sum" ∨ ∃ row ∈ outletRows db rows, key = toString row.1 := by
  by_cases hsum : key = "sum"
  · rw [hsum]
    exact ⟨fun _ ↦ Or.inl rfl, fun _ ↦ ⟨_, lookup_rowsMap_sum rows⟩⟩
  · rw [or_iff_right hsum]
    by_cases hrow : ∃ row ∈ outletRows db rows, key = toString row.1
    · refine ⟨fun _ ↦ hrow, fun _ ↦ ?_⟩
      obtain ⟨row, hmem, rfl⟩ := hrow
      exact ⟨_, lookup_rowsMap_mem hmem⟩
    · have hne : ∀ row ∈ outletRows db rows, key ≠ toString row.1 := by
        intro row hmem heq
        exact hrow ⟨row, hmem, heq⟩
      rw [lookup_rowsMap_none hsum hne]
      simp only [reduceCtorEq, exists_false, hrow]

/-- The map does not depend on the order of the rows. -/
theorem lookup_rowsMap_perm {rows rows' : List (Nat × Nat)} (h : rows'.Perm rows) (key : String) :
    (rowsMap db rows').lookup key = (rowsMap db rows).lookup key := by
  have hperm : (outletRows db rows').Perm (outletRows db rows) := h.filter _
  by_cases hsum : key = "sum"
  · rw [hsum, lookup_rowsMap_sum, lookup_rowsMap_sum, (hperm.map _).sum_eq]
    simp only [hperm.mem_iff]
  · by_cases hrow : ∃ row ∈ outletRows db rows, key = toString row.1
    · obtain ⟨row, hmem, rfl⟩ := hrow
      rw [lookup_rowsMap_mem hmem, lookup_rowsMap_mem (hperm.mem_iff.mpr hmem)]
    · have hne : ∀ row ∈ outletRows db rows, key ≠ toString row.1 := by
        intro row hmem heq
        exact hrow ⟨row, hmem, heq⟩
      rw [lookup_rowsMap_none hsum hne,
        lookup_rowsMap_none hsum fun row hmem ↦ hne row (hperm.mem_iff.mp hmem)]

/-- The values of the rows. -/
theorem values_rowsMap {rows : List (Nat × Nat)} {values : List Int} :
    List.Forall₂ (fun row v ↦ (rowsMap db rows).lookup (toString row.1) = some v)
      (outletRows db rows) values ↔
    values = (outletRows db rows).map fun row ↦ outletCount db row.1 := by
  have hforall : ∀ mine, (∀ row ∈ mine, row ∈ outletRows db rows) → ∀ values,
      List.Forall₂ (fun row v ↦ (rowsMap db rows).lookup (toString row.1) = some v) mine values ↔
        values = mine.map fun row ↦ outletCount db row.1 := by
    intro mine
    induction mine with
    | nil => intro _ values; rw [List.forall₂_nil_left_iff, List.map_nil]
    | cons row mine ih =>
      intro hmem values
      have hrow := lookup_rowsMap_mem (hmem row List.mem_cons_self)
      rw [List.forall₂_cons_left_iff, List.map_cons]
      constructor
      · rintro ⟨v, values, hv, hvalues, rfl⟩
        rw [(ih (fun row h ↦ hmem row (List.mem_cons_of_mem _ h)) values).mp hvalues,
          Option.some.inj (hv.symm.trans hrow)]
      · rintro rfl
        exact ⟨_, _, hrow,
          (ih (fun row h ↦ hmem row (List.mem_cons_of_mem _ h)) _).mpr rfl, rfl⟩
  exact hforall _ (fun _ h ↦ h) values

theorem countsOutlets_iff {rows : List (Nat × Nat)} : CountsOutlets db rows (rowsMap db rows) ↔
    (∀ row ∈ outletRows db rows, ShowsFree db row.1 (outletCount db row.1)) ∧
      ((∀ row ∈ outletRows db rows, 0 ≤ outletCount db row.1) →
        ((outletRows db rows).map fun row ↦ outletCount db row.1).sum < 2 ^ 31) := by
  have hsum (hnonneg : ∀ row ∈ outletRows db rows, 0 ≤ outletCount db row.1) :
      0 ≤ ((outletRows db rows).map fun row ↦ outletCount db row.1).sum := by
    apply List.sum_nonneg
    exact List.forall_mem_map.mpr hnonneg
  constructor
  · intro h
    constructor
    · intro row hrow
      obtain ⟨v, hv, hshows⟩ := h.value row hrow
      rw [← Option.some.inj (hv.symm.trans (lookup_rowsMap_mem hrow))]
      exact hshows
    · intro hnonneg
      have hvalue := h.sum _ (values_rowsMap.mpr rfl)
      rw [lookup_rowsMap_sum, if_pos hnonneg, if_pos (List.forall_mem_map.mpr hnonneg)] at hvalue
      -- a wrapped sum shows itself only below `2 ^ 31`
      have hself := (Shared.IntType.bmod_eq_self _).mp (Option.some.inj hvalue)
      exact hself.2
  · rintro ⟨hshows, hsmall⟩
    refine ⟨rowsMap_keys rows, fun row hrow ↦ ⟨_, lookup_rowsMap_mem hrow, hshows row hrow⟩, ?_⟩
    intro values hvalues
    rw [values_rowsMap.mp hvalues, lookup_rowsMap_sum]
    by_cases hnonneg : ∀ row ∈ outletRows db rows, 0 ≤ outletCount db row.1
    · have hlow := hsum hnonneg
      rw [if_pos hnonneg, if_pos (List.forall_mem_map.mpr hnonneg), (Shared.IntType.bmod_eq_self _).mpr]
      exact ⟨by omega, hsmall hnonneg⟩
    · rw [if_neg hnonneg, if_neg (mt List.forall_mem_map.mp hnonneg)]

/-- Once each value is right, the values are the free outlets. -/
theorem free_values {rows : List (Nat × Nat)}
    (hshows : ∀ row ∈ rows, ShowsFree db row.1 (outletCount db row.1)) {values : List Int} :
    (List.Forall₂ (fun row n ↦ freeOutlets db row.1 = some n) rows values ∧ ∀ n ∈ values, 0 ≤ n) ↔
      values = rows.map (fun row ↦ outletCount db row.1) ∧ ∀ row ∈ rows, 0 ≤ outletCount db row.1 := by
  induction rows generalizing values with
  | nil =>
    rw [List.forall₂_nil_left_iff, List.map_nil]
    constructor
    · exact fun h ↦ ⟨h.1, fun _ h ↦ absurd h List.not_mem_nil⟩
    · rintro ⟨rfl, -⟩
      exact ⟨rfl, fun _ h ↦ absurd h List.not_mem_nil⟩
  -- a device whose outlets are not known shows a negative count
  | cons row rows ih =>
    have ih := @ih fun row h ↦ hshows row (List.mem_cons_of_mem _ h)
    have hrow := hshows row List.mem_cons_self
    unfold ShowsFree at hrow
    rw [List.forall₂_cons_left_iff, List.map_cons]
    constructor
    · rintro ⟨⟨n, values, hn, hvalues, rfl⟩, hnonneg⟩
      rw [List.forall_mem_cons] at hnonneg
      rw [hn] at hrow
      obtain ⟨heq, hrows⟩ := ih.mp ⟨hvalues, hnonneg.2⟩
      rw [hrow, heq]
      refine ⟨rfl, List.forall_mem_cons.mpr ⟨?_, hrows⟩⟩
      rw [hrow]
      exact hnonneg.1
    · rintro ⟨rfl, hnonneg⟩
      rw [List.forall_mem_cons] at hnonneg
      obtain ⟨hvalues, hall⟩ := ih.mpr ⟨rfl, hnonneg.2⟩
      cases hfree : freeOutlets db row.1 with
      | none =>
        rw [hfree] at hrow
        exact absurd hnonneg.1 (Int.not_le.mpr hrow)
      | some n =>
        rw [hfree] at hrow
        refine ⟨⟨_, _, ?_, hvalues, rfl⟩, List.forall_mem_cons.mpr ⟨hnonneg.1, hall⟩⟩
        rw [hrow]

theorem countable_iff {rows : List (Nat × Nat)}
    (hint : ∀ id used, db.countOfLinkSrc id = some used → used < 2 ^ 31) :
    CountsOutlets db rows (rowsMap db rows) ↔ Countable db rows := by
  rw [countsOutlets_iff]
  simp only [showsFree_iff (hint _)]
  constructor
  · rintro ⟨hshows, hsum⟩
    refine ⟨fun row hrow ↦ (hshows row hrow).1, fun row hrow ↦ (hshows row hrow).2, ?_⟩
    intro values hvalues hnonneg
    obtain ⟨rfl, hcounts⟩ := (free_values fun row hrow ↦
      (showsFree_iff (hint row.1)).mpr (hshows row hrow)).mp ⟨hvalues, hnonneg⟩
    exact hsum hcounts
  · intro h
    have hshows : ∀ row ∈ outletRows db rows, ShowsFree db row.1 (outletCount db row.1) := by
      intro row hrow
      exact (showsFree_iff (hint row.1)).mpr ⟨h.text row hrow, h.value row hrow⟩
    refine ⟨fun row hrow ↦ ⟨h.text row hrow, h.value row hrow⟩, fun hnonneg ↦ ?_⟩
    obtain ⟨hvalues, hall⟩ := (free_values hshows).mpr ⟨rfl, hnonneg⟩
    exact h.sum _ hvalues hall

/-- The counts of a rack add up when no text is blank for an outlet that is not used and the
numbers fit into an `int`. -/
theorem rackOutlets_addUp_iff
    (hint : ∀ id used, db.countOfLinkSrc id = some used → used < 2 ^ 31) {elementId : Nat}
    {rows : List (Nat × Nat)} (hrows : db.selectAssetsByContainer elementId = some rows) :
    AddsUp db elementId rows ↔ Countable db rows := by
  have hmap := rackOutletsAvailable_rows hrows
  rw [← countable_iff hint]
  constructor
  · rintro ⟨res, hres, hcounts, -⟩
    rw [Option.some.inj (hmap.symm.trans hres)]
    exact hcounts
  · intro h
    refine ⟨_, hmap, h, fun rows' hperm ↦ ?_⟩
    refine ⟨rowsMap (db.withRows rows') rows', rackOutletsAvailable_rows rfl, ?_⟩
    exact lookup_rowsMap_perm hperm

end

/-- A rack with one pdu, whose number of outlets is a text. -/
def pduWithText (value : String) : RackDb where
  isEpdu _ := false
  isPdu subtype := subtype = 3
  selectAssetsByContainer _ := some [(12, 3), (13, 5)]
  selectExtAttributes _ := some [("outlet.count", value)]
  countOfLinkSrc _ := some 0

theorem pduWithText_used (value : String) (id used : Nat)
    (h : (pduWithText value).countOfLinkSrc id = some used) : used < 2 ^ 31 := by
  rw [← Option.some.inj h]
  decide

/-- A rack with two pdus, and another device between them. -/
def twoPdus : RackDb where
  isEpdu _ := false
  isPdu subtype := subtype = 3
  selectAssetsByContainer _ := some [(12, 3), (13, 5), (14, 3)]
  selectExtAttributes id := some [("outlet.count", if id = 12 then "8.00" else "4")]
  countOfLinkSrc id := some (if id = 12 then 3 else 0)

theorem rackOutlets_addUp_pdus : AddsUp twoPdus 1 [(12, 3), (13, 5), (14, 3)] := by
  have hint : ∀ id used, twoPdus.countOfLinkSrc id = some used → used < 2 ^ 31 := by
    intro id used h
    rw [← Option.some.inj h]
    split
    · decide
    · decide
  apply (rackOutlets_addUp_iff hint rfl).mpr
  have hrows : outletRows twoPdus [(12, 3), (13, 5), (14, 3)] = [(12, 3), (14, 3)] := rfl
  have height : countText "8.00" = ['8'] := by
    unfold countText
    rw [String.toList_ofList]
    decide
  have hfour : countText "4" = ['4'] := by
    unfold countText
    rw [String.toList_ofList]
    decide
  have hfirst : freeOutlets twoPdus 12 = some 5 := by
    unfold freeOutlets knownCount
    change (do let n ← (countInText "8.00").bind _; _) = _
    unfold countInText
    rw [height]
    rfl
  have hsecond : freeOutlets twoPdus 14 = some 4 := by
    unfold freeOutlets knownCount
    change (do let n ← (countInText "4").bind _; _) = _
    unfold countInText
    rw [hfour]
    rfl
  constructor
  · rw [hrows]
    rintro row hrow ⟨value, hvalue, hblank⟩
    rcases List.mem_pair.mp hrow with rfl | rfl
    · rw [← Option.some.inj hvalue] at hblank
      cases height.symm.trans hblank
    · rw [← Option.some.inj hvalue] at hblank
      cases hfour.symm.trans hblank
  · rw [hrows]
    intro row hrow n hn
    rcases List.mem_pair.mp hrow with rfl | rfl
    · rw [← Option.some.inj (hfirst.symm.trans hn)]
      decide
    · rw [← Option.some.inj (hsecond.symm.trans hn)]
      decide
  · rw [hrows]
    intro values hvalues _
    obtain ⟨m, rest, hm, hrest, rfl⟩ := List.forall₂_cons_left_iff.mp hvalues
    obtain ⟨n, rest, hn, hnil, rfl⟩ := List.forall₂_cons_left_iff.mp hrest
    rw [List.forall₂_nil_left_iff.mp hnil, ← Option.some.inj (hfirst.symm.trans hm),
      ← Option.some.inj (hsecond.symm.trans hn)]
    decide

/-- A text without digits before its dot shows no outlets, not an unknown number of them. -/
theorem blank_count_is_zero : ¬ ∀ (db : RackDb) (elementId : Nat) (rows : List (Nat × Nat)),
    db.selectAssetsByContainer elementId = some rows → AddsUp db elementId rows := by
  intro hall
  have h := hall (pduWithText "") 1 [(12, 3), (13, 5)] rfl
  obtain ⟨res, hres, hcounts, -⟩ := h
  obtain rfl := Option.some.inj ((rackOutletsAvailable_rows rfl).symm.trans hres)
  have hcountable := (countable_iff (pduWithText_used _)).mp hcounts
  exact hcountable.text (12, 3) (by decide) ⟨"", rfl, rfl⟩ rfl

end FtyRest.Web
