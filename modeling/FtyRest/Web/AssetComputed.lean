import FtyRest.Lib.AssocList
import FtyRest.Shared.StringToInt

/-!
# Computed attributes

The outlets that are free in a rack, of `web/src/asset_computed_impl.cc`.
-/

namespace FtyRest.Web

/-- What the computation asks the database.  A row of a container is the identifier and the subtype
of an asset in it; `none` is a query that failed. -/
structure RackDb where
  isEpdu : Nat → Bool
  isPdu : Nat → Bool
  selectAssetsByContainer : Nat → Option (List (Nat × Nat))
  selectExtAttributes : Nat → Option (List (String × String))
  countOfLinkSrc : Nat → Option Nat

/-- The largest value says that the text is not a number. -/
def uint32Max : Int := 2 ^ 32 - 1

section

variable (db : RackDb)

def selectOutletCount (id : Nat) : Int :=
  match (db.selectExtAttributes id).bind (·.lookup "outlet.count") with
  | none => uint32Max
  | some value =>
      -- `first.c_str ()` ends at the first NUL
      let foo := (value.toList.takeWhile (· ≠ '\x00')).takeWhile (· ≠ '.')
      -- validation: too big values in DB are weird
      if 5 < foo.length then uint32Max else (Shared.stringToUint32 (some (.ofList foo))).2

/-- `std::map<std::string, int>`, in the order of the keys. -/
abbrev CountMap := List (String × Int)

/-- `res[key] = count`. -/
def CountMap.set (res : CountMap) (key : String) (count : Int) : CountMap :=
  if (res.lookup key).isSome then res.map fun (k, n) ↦ (k, if k = key then count else n)
  else res.orderedInsert (fun a b ↦ a.1 ≤ b.1) (key, count)

/-- What the callback for a row changes. -/
structure OutletSums where
  sum : Int := -1
  tainted : Bool := false
  res : CountMap := [("sum", -1)]
deriving DecidableEq, Repr

/-- The outlets of an asset that nothing is plugged in.  An `int` that overflows wraps around. -/
def outletCount (deviceAssetId : Nat) : Int :=
  let foo := selectOutletCount db deviceAssetId
  let outletCount : Int := if foo ≠ uint32Max then foo.bmod (2 ^ 32) else -1
  match db.countOfLinkSrc deviceAssetId with
  | none => -1
  | some outletUsed => (outletCount - outletUsed).bmod (2 ^ 32)

def outletRow (sums : OutletSums) (row : Nat × Nat) : OutletSums :=
  let (deviceAssetId, deviceSubtype) := row
  if !db.isEpdu deviceSubtype && !db.isPdu deviceSubtype then sums
  else
    let count := outletCount db deviceAssetId
    let res := sums.res.set (toString deviceAssetId) count
    if 0 ≤ count then { sums with sum := (sums.sum + count).bmod (2 ^ 32), res := res }
    else { sums with tainted := true, res := res }

/-- `none` is a result other than zero. -/
def rackOutletsAvailable (elementId : Nat) : Option CountMap := do
  let rows ← db.selectAssetsByContainer elementId
  let sums := rows.foldl (outletRow db) {}
  -- sum is initialized to -1
  return if sums.tainted then sums.res else sums.res.set "sum" ((sums.sum + 1).bmod (2 ^ 32))

end

/-! ## Keys -/

/-- The keys of the counts: the sum, and the identifiers of the assets. -/
def CountKey (key : String) : Prop := key = "sum" ∨ ∃ id : Nat, key = toString id

def CountKeys (res : CountMap) : Prop := ∀ p ∈ res, CountKey p.1

theorem CountKeys.set {res : CountMap} (h : CountKeys res) {key : String} (hkey : CountKey key)
    (count : Int) : CountKeys (res.set key count) := by
  intro p hp
  unfold CountMap.set at hp
  split at hp
  · obtain ⟨q, hq, rfl⟩ := List.mem_map.mp hp
    exact h q hq
  · rcases (List.mem_orderedInsert _).mp hp with rfl | hp
    · exact hkey
    · exact h p hp

section

variable {db : RackDb}

theorem CountKeys.outletRow {sums : OutletSums} (h : CountKeys sums.res) (row : Nat × Nat) :
    CountKeys (outletRow db sums row).res := by
  have hset := h.set (Or.inr ⟨row.1, rfl⟩) (outletCount db row.1)
  unfold Web.outletRow
  dsimp only
  split
  · exact h
  · split
    · exact hset
    · exact hset

theorem CountKeys.foldl {rows : List (Nat × Nat)} {sums : OutletSums} (h : CountKeys sums.res) :
    CountKeys (rows.foldl (Web.outletRow db) sums).res := by
  induction rows generalizing sums with
  | nil => exact h
  | cons row rows ih => exact ih (h.outletRow row)

/-- Whatever the rows are, each count stands under the sum or under an identifier. -/
theorem rackOutletsAvailable_keys {elementId : Nat} {res : CountMap}
    (h : rackOutletsAvailable db elementId = some res) : CountKeys res := by
  have hsum : CountKeys [("sum", -1)] := by
    intro p hp
    rw [List.mem_singleton.mp hp]
    exact Or.inl rfl
  obtain ⟨rows, _, hres⟩ := Option.bind_eq_some_iff.mp h
  have hrows : CountKeys (rows.foldl (outletRow db) {}).res := CountKeys.foldl hsum
  obtain rfl := Option.some.inj hres
  split
  · exact hrows
  · exact hrows.set (Or.inl rfl) _

end

end FtyRest.Web
