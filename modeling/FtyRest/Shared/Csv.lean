import FtyRest.Lib.Stoi
import Mathlib.Data.List.Basic
import Mathlib.Data.List.Nodup
import Mathlib.Data.List.Sort
import Mathlib.Data.List.Zip
import Mathlib.Data.String.Basic

/-!
# `CsvMap`

The table of `shared/csv.cc`, whose cells are read by the name of their column.  Names are
compared after `ciStrip`.
-/

namespace FtyRest.Shared

/-- `_ci_strip`: letters in lower case, digits, `_` and `.` stay. -/
def ciStrip (str : String) : String :=
  .ofList ((str.toList.filter fun c ↦ c.isAlphanum || c = '_' || c = '.').map Char.toLower)

/-- `utils::strip`, which drops blanks wherever they stand. -/
def strip (str : String) : String :=
  .ofList (str.toList.filter fun c ↦ !(c.toNat = 32 || (9 ≤ c.toNat && c.toNat ≤ 13)))

inductive CsvError where
  -- std::invalid_argument
  | emptyDataSet
  | duplicateTitle (title : String)
  -- std::out_of_range
  | rowOutOfRange (row rows : Nat)
  | titleNotFound (title : String)
  | columnOutOfRange (line : Nat) (title : String) (index maximum : Nat)
deriving DecidableEq, Repr

structure CsvMap where
  data : List (List String)
  titleToIndex : List (String × Nat) := []
  createUser : String := ""
  updateUser : String := ""
  updateTs : String := ""
  createMode : Nat := 0
deriving Repr

namespace CsvMap

/-- The constructor: no titles are known before `deserialize`. -/
def ofData (data : List (List String)) : CsvMap := { data }

/-- The loop of `deserialize` over the titles, from the `i`-th one on. -/
def indexTitles (index : List (String × Nat)) : List String → Nat →
    Except CsvError (List (String × Nat))
  | [], _ => .ok index
  | titleName :: rest, i =>
      let title := ciStrip titleName
      if (index.lookup title).isSome then .error (.duplicateTitle title)
      else indexTitles (index ++ [(title, i)]) rest (i + 1)

def deserialize (cm : CsvMap) : Except CsvError CsvMap :=
  match cm.data with
  | [] => .error .emptyDataSet
  | header :: _ => do
      let titleToIndex ← indexTitles cm.titleToIndex header 0
      return { cm with titleToIndex }

def get (cm : CsvMap) (row : Nat) (titleName : String) : Except CsvError String :=
  match cm.data[row]? with
  | none => .error (.rowOutOfRange row cm.data.length)
  | some cells =>
      let title := ciStrip titleName
      match cm.titleToIndex.lookup title with
      | none => .error (.titleNotFound title)
      | some col =>
          match cells[col]? with
          | none => .error (.columnOutOfRange (row + 1) titleName (col + 1) cells.length)
          | some cell => .ok cell

def getStrip (cm : CsvMap) (row : Nat) (titleName : String) : Except CsvError String :=
  (cm.get row titleName).map ciStrip

def rows (cm : CsvMap) : Nat := cm.data.length

/-- The titles of the map, in the order of a `std::set`. -/
def getTitles (cm : CsvMap) : List String := (cm.titleToIndex.map Prod.fst).insertionSort (· ≤ ·)

end CsvMap

theorem toList_ciStrip (str : String) : (ciStrip str).toList =
    (str.toList.filter fun c ↦ c.isAlphanum || c = '_' || c = '.').map Char.toLower :=
  String.toList_ofList

theorem isUpper_iff_toNat {c : Char} : c.isUpper = true ↔ 65 ≤ c.toNat ∧ c.toNat ≤ 90 := by
  show decide (c.val ≥ 'A'.val ∧ c.val ≤ 'Z'.val) = true ↔ _
  rw [decide_eq_true_iff, ge_iff_le, UInt32.le_iff_toNat_le, UInt32.le_iff_toNat_le]
  exact Iff.rfl

theorem isLower_iff_toNat {c : Char} : c.isLower = true ↔ 97 ≤ c.toNat ∧ c.toNat ≤ 122 := by
  show (decide (c.val ≥ 'a'.val) && decide (c.val ≤ 'z'.val)) = true ↔ _
  rw [Bool.and_eq_true, decide_eq_true_iff, decide_eq_true_iff, ge_iff_le,
    UInt32.le_iff_toNat_le, UInt32.le_iff_toNat_le]
  exact Iff.rfl

theorem toNat_toLower {c : Char} (h : c.isUpper = true) : c.toLower.toNat = c.toNat + 32 := by
  have hlower : c.toLower.val = c.val + 32 := congrArg Char.val (dif_pos (of_decide_eq_true h))
  have hbound := (isUpper_iff_toNat.mp h).2
  show c.toLower.val.toNat = _
  rw [hlower, UInt32.toNat_add]
  exact Nat.mod_eq_of_lt (show c.toNat + 32 < 2 ^ 32 by omega)

/-- A lower case letter is one of the characters that stay, and is in lower case already. -/
theorem toLower_isUpper {c : Char} (h : c.isUpper = true) :
    c.toLower.isLower = true ∧ c.toLower.isUpper = false := by
  have hbounds := isUpper_iff_toNat.mp h
  have hlower := toNat_toLower h
  constructor
  · apply isLower_iff_toNat.mpr
    omega
  · rw [Bool.eq_false_iff, ne_eq, isUpper_iff_toNat]
    omega

theorem toLower_of_not_isUpper {c : Char} (h : c.isUpper = false) : c.toLower = c :=
  dif_neg (of_decide_eq_false h)

theorem stays_toLower {c : Char} (h : (c.isAlphanum || c = '_' || c = '.') = true) :
    (c.toLower.isAlphanum || c.toLower = '_' || c.toLower = '.') = true ∧
      c.toLower.toLower = c.toLower := by
  cases hu : c.isUpper with
  | false =>
    rw [toLower_of_not_isUpper hu]
    exact ⟨h, toLower_of_not_isUpper hu⟩
  | true =>
    obtain ⟨hl, hnu⟩ := toLower_isUpper hu
    refine ⟨?_, toLower_of_not_isUpper hnu⟩
    have halpha : c.toLower.isAlphanum = true := by
      show ((c.toLower.isUpper || c.toLower.isLower) || c.toLower.isDigit) = true
      rw [hl, Bool.or_true, Bool.true_or]
    rw [halpha, Bool.true_or, Bool.true_or]

/-- A normalised name is its own normal form. -/
theorem ciStrip_ciStrip (str : String) : ciStrip (ciStrip str) = ciStrip str := by
  apply String.toList_injective
  rw [toList_ciStrip (ciStrip str), toList_ciStrip str, List.filter_eq_self.mpr, List.map_map]
  · apply List.map_congr_left
    intro c hc
    exact (stays_toLower (List.mem_filter.mp hc).2).2
  · intro c hc
    obtain ⟨d, hd, rfl⟩ := List.mem_map.mp hc
    exact (stays_toLower (List.mem_filter.mp hd).2).1

theorem isDigit_of_mem_toString {n : Nat} {c : Char} (hc : c ∈ (toString n).toList) :
    c.isDigit = true := by
  rw [Nat.toString_eq_repr, Nat.toList_repr] at hc
  exact Nat.isDigit_of_mem_toDigits (by decide) (by decide) hc

theorem ciStrip_append (a b : String) : ciStrip (a ++ b) = ciStrip a ++ ciStrip b := by
  apply String.toList_injective
  simp only [toList_ciStrip, String.toList_append, List.filter_append, List.map_append]

theorem ciStrip_of_isDigit {str : String} (h : ∀ c ∈ str.toList, c.isDigit = true) :
    ciStrip str = str := by
  apply String.toList_injective
  rw [toList_ciStrip, List.filter_eq_self.mpr]
  · exact (List.map_congr_left fun c hc ↦ Stoi.toLower_of_isDigit (h c hc)).trans (List.map_id _)
  · intro c hc
    simp [Char.isAlphanum, h c hc]

theorem ciStrip_toString (n : Nat) : ciStrip (toString n) = toString n :=
  ciStrip_of_isDigit fun _ hc ↦ isDigit_of_mem_toString hc

theorem notBlank_of_stays {c : Char} (h : (c.isAlphanum || c = '_' || c = '.') = true) :
    (!(c.toNat = 32 || (9 ≤ c.toNat && c.toNat ≤ 13))) = true := by
  have hlow : 33 ≤ c.toNat := by
    change (((c.isUpper || c.isLower) || c.isDigit) || decide (c = '_') || decide (c = '.')) = true
      at h
    simp only [Bool.or_eq_true, decide_eq_true_eq, isUpper_iff_toNat, isLower_iff_toNat,
      Char.isDigit_iff_toNat] at h
    rcases h with ((hletter | hdigit) | rfl) | rfl
    · omega
    · have hzero : '0'.toNat = 48 := rfl
      omega
    · decide
    · decide
  simp only [Bool.not_eq_true', Bool.or_eq_false_iff, Bool.and_eq_false_iff,
    decide_eq_false_iff_not]
  omega

/-- A normalised text has no blanks. -/
theorem strip_of_ciStrip {str : String} (h : ciStrip str = str) : strip str = str := by
  apply String.toList_injective
  rw [strip, String.toList_ofList, List.filter_eq_self]
  intro c hc
  rw [← h, toList_ciStrip] at hc
  obtain ⟨d, hd, rfl⟩ := List.mem_map.mp hc
  exact notBlank_of_stays (stays_toLower (List.mem_filter.mp hd).2).1

/-! ## Reading by title -/

namespace CsvMap

theorem indexTitles_ok_iff {index index' : List (String × Nat)} {titles : List String} {i : Nat} :
    indexTitles index titles i = .ok index' ↔
      index' = index ++ (titles.map ciStrip).zipIdx i ∧
        (titles.map ciStrip).Nodup ∧ ∀ t ∈ titles, index.lookup (ciStrip t) = none := by
  induction titles generalizing index i with
  | nil =>
    simp only [indexTitles, Except.ok.injEq, List.map_nil, List.zipIdx_nil, List.append_nil,
      List.nodup_nil, List.not_mem_nil, IsEmpty.forall_iff, implies_true, and_true]
    exact eq_comm
  | cons t rest ih =>
    simp only [indexTitles]
    cases hl : index.lookup (ciStrip t) with
    | some j =>
      rw [Option.isSome_some, if_pos rfl]
      constructor
      · simp
      · rintro ⟨-, -, hnone⟩
        rw [hnone t List.mem_cons_self] at hl
        simp at hl
    | none =>
      have hlookup : ∀ s, (index ++ [(ciStrip t, i)]).lookup s = none ↔
          index.lookup s = none ∧ s ≠ ciStrip t := by
        intro s
        simp only [List.lookup_eq_none_iff, List.mem_append, List.mem_singleton]
        constructor
        · intro h
          exact ⟨fun p hp ↦ h p (Or.inl hp), by simpa using h _ (Or.inr rfl)⟩
        · rintro ⟨h, hne⟩ p (hp | rfl)
          · exact h p hp
          · simpa using hne
      rw [Option.isSome_none, if_neg (by simp), ih, List.map_cons, List.zipIdx_cons,
        List.append_assoc, List.nodup_cons, List.mem_map]
      simp only [hlookup, List.mem_cons, forall_eq_or_imp, hl, true_and, List.singleton_append]
      constructor
      · rintro ⟨rfl, hnd, hnew⟩
        exact ⟨rfl, ⟨fun ⟨u, hu, heq⟩ ↦ (hnew u hu).2 heq, hnd⟩, fun u hu ↦ (hnew u hu).1⟩
      · rintro ⟨rfl, ⟨hnot, hnd⟩, hold⟩
        exact ⟨rfl, hnd, fun u hu ↦ ⟨hold u hu, fun heq ↦ hnot ⟨u, hu, heq⟩⟩⟩

/-- A fresh table is accepted when its titles differ after `ciStrip`. -/
theorem deserialize_ok_iff {data : List (List String)} {cm : CsvMap} :
    (ofData data).deserialize = .ok cm ↔
      ∃ header rest, data = header :: rest ∧ (header.map ciStrip).Nodup ∧
        cm = { data, titleToIndex := (header.map ciStrip).zipIdx } := by
  cases data with
  | nil => simp [deserialize, ofData]
  | cons header rest =>
    simp only [deserialize, ofData, bind, Except.bind]
    cases hidx : indexTitles [] header 0 with
    | error e =>
      simp only [reduceCtorEq, List.cons.injEq, false_iff]
      rintro ⟨_, _, ⟨rfl, rfl⟩, hnd, -⟩
      have hok : indexTitles [] header 0 = .ok ([] ++ (header.map ciStrip).zipIdx) :=
        indexTitles_ok_iff.mpr ⟨rfl, hnd, fun _ _ ↦ rfl⟩
      rw [hidx] at hok
      simp at hok
    | ok index' =>
      obtain ⟨rfl, hnd, -⟩ := indexTitles_ok_iff.mp hidx
      simp only [pure, Except.pure, Except.ok.injEq, List.nil_append, List.cons.injEq]
      constructor
      · rintro rfl
        exact ⟨header, rest, ⟨rfl, rfl⟩, hnd, rfl⟩
      · rintro ⟨_, _, ⟨rfl, rfl⟩, -, rfl⟩
        rfl

/-- The titles of a table are normalised. -/
theorem ciStrip_of_mem_getTitles {cm cm' : CsvMap} (h : cm.titleToIndex = [])
    (hcm : cm.deserialize = .ok cm') {title : String} (ht : title ∈ cm'.getTitles) :
    ciStrip title = title := by
  unfold deserialize at hcm
  split at hcm
  · simp at hcm
  · rename_i header rest _
    simp only [bind, Except.bind, h] at hcm
    split at hcm
    · simp at hcm
    · rename_i index hindex
      obtain rfl := Except.ok.inj hcm
      obtain ⟨rfl, -⟩ := indexTitles_ok_iff.mp hindex
      rw [getTitles, List.mem_insertionSort, List.nil_append, List.zipIdx_map_fst] at ht
      obtain ⟨name, -, rfl⟩ := List.mem_map.mp ht
      exact ciStrip_ciStrip name

theorem lookup_zipIdx {titles : List String} (hnd : titles.Nodup) {j : Nat} {t : String}
    (ht : titles[j]? = some t) (k : Nat) : (titles.zipIdx k).lookup t = some (k + j) := by
  induction titles generalizing j k with
  | nil => simp at ht
  | cons u rest ih =>
    obtain ⟨hnew, hrest⟩ := List.nodup_cons.mp hnd
    rw [List.zipIdx_cons]
    cases j with
    | zero =>
      obtain rfl : u = t := by simpa using ht
      rw [List.lookup_cons_self, Nat.add_zero]
    | succ j =>
      rw [List.getElem?_cons_succ] at ht
      have hne : t ≠ u := fun h ↦ hnew (h ▸ List.mem_of_getElem? ht)
      have hbeq : (t == u) = false := beq_eq_false_iff_ne.mpr hne
      rw [List.lookup_cons, hbeq]
      simp only [ih hrest ht (k + 1)]
      congr 1
      omega

/-- A cell under its own title. -/
theorem get_of_title {data : List (List String)} {header cells : List String} {cm : CsvMap}
    {row j : Nat} {title cell : String} (hcm : (ofData data).deserialize = .ok cm)
    (hheader : data[0]? = some header) (hrow : data[row]? = some cells)
    (htitle : (header.map ciStrip)[j]? = some (ciStrip title)) (hcell : cells[j]? = some cell) :
    cm.get row title = .ok cell := by
  obtain ⟨header', rest, rfl, hnd, rfl⟩ := deserialize_ok_iff.mp hcm
  obtain rfl : header' = header := by simpa using hheader
  have hlookup := lookup_zipIdx hnd htitle 0
  rw [Nat.zero_add] at hlookup
  simp only [get, hrow, hlookup, hcell]

end CsvMap

end FtyRest.Shared
