import FtyRest.Db.Inout.ProcessRow
import FtyRest.Lib.Stoi

/-!
# `export_asset_csv`

The export from `db/inout/exportcsv.cc`: a header with a title for every keytag of the database,
and a line for every asset.  The lines are returned as a table, which the serializer prints.
-/

namespace FtyRest.Db

open Shared Checks

/-- A row of the elements, with the columns that are printed. -/
structure ElementView where
  id : Nat
  idParent : Nat
  typeName : String
  subtypeName : String
  status : String
  priority : Nat
  assetTag : String
deriving DecidableEq, Repr

/-- `power_links_t`; a text that is not given is empty. -/
structure PowerLink where
  srcName : String
  srcOut : String
  destIn : String
deriving DecidableEq, Repr

/-- The value of an attribute, and whether it is read-only, by its keytag. -/
abbrev ExtMap := List (String × String × Bool)

/-- The functions of the library that the export calls.  A function that fills a container tells
`rv` as well. -/
structure ExportDb (σ : Type) where
  maxNumberOfPowerLinks : σ → Int
  maxNumberOfAssetGroups : σ → Int
  selectExtRwAttributesKeytags : σ → Int × List String
  selectAssetElementAll : σ → Int × List ElementView
  selectAssetElementByDc : σ → Int → Int × List ElementView
  idToNameExtName : σ → Nat → String × String
  nameToExtname : σ → String → Named
  selectExtAttributes : σ → Nat → Int × ExtMap
  selectPowerLinkSrcById : σ → Nat → Int × List PowerLink
  selectGroupNames : σ → Nat → Int × List String

/-- `ASSET_ELEMENT_KEYTAGS` -/
def assetElementKeytags : List String :=
  ["id", "name", "type", "sub_type", "location", "status", "priority", "asset_tag"]

/-- `KEYTAGS`, as they are listed. -/
def listedKeytags : List String :=
  ["description", "ip.1", "company", "site_name", "region", "country", "address", "contact_name",
    "contact_email", "contact_phone", "u_size", "manufacturer", "model", "serial_no", "runtime",
    "installation_date", "maintenance_date", "maintenance_due", "location_u_pos",
    "location_w_pos", "end_warranty_date", "hostname.1", "http_link.1"]

/-- `s_update_keytags`: the keytags of the database that are none of `aek` go behind. -/
def updateKeytags (aek keytags rows : List String) : List String :=
  rows.foldl (fun s keytag ↦ if keytag ∈ aek ∨ keytag ∈ s then s else s ++ [keytag]) keytags

/-- How many numbers are printed. -/
def atLeastOne (n : Nat) : Nat := if n = 0 then 1 else n

/-- A title with the number of the round `i`. -/
def numbered (item : String) (i : Nat) : String := item ++ toString (i + 1)

def powerTitles (i : Nat) : List String :=
  [numbered "power_source." i, numbered "power_plug_src." i, numbered "power_input." i]

/-- The first row, with the names. -/
def exportHeader (maxPowerLinks maxGroups : Nat) (keytags : List String) : List String :=
  assetElementKeytags.filter (· ≠ "id") ++ (List.range maxPowerLinks).flatMap powerTitles ++
    keytags ++ (List.range maxGroups).map (numbered "group.") ++ ["id"]

/-- The message of everything that is thrown. -/
def noConnection : String := "no connection to database"

/-- What a function of the library has filled. -/
def answered {α : Type} : Int × α → Except String α
  | (rv, a) => if rv ≠ 0 then .error noConnection else .ok a

namespace ExtMap

def erase (attrs : ExtMap) (key : String) : ExtMap := attrs.filter (·.1 ≠ key)

def set (attrs : ExtMap) (key : String) (value : String × Bool) : ExtMap :=
  (key, value) :: attrs.erase key

end ExtMap

/-- The text of the subtype, and the attributes that are left: the subtype of a group is its ext
attribute `type`. -/
def subtypeCell (r : ElementView) (extAttrs : ExtMap) : String × ExtMap :=
  let (subtypeName, extAttrs) :=
    if r.typeName = "group" then
      match extAttrs.lookup "type" with
      | some (value, _) => (value, extAttrs.erase "type")
      | none => ("", extAttrs)
    else (r.subtypeName, extAttrs)
  (strip (if subtypeName = "N_A" then "" else subtypeName), extAttrs)

section

variable {σ : Type} (db : ExportDb σ) (s : σ)

/-- The cells of the power link in the round `i`. -/
def powerCells (powerLinks : List PowerLink) (i : Nat) : Except String (List String) :=
  match powerLinks[i]? with
  -- nothing here, exists only for consistency reasons
  | none => .ok ["", "", ""]
  | some link => do
      let source ← answered (db.nameToExtname s link.srcName)
      return [source, link.srcOut, link.destIn]

/-- The conversion of the id of the logical asset. -/
def nameLogicalAsset (extAttrs : ExtMap) : Except String ExtMap :=
  match extAttrs.lookup "logical_asset" with
  | none => .ok extAttrs
  | some (value, readOnly) => do
      let extname ← answered (db.nameToExtname s value)
      return extAttrs.set "logical_asset" (extname, readOnly)

/-- The cell of a keytag; read-only attributes are not printed. -/
def extCell (extAttrs : ExtMap) (keytag : String) : String :=
  match extAttrs.lookup keytag with
  | some (value, false) => value
  | _ => ""

def groupCell (groups : List String) (i : Nat) : Except String String :=
  match groups[i]? with
  | none => .ok ""
  | some group => answered (db.nameToExtname s group)

/-- The line of an element. -/
def exportRow (maxPowerLinks maxGroups : Nat) (keytags : List String) (r : ElementView) :
    Except String (List String) := do
  let (id, extname) := db.idToNameExtName s r.id
  require (¬ (id = "" ∧ extname = "")) noConnection
  let location := (db.idToNameExtName s r.idParent).2
  let extAttrs ← answered (db.selectExtAttributes s r.id)
  let powerLinks ← answered (db.selectPowerLinkSrcById s r.id)
  let groups ← answered (db.selectGroupNames s r.id)
  let (subtypeName, extAttrs) := subtypeCell r extAttrs
  let power ← (List.range maxPowerLinks).mapM (powerCells db s powerLinks)
  let extAttrs ← nameLogicalAsset db s extAttrs
  let groupCells ← (List.range maxGroups).mapM (groupCell db s groups)
  return [extname, r.typeName, subtypeName, location, r.status, "P" ++ toString r.priority,
    r.assetTag] ++ power.flatten ++ keytags.map (extCell extAttrs) ++ groupCells ++ [id]

/-- The elements that are printed. -/
def exportedElements (dcId : Int) : Int × List ElementView :=
  if dcId > 0 then db.selectAssetElementByDc s dcId else db.selectAssetElementAll s

def exportAssetCsv (dcId : Int) : Except String (List (List String)) := do
  let maxPowerLinks := atLeastOne (uint32 (db.maxNumberOfPowerLinks s))
  let maxGroups := atLeastOne (uint32 (db.maxNumberOfAssetGroups s))
  let rows ← answered (db.selectExtRwAttributesKeytags s)
  let keytags := updateKeytags assetElementKeytags listedKeytags rows
  let elements ← answered (exportedElements db s dcId)
  let lines ← elements.mapM (exportRow db s maxPowerLinks maxGroups keytags)
  return exportHeader maxPowerLinks maxGroups keytags :: lines

end

/-! ## The titles -/

theorem ciStrip_numbered {item : String} (h : ciStrip item = item) (i : Nat) :
    ciStrip (numbered item i) = numbered item i := by
  rw [numbered, ciStrip_append, h, ciStrip_toString]

/-- The text in front of the number ends with the last point. -/
theorem dropNumber {item : String} (h : item.toList.getLast? = some '.') (i : Nat) :
    (numbered item i).toList.reverse.dropWhile (· ≠ '.') = item.toList.reverse := by
  have hpoint : ∀ c ∈ (toString (i + 1)).toList.reverse, (decide (c ≠ '.')) = true := by
    intro c hc
    have hdigit := isDigit_of_mem_toString (List.mem_reverse.mp hc)
    rw [decide_eq_true_eq]
    rintro rfl
    exact absurd hdigit (by decide)
  rw [numbered, String.toList_append, List.reverse_append, List.dropWhile_append_of_pos hpoint]
  rw [← List.head?_reverse] at h
  cases hrev : item.toList.reverse with
  | nil => rfl
  | cons c rest =>
    rw [hrev] at h
    obtain rfl : c = '.' := Option.some.inj h
    rfl

theorem numbered_inj {item item' : String} (h : item.toList.getLast? = some '.')
    (h' : item'.toList.getLast? = some '.') {i j : Nat} :
    numbered item i = numbered item' j ↔ item = item' ∧ i = j := by
  constructor
  · intro heq
    have hitem : item = item' := by
      apply String.toList_injective
      apply List.reverse_injective
      rw [← dropNumber h i, ← dropNumber h' j, heq]
    subst hitem
    have htext := (String.append_right_inj item).mp heq
    exact ⟨rfl, Nat.succ.inj (Stoi.toString_inj.mp htext)⟩
  · rintro ⟨rfl, rfl⟩
    rfl

/-- The titles with a number. -/
def numberedTitles (maxPowerLinks maxGroups : Nat) : List String :=
  (List.range maxPowerLinks).flatMap powerTitles ++ (List.range maxGroups).map (numbered "group.")

theorem mem_powerTitles {i : Nat} {title : String} : title ∈ powerTitles i ↔
    title = numbered "power_source." i ∨ title = numbered "power_plug_src." i ∨
      title = numbered "power_input." i := by
  simp [powerTitles]

theorem powerTitles_nodup (i : Nat) : (powerTitles i).Nodup := by
  simp only [powerTitles, List.nodup_cons, List.mem_cons, List.not_mem_nil, or_false, not_or]
  refine ⟨⟨?_, ?_⟩, ?_, not_false, List.nodup_nil⟩ <;> intro h <;>
    exact absurd ((numbered_inj (by decide) (by decide)).mp h).1 (by decide)

theorem powerTitles_disjoint {i j : Nat} (hne : i ≠ j) :
    List.Disjoint (powerTitles i) (powerTitles j) := by
  intro title h h'
  rw [mem_powerTitles] at h h'
  rcases h with rfl | rfl | rfl <;> rcases h' with h' | h' | h' <;>
    exact hne ((numbered_inj (by decide) (by decide)).mp h').2

theorem numberedTitles_nodup (m g : Nat) : (numberedTitles m g).Nodup := by
  unfold numberedTitles
  apply List.nodup_append.mpr
  refine ⟨List.nodup_flatMap.mpr ⟨fun i _ ↦ powerTitles_nodup i, ?_⟩, ?_, ?_⟩
  · exact List.nodup_range.imp fun hne ↦ powerTitles_disjoint hne
  · exact List.nodup_range.map fun i j h ↦ ((numbered_inj (by decide) (by decide)).mp h).2
  · intro title h _ h' heq
    subst heq
    obtain ⟨i, -, hi⟩ := List.mem_flatMap.mp h
    obtain ⟨j, -, rfl⟩ := List.mem_map.mp h'
    rw [mem_powerTitles] at hi
    rcases hi with hi | hi | hi <;>
      exact absurd ((numbered_inj (by decide) (by decide)).mp hi).1 (by decide)

theorem ciStrip_of_mem_numberedTitles {m g : Nat} {title : String}
    (h : title ∈ numberedTitles m g) : ciStrip title = title := by
  rcases List.mem_append.mp h with h | h
  · obtain ⟨i, -, hi⟩ := List.mem_flatMap.mp h
    rcases mem_powerTitles.mp hi with rfl | rfl | rfl <;> exact ciStrip_numbered (by decide) i
  · obtain ⟨i, -, rfl⟩ := List.mem_map.mp h
    exact ciStrip_numbered (by decide) i

theorem point_mem_numbered {item : String} (h : '.' ∈ item.toList) (i : Nat) :
    '.' ∈ (numbered item i).toList := by
  rw [numbered, String.toList_append]
  exact List.mem_append_left _ h

theorem point_of_mem_numberedTitles {m g : Nat} {title : String}
    (h : title ∈ numberedTitles m g) : '.' ∈ title.toList := by
  rcases List.mem_append.mp h with h | h
  · obtain ⟨i, -, hi⟩ := List.mem_flatMap.mp h
    rcases mem_powerTitles.mp hi with rfl | rfl | rfl <;> exact point_mem_numbered (by decide) i
  · obtain ⟨i, -, rfl⟩ := List.mem_map.mp h
    exact point_mem_numbered (by decide) i

/-- No listed keytag is one of the numbered titles. -/
theorem listedKeytags_not_numbered {m g : Nat} {k : String} (hk : k ∈ listedKeytags) :
    k ∉ numberedTitles m g := by
  intro h
  have hstem : k.toList.reverse.dropWhile (· ≠ '.') ∈
      ["power_source.", "power_plug_src.", "power_input.", "group."].map fun item ↦
        item.toList.reverse := by
    rcases List.mem_append.mp h with h | h
    · obtain ⟨i, -, hi⟩ := List.mem_flatMap.mp h
      rcases mem_powerTitles.mp hi with rfl | rfl | rfl <;> rw [dropNumber (by decide) i] <;>
        decide
    · obtain ⟨i, -, rfl⟩ := List.mem_map.mp h
      rw [dropNumber (by decide) i]
      decide
  clear h
  revert k
  decide

/-- The titles of the elements themselves. -/
def elementTitles : List String := assetElementKeytags.filter (· ≠ "id") ++ ["id"]

theorem of_mem_elementTitles : ∀ title ∈ elementTitles,
    ciStrip title = title ∧ '.' ∉ title.toList ∧ title ∈ assetElementKeytags := by
  decide

theorem point_not_mem_elementKeytags : ∀ k ∈ assetElementKeytags, '.' ∉ k.toList := by
  decide

theorem numberedTitles_not_element {m g : Nat} {title : String} (h : title ∈ numberedTitles m g) :
    title ∉ assetElementKeytags :=
  fun hmem ↦ point_not_mem_elementKeytags title hmem (point_of_mem_numberedTitles h)

/-- The titles of the header in another order. -/
theorem exportHeader_perm (m g : Nat) (keytags : List String) :
    (exportHeader m g keytags).Perm (elementTitles ++ numberedTitles m g ++ keytags) := by
  unfold exportHeader elementTitles numberedTitles
  grind

theorem exportHeader_ciStrip {m g : Nat} {keytags : List String}
    (hnorm : ∀ k ∈ keytags, ciStrip k = k) :
    (exportHeader m g keytags).map ciStrip = exportHeader m g keytags := by
  refine (List.map_congr_left fun title h ↦ ?_).trans (List.map_id _)
  rw [(exportHeader_perm m g keytags).mem_iff] at h
  rcases List.mem_append.mp h with h | h
  · rcases List.mem_append.mp h with h | h
    · exact (of_mem_elementTitles title h).1
    · exact ciStrip_of_mem_numberedTitles h
  · exact hnorm title h

/-- The titles of the header differ, unless a keytag is one of the numbered titles. -/
theorem exportHeader_nodup_iff {m g : Nat} {keytags : List String} (hnd : keytags.Nodup)
    (haek : ∀ k ∈ keytags, k ∉ assetElementKeytags) :
    (exportHeader m g keytags).Nodup ↔ ∀ k ∈ keytags, k ∉ numberedTitles m g := by
  rw [(exportHeader_perm m g keytags).nodup_iff, List.nodup_append, List.nodup_append]
  constructor
  · intro h k hk hnumbered
    exact h.2.2 k (List.mem_append_right _ hnumbered) k hk rfl
  · intro h
    refine ⟨⟨by decide, numberedTitles_nodup m g, ?_⟩, hnd, ?_⟩
    · -- a title of an element has no point
      rintro title ht _ ht' rfl
      exact (of_mem_elementTitles title ht).2.1 (point_of_mem_numberedTitles ht')
    · rintro title ht _ hk rfl
      rcases List.mem_append.mp ht with ht | ht
      · exact haek title hk (of_mem_elementTitles title ht).2.2
      · exact h title hk ht

/-! ## The keytags -/

theorem mem_updateKeytags {aek keytags rows : List String} {k : String} :
    k ∈ updateKeytags aek keytags rows ↔ k ∈ keytags ∨ k ∈ rows ∧ k ∉ aek := by
  unfold updateKeytags
  induction rows generalizing keytags with
  | nil => simp
  | cons row rows ih =>
    rw [List.foldl_cons, ih]
    split
    · grind
    · grind

theorem updateKeytags_nodup {aek keytags rows : List String} (h : keytags.Nodup) :
    (updateKeytags aek keytags rows).Nodup := by
  unfold updateKeytags
  induction rows generalizing keytags with
  | nil => exact h
  | cons row rows ih =>
    rw [List.foldl_cons]
    apply ih
    split
    · exact h
    · rename_i hnew
      apply List.nodup_append.mpr
      refine ⟨h, List.nodup_singleton _, ?_⟩
      intro k hk k' hk' heq
      exact hnew (Or.inr (List.mem_singleton.mp hk' ▸ heq ▸ hk))

/-! ## The attributes -/

@[simp]
theorem answered_zero {α : Type} (a : α) : answered (0, a) = .ok a := rfl

namespace ExtMap

variable {attrs : ExtMap} {key k : String}

theorem lookup_erase : (attrs.erase key).lookup k = if k = key then none else attrs.lookup k := by
  unfold erase
  induction attrs with
  | nil => simp
  | cons attr attrs ih =>
    rw [List.filter_cons]
    by_cases hattr : attr.1 = key
    · rw [if_neg (by simpa using hattr), ih, List.lookup_cons]
      by_cases hk : k = key
      · rw [if_pos hk, if_pos hk]
      · have hbeq : (k == attr.1) = false := beq_eq_false_iff_ne.mpr fun h ↦ hk (h.trans hattr)
        rw [if_neg hk, if_neg hk, hbeq]
    · rw [if_pos (by simpa using hattr), List.lookup_cons, List.lookup_cons, ih]
      by_cases hk : k = key
      · have hbeq : (k == attr.1) = false := beq_eq_false_iff_ne.mpr fun h ↦ hattr (h.symm.trans hk)
        rw [if_pos hk, if_pos hk, hbeq]
      · rw [if_neg hk, if_neg hk]

theorem lookup_set {value : String × Bool} :
    (attrs.set key value).lookup k = if k = key then some value else attrs.lookup k := by
  unfold set
  rw [List.lookup_cons]
  by_cases hk : k = key
  · rw [if_pos hk, hk, beq_self_eq_true]
  · have hbeq : (k == key) = false := beq_eq_false_iff_ne.mpr hk
    rw [if_neg hk, hbeq]
    show (attrs.erase key).lookup k = _
    rw [lookup_erase, if_neg hk]

end ExtMap

end FtyRest.Db
