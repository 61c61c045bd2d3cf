import FtyRest.Db.Inout.RowSound
import FtyRest.Db.Inout.RowTrace
import FtyRest.Db.TablesAssets

/-!
# Exporting and importing again

What the export prints of tables that were imported, and when it can be read back.
-/

namespace FtyRest.Db

open Shared Checks

namespace Tables

variable (t : Tables)

/-- The internal name of the element `id`. -/
def iname (id : Nat) : Option String :=
  (t.elements.find? (·.id = id)).map ElementRow.name

/-- The external name of an element that is given by its internal one. -/
def extnameOf (name : String) : Option String :=
  (t.elements.find? (·.name = name)).bind fun e ↦ t.extname e.id

/-- The text of a located element; the parent `0` is none. -/
def location (e : ElementRow) : String :=
  if e.parentId = 0 then "" else (t.extname e.parentId).getD ""

/-- The largest number of power links that lead to one element. -/
def maxPowerLinks : Nat := (t.elements.map fun e ↦ (t.links e.id).length).foldr max 0

/-- The largest number of groups that one element is in. -/
def maxGroups : Nat := (t.elements.map fun e ↦ (t.groups e.id).length).foldr max 0

/-- There is a read-write attribute with the keytag. -/
def RwKeytag (keytag : String) : Prop :=
  ∃ e ∈ t.elements, ∃ row ∈ t.ext e.id, row.keytag = keytag ∧ row.readOnly = false

def powerLink (link : Link) : PowerLink :=
  ⟨(t.iname link.src).getD "", link.srcOut.getD "", link.destIn.getD ""⟩

end Tables

def ElementRow.view (typeName subtypeName : Nat → String) (e : ElementRow) : ElementView where
  id := e.id
  idParent := e.parentId
  typeName := typeName e.typeId
  subtypeName := subtypeName e.subtypeId
  status := e.status
  priority := e.priority
  assetTag := e.assetTag

/-- What the library reads from the tables.  The order of the rows is not known. -/
structure ExportLaws {σ : Type} (db : ExportDb σ) (typeName subtypeName : Nat → String) (s : σ)
    (t : Tables) : Prop where
  maxPowerLinks : db.maxNumberOfPowerLinks s = t.maxPowerLinks ∧ t.maxPowerLinks < 2 ^ 32
  maxGroups : db.maxNumberOfAssetGroups s = t.maxGroups ∧ t.maxGroups < 2 ^ 32
  keytags : ∃ rows, db.selectExtRwAttributesKeytags s = (0, rows) ∧
    ∀ keytag, keytag ∈ rows ↔ t.RwKeytag keytag
  all : ∃ es : List ElementRow, es.Perm t.elements ∧
    db.selectAssetElementAll s = (0, es.map (ElementRow.view typeName subtypeName))
  byDc : ∀ dcId, ∃ es ⊆ t.elements,
    db.selectAssetElementByDc s dcId = (0, es.map (ElementRow.view typeName subtypeName))
  idToName : ∀ e ∈ t.elements, (t.extname e.id).isSome → (db.idToNameExtName s e.id).1 = e.name
  idToExtName : ∀ id, (db.idToNameExtName s id).2 = if id = 0 then "" else (t.extname id).getD ""
  nameToExtname : ∀ e ∈ t.elements, ∀ extname, t.extname e.id = some extname →
    db.nameToExtname s e.name = (0, extname)
  ext : ∀ e ∈ t.elements, ∃ attrs : ExtMap, db.selectExtAttributes s e.id = (0, attrs) ∧
    ∀ keytag, attrs.lookup keytag =
      ((t.ext e.id).find? (·.keytag = keytag)).map fun row ↦ (row.value, row.readOnly)
  links : ∀ e ∈ t.elements, ∃ links : List Link, links.Perm (t.links e.id) ∧
    db.selectPowerLinkSrcById s e.id = (0, links.map t.powerLink)
  groups : ∀ e ∈ t.elements, ∃ groups : List Nat, groups.Perm (t.groups e.id) ∧
    db.selectGroupNames s e.id = (0, groups.map fun group ↦ (t.iname group).getD "")

/-- The title of an attribute: the type of a group is its subtype. -/
def ExtRow.title (row : ExtRow) : String := if row.keytag = "type" then "sub_type" else row.keytag

/-- The text of an attribute: a logical asset is given by its external name. -/
def Tables.text (t : Tables) (row : ExtRow) : String :=
  if row.keytag = "logical_asset" then (t.extnameOf row.value).getD "" else row.value

/-- The row gives everything of the asset under its own title. -/
structure ReadsBack (typeName : Nat → String) (t : Tables) (cm : CsvMap) (row : Nat)
    (e : ElementRow) : Prop where
  name : cm.get row "name" = .ok ((t.extname e.id).getD "")
  type : cm.get row "type" = .ok (typeName e.typeId)
  location : cm.get row "location" = .ok (t.location e)
  status : cm.get row "status" = .ok e.status
  priority : cm.get row "priority" = .ok ("P" ++ toString e.priority)
  assetTag : cm.get row "asset_tag" = .ok e.assetTag
  links : ∃ links : List Link, links.Perm (t.links e.id) ∧ ∀ i link, links[i]? = some link →
    cm.get row (numbered "power_source." i) = .ok ((t.extname link.src).getD "") ∧
      cm.get row (numbered "power_plug_src." i) = .ok (link.srcOut.getD "") ∧
      cm.get row (numbered "power_input." i) = .ok (link.destIn.getD "")
  groups : ∃ groups : List Nat, groups.Perm (t.groups e.id) ∧ ∀ i group, groups[i]? = some group →
    cm.get row (numbered "group." i) = .ok ((t.extname group).getD "")
  ext : ∀ attr ∈ t.ext e.id, attr.readOnly = false → cm.get row attr.title = .ok (t.text attr)

/-- The table is accepted, and has a readable line for each of the elements. -/
structure Importable (typeName : Nat → String) (t : Tables) (es : List ElementRow)
    (header : List String) (lines : List (List String)) : Prop where
  titles : (header.map ciStrip).Nodup
  cells : ∀ cells ∈ lines, cells.length = header.length
  length : lines.length = es.length
  readsBack : ∃ cm, (CsvMap.ofData (header :: lines)).deserialize = .ok cm ∧
    ∀ i e, es[i]? = some e → ReadsBack typeName t cm (i + 1) e

/-- The export prints a table that can be imported: of all elements, or of those that are selected
for a datacenter. -/
def ExportsImportable {σ : Type} (db : ExportDb σ) (typeName subtypeName : Nat → String) (s : σ)
    (t : Tables) (dcId : Int) : Prop :=
  ∃ header lines, exportAssetCsv db s dcId = .ok (header :: lines) ∧
    ∃ es : List ElementRow,
      exportedElements db s dcId = (0, es.map (ElementRow.view typeName subtypeName)) ∧
      es ⊆ t.elements ∧ (dcId ≤ 0 → es.Perm t.elements) ∧ Importable typeName t es header lines

/-! ## Reading the columns of a line -/

section

variable {α β γ : Type}

theorem zip_flatMap {l : List α} {f : α → List β} {g : α → List γ}
    (h : ∀ x, (f x).length = (g x).length) :
    (l.flatMap f).zip (l.flatMap g) = l.flatMap fun x ↦ (f x).zip (g x) := by
  induction l with
  | nil => rfl
  | cons x l ih => rw [List.flatMap_cons, List.flatMap_cons, List.zip_append (h x), ih,
      List.flatMap_cons]

theorem length_flatMap_eq {l : List α} {f : α → List β} {g : α → List γ}
    (h : ∀ x, (f x).length = (g x).length) : (l.flatMap f).length = (l.flatMap g).length := by
  simp only [List.length_flatMap, h]

end

/-- A cell is read under its title. -/
theorem get_of_mem_zip {header cells : List String} {lines : List (List String)} {cm : CsvMap}
    {row : Nat} {title cell : String}
    (hcm : (CsvMap.ofData (header :: lines)).deserialize = .ok cm)
    (hrow : lines[row]? = some cells) (h : (title, cell) ∈ header.zip cells) :
    cm.get (row + 1) title = .ok cell := by
  obtain ⟨j, hj⟩ := List.mem_iff_getElem?.mp h
  obtain ⟨htitle, hcell⟩ := List.getElem?_zip_eq_some.mp hj
  apply CsvMap.get_of_title hcm rfl hrow _ hcell
  rw [List.getElem?_map, htitle]
  rfl

/-- The cells of a line, by the parts of the header. -/
structure LineParts where
  element : List String
  power : Nat → List String
  ext : String → String
  group : Nat → String
  id : String

def LineParts.line (p : LineParts) (m g : Nat) (keytags : List String) : List String :=
  p.element ++ (List.range m).flatMap p.power ++ keytags.map p.ext ++ (List.range g).map p.group ++
    [p.id]

section

variable {p : LineParts} {m g : Nat} {keytags : List String}

theorem LineParts.length_line (helement : p.element.length = 7)
    (hpower : ∀ i, (p.power i).length = 3) :
    (p.line m g keytags).length = (exportHeader m g keytags).length := by
  have h : ((List.range m).flatMap powerTitles).length = ((List.range m).flatMap p.power).length :=
    length_flatMap_eq fun i ↦ (hpower i).symm
  simp only [line, exportHeader, List.length_append, List.length_map, helement, ← h]
  rfl

/-- The columns of a line. -/
theorem LineParts.zip_line (helement : p.element.length = 7)
    (hpower : ∀ i, (p.power i).length = 3) :
    (exportHeader m g keytags).zip (p.line m g keytags) =
      (assetElementKeytags.filter (· ≠ "id")).zip p.element ++
        ((List.range m).flatMap fun i ↦ (powerTitles i).zip (p.power i)) ++
        keytags.map (fun k ↦ (k, p.ext k)) ++
        (List.range g).map (fun i ↦ (numbered "group." i, p.group i)) ++ [("id", p.id)] := by
  -- each title of a block is as long as its cells, so the line falls into the same blocks
  have hpower' (i : Nat) : (powerTitles i).length = (p.power i).length := (hpower i).symm
  have hlength := length_flatMap_eq (l := List.range m) hpower'
  have hext : keytags.zip (keytags.map p.ext) = keytags.map fun k ↦ (k, p.ext k) := by
    conv_lhs =>
      rw [← List.map_id keytags, List.map_map, List.zip_map']
    rfl
  unfold line exportHeader
  rw [List.zip_append, List.zip_append, List.zip_append, List.zip_append, zip_flatMap hpower',
    hext, List.zip_map']
  · rfl
  · rw [helement]
    rfl
  · rw [List.length_append, List.length_append, helement, hlength]
    rfl
  · rw [List.length_append, List.length_append, List.length_append, List.length_append, helement,
      hlength, List.length_map]
    rfl
  · simp only [List.length_append, helement, hlength, List.length_map]
    rfl

end

theorem exists_mem_zip {p : LineParts} {m g : Nat} {keytags : List String}
    (helement : p.element.length = 7) (hpower : ∀ i, (p.power i).length = 3)
    {column : String × String}
    (h : column ∈ (assetElementKeytags.filter (· ≠ "id")).zip p.element ∨
      (∃ i < m, column ∈ (powerTitles i).zip (p.power i)) ∨
      (∃ k ∈ keytags, column = (k, p.ext k)) ∨
      ∃ i < g, column = (numbered "group." i, p.group i)) :
    column ∈ (exportHeader m g keytags).zip (p.line m g keytags) := by
  rw [LineParts.zip_line helement hpower]
  simp only [List.mem_append, List.mem_flatMap, List.mem_range, List.mem_map]
  rcases h with h | h | ⟨k, hk, rfl⟩ | ⟨i, hi, rfl⟩
  · exact Or.inl (Or.inl (Or.inl (Or.inl h)))
  · exact Or.inl (Or.inl (Or.inl (Or.inr h)))
  · exact Or.inl (Or.inl (Or.inr ⟨k, hk, rfl⟩))
  · exact Or.inl (Or.inr ⟨i, hi, rfl⟩)

/-! ## The line of an element -/

namespace Tables

variable (t : Tables)

/-- The attribute of an element with a keytag. -/
def attr? (id : Nat) (keytag : String) : Option ExtRow := (t.ext id).find? (·.keytag = keytag)

def subtypeText (typeName subtypeName : Nat → String) (e : ElementRow) : String :=
  if typeName e.typeId = "group" then ((t.attr? e.id "type").map ExtRow.value).getD ""
  else strip (if subtypeName e.subtypeId = "N_A" then "" else subtypeName e.subtypeId)

def powerText (links : List Link) (i : Nat) : List String :=
  match links[i]? with
  | none => ["", "", ""]
  | some link => [(t.extname link.src).getD "", link.srcOut.getD "", link.destIn.getD ""]

def extText (id : Nat) (keytag : String) : String :=
  match t.attr? id keytag with
  | none => ""
  | some row => if row.readOnly then "" else t.text row

def groupText (groups : List Nat) (i : Nat) : String :=
  match groups[i]? with
  | none => ""
  | some group => (t.extname group).getD ""

def lineParts (typeName subtypeName : Nat → String) (e : ElementRow) (links : List Link)
    (groups : List Nat) : LineParts where
  element := [(t.extname e.id).getD "", typeName e.typeId, t.subtypeText typeName subtypeName e,
    t.location e, e.status, "P" ++ toString e.priority, e.assetTag]
  power := t.powerText links
  ext := t.extText e.id
  group := t.groupText groups
  id := e.name

end Tables

section

variable {typeName subtypeName : Nat → String} {ids : List Identity} {t : Tables}

theorem Tables.extname_isSome {id : Nat} (h : t.Named id) :
    ∃ extname, t.extname id = some extname := by
  obtain ⟨row, hrow, hkey⟩ := List.mem_map.mp h
  cases hfind : (t.ext id).find? (·.keytag = "name") with
  | none =>
    have hnone := List.find?_eq_none.mp hfind row hrow
    exact absurd (decide_eq_true hkey) hnone
  | some row' => exact ⟨row'.value, by rw [extname, hfind]; rfl⟩

theorem find_of_nodup {α κ : Type} [DecidableEq κ] (key : α → κ) {l : List α}
    (hnd : (l.map key).Nodup) {x : α} (hx : x ∈ l) : l.find? (key · = key x) = some x := by
  induction l with
  | nil => exact absurd hx List.not_mem_nil
  | cons y l ih =>
    obtain ⟨hnew, hrest⟩ := List.nodup_cons.mp hnd
    rcases List.mem_cons.mp hx with rfl | hx
    · simp
    · have hne : key y ≠ key x := fun h ↦ hnew (h ▸ List.mem_map_of_mem hx)
      rw [List.find?_cons_of_neg (by simpa using hne)]
      exact ih hrest hx

namespace Keeps

variable (h : Keeps typeName ids t)
include h

theorem iname_eq {e : ElementRow} (he : e ∈ t.elements) : t.iname e.id = some e.name := by
  have hnd := h.sound.ids
  rw [Tables.identities, List.map_map] at hnd
  rw [Tables.iname, find_of_nodup ElementRow.id hnd he]
  rfl

theorem extnameOf_eq {e : ElementRow} (he : e ∈ t.elements) :
    t.extnameOf e.name = t.extname e.id := by
  have hnd := h.sound.names
  rw [Tables.identities, List.map_map] at hnd
  rw [Tables.extnameOf, find_of_nodup ElementRow.name hnd he]
  rfl

theorem extname_eq {e : ElementRow} (he : e ∈ t.elements) :
    ∃ extname, t.extname e.id = some extname := by
  apply Tables.extname_isSome
  apply h.named e.identity
  rw [← h.identities]
  exact List.mem_map_of_mem he

end Keeps

theorem attr_eq {id : Nat} {row : ExtRow} (hnd : ((t.ext id).map ExtRow.keytag).Nodup)
    (hrow : row ∈ t.ext id) : t.attr? id row.keytag = some row :=
  find_of_nodup ExtRow.keytag hnd hrow

variable {σ : Type} {db : ExportDb σ} {s : σ}

/-- The library turns the internal name of an element into its external one. -/
theorem nameToExtname_eq (hdb : ExportLaws db typeName subtypeName s t)
    (h : Keeps typeName ids t) {e : ElementRow} (he : e ∈ t.elements) :
    db.nameToExtname s e.name = (0, (t.extname e.id).getD "") := by
  obtain ⟨extname, hext⟩ := h.extname_eq he
  rw [hdb.nameToExtname e he extname hext, hext]
  rfl

theorem powerCells_eq (hdb : ExportLaws db typeName subtypeName s t) (h : Keeps typeName ids t)
    {links : List Link} (hlinks : ∀ link ∈ links, ∃ e ∈ t.elements, e.id = link.src) (i : Nat) :
    powerCells db s (links.map t.powerLink) i = .ok (t.powerText links i) := by
  unfold powerCells Tables.powerText
  rw [List.getElem?_map]
  cases hlink : links[i]? with
  | none => rfl
  | some link =>
    obtain ⟨e, he, hid⟩ := hlinks link (List.mem_of_getElem? hlink)
    have hsource : db.nameToExtname s (t.powerLink link).srcName =
        (0, (t.extname link.src).getD "") := by
      show db.nameToExtname s ((t.iname link.src).getD "") = _
      rw [← hid, h.iname_eq he]
      exact nameToExtname_eq hdb h he
    simp only [Option.map_some, hsource, answered_zero]
    rfl

theorem groupCell_eq (hdb : ExportLaws db typeName subtypeName s t) (h : Keeps typeName ids t)
    {groups : List Nat} (hgroups : ∀ group ∈ groups, ∃ e ∈ t.elements, e.id = group) (i : Nat) :
    groupCell db s (groups.map fun group ↦ (t.iname group).getD "") i =
      .ok (t.groupText groups i) := by
  unfold groupCell Tables.groupText
  rw [List.getElem?_map]
  cases hgroup : groups[i]? with
  | none => rfl
  | some group =>
    obtain ⟨e, he, rfl⟩ := hgroups group (List.mem_of_getElem? hgroup)
    simp only [Option.map_some, h.iname_eq he, Option.getD_some, nameToExtname_eq hdb h he,
      answered_zero]

/-- The attributes of an element, as the library gives them. -/
def ExtMap.Of (attrs : ExtMap) (t : Tables) (id : Nat) : Prop :=
  ∀ keytag, attrs.lookup keytag = (t.attr? id keytag).map fun row ↦ (row.value, row.readOnly)

theorem subtypeCell_eq (subtypeName : Nat → String) {attrs : ExtMap} {e : ElementRow}
    (hattrs : attrs.Of t e.id) (h : Keeps typeName ids t) : ∃ attrs',
    subtypeCell (e.view typeName subtypeName) attrs =
      (t.subtypeText typeName subtypeName e, attrs') ∧
      ∀ k ≠ "type", attrs'.lookup k = attrs.lookup k := by
  unfold subtypeCell Tables.subtypeText
  have hname : (e.view typeName subtypeName).typeName = typeName e.typeId := rfl
  rw [hname]
  by_cases hgroup : typeName e.typeId = "group"
  · simp only [if_pos hgroup, hattrs "type"]
    cases hattr : t.attr? e.id "type" with
    | none => exact ⟨attrs, rfl, fun _ _ ↦ rfl⟩
    | some row =>
      refine ⟨attrs.erase "type", ?_, fun k hk ↦ by rw [ExtMap.lookup_erase, if_neg hk]⟩
      have hkey : row.keytag = "type" := by simpa using List.find?_some hattr
      have hvalue := ((h.sound.attrs e.id row (List.mem_of_find?_eq_some hattr)).type hkey).1
      -- the subtype of a group is normalised: it is not `N_A`, and has no blanks
      have hna : row.value ≠ "N_A" := by
        intro hna
        rw [hna] at hvalue
        exact absurd hvalue (by decide)
      simp only [Option.map_some, Option.getD_some, if_neg hna, strip_of_ciStrip hvalue]
  · simp only [if_neg hgroup]
    exact ⟨attrs, rfl, fun _ _ ↦ rfl⟩

/-- The texts of the attributes are left, with the name of the logical asset. -/
theorem nameLogicalAsset_eq {attrs : ExtMap} {id : Nat}
    (hattrs : ∀ k ≠ "type", attrs.lookup k =
      (t.attr? id k).map fun row ↦ (row.value, row.readOnly))
    (hdb : ExportLaws db typeName subtypeName s t) (h : Keeps typeName ids t) :
    ∃ attrs', nameLogicalAsset db s attrs = .ok attrs' ∧
      ∀ k ≠ "type", extCell attrs' k = t.extText id k := by
  -- other attributes are printed as they are stored
  have hplain {k : String} (hk : k ≠ "type") (hasset : k ≠ "logical_asset") :
      extCell attrs k = t.extText id k := by
    unfold extCell Tables.extText
    rw [hattrs k hk]
    cases hattr : t.attr? id k with
    | none => rfl
    | some row =>
      have hkey : row.keytag = k := by simpa using List.find?_some hattr
      rw [← hkey] at hasset
      simp only [Option.map_some, Tables.text, if_neg hasset]
      cases row.readOnly <;> rfl
  unfold nameLogicalAsset
  rw [hattrs "logical_asset" (by decide)]
  cases hattr : t.attr? id "logical_asset" with
  | none =>
    refine ⟨attrs, rfl, fun k hk ↦ ?_⟩
    by_cases hasset : k = "logical_asset"
    · subst hasset
      unfold extCell Tables.extText
      rw [hattrs _ hk, hattr]
      rfl
    · exact hplain hk hasset
  | some row =>
    have hkey : row.keytag = "logical_asset" := by simpa using List.find?_some hattr
    -- a stored logical asset is the internal name of an element, which has an external one
    obtain ⟨e', he', hname⟩ :=
      (h.sound.attrs id row (List.mem_of_find?_eq_some hattr)).logicalAsset hkey
    obtain ⟨e, he, rfl⟩ := List.mem_map.mp he'
    have hname : e.name = row.value := hname
    simp only [Option.map_some]
    rw [← hname, nameToExtname_eq hdb h he, answered_zero]
    refine ⟨_, rfl, fun k hk ↦ ?_⟩
    by_cases hasset : k = "logical_asset"
    · subst hasset
      unfold extCell Tables.extText
      rw [ExtMap.lookup_set, if_pos rfl, hattr]
      simp only [Tables.text, if_pos hkey, ← hname, h.extnameOf_eq he]
      cases row.readOnly <;> rfl
    · rw [← hplain hk hasset]
      unfold extCell
      rw [ExtMap.lookup_set, if_neg hasset]

theorem exists_element {id : Nat} (h : ∃ e ∈ t.identities, e.id = id) :
    ∃ e ∈ t.elements, e.id = id := by
  obtain ⟨e, he, hid⟩ := h
  obtain ⟨row, hrow, rfl⟩ := List.mem_map.mp he
  exact ⟨row, hrow, hid⟩

theorem exportRow_eq (hdb : ExportLaws db typeName subtypeName s t) (h : Keeps typeName ids t)
    {e : ElementRow} (he : e ∈ t.elements) (m g : Nat) {keytags : List String}
    (hkeytags : ∀ k ∈ keytags, k ≠ "type") :
    ∃ links groups, links.Perm (t.links e.id) ∧ groups.Perm (t.groups e.id) ∧
      exportRow db s m g keytags (e.view typeName subtypeName) =
        .ok ((t.lineParts typeName subtypeName e links groups).line m g keytags) := by
  -- the three selects answer in the order of the database
  obtain ⟨links, hlinks, hselectLinks⟩ := hdb.links e he
  obtain ⟨groups, hgroups, hselectGroups⟩ := hdb.groups e he
  obtain ⟨attrs, hselectExt, hattrs⟩ := hdb.ext e he
  obtain ⟨attrs₁, hsubtype, hattrs₁⟩ :=
    subtypeCell_eq subtypeName (show attrs.Of t e.id from hattrs) h
  have hattrs₁ : ∀ k ≠ "type", attrs₁.lookup k =
      (t.attr? e.id k).map fun row ↦ (row.value, row.readOnly) :=
    fun k hk ↦ (hattrs₁ k hk).trans (hattrs k)
  obtain ⟨attrs₂, hasset, hattrs₂⟩ := nameLogicalAsset_eq hattrs₁ hdb h
  have hgiven : e.id ≠ 0 ∧ e.name ≠ "" := h.sound.given e.identity (List.mem_map_of_mem he)
  obtain ⟨extname, hext⟩ := h.extname_eq he
  have hname : db.idToNameExtName s e.id = (e.name, (t.extname e.id).getD "") := by
    apply Prod.ext
    · exact hdb.idToName e he (by rw [hext]; rfl)
    · rw [hdb.idToExtName, if_neg hgiven.1]
  have hlocation : (db.idToNameExtName s e.parentId).2 = t.location e := hdb.idToExtName e.parentId
  -- the source of a link is an element, so its name is found
  have hpower : (List.range m).mapM (powerCells db s (links.map t.powerLink)) =
      .ok ((List.range m).map (t.powerText links)) := by
    apply mapM_eq_ok
    intro i _
    apply powerCells_eq hdb h
    intro link hlink
    exact exists_element (h.sound.links e.id link (hlinks.mem_iff.mp hlink))
  -- the same for a group
  have hgroup : (List.range g).mapM
      (groupCell db s (groups.map fun group ↦ (t.iname group).getD "")) =
      .ok ((List.range g).map (t.groupText groups)) := by
    apply mapM_eq_ok
    intro i _
    apply groupCell_eq hdb h
    intro group hgroup
    exact exists_element (h.sound.groups e.id group (hgroups.mem_iff.mp hgroup))
  have hcells : keytags.map (extCell attrs₂) = keytags.map (t.extText e.id) :=
    List.map_congr_left fun k hk ↦ hattrs₂ k (hkeytags k hk)
  refine ⟨links, groups, hlinks, hgroups, ?_⟩
  have hid : (e.view typeName subtypeName).id = e.id := rfl
  have hparent : (e.view typeName subtypeName).idParent = e.parentId := rfl
  simp only [exportRow, hid, hparent, hname, hlocation, hselectExt, hselectLinks, hselectGroups,
    answered_zero, hsubtype, hpower, hasset, hgroup, hcells, ok_bind]
  rw [require, if_pos fun h' ↦ hgiven.2 h'.1]
  rfl

/-! ## The table -/

theorem uint32_of_lt {n : Nat} (h : n < 2 ^ 32) : uint32 (n : Int) = n := by
  unfold uint32
  omega

theorem le_foldr_max {l : List Nat} {n : Nat} (h : n ∈ l) : n ≤ l.foldr max 0 := by
  induction l with
  | nil => exact absurd h List.not_mem_nil
  | cons x l ih =>
    rw [List.foldr_cons]
    rcases List.mem_cons.mp h with rfl | h
    · exact Nat.le_max_left _ _
    · exact Nat.le_trans (ih h) (Nat.le_max_right _ _)

theorem le_atLeastOne (n : Nat) : n ≤ atLeastOne n := by
  unfold atLeastOne
  split <;> omega

theorem links_le_maxPowerLinks {e : ElementRow} (he : e ∈ t.elements) :
    (t.links e.id).length ≤ atLeastOne t.maxPowerLinks :=
  Nat.le_trans (le_foldr_max (List.mem_map.mpr ⟨e, he, rfl⟩)) (le_atLeastOne _)

theorem groups_le_maxGroups {e : ElementRow} (he : e ∈ t.elements) :
    (t.groups e.id).length ≤ atLeastOne t.maxGroups :=
  Nat.le_trans (le_foldr_max (List.mem_map.mpr ⟨e, he, rfl⟩)) (le_atLeastOne _)

/-- The table that is printed, line by line. -/
theorem exportAssetCsv_eq (hdb : ExportLaws db typeName subtypeName s t)
    (h : Keeps typeName ids t) (dcId : Int) :
    ∃ (keytags : List String) (es : List ElementRow) (parts : ElementRow → LineParts),
      keytags.Nodup ∧ (∀ k, k ∈ keytags ↔ k ∈ listedKeytags ∨ t.RwKeytag k ∧
        k ∉ assetElementKeytags) ∧
      exportedElements db s dcId = (0, es.map (ElementRow.view typeName subtypeName)) ∧
      es ⊆ t.elements ∧ (dcId ≤ 0 → es.Perm t.elements) ∧
      (∀ e ∈ es, ∃ links groups, links.Perm (t.links e.id) ∧ groups.Perm (t.groups e.id) ∧
        parts e = t.lineParts typeName subtypeName e links groups) ∧
      exportAssetCsv db s dcId = .ok
        (exportHeader (atLeastOne t.maxPowerLinks) (atLeastOne t.maxGroups) keytags ::
          es.map fun e ↦ (parts e).line (atLeastOne t.maxPowerLinks) (atLeastOne t.maxGroups)
            keytags) := by
  obtain ⟨rows, hrows, hmem⟩ := hdb.keytags
  have hselect : ∃ es : List ElementRow,
      exportedElements db s dcId = (0, es.map (ElementRow.view typeName subtypeName)) ∧
        es ⊆ t.elements ∧ (dcId ≤ 0 → es.Perm t.elements) := by
    unfold exportedElements
    by_cases hdc : dcId > 0
    · obtain ⟨es, hes, hselect⟩ := hdb.byDc dcId
      rw [if_pos hdc]
      exact ⟨es, hselect, hes, fun h ↦ absurd hdc (by omega)⟩
    · obtain ⟨es, hperm, hselect⟩ := hdb.all
      rw [if_neg hdc]
      exact ⟨es, hselect, hperm.subset, fun _ ↦ hperm⟩
  obtain ⟨es, hes, hsub, hperm⟩ := hselect
  let keytags := updateKeytags assetElementKeytags listedKeytags rows
  have hkeytags (k : String) : k ∈ keytags ↔
      k ∈ listedKeytags ∨ t.RwKeytag k ∧ k ∉ assetElementKeytags := by
    rw [mem_updateKeytags, hmem]
  have htype : ∀ k ∈ keytags, k ≠ "type" := by
    rintro k hk rfl
    rcases (hkeytags "type").mp hk with hk | ⟨-, hk⟩
    · exact absurd hk (by decide)
    · exact hk (by decide)
  -- the parts of a line are chosen for every element, with empty ones where nothing is printed
  have hline (e : ElementRow) : ∃ p : LineParts, e ∈ es → (∃ links groups,
      links.Perm (t.links e.id) ∧ groups.Perm (t.groups e.id) ∧
        p = t.lineParts typeName subtypeName e links groups) ∧
      exportRow db s (atLeastOne t.maxPowerLinks) (atLeastOne t.maxGroups) keytags
        (e.view typeName subtypeName) =
        .ok (p.line (atLeastOne t.maxPowerLinks) (atLeastOne t.maxGroups) keytags) := by
    by_cases he : e ∈ es
    · obtain ⟨links, groups, hlinks, hgroups, hrow⟩ := exportRow_eq hdb h (hsub he)
        (atLeastOne t.maxPowerLinks) (atLeastOne t.maxGroups) htype
      exact ⟨_, fun _ ↦ ⟨⟨links, groups, hlinks, hgroups, rfl⟩, hrow⟩⟩
    · exact ⟨⟨[], fun _ ↦ [], id, fun _ ↦ "", ""⟩, fun he' ↦ absurd he' he⟩
  choose parts hparts using hline
  refine ⟨keytags, es, parts, updateKeytags_nodup (by decide), hkeytags, hes, hsub, hperm,
    fun e he ↦ (hparts e he).1, ?_⟩
  have hlines : (es.map (ElementRow.view typeName subtypeName)).mapM
      (exportRow db s (atLeastOne t.maxPowerLinks) (atLeastOne t.maxGroups) keytags) =
      .ok (es.map fun e ↦
        (parts e).line (atLeastOne t.maxPowerLinks) (atLeastOne t.maxGroups) keytags) := by
    rw [List.mapM_map]
    apply mapM_eq_ok
    intro e he
    exact (hparts e he).2
  simp only [exportAssetCsv, hdb.maxPowerLinks.1, hdb.maxGroups.1,
    uint32_of_lt hdb.maxPowerLinks.2, uint32_of_lt hdb.maxGroups.2, hrows, hes, answered_zero,
    ok_bind]
  show List.mapM _ _ >>= _ = _
  rw [hlines]
  rfl

/-! ## What is read back -/

theorem lineParts_length (t : Tables) (typeName subtypeName : Nat → String) (e : ElementRow)
    (links : List Link) (groups : List Nat) :
    (t.lineParts typeName subtypeName e links groups).element.length = 7 ∧
      ∀ i, ((t.lineParts typeName subtypeName e links groups).power i).length = 3 := by
  refine ⟨rfl, fun i ↦ ?_⟩
  show (t.powerText links i).length = 3
  unfold Tables.powerText
  split <;> rfl

/-- Two elements with one id are the same, as far as their identity goes. -/
theorem Keeps.identity_eq (h : Keeps typeName ids t) {a b : Identity} (ha : a ∈ t.identities)
    (hb : b ∈ t.identities) (hid : a.id = b.id) : a = b :=
  List.inj_on_of_nodup_map h.sound.ids ha hb hid

/-- The type of a group is printed as its subtype. -/
theorem subtypeText_eq (subtypeName : Nat → String) (h : Keeps typeName ids t) {e : ElementRow}
    (he : e ∈ t.elements) {attr : ExtRow} (hattr : attr ∈ t.ext e.id) (htype : attr.keytag = "type") :
    t.subtypeText typeName subtypeName e = attr.value := by
  obtain ⟨-, e', he', hid, hgroup⟩ := (h.sound.attrs e.id attr hattr).type htype
  obtain rfl := h.identity_eq he' (List.mem_map_of_mem he) hid
  have hgroup : typeName e.typeId = "group" := hgroup
  have hfind := attr_eq (h.sound.keytags e.id) hattr
  rw [htype] at hfind
  rw [Tables.subtypeText, if_pos hgroup, hfind]
  rfl

/-- The cells of an element's own titles. -/
theorem zip_element (e : ElementRow) (links : List Link) (groups : List Nat) :
    (assetElementKeytags.filter (· ≠ "id")).zip
      (t.lineParts typeName subtypeName e links groups).element =
      [("name", (t.extname e.id).getD ""), ("type", typeName e.typeId),
        ("sub_type", t.subtypeText typeName subtypeName e), ("location", t.location e),
        ("status", e.status), ("priority", "P" ++ toString e.priority),
        ("asset_tag", e.assetTag)] := rfl

/-- The cells of a power link. -/
theorem zip_powerText {links : List Link} {i : Nat} {link : Link} (hlink : links[i]? = some link) :
    (powerTitles i).zip (t.powerText links i) =
      [(numbered "power_source." i, (t.extname link.src).getD ""),
        (numbered "power_plug_src." i, link.srcOut.getD ""),
        (numbered "power_input." i, link.destIn.getD "")] := by
  unfold Tables.powerText
  rw [hlink]
  rfl

/-- An attribute is shown among the element's own cells, or under its keytag. -/
theorem mem_zip_element_or_extText (h : Keeps typeName ids t) {e : ElementRow}
    (he : e ∈ t.elements) {attr : ExtRow} (hattr : attr ∈ t.ext e.id) (hro : attr.readOnly = false)
    (links : List Link) (groups : List Nat) :
    (attr.title, t.text attr) ∈ (assetElementKeytags.filter (· ≠ "id")).zip
        (t.lineParts typeName subtypeName e links groups).element ∨
      attr.keytag ∉ assetElementKeytags ∧
        (attr.title, t.text attr) = (attr.keytag, t.extText e.id attr.keytag) := by
  rw [zip_element]
  have hok := h.sound.attrs e.id attr hattr
  have hfind := attr_eq (h.sound.keytags e.id) hattr
  by_cases htype : attr.keytag = "type"
  · -- under the title of the subtype
    have hasset : attr.keytag ≠ "logical_asset" := by
      rw [htype]
      decide
    rw [ExtRow.title, if_pos htype, Tables.text, if_neg hasset,
      ← subtypeText_eq subtypeName h he hattr htype]
    exact Or.inl (by simp)
  · rw [ExtRow.title, if_neg htype]
    by_cases hname : attr.keytag = "name"
    · have hasset : attr.keytag ≠ "logical_asset" := by
        rw [hname]
        decide
      rw [hname] at hfind
      have hextname : (t.extname e.id).getD "" = attr.value := by
        show ((t.attr? e.id "name").map ExtRow.value).getD "" = _
        rw [hfind]
        rfl
      rw [Tables.text, if_neg hasset, hname, ← hextname]
      exact Or.inl (by simp)
    · have hcell : t.extText e.id attr.keytag = t.text attr := by
        rw [Tables.extText, hfind]
        simp [hro]
      rw [hcell]
      exact Or.inr ⟨fun hmem ↦ (hok.element hro hmem).elim hname htype, rfl⟩

theorem lineParts_readsBack (h : Keeps typeName ids t) {e : ElementRow} (he : e ∈ t.elements)
    {links : List Link} {groups : List Nat} (hlinks : links.Perm (t.links e.id))
    (hgroups : groups.Perm (t.groups e.id)) {m g : Nat} (hm : (t.links e.id).length ≤ m)
    (hg : (t.groups e.id).length ≤ g) {keytags : List String}
    (hkeytags : ∀ k, t.RwKeytag k → k ∉ assetElementKeytags → k ∈ keytags)
    {lines : List (List String)} {cm : CsvMap} {row : Nat}
    (hcm : (CsvMap.ofData (exportHeader m g keytags :: lines)).deserialize = .ok cm)
    (hrow : lines[row]? =
      some ((t.lineParts typeName subtypeName e links groups).line m g keytags)) :
    ReadsBack typeName t cm (row + 1) e := by
  obtain ⟨helement, hpower⟩ := lineParts_length t typeName subtypeName e links groups
  have hget {title cell : String} := fun h ↦
    @get_of_mem_zip _ _ _ _ _ title cell hcm hrow (exists_mem_zip helement hpower h)
  rw [zip_element] at hget
  constructor
  · exact hget (Or.inl (by simp))
  · exact hget (Or.inl (by simp))
  · exact hget (Or.inl (by simp))
  · exact hget (Or.inl (by simp))
  · exact hget (Or.inl (by simp))
  · exact hget (Or.inl (by simp))
  · refine ⟨links, hlinks, fun i link hlink ↦ ?_⟩
    -- the export has as many power columns as the asset with most links
    have hi : i < m := by
      obtain ⟨hlt, -⟩ := List.getElem?_eq_some_iff.mp hlink
      rw [hlinks.length_eq] at hlt
      omega
    have hcolumn {title cell : String} (hmem : (title, cell) ∈
        [(numbered "power_source." i, (t.extname link.src).getD ""),
          (numbered "power_plug_src." i, link.srcOut.getD ""),
          (numbered "power_input." i, link.destIn.getD "")]) :
        cm.get (row + 1) title = .ok cell := by
      rw [← zip_powerText hlink] at hmem
      exact hget (Or.inr (Or.inl ⟨i, hi, hmem⟩))
    refine ⟨hcolumn List.mem_cons_self, hcolumn ?_, hcolumn ?_⟩
    · exact List.mem_cons_of_mem _ List.mem_cons_self
    · exact List.mem_cons_of_mem _ (List.mem_cons_of_mem _ List.mem_cons_self)
  · refine ⟨groups, hgroups, fun i group hgroup ↦ ?_⟩
    have hi : i < g := by
      obtain ⟨hlt, -⟩ := List.getElem?_eq_some_iff.mp hgroup
      rw [hgroups.length_eq] at hlt
      omega
    -- a group the asset is in is printed by its external name
    have hcell : (t.lineParts typeName subtypeName e links groups).group i =
        (t.extname group).getD "" := by
      show t.groupText groups i = _
      unfold Tables.groupText
      rw [hgroup]
    rw [← hcell]
    exact hget (Or.inr (Or.inr (Or.inr ⟨i, hi, rfl⟩)))
  · intro attr hattr hro
    -- an attribute stands in a column of its own, or in one of the element
    rcases mem_zip_element_or_extText h he hattr hro links groups with hmem | ⟨hkeytag, heq⟩
    · rw [zip_element] at hmem
      exact hget (Or.inl hmem)
    · have hlisted := hkeytags _ ⟨e, he, attr, hattr, rfl, hro⟩ hkeytag
      exact hget (Or.inr (Or.inr (Or.inl ⟨attr.keytag, hlisted, heq⟩)))

/-- The listed keytags are titles, and none of the elements' own. -/
theorem of_mem_listedKeytags :
    ∀ k ∈ listedKeytags, ciStrip k = k ∧ k ∉ assetElementKeytags := by
  have hother : ∀ k ∈ listedKeytags, k ∉ assetElementKeytags := by decide
  have hstrip : ∀ k ∈ listedKeytags, ciStrip k = k := by
    simp only [listedKeytags, List.forall_mem_cons, List.not_mem_nil, false_implies,
      implies_true, and_true]
    refine ⟨?_, ?_, ?_, ?_, ?_, ?_, ?_, ?_, ?_, ?_, ?_, ?_, ?_, ?_, ?_, ?_, ?_, ?_, ?_, ?_, ?_, ?_,
      ?_⟩ <;> (rw [ciStrip, String.toList_ofList]; rfl)
  exact fun k hk ↦ ⟨hstrip k hk, hother k hk⟩

/-- There is a read-write attribute whose keytag is one of the titles with a number that are
printed. -/
def Tables.NumberedAttribute (t : Tables) : Prop :=
  ∃ keytag ∈ numberedTitles (atLeastOne t.maxPowerLinks) (atLeastOne t.maxGroups),
    t.RwKeytag keytag

/-- What was imported can be exported, and imported again, exactly unless the keytag of an
attribute is one of the numbered titles. -/
theorem exportsImportable_iff {τ : Type} {assets : AssetsDb τ} {act : AssetActivator τ}
    {tables : τ → Tables} {tools : Tools} {w : World τ} (hassets : TablesLaws assets act tables)
    (hw : Imported assets tools act tables typeName w)
    (hdb : ExportLaws db typeName subtypeName s (tables w.store)) (dcId : Int) :
    ExportsImportable db typeName subtypeName s (tables w.store) dcId ↔
      ¬ (tables w.store).NumberedAttribute := by
  obtain ⟨ids, h⟩ := hw.keeps hassets
  obtain ⟨keytags, es, parts, hnd, hkeytags, hes, hsub, hperm, hparts, hexport⟩ :=
    exportAssetCsv_eq hdb h dcId
  generalize tables w.store = t at *
  have hnumbered : (∀ k ∈ keytags, k ∉ numberedTitles (atLeastOne t.maxPowerLinks)
      (atLeastOne t.maxGroups)) ↔ ¬ t.NumberedAttribute := by
    constructor
    · rintro hall ⟨k, hk, hrw⟩
      exact hall k ((hkeytags k).mpr (Or.inr ⟨hrw, numberedTitles_not_element hk⟩)) hk
    · intro hnone k hk hmem
      rcases (hkeytags k).mp hk with hk | ⟨hrw, -⟩
      · exact listedKeytags_not_numbered hk hmem
      · exact hnone ⟨k, hmem, hrw⟩
  have hnorm : ∀ k ∈ keytags, ciStrip k = k := by
    intro k hk
    rcases (hkeytags k).mp hk with hk | ⟨⟨e, -, row, hrow, rfl, hro⟩, -⟩
    · exact (of_mem_listedKeytags k hk).1
    · exact (h.sound.attrs e.id row hrow).title hro
  have haek : ∀ k ∈ keytags, k ∉ assetElementKeytags := by
    intro k hk
    rcases (hkeytags k).mp hk with hk | ⟨-, hk⟩
    · exact (of_mem_listedKeytags k hk).2
    · exact hk
  have hheader : (exportHeader (atLeastOne t.maxPowerLinks) (atLeastOne t.maxGroups)
      keytags).map ciStrip = _ := exportHeader_ciStrip hnorm
  -- both sides say that no title of the header is there twice
  rw [← hnumbered, ← exportHeader_nodup_iff hnd haek, ← hheader]
  constructor
  · rintro ⟨header, lines, hok, _, -, -, -, himport⟩
    rw [hexport] at hok
    obtain ⟨rfl, -⟩ := List.cons.inj (Except.ok.inj hok)
    exact himport.titles
  · intro htitles
    refine ⟨_, _, hexport, es, hes, hsub, hperm, htitles, ?_, List.length_map _, ?_⟩
    · intro cells hcells
      obtain ⟨e, he, rfl⟩ := List.mem_map.mp hcells
      obtain ⟨links, groups, -, -, hpart⟩ := hparts e he
      obtain ⟨helement, hpower⟩ := lineParts_length t typeName subtypeName e links groups
      rw [hpart]
      exact LineParts.length_line helement hpower
    · have hcm := CsvMap.deserialize_ok_iff.mpr ⟨_, es.map fun e ↦
        (parts e).line (atLeastOne t.maxPowerLinks) (atLeastOne t.maxGroups) keytags, rfl, htitles,
        rfl⟩
      refine ⟨_, hcm, fun i e hi ↦ ?_⟩
      have he := List.mem_of_getElem? hi
      obtain ⟨links, groups, hlinks, hgroups, hpart⟩ := hparts e he
      apply lineParts_readsBack h (hsub he) hlinks hgroups _ _ _ hcm
      · rw [List.getElem?_map, hi, ← hpart]
        rfl
      · exact links_le_maxPowerLinks (hsub he)
      · exact groups_le_maxGroups (hsub he)
      · exact fun k hrw hk ↦ (hkeytags k).mpr (Or.inr ⟨hrw, hk⟩)

end

/-! ## Two databases that are their tables -/

/-- The queries of the export, which are all answered. -/
def tablesExport (typeName subtypeName : Nat → String) : ExportDb Tables where
  maxNumberOfPowerLinks t := t.maxPowerLinks
  maxNumberOfAssetGroups t := t.maxGroups
  selectExtRwAttributesKeytags t := (0, t.elements.flatMap fun e ↦
    ((t.ext e.id).filter (·.readOnly = false)).map ExtRow.keytag)
  selectAssetElementAll t := (0, t.elements.map (ElementRow.view typeName subtypeName))
  selectAssetElementByDc t dcId := (0,
    (t.elements.filter fun e ↦ (e.parentId : Int) = dcId).map
      (ElementRow.view typeName subtypeName))
  idToNameExtName t id :=
    if id = 0 then ("", "") else ((t.iname id).getD "", (t.extname id).getD "")
  nameToExtname t name :=
    match t.extnameOf name with
    | some extname => (0, extname)
    | none => (-1, "")
  selectExtAttributes t id :=
    (0, (t.ext id).map fun row ↦ (row.keytag, row.value, row.readOnly))
  selectPowerLinkSrcById t id := (0, (t.links id).map t.powerLink)
  selectGroupNames t id := (0, (t.groups id).map fun group ↦ (t.iname group).getD "")

theorem lookup_map_row (rows : List ExtRow) (keytag : String) :
    (rows.map fun row ↦ (row.keytag, row.value, row.readOnly)).lookup keytag =
      (rows.find? (·.keytag = keytag)).map fun row ↦ (row.value, row.readOnly) := by
  induction rows with
  | nil => rfl
  | cons row rows ih =>
    rw [List.map_cons, List.lookup_cons, List.find?_cons]
    by_cases hkey : row.keytag = keytag
    · simp [hkey]
    · have hbeq : (keytag == row.keytag) = false := beq_eq_false_iff_ne.mpr fun h ↦ hkey h.symm
      simp [hkey, hbeq, ih]

/-- The answers of the tables are right where the ids and the names tell the elements apart. -/
theorem tablesExport_laws {typeName subtypeName : Nat → String} {t : Tables}
    (hgiven : ∀ e ∈ t.elements, e.id ≠ 0)
    (hiname : ∀ e ∈ t.elements, t.iname e.id = some e.name)
    (hextname : ∀ e ∈ t.elements, t.extnameOf e.name = t.extname e.id)
    (hlinks : t.maxPowerLinks < 2 ^ 32) (hgroups : t.maxGroups < 2 ^ 32) :
    ExportLaws (tablesExport typeName subtypeName) typeName subtypeName t t where
  maxPowerLinks := ⟨rfl, hlinks⟩
  maxGroups := ⟨rfl, hgroups⟩
  keytags := by
    refine ⟨_, rfl, fun keytag ↦ ?_⟩
    simp only [List.mem_flatMap, List.mem_map, List.mem_filter, decide_eq_true_eq,
      Tables.RwKeytag, and_assoc, and_comm (a := ExtRow.readOnly _ = false)]
  all := ⟨_, List.Perm.refl _, rfl⟩
  byDc dcId := ⟨_, List.filter_subset_self _, rfl⟩
  idToName e he _ := by
    show (if e.id = 0 then _ else _ : String × String).1 = e.name
    rw [if_neg (hgiven e he), hiname e he]
    rfl
  idToExtName id := by
    show (if id = 0 then _ else _ : String × String).2 = _
    split <;> rfl
  nameToExtname e he extname hext := by
    show (match t.extnameOf e.name with
      | some extname => (0, extname)
      | none => (-1, "")) = _
    rw [hextname e he, hext]
  ext e _ := ⟨_, rfl, lookup_map_row (t.ext e.id)⟩
  links e _ := ⟨_, List.Perm.refl _, rfl⟩
  groups e _ := ⟨_, List.Perm.refl _, rfl⟩

theorem Keeps.tablesExport {typeName subtypeName : Nat → String} {ids : List Identity} {t : Tables}
    (h : Keeps typeName ids t) (hlinks : t.maxPowerLinks < 2 ^ 32)
    (hgroups : t.maxGroups < 2 ^ 32) :
    ExportLaws (tablesExport typeName subtypeName) typeName subtypeName t t :=
  tablesExport_laws (fun e he ↦ (h.sound.given e.identity (List.mem_map_of_mem he)).1)
    (fun _ he ↦ h.iname_eq he) (fun _ he ↦ h.extnameOf_eq he) hlinks hgroups

def noTables : Tables := ⟨[], fun _ ↦ [], fun _ ↦ [], fun _ ↦ []⟩

/-- A row with a room, and a column `title`. -/
def roomRow (title : String) : RowInput where
  cm := {
    data := [["name", "type", "sub_type", "location", "status", "priority", title],
      ["Room", "room", "", "", "active", "P1", "text"]]
    titleToIndex :=
      (["name", "type", "sub_type", "location", "status", "priority", title].map ciStrip).zipIdx }
  row := 1
  types := [("room", AssetType.room)]
  subtypes := [("patch panel", 3), ("rack controller", 2)]
  ids := []
  sanitize := true
  rc0 := 2 ^ 64 - 1
  limitations := { globalConfigurability := 1 }

/-- The tables after the row. -/
def roomWorld (title : String) : World Tables :=
  (processRow tablesAssets plainTools idleActivator (roomRow title) ⟨noTables, fun _ ↦ false⟩).1

def roomTypeName (typeId : Nat) : String := if typeId = AssetType.room then "room" else ""

theorem noTables_installed : Installed noTables where
  ids := List.nodup_nil
  names := List.nodup_nil
  given _ he := absurd he List.not_mem_nil
  ext _ he := absurd he List.not_mem_nil
  noExt _ _ := rfl
  links _ := rfl
  groups _ := rfl

theorem roomRow_args {title : String}
    (h : (["name", "type", "sub_type", "location", "status", "priority", title].map ciStrip).Nodup) :
    ImportArgs roomTypeName (roomRow title) where
  cm := ⟨CsvMap.ofData (roomRow title).cm.data, rfl,
    CsvMap.deserialize_ok_iff.mpr ⟨_, _, rfl, h, rfl⟩⟩
  sanitize := rfl
  types type id hlookup := by
    rw [roomRow, List.lookup_cons] at hlookup
    split at hlookup
    · rename_i htype
      obtain rfl := Option.some.inj hlookup
      obtain rfl := eq_of_beq htype
      exact ⟨by decide, rfl⟩
    · simp at hlookup

theorem roomWorld_imported (title : String)
    (h : (["name", "type", "sub_type", "location", "status", "priority", title].map ciStrip).Nodup) :
    Imported tablesAssets plainTools idleActivator id roomTypeName (roomWorld title) :=
  .row (.installed noTables_installed) (roomRow_args h)

/-- A group with a number that is not used is exported under its own title. -/
theorem exportsImportable_iff_room :
    ExportsImportable (tablesExport roomTypeName fun _ ↦ "N_A") roomTypeName (fun _ ↦ "N_A")
        (roomWorld "group.3").store (roomWorld "group.3").store 0 ↔
      ¬ (roomWorld "group.3").store.NumberedAttribute := by
  have himported := roomWorld_imported "group.3" (by decide)
  obtain ⟨ids, hkeeps⟩ := himported.keeps tablesAssets_laws
  exact exportsImportable_iff tablesAssets_laws himported
    (hkeeps.tablesExport (by decide) (by decide)) 0

/-- The titles that are printed for the room when its row has a plug without a source. -/
def plugTitles : List String :=
  ["name", "type", "sub_type", "location", "status", "priority", "asset_tag", "power_source.1",
    "power_plug_src.1", "power_input.1"] ++ listedKeytags ++ ["power_plug_src.1", "group.1", "id"]

def plugCells : List String :=
  ["Room", "room", "", "", "active", "P1"] ++ List.replicate 27 "" ++ ["text", "", "asset-1"]

theorem exportAssetCsv_plug :
    exportAssetCsv (tablesExport roomTypeName fun _ ↦ "N_A") (roomWorld "power_plug_src.1").store
      0 = .ok [plugTitles, plugCells] := by
  rfl

theorem deserialize_plug : (CsvMap.ofData [plugTitles, plugCells]).deserialize =
    .error (.duplicateTitle "power_plug_src.1") := by
  rfl

/-- A plug without a source is exported under a title that is there twice. -/
theorem plug_without_source_not_importable :
    Imported tablesAssets plainTools idleActivator id roomTypeName
        (roomWorld "power_plug_src.1") ∧
      (∃ header lines, exportAssetCsv (tablesExport roomTypeName fun _ ↦ "N_A")
          (roomWorld "power_plug_src.1").store 0 = .ok (header :: lines) ∧
        (CsvMap.ofData (header :: lines)).deserialize =
          .error (.duplicateTitle "power_plug_src.1")) ∧
      ¬ ExportsImportable (tablesExport roomTypeName fun _ ↦ "N_A") roomTypeName (fun _ ↦ "N_A")
        (roomWorld "power_plug_src.1").store (roomWorld "power_plug_src.1").store 0 := by
  have hexport : ∃ header lines, exportAssetCsv (tablesExport roomTypeName fun _ ↦ "N_A")
      (roomWorld "power_plug_src.1").store 0 = .ok (header :: lines) ∧
      (CsvMap.ofData (header :: lines)).deserialize =
        .error (.duplicateTitle "power_plug_src.1") :=
    ⟨_, _, exportAssetCsv_plug, deserialize_plug⟩
  refine ⟨roomWorld_imported _ (by decide), hexport, ?_⟩
  obtain ⟨header, lines, hok, herror⟩ := hexport
  rintro ⟨header', lines', hok', _, -, -, -, himport⟩
  obtain ⟨rfl, rfl⟩ := List.cons.inj (Except.ok.inj (hok.symm.trans hok'))
  obtain ⟨cm, hcm, -⟩ := himport.readsBack
  rw [herror] at hcm
  simp at hcm

end FtyRest.Db
