import FtyRest.Db.Inout.RowColumns
import FtyRest.Shared.GetAsset
import Mathlib.Data.List.Flatten

/-!
# The titles of the document of an asset

The columns that the reader makes of a document beside the attributes, and the ones that are taken
for attributes when the table is imported.
-/

namespace FtyRest.Db

open Shared

/-! ## The columns -/

section

variable (env : AssetJsonEnv) (tmp : Shared.WebElement)

/-- The columns that come from something else than an attribute. -/
def baseColumns : List Column :=
  fieldColumns env tmp ++ locationColumns env tmp ++ groupColumns env tmp ++
    linksColumns env tmp ++ subtypeColumns tmp ++ tagColumns tmp ++ [("computed", "")]

def listsColumns : List Column := listKinds.flatMap fun p ↦ listColumns env tmp p.1 p.2

/-- The columns that come from the attributes. -/
def attributeColumns : List Column :=
  ordinaryColumns tmp ++ (listsColumns env tmp ++ outletColumns (outletsOf (leftExt tmp)))

theorem assetColumns_perm :
    (assetColumns env tmp).Perm (baseColumns env tmp ++ attributeColumns env tmp) := by
  have hlists : listsColumns env tmp = listColumns env tmp .ip "ip." ++
      (listColumns env tmp .mac "mac." ++ (listColumns env tmp .fqdn "fqdn." ++
        listColumns env tmp .hostname "hostname.")) := by
    simp [listsColumns, listKinds]
  unfold assetColumns baseColumns attributeColumns
  rw [hlists]
  simp only [List.append_assoc]
  -- only the last column has another place
  iterate 6 apply List.Perm.append_left
  have hlast (columns : List Column) :
      (columns ++ [("computed", "")]).Perm ([("computed", "")] ++ columns) :=
    List.perm_append_comm
  simpa only [List.append_assoc] using hlast (ordinaryColumns tmp ++
    (listColumns env tmp .ip "ip." ++ (listColumns env tmp .mac "mac." ++
      (listColumns env tmp .fqdn "fqdn." ++ (listColumns env tmp .hostname "hostname." ++
        outletColumns (outletsOf (leftExt tmp)))))))

theorem linksColumns_sublist :
    ((linksColumns env tmp).map Prod.fst).Sublist
      ((List.range (printedLinks tmp).length).flatMap powerTitles) := by
  have hrange : List.range (printedLinks tmp).length = (printedLinks tmp).zipIdx.map Prod.snd := by
    rw [List.zipIdx_map_snd, List.range_eq_range']
  rw [hrange, linksColumns, List.map_flatMap, List.flatMap_map]
  apply List.Sublist.flatMap_right
  intro (link, i) _
  -- a socket that is not given has no column
  have hsocket (item socket : String) :
      ((socketColumn item socket i).map Prod.fst).Sublist [numbered item i] := by
    unfold socketColumn
    split
    · exact List.nil_sublist _
    · exact List.Sublist.refl _
  show ((linkColumns env link i).map Prod.fst).Sublist (powerTitles i)
  rw [linkColumns, List.cons_append, List.map_cons, List.map_append]
  exact ((hsocket _ _).append (hsocket _ _)).cons_cons _

end

/-! ### The titles of a document -/

/-- The titles without a number that a document can have for something else than an attribute. -/
def printedFields : List String :=
  ["id", "name", "status", "priority", "type", "location", "location_type", "sub_type",
    "asset_tag", "computed"]

section

variable {env : AssetJsonEnv} {tmp : Shared.WebElement}

theorem baseColumns_subperm :
    ((baseColumns env tmp).map Prod.fst).Subperm
      (printedFields ++ numberedTitles (printedLinks tmp).length tmp.groups.length) := by
  have hgroups : (groupColumns env tmp).map Prod.fst =
      (List.range tmp.groups.length).map (numbered "group.") := by
    have hrange : List.range tmp.groups.length = tmp.groups.zipIdx.map Prod.snd := by
      rw [List.zipIdx_map_snd, List.range_eq_range']
    rw [hrange, groupColumns, List.map_map, List.map_map]
    rfl
  have hsubtype : ((subtypeColumns tmp).map Prod.fst).Sublist ["sub_type"] := by
    unfold subtypeColumns
    split
    · split
      · exact List.Sublist.refl _
      · exact List.nil_sublist _
    · exact List.Sublist.refl _
  have htag : ((tagColumns tmp).map Prod.fst).Sublist ["asset_tag"] := by
    unfold tagColumns
    split
    · exact List.nil_sublist _
    · exact List.Sublist.refl _
  have hsublist := (((((List.Sublist.refl
    ["id", "name", "status", "priority", "type", "location", "location_type"]).append
    (List.Sublist.refl ((List.range tmp.groups.length).map (numbered "group.")))).append
    (linksColumns_sublist env tmp)).append hsubtype).append htag).append
    (List.Sublist.refl ["computed"])
  -- the columns in the order of the source, some of which may be left out
  have hbase : (baseColumns env tmp).map Prod.fst =
      ["id", "name", "status", "priority", "type", "location", "location_type"] ++
        (List.range tmp.groups.length).map (numbered "group.") ++
        (linksColumns env tmp).map Prod.fst ++ (subtypeColumns tmp).map Prod.fst ++
        (tagColumns tmp).map Prod.fst ++ ["computed"] := by
    rw [← hgroups]
    simp only [baseColumns, List.map_append]
    rfl
  rw [hbase]
  refine hsublist.subperm.trans (List.Perm.subperm ?_)
  have hfields : printedFields = ["id", "name", "status", "priority", "type", "location",
      "location_type"] ++ ["sub_type"] ++ ["asset_tag"] ++ ["computed"] := rfl
  rw [hfields, numberedTitles, List.perm_iff_count]
  intro title
  simp only [List.count_append]
  omega

def printedTitles (tmp : Shared.WebElement) : List String :=
  printedFields ++ numberedTitles (printedLinks tmp).length tmp.groups.length

theorem nodup_printedTitles : (printedTitles tmp).Nodup := by
  unfold printedTitles
  rw [List.nodup_append]
  refine ⟨by decide, numberedTitles_nodup _ _, ?_⟩
  intro title htitle _ hnumbered heq
  subst heq
  have hpoint : ∀ title ∈ printedFields, '.' ∉ title.toList := by decide
  exact hpoint title htitle (point_of_mem_numberedTitles hnumbered)

theorem ciStrip_of_mem_printedTitles {title : String} (h : title ∈ printedTitles tmp) :
    ciStrip title = title := by
  have hfields : ∀ title ∈ printedFields, ciStrip title = title := by decide
  rcases List.mem_append.mp h with h | h
  · exact hfields title h
  · exact ciStrip_of_mem_numberedTitles h

theorem pattern_numbered {item : String} {c : Char} (hitem : item.toList.head? = some c)
    (hc : c ∉ ['n', 'l', 'o', 'i', 'm', 'f', 'h']) (i : Nat) :
    (extKind (numbered item i)).pattern = none := by
  have hkind : extKind (numbered item i) = .ordinary :=
    extKind_of_head? (head?_countedTitle hitem i) hc
  rw [hkind]
  rfl

theorem pattern_of_mem_powerTitles {title : String} {i : Nat} (h : title ∈ powerTitles i) :
    (extKind title).pattern = none := by
  rcases mem_powerTitles.mp h with rfl | rfl | rfl
  · exact pattern_numbered (c := 'p') rfl (by decide) i
  · exact pattern_numbered (c := 'p') rfl (by decide) i
  · exact pattern_numbered (c := 'p') rfl (by decide) i

/-- None of the titles is a name of a list or of an outlet. -/
theorem pattern_of_mem_printedTitles {title : String} (h : title ∈ printedTitles tmp) :
    (extKind title).pattern = none := by
  have hfields : ∀ title ∈ printedFields, (extKind title).pattern = none := by decide +kernel
  rcases List.mem_append.mp h with h | h
  · exact hfields title h
  · rcases List.mem_append.mp h with h | h
    · obtain ⟨i, -, hi⟩ := List.mem_flatMap.mp h
      exact pattern_of_mem_powerTitles hi
    · obtain ⟨i, -, rfl⟩ := List.mem_map.mp h
      exact pattern_numbered (c := 'g') rfl (by decide) i

theorem mem_printedTitles_of_mem_baseColumns {column : Column}
    (h : column ∈ baseColumns env tmp) : column.1 ∈ printedTitles tmp :=
  baseColumns_subperm.subset (List.mem_map.mpr ⟨column, h, rfl⟩)

/-! ### The titles with a number -/

theorem group_mem_baseColumns {i : Nat} (hi : i < tmp.groups.length) :
    ∃ column ∈ baseColumns env tmp, column.1 = numbered "group." i := by
  refine ⟨(countedTitle "group." i, extNameOf env tmp.groups[i].1), ?_, rfl⟩
  have hmem : (countedTitle "group." i, extNameOf env tmp.groups[i].1) ∈ groupColumns env tmp :=
    List.mem_map.mpr ⟨(tmp.groups[i], i), List.mk_mem_zipIdx_iff_getElem?.mpr
      (List.getElem?_eq_getElem hi), rfl⟩
  unfold baseColumns
  simp only [List.mem_append]
  exact Or.inl (Or.inl (Or.inl (Or.inl (Or.inr hmem))))

theorem source_mem_baseColumns {i : Nat} (hi : i < (printedLinks tmp).length) :
    ∃ column ∈ baseColumns env tmp, column.1 = numbered "power_source." i := by
  refine ⟨(countedTitle "power_source." i, extNameOf env (printedLinks tmp)[i].srcId), ?_, rfl⟩
  have hmem : (countedTitle "power_source." i, extNameOf env (printedLinks tmp)[i].srcId) ∈
      linksColumns env tmp := by
    refine List.mem_flatMap.mpr ⟨((printedLinks tmp)[i], i), ?_, ?_⟩
    · exact List.mk_mem_zipIdx_iff_getElem?.mpr (List.getElem?_eq_getElem hi)
    · exact List.mem_cons_self
  unfold baseColumns
  simp only [List.mem_append]
  exact Or.inl (Or.inl (Or.inl (Or.inr hmem)))

theorem computed_mem_baseColumns : ("computed", "") ∈ baseColumns env tmp :=
  List.mem_append_right _ List.mem_cons_self

theorem numbered_mem_printedTitles {item : String} (hitem : item.toList.getLast? = some '.')
    {i : Nat} (h : numbered item i ∈ printedTitles tmp) :
    (∃ j < (printedLinks tmp).length, numbered item i ∈ powerTitles j) ∨
      item = "group." ∧ i < tmp.groups.length := by
  have hpoint : '.' ∈ (numbered item i).toList :=
    point_mem_numbered (List.mem_of_getLast? hitem) i
  have hfields : ∀ title ∈ printedFields, '.' ∉ title.toList := by decide
  rcases List.mem_append.mp h with h | h
  · exact absurd hpoint (hfields _ h)
  · rcases List.mem_append.mp h with h | h
    · have ⟨j, hj, hi⟩ := List.mem_flatMap.mp h
      exact Or.inl ⟨j, List.mem_range.mp hj, hi⟩
    · obtain ⟨j, hj, heq⟩ := List.mem_map.mp h
      obtain ⟨rfl, rfl⟩ := (numbered_inj (by decide) hitem).mp heq
      exact Or.inr ⟨rfl, List.mem_range.mp hj⟩

theorem group_mem_printedTitles {i : Nat} (h : numbered "group." i ∈ printedTitles tmp) :
    i < tmp.groups.length := by
  rcases numbered_mem_printedTitles (by decide) h with ⟨j, _, h⟩ | ⟨_, h⟩
  · rcases mem_powerTitles.mp h with heq | heq | heq <;>
      exact absurd ((numbered_inj (by decide) (by decide)).mp heq).1 (by decide)
  · exact h

theorem source_mem_printedTitles {i : Nat} (h : numbered "power_source." i ∈ printedTitles tmp) :
    i < (printedLinks tmp).length := by
  rcases numbered_mem_printedTitles (by decide) h with ⟨j, hj, h⟩ | ⟨heq, _⟩
  · rcases mem_powerTitles.mp h with heq | heq | heq
    · obtain ⟨_, rfl⟩ := (numbered_inj (by decide) (by decide)).mp heq
      exact hj
    · exact absurd ((numbered_inj (by decide) (by decide)).mp heq).1 (by decide)
    · exact absurd ((numbered_inj (by decide) (by decide)).mp heq).1 (by decide)
  · exact absurd heq (by decide)

end

/-! ## The columns that are not attributes -/

/-- The row of a document, as `process_row` gets it. -/
def putRow (cm : CsvMap) : RowInput where
  cm := cm
  row := 1
  types := []
  subtypes := []
  ids := []
  sanitize := true
  rc0 := 0
  limitations := {}

/-- The columns that the import takes for extended attributes. -/
def extendedColumns (cm : CsvMap) : List String := unusedColumns (putRow cm) ""

theorem mem_extendedColumns {cm : CsvMap} {title : String} :
    title ∈ extendedColumns cm ↔ title ∈ cm.getTitles ∧ ¬ Used cm.getTitles title := by
  have hrow : ¬ ((putRow cm).rc0 = (putRow cm).row ∧ "" ≠ "rackcontroller-0") :=
    fun h ↦ absurd h.1 (by decide : (0 : Nat) ≠ 1)
  exact mem_unusedColumns_iff hrow

theorem pattern_of_used {titles : List String} {title : String} (h : Used titles title) :
    (extKind title).pattern = none := by
  cases h with
  | field hfield =>
    have hfields : ∀ title ∈ fieldTitles, (extKind title).pattern = none := by decide +kernel
    exact hfields title hfield
  | group _ => exact pattern_numbered (c := 'g') rfl (by decide) _
  | power _ htitle => exact pattern_of_mem_powerTitles htitle

end FtyRest.Db
