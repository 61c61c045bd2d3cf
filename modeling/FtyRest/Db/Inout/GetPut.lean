import FtyRest.Db.Inout.GetTitles

/-!
# Getting an asset and putting it back

Which extended attributes the import finds in the document of an asset.
-/

namespace FtyRest.Db

open AssocList Shared
open Ecpp (Json)

/-! ## The attributes of a document -/

/-- The attributes of the asset and their values; its name, and the type of a group, are fields of
the document. -/
def assetAttributes (tmp : Shared.WebElement) : List (String × String) :=
  ((leftExt tmp).filter (·.1 ≠ "name")).map fun p ↦ (p.1, p.2.1)

/-- The document is read as a table with one row, whose extended columns are the attributes of the
asset with their values, up to the columns `but`. -/
def SameAttributes (isBool : Json → Bool) (but : List String) (tmp : Shared.WebElement) (doc : Json) :
    Prop :=
  ∃ cm, csvMapFromSerializationInfo isBool doc = .ok cm ∧ cm.rows = 2 ∧
    (∀ title ∉ but,
      title ∈ extendedColumns cm ↔ title ∈ (assetAttributes tmp).map Prod.fst) ∧
    ∀ p ∈ assetAttributes tmp, p.1 ∉ but → cm.get 1 p.1 = .ok p.2

/-- The attributes that are printed one by one. -/
def ordinaryNames (tmp : Shared.WebElement) : List String :=
  (ofKind (leftExt tmp) .ordinary).map Prod.fst
/-- What the attributes must be like for the document to keep them. -/
structure Kept (env : AssetJsonEnv) (tmp : Shared.WebElement) : Prop where
  normalized : ∀ name ∈ ordinaryNames tmp, ciStrip name = name
  readOnly : "read_only" ∉ ordinaryNames tmp
  computed : "computed" ∉ ordinaryNames tmp
  fields : ∀ name ∈ ordinaryNames tmp, name ∉ fieldTitles
  groups : ∀ i ≤ tmp.groups.length, countedTitle "group." i ∉ ordinaryNames tmp
  sources : ∀ i ≤ (printedLinks tmp).length, countedTitle "power_source." i ∉ ordinaryNames tmp
  sockets : ∀ i < (printedLinks tmp).length,
    countedTitle "power_plug_src." i ∉ ordinaryNames tmp ∧
      countedTitle "power_input." i ∉ ordinaryNames tmp
  lists : ∀ p ∈ listKinds, ∀ i value, (valuesOf (leftExt tmp) p.1)[i]? = some value →
    ((leftExt tmp).lookup (countedTitle p.2 i)).map Prod.fst = env.unquote value
  outlets : ∀ p ∈ leftExt tmp, ∀ attr, extKind p.1 = .outlet attr → p.2.1 ≠ ""

/-! ## The columns of the attributes -/

/-- A name with a number is its own normal form. -/
theorem ciStrip_of_pattern {name : String} (h : (extKind name).pattern ≠ none) :
    ciStrip name = name := by
  obtain ⟨⟨item, suffix⟩, hpattern⟩ := Option.ne_none_iff_exists'.mp h
  have ⟨number, _, hdigits, hname⟩ := isNumberedName_iff.mp (isNumberedName_of_extKind rfl hpattern)
  have hparts : ciStrip item = item ∧ ciStrip suffix = suffix := by
    cases hkind : extKind name with
    | outlet attr =>
      rw [hkind] at hpattern
      cases attr <;> cases hpattern <;> decide
    | _ =>
      rw [hkind] at hpattern
      cases hpattern
      try decide
  have heq : name = item ++ .ofList number ++ suffix := by
    apply String.toList_injective
    rw [hname, String.toList_append, String.toList_append, String.toList_ofList]
  have hnumber : ciStrip (.ofList number) = .ofList number :=
    ciStrip_of_isDigit (by rwa [String.toList_ofList])
  rw [heq, ciStrip_append, ciStrip_append, hparts.1, hparts.2, hnumber]

section

variable {env : AssetJsonEnv} {tmp : Shared.WebElement} {column : Column}

theorem nodup_leftExt : ((leftExt tmp).map Prod.fst).Nodup := by
  have hnd : (tmp.ext.map Prod.fst).Nodup := tmp.sorted.nodup
  unfold leftExt
  split
  · exact (List.filter_sublist.map Prod.fst).nodup hnd
  · exact hnd

theorem mem_assetAttributes : column ∈ assetAttributes tmp ↔
    ∃ readOnly, (column.1, column.2, readOnly) ∈ leftExt tmp ∧ column.1 ≠ "name" := by
  unfold assetAttributes
  simp only [List.mem_map, List.mem_filter, decide_eq_true_eq]
  constructor
  · rintro ⟨⟨name, value, readOnly⟩, ⟨hmem, hname⟩, rfl⟩
    exact ⟨readOnly, hmem, hname⟩
  · intro ⟨readOnly, hmem, hname⟩
    exact ⟨_, ⟨hmem, hname⟩, rfl⟩

theorem mem_ordinaryNames {name : String} : name ∈ ordinaryNames tmp ↔
    extKind name = .ordinary ∧ ∃ value, (name, value) ∈ leftExt tmp := by
  unfold ordinaryNames ofKind
  simp only [List.mem_map, List.mem_filter, decide_eq_true_eq]
  constructor
  · rintro ⟨⟨name, value⟩, ⟨hmem, hkind⟩, rfl⟩
    exact ⟨hkind, value, hmem⟩
  · intro ⟨hkind, value, hmem⟩
    exact ⟨_, ⟨hmem, hkind⟩, rfl⟩

theorem mem_ordinaryColumns : column ∈ ordinaryColumns tmp ↔
    ∃ readOnly, (column.1, column.2, readOnly) ∈ leftExt tmp ∧ extKind column.1 = .ordinary ∧
      column.1 ≠ "read_only" := by
  unfold ordinaryColumns ofKind
  simp only [List.mem_map, List.mem_filter, decide_eq_true_eq]
  constructor
  · rintro ⟨⟨name, value, readOnly⟩, ⟨⟨hmem, hkind⟩, hname⟩, rfl⟩
    exact ⟨readOnly, hmem, hkind, hname⟩
  · intro ⟨readOnly, hmem, hkind, hname⟩
    exact ⟨_, ⟨⟨hmem, hkind⟩, hname⟩, rfl⟩

theorem mem_listsColumns : column ∈ listsColumns env tmp ↔
    ∃ p ∈ listKinds, ∃ i value, (valuesOf (leftExt tmp) p.1)[i]? = some value ∧
      column = (countedTitle p.2 i, (env.unquote value).getD "") := by
  unfold listsColumns listColumns listedValues
  simp only [List.mem_flatMap, List.mem_map, Prod.exists, List.mk_mem_zipIdx_iff_getElem?,
    List.getElem?_map, Option.map_eq_some_iff]
  constructor
  · rintro ⟨kind, item, hkind, _, i, ⟨value, hvalue, rfl⟩, rfl⟩
    exact ⟨kind, item, hkind, i, value, hvalue, rfl⟩
  · rintro ⟨kind, item, hkind, i, value, hvalue, rfl⟩
    exact ⟨kind, item, hkind, _, i, ⟨value, hvalue, rfl⟩, rfl⟩

theorem mem_assetColumns : column ∈ assetColumns env tmp ↔
    column ∈ baseColumns env tmp ∨ column ∈ ordinaryColumns tmp ∨
      column ∈ listsColumns env tmp ∨ column ∈ outletColumns (outletsOf (leftExt tmp)) := by
  rw [(assetColumns_perm env tmp).mem_iff]
  simp only [attributeColumns, List.mem_append]
theorem extKind_of_mem_ordinaryColumns (h : column ∈ ordinaryColumns tmp) :
    extKind column.1 = .ordinary := by
  have ⟨_, _, hkind, _⟩ := mem_ordinaryColumns.mp h
  exact hkind

theorem extKind_of_mem_listsColumns (h : column ∈ listsColumns env tmp) :
    ∃ item, (extKind column.1, item) ∈ listKinds := by
  obtain ⟨p, hp, i, value, _, rfl⟩ := mem_listsColumns.mp h
  rw [extKind_countedTitle hp i]
  exact ⟨p.2, hp⟩

theorem extKind_of_mem_outletColumns (h : column ∈ outletColumns (outletsOf (leftExt tmp))) :
    ∃ attr, extKind column.1 = .outlet attr := by
  have ⟨_, attr, _, _, hkind⟩ := (mem_outletColumns nodup_leftExt).mp h
  exact ⟨attr, hkind⟩

theorem pattern_of_mem_listKinds : ∀ p ∈ listKinds, p.1.pattern = some (p.2, "") := by
  decide

theorem outlet_not_mem_listKinds {attr : OutletAttr} {item : String} :
    (ExtKind.outlet attr, item) ∉ listKinds := by
  simp [listKinds]

/-- The titles of the attributes are normalised when the ones that are printed one by one are. -/
theorem ciStrip_of_mem_assetColumns (hnorm : ∀ name ∈ ordinaryNames tmp, ciStrip name = name)
    (h : column ∈ assetColumns env tmp) : ciStrip column.1 = column.1 := by
  rcases mem_assetColumns.mp h with h | h | h | h
  · exact ciStrip_of_mem_printedTitles (mem_printedTitles_of_mem_baseColumns h)
  · have ⟨_, hmem, hkind, _⟩ := mem_ordinaryColumns.mp h
    exact hnorm _ (mem_ordinaryNames.mpr ⟨hkind, _, hmem⟩)
  · have ⟨item, hkind⟩ := extKind_of_mem_listsColumns h
    apply ciStrip_of_pattern
    rw [pattern_of_mem_listKinds _ hkind]
    exact Option.some_ne_none _
  · have ⟨attr, hkind⟩ := extKind_of_mem_outletColumns h
    apply ciStrip_of_pattern
    rw [hkind]
    exact Option.some_ne_none _

theorem nodup_listsColumns : ((listsColumns env tmp).map Prod.fst).Nodup := by
  rw [listsColumns, List.map_flatMap, List.nodup_flatMap]
  constructor
  · intro p hp
    have htitles : (listColumns env tmp p.1 p.2).map Prod.fst =
        (List.range (listedValues env tmp p.1).length).map (numbered p.2) := by
      have hrange : List.range (listedValues env tmp p.1).length =
          (listedValues env tmp p.1).zipIdx.map Prod.snd := by
        rw [List.zipIdx_map_snd, List.range_eq_range']
      rw [hrange, listColumns, List.map_map, List.map_map]
      rfl
    have hpoint : ∀ p ∈ listKinds, p.2.toList.getLast? = some '.' := by decide
    rw [htitles]
    exact List.nodup_range.map fun _ _ h ↦
      ((numbered_inj (hpoint p hp) (hpoint p hp)).mp h).2
  · -- names of two kinds differ
    have hkinds : listKinds.Pairwise fun p q ↦ p.1 ≠ q.1 := by decide
    refine hkinds.imp_of_mem fun {p q} hp hq hne title hleft hright ↦ hne ?_
    have hkind {p : ExtKind × String} (hp : p ∈ listKinds)
        (h : title ∈ (listColumns env tmp p.1 p.2).map Prod.fst) : extKind title = p.1 := by
      obtain ⟨column, hcolumn, rfl⟩ := List.mem_map.mp h
      obtain ⟨⟨value, i⟩, -, rfl⟩ := List.mem_map.mp hcolumn
      exact extKind_countedTitle hp i
    rw [← hkind hp hleft, ← hkind hq hright]

/-- The titles differ, unless an attribute has a title of something else. -/
theorem nodup_assetColumns
    (hnew : ∀ column ∈ baseColumns env tmp, column.1 ∉ ordinaryNames tmp) :
    ((assetColumns env tmp).map Prod.fst).Nodup := by
  have hordinary : ((ordinaryColumns tmp).map Prod.fst).Nodup := by
    have hnames : (ordinaryColumns tmp).map Prod.fst = (((ofKind (leftExt tmp) .ordinary).filter
        (·.1 ≠ "read_only")).map Prod.fst) := by
      rw [ordinaryColumns, List.map_map]
      rfl
    rw [hnames]
    exact ((List.filter_sublist.trans List.filter_sublist).map Prod.fst).nodup nodup_leftExt
  have hbase : ((baseColumns env tmp).map Prod.fst).Nodup := by
    obtain ⟨titles, hperm, hsublist⟩ : ((baseColumns env tmp).map Prod.fst).Subperm
        (printedTitles tmp) := baseColumns_subperm
    exact hperm.nodup_iff.mp (hsublist.nodup nodup_printedTitles)
  rw [((assetColumns_perm env tmp).map Prod.fst).nodup_iff, attributeColumns]
  simp only [List.map_append, List.nodup_append, List.mem_append]
  refine ⟨hbase, ⟨hordinary, ⟨nodup_listsColumns, nodup_outletColumns, ?_⟩, ?_⟩, ?_⟩
  · -- a list and an outlet
    intro _ hleft _ hright heq
    subst heq
    obtain ⟨column, hcolumn, rfl⟩ := List.mem_map.mp hleft
    obtain ⟨column', hcolumn', htitle⟩ := List.mem_map.mp hright
    obtain ⟨item, hkind⟩ := extKind_of_mem_listsColumns hcolumn
    obtain ⟨attr, hkind'⟩ := extKind_of_mem_outletColumns hcolumn'
    rw [← htitle, hkind'] at hkind
    exact outlet_not_mem_listKinds hkind
  · -- a single attribute, and a list or an outlet
    intro _ hleft _ hright heq
    subst heq
    obtain ⟨column, hcolumn, rfl⟩ := List.mem_map.mp hleft
    have hkind := extKind_of_mem_ordinaryColumns hcolumn
    rcases hright with hright | hright
    · obtain ⟨column', hcolumn', htitle⟩ := List.mem_map.mp hright
      obtain ⟨item, hkind'⟩ := extKind_of_mem_listsColumns hcolumn'
      rw [htitle, hkind] at hkind'
      exact absurd hkind' (by simp [listKinds])
    · obtain ⟨column', hcolumn', htitle⟩ := List.mem_map.mp hright
      obtain ⟨attr, hkind'⟩ := extKind_of_mem_outletColumns hcolumn'
      rw [htitle, hkind] at hkind'
      cases hkind'
  · -- a title of something else, and an attribute
    intro _ hleft _ hright heq
    subst heq
    obtain ⟨column, hcolumn, rfl⟩ := List.mem_map.mp hleft
    have hpattern := pattern_of_mem_printedTitles (mem_printedTitles_of_mem_baseColumns hcolumn)
    rcases hright with hright | hright | hright
    · obtain ⟨column', hcolumn', htitle⟩ := List.mem_map.mp hright
      obtain ⟨_, hmem, hkind, _⟩ := mem_ordinaryColumns.mp hcolumn'
      rw [htitle] at hmem hkind
      exact hnew column hcolumn (mem_ordinaryNames.mpr ⟨hkind, _, hmem⟩)
    · obtain ⟨column', hcolumn', htitle⟩ := List.mem_map.mp hright
      obtain ⟨item, hkind'⟩ := extKind_of_mem_listsColumns hcolumn'
      rw [htitle] at hkind'
      rw [pattern_of_mem_listKinds _ hkind'] at hpattern
      cases hpattern
    · obtain ⟨column', hcolumn', htitle⟩ := List.mem_map.mp hright
      obtain ⟨attr, hkind'⟩ := extKind_of_mem_outletColumns hcolumn'
      rw [htitle] at hkind'
      rw [hkind'] at hpattern
      cases hpattern

end

/-! ## What a document keeps -/

theorem extKind_eq_hidden {name : String} (h : extKind name = .hidden) :
    name = "name" ∨ name = "location_type" := by
  unfold extKind at h
  split_ifs at h with hname htype
  · exact Or.inl hname
  · exact Or.inr htype

theorem not_fixed_of_pattern {name : String} (h : (extKind name).pattern ≠ none) :
    name ∉ ["location_type", "computed"] ∧ name ≠ "name" := by
  have hfixed : ∀ other ∈ ["location_type", "computed", "name"],
      (extKind other).pattern = none := by
    decide +kernel
  have hnot : name ∉ ["location_type", "computed", "name"] := fun hmem ↦ h (hfixed name hmem)
  simp only [List.mem_cons, List.not_mem_nil, or_false, not_or] at hnot ⊢
  exact ⟨⟨hnot.1, hnot.2.1⟩, hnot.2.2⟩

section

variable {env : AssetJsonEnv} {tmp : Shared.WebElement} {cm : CsvMap}
  (hcm : (CsvMap.ofData [(assetColumns env tmp).map Prod.fst,
    (assetColumns env tmp).map Prod.snd]).deserialize = .ok cm)

include hcm

theorem mem_titles {title : String} :
    title ∈ cm.getTitles ↔ ∃ column ∈ assetColumns env tmp, ciStrip column.1 = title := by
  rw [mem_getTitles_columns hcm, columnTitles, List.mem_map]

theorem title_of_mem_baseColumns {column : Column} (h : column ∈ baseColumns env tmp) :
    column.1 ∈ cm.getTitles :=
  (mem_titles hcm).mpr ⟨column, mem_assetColumns.mpr (Or.inl h),
    ciStrip_of_mem_printedTitles (mem_printedTitles_of_mem_baseColumns h)⟩

theorem group_mem_titles {i : Nat} (hi : i < tmp.groups.length) :
    numbered "group." i ∈ cm.getTitles := by
  have ⟨column, hcolumn, heq⟩ : ∃ column ∈ baseColumns env tmp, column.1 = numbered "group." i :=
    group_mem_baseColumns hi
  rw [← heq]
  exact title_of_mem_baseColumns hcm hcolumn

theorem source_mem_titles {i : Nat} (hi : i < (printedLinks tmp).length) :
    numbered "power_source." i ∈ cm.getTitles := by
  have ⟨column, hcolumn, heq⟩ :
      ∃ column ∈ baseColumns env tmp, column.1 = numbered "power_source." i :=
    source_mem_baseColumns hi
  rw [← heq]
  exact title_of_mem_baseColumns hcm hcolumn

/-- The import uses the other columns, up to two. -/
theorem used_of_mem_baseColumns {column : Column}
    (h : column ∈ baseColumns env tmp) (hbut : column.1 ∉ ["location_type", "computed"]) :
    Used cm.getTitles column.1 := by
  have hfields : ∀ title ∈ printedFields,
      title ∈ fieldTitles ∨ title ∈ ["location_type", "computed"] := by
    decide
  rcases List.mem_append.mp (mem_printedTitles_of_mem_baseColumns h) with hfield | hnumbered
  · exact .field ((hfields _ hfield).resolve_right hbut)
  · rcases List.mem_append.mp hnumbered with hpower | hgroup
    · have ⟨i, hi, hpower⟩ := List.mem_flatMap.mp hpower
      rw [List.mem_range] at hi
      exact .power (fun j hj ↦ source_mem_titles hcm (by omega)) hpower
    · have ⟨i, hi, heq⟩ := List.mem_map.mp hgroup
      rw [List.mem_range] at hi
      rw [← heq]
      exact .group fun j hj ↦ group_mem_titles hcm (by omega)

/-- The member `computed` is read like an attribute, so that there is no room for one. -/
theorem computed_not_mem_ordinaryNames : "computed" ∉ ordinaryNames tmp := by
  intro h
  obtain ⟨hnd, _⟩ := deserialize_columns_iff.mp hcm
  have hperm := (assetColumns_perm env tmp).map fun c ↦ ciStrip c.1
  rw [columnTitles, hperm.nodup_iff, List.map_append, List.nodup_append] at hnd
  have hname : ciStrip "computed" = "computed" := by decide
  obtain ⟨hkind, ⟨value, readOnly⟩, hmem⟩ := mem_ordinaryNames.mp h
  have hordinary : ("computed", value) ∈ ordinaryColumns tmp :=
    mem_ordinaryColumns.mpr ⟨readOnly, hmem, hkind, (by decide : "computed" ≠ "read_only")⟩
  refine hnd.2.2 "computed" ?_ "computed" ?_ rfl
  · exact List.mem_map.mpr ⟨_, computed_mem_baseColumns, hname⟩
  · exact List.mem_map.mpr ⟨_, List.mem_append_left _ hordinary, hname⟩

theorem computed_mem_extendedColumns : "computed" ∈ extendedColumns cm := by
  refine mem_extendedColumns.mpr ⟨title_of_mem_baseColumns hcm computed_mem_baseColumns, ?_⟩
  intro hused
  exact absurd (field_of_used hused (by decide)) (by decide)

/-! ### From the table to the attributes -/

section

variable (hsame : ∀ title ∉ ["location_type", "computed"],
  title ∈ extendedColumns cm ↔ title ∈ (assetAttributes tmp).map Prod.fst)

include hsame

theorem ordinary_mem_extendedColumns {name : String} (h : name ∈ ordinaryNames tmp) :
    name ∈ extendedColumns cm := by
  have ⟨hkind, ⟨value, readOnly⟩, hmem⟩ := mem_ordinaryNames.mp h
  have hhidden : ∀ other ∈ ["name", "location_type"], extKind other = .hidden := by decide
  have hne {other : String} (hother : other ∈ ["name", "location_type"]) : name ≠ other := by
    rintro rfl
    rw [hhidden name hother] at hkind
    cases hkind
  refine (hsame name ?_).mpr (List.mem_map.mpr ⟨(name, value), ?_, rfl⟩)
  · simp only [List.mem_cons, List.not_mem_nil, or_false, not_or]
    refine ⟨hne (by decide), ?_⟩
    rintro rfl
    exact computed_not_mem_ordinaryNames hcm h
  · exact mem_assetAttributes.mpr ⟨readOnly, hmem, hne (by decide)⟩

theorem ordinary_normalized {name : String} (h : name ∈ ordinaryNames tmp) :
    ciStrip name = name := by
  have ⟨htitle, _⟩ := mem_extendedColumns.mp (ordinary_mem_extendedColumns hcm hsame h)
  obtain ⟨column, _, rfl⟩ := (mem_titles hcm).mp htitle
  exact ciStrip_ciStrip _

theorem ordinary_not_used {name : String} (h : name ∈ ordinaryNames tmp) :
    name ∈ cm.getTitles ∧ ¬ Used cm.getTitles name :=
  mem_extendedColumns.mp (ordinary_mem_extendedColumns hcm hsame h)

/-- A title is the title of a column, as it is. -/
theorem column_of_mem_titles {title : String} (h : title ∈ cm.getTitles) :
    ∃ column ∈ assetColumns env tmp, column.1 = title := by
  have ⟨column, hcolumn, htitle⟩ := (mem_titles hcm).mp h
  rw [ciStrip_of_mem_assetColumns (fun _ ↦ ordinary_normalized hcm hsame) hcolumn] at htitle
  exact ⟨column, hcolumn, htitle⟩

theorem readOnly_not_mem_ordinaryNames : "read_only" ∉ ordinaryNames tmp := by
  intro h
  obtain ⟨hkind, _⟩ := mem_ordinaryNames.mp h
  obtain ⟨column, hcolumn, htitle⟩ :=
    column_of_mem_titles hcm hsame (ordinary_not_used hcm hsame h).1
  rcases mem_assetColumns.mp hcolumn with hcolumn | hcolumn | hcolumn | hcolumn
  · have hprinted := mem_printedTitles_of_mem_baseColumns hcolumn
    rw [htitle] at hprinted
    rcases List.mem_append.mp hprinted with hfield | hnumbered
    · exact absurd hfield (by decide)
    · exact absurd (point_of_mem_numberedTitles hnumbered) (by decide)
  · obtain ⟨_, _, _, hne⟩ := mem_ordinaryColumns.mp hcolumn
    exact hne htitle
  · obtain ⟨item, hlist⟩ := extKind_of_mem_listsColumns hcolumn
    rw [htitle, hkind] at hlist
    exact absurd hlist (by simp [listKinds])
  · obtain ⟨attr, houtlet⟩ := extKind_of_mem_outletColumns hcolumn
    rw [htitle, hkind] at houtlet
    cases houtlet

omit hcm in
/-- An attribute of a list or of an outlet is a title of its own. -/
theorem pattern_mem_titles {name : String} (h : (extKind name).pattern ≠ none) :
    name ∈ cm.getTitles ↔ ∃ value, (name, value) ∈ leftExt tmp := by
  have ⟨hbut, hname⟩ := not_fixed_of_pattern h
  have hextended : name ∈ extendedColumns cm ↔ name ∈ cm.getTitles := by
    rw [mem_extendedColumns]
    exact and_iff_left fun hused ↦ h (pattern_of_used hused)
  rw [← hextended, hsame name hbut, List.mem_map]
  constructor
  · rintro ⟨column, hcolumn, rfl⟩
    have ⟨readOnly, hmem, _⟩ := mem_assetAttributes.mp hcolumn
    exact ⟨_, hmem⟩
  · intro ⟨⟨value, readOnly⟩, hmem⟩
    exact ⟨(name, value), mem_assetAttributes.mpr ⟨readOnly, hmem, hname⟩, rfl⟩

theorem kept_of_sameAttributes
    (hvalues : ∀ p ∈ assetAttributes tmp, p.1 ∉ ["location_type", "computed"] →
      cm.get 1 p.1 = .ok p.2)
    (hunquote : ∀ p ∈ listKinds, ∀ value ∈ valuesOf (leftExt tmp) p.1,
      (env.unquote value).isSome = true) : Kept env tmp where
  normalized _ h := ordinary_normalized hcm hsame h
  readOnly := readOnly_not_mem_ordinaryNames hcm hsame
  computed := computed_not_mem_ordinaryNames hcm
  fields _ h hfield := (ordinary_not_used hcm hsame h).2 (.field hfield)
  groups i hi h := by
    have ⟨htitle, hused⟩ := ordinary_not_used hcm hsame h
    -- the titles of the groups before it are there, so an import would take it for a group
    refine hused (.group fun j hj ↦ ?_)
    rcases Nat.eq_or_lt_of_le hj with rfl | hj
    · exact htitle
    · exact group_mem_titles hcm (by omega)
  sources i hi h := by
    have ⟨htitle, hused⟩ := ordinary_not_used hcm hsame h
    refine hused (.power (k := i) (fun j hj ↦ ?_) (mem_powerTitles.mpr (Or.inl rfl)))
    rcases Nat.eq_or_lt_of_le hj with rfl | hj
    · exact htitle
    · exact source_mem_titles hcm (by omega)
  sockets i hi := by
    have hsources : ∀ j ≤ i, numbered "power_source." j ∈ cm.getTitles :=
      fun j hj ↦ source_mem_titles hcm (by omega)
    constructor
    · intro h
      exact (ordinary_not_used hcm hsame h).2
        (.power hsources (mem_powerTitles.mpr (Or.inr (Or.inl rfl))))
    · intro h
      exact (ordinary_not_used hcm hsame h).2
        (.power hsources (mem_powerTitles.mpr (Or.inr (Or.inr rfl))))
  lists p hp i value hvalue := by
    -- the title is a title of the printed table, so an attribute of that name was read before
    have hcolumn : (countedTitle p.2 i, (env.unquote value).getD "") ∈ assetColumns env tmp :=
      mem_assetColumns.mpr (Or.inr (Or.inr (Or.inl
        (mem_listsColumns.mpr ⟨p, hp, i, value, hvalue, rfl⟩))))
    have hpattern : (extKind (countedTitle p.2 i)).pattern ≠ none := by
      rw [extKind_countedTitle hp i, pattern_of_mem_listKinds p hp]
      exact Option.some_ne_none _
    have htitle : countedTitle p.2 i ∈ cm.getTitles :=
      (mem_titles hcm).mpr ⟨_, hcolumn, ciStrip_of_pattern hpattern⟩
    have ⟨⟨v, readOnly⟩, hmem⟩ := (pattern_mem_titles hsame hpattern).mp htitle
    have ⟨hbut, hname⟩ := not_fixed_of_pattern hpattern
    have hget : cm.get 1 (countedTitle p.2 i) = .ok v :=
      hvalues (countedTitle p.2 i, v) (mem_assetAttributes.mpr ⟨readOnly, hmem, hname⟩) hbut
    have hlisted : cm.get 1 (countedTitle p.2 i) = .ok ((env.unquote value).getD "") :=
      (get_columns_iff hcm).mpr ⟨_, hcolumn, rfl, rfl⟩
    rw [hlisted] at hget
    rw [lookup_of_mem nodup_leftExt hmem, Option.map_some, ← Except.ok.inj hget]
    have ⟨text, htext⟩ := Option.isSome_iff_exists.mp
      (hunquote p hp value (List.mem_of_getElem? hvalue))
    rw [htext]
    rfl
  outlets p hmem attr hkind := by
    -- of the columns with this title, only one for an outlet has its pattern
    have hpattern : (extKind p.1).pattern ≠ none := by
      rw [hkind]
      exact Option.some_ne_none _
    have htitle := (pattern_mem_titles hsame hpattern).mpr ⟨p.2, hmem⟩
    have ⟨column, hcolumn, heq⟩ := column_of_mem_titles hcm hsame htitle
    rcases mem_assetColumns.mp hcolumn with hcolumn | hcolumn | hcolumn | hcolumn
    · have hprinted := mem_printedTitles_of_mem_baseColumns hcolumn
      rw [heq] at hprinted
      exact absurd (pattern_of_mem_printedTitles hprinted) hpattern
    · have hordinary := extKind_of_mem_ordinaryColumns hcolumn
      rw [heq, hkind] at hordinary
      cases hordinary
    · have ⟨item, hlist⟩ := extKind_of_mem_listsColumns hcolumn
      rw [heq, hkind] at hlist
      exact absurd hlist outlet_not_mem_listKinds
    · have ⟨hne, _, readOnly, hcolumn, _⟩ := (mem_outletColumns nodup_leftExt).mp hcolumn
      rw [heq] at hcolumn
      have hlookup := lookup_of_mem nodup_leftExt hmem
      rw [lookup_of_mem nodup_leftExt hcolumn] at hlookup
      rw [← Option.some.inj hlookup]
      exact hne

end

end

/-! ### From the attributes to the table -/

namespace Kept

variable {env : AssetJsonEnv} {tmp : Shared.WebElement}

theorem not_printed (h : Kept env tmp) {name : String} (hname : name ∈ ordinaryNames tmp) :
    name ∉ printedTitles tmp := by
  intro hprinted
  have ⟨hkind, _⟩ := mem_ordinaryNames.mp hname
  rcases List.mem_append.mp hprinted with hfield | hnumbered
  · have hfields : ∀ title ∈ printedFields,
        title ∈ fieldTitles ∨ title = "computed" ∨ extKind title = .hidden := by
      decide +kernel
    rcases hfields name hfield with hfield | rfl | hhidden
    · exact h.fields name hname hfield
    · exact h.computed hname
    · rw [hkind] at hhidden
      cases hhidden
  · rcases List.mem_append.mp hnumbered with hpower | hgroup
    · have ⟨i, hi, hpower⟩ := List.mem_flatMap.mp hpower
      rw [List.mem_range] at hi
      rcases mem_powerTitles.mp hpower with rfl | rfl | rfl
      · exact h.sources i (by omega) hname
      · exact (h.sockets i hi).1 hname
      · exact (h.sockets i hi).2 hname
    · obtain ⟨i, hi, rfl⟩ := List.mem_map.mp hgroup
      rw [List.mem_range] at hi
      exact h.groups i (by omega) hname

section

variable (hunquote : ∀ p ∈ listKinds, ∀ value ∈ valuesOf (leftExt tmp) p.1,
  (env.unquote value).isSome = true)

include hunquote

theorem listed (h : Kept env tmp) {kind : ExtKind} {item : String} (hkind : (kind, item) ∈ listKinds)
    {i : Nat} {value : String} (hvalue : (valuesOf (leftExt tmp) kind)[i]? = some value) :
    ∃ readOnly, (countedTitle item i, (env.unquote value).getD "", readOnly) ∈ leftExt tmp := by
  have hlookup := h.lists _ hkind i value hvalue
  have ⟨text, htext⟩ := Option.isSome_iff_exists.mp
    (hunquote _ hkind value (List.mem_of_getElem? hvalue))
  rw [htext, Option.map_eq_some_iff] at hlookup
  obtain ⟨⟨_, readOnly⟩, hlookup, rfl⟩ := hlookup
  rw [htext]
  exact ⟨readOnly, mem_of_lookup hlookup⟩

/-- The attributes of a list are the ones with the numbers from `1` on. -/
theorem mem_listsColumns_iff (h : Kept env tmp) {column : Column} :
    column ∈ listsColumns env tmp ↔ ∃ readOnly item, (column.1, column.2, readOnly) ∈ leftExt tmp ∧
      (extKind column.1, item) ∈ listKinds := by
  constructor
  · intro hcolumn
    have ⟨item, hkind⟩ := extKind_of_mem_listsColumns hcolumn
    obtain ⟨p, hp, i, value, hvalue, rfl⟩ := mem_listsColumns.mp hcolumn
    have ⟨readOnly, hmem⟩ := h.listed hunquote hp hvalue
    exact ⟨readOnly, item, hmem, hkind⟩
  · intro ⟨readOnly, item, hmem, hkind⟩
    have hpoints : ∀ p ∈ listKinds, p.2.toList.getLast? = some '.' := by decide
    have hpoint := hpoints _ hkind
    have hsubset : (List.range (valuesOf (leftExt tmp) (extKind column.1)).length).map
        (numbered item) ⊆ (ofKind (leftExt tmp) (extKind column.1)).map Prod.fst := by
      intro title htitle
      obtain ⟨i, hi, rfl⟩ := List.mem_map.mp htitle
      have ⟨_, hlisted⟩ := h.listed hunquote hkind
        (List.getElem?_eq_getElem (List.mem_range.mp hi))
      refine List.mem_map.mpr ⟨_, List.mem_filter.mpr ⟨hlisted, ?_⟩, rfl⟩
      rw [decide_eq_true_eq]
      exact extKind_countedTitle hkind i
    -- there are as many names as numbers
    have hnd : ((List.range (valuesOf (leftExt tmp) (extKind column.1)).length).map
        (numbered item)).Nodup :=
      List.nodup_range.map fun _ _ heq ↦ ((numbered_inj hpoint hpoint).mp heq).2
    have hperm := (List.subperm_of_subset hnd hsubset).perm_of_length_le (by
      rw [valuesOf, List.length_map, List.length_map, List.length_range, List.length_map])
    have hname : column.1 ∈ (ofKind (leftExt tmp) (extKind column.1)).map Prod.fst :=
      List.mem_map.mpr ⟨_, List.mem_filter.mpr ⟨hmem, decide_eq_true rfl⟩, rfl⟩
    have ⟨i, hi, htitle⟩ := List.mem_map.mp (hperm.mem_iff.mpr hname)
    have hvalue := List.getElem?_eq_getElem (List.mem_range.mp hi)
    have ⟨_, hlisted⟩ := h.listed hunquote hkind hvalue
    have htitle : countedTitle item i = column.1 := htitle
    have hlookup := lookup_of_mem nodup_leftExt hmem
    rw [htitle] at hlisted
    rw [lookup_of_mem nodup_leftExt hlisted] at hlookup
    refine mem_listsColumns.mpr ⟨_, hkind, i, _, hvalue, ?_⟩
    rw [htitle, (Prod.mk.inj (Option.some.inj hlookup)).1]

/-- The columns of the attributes are the attributes that are not hidden. -/
theorem mem_attributeColumns_iff (h : Kept env tmp) {column : Column} :
    column ∈ attributeColumns env tmp ↔
      ∃ readOnly, (column.1, column.2, readOnly) ∈ leftExt tmp ∧ extKind column.1 ≠ .hidden := by
  rw [attributeColumns, List.mem_append, List.mem_append, h.mem_listsColumns_iff hunquote,
    mem_ordinaryColumns, mem_outletColumns nodup_leftExt]
  constructor
  · rintro (⟨readOnly, hmem, hkind, _⟩ | ⟨readOnly, item, hmem, hkind⟩ |
      ⟨_, attr, readOnly, hmem, hkind⟩)
    · refine ⟨readOnly, hmem, ?_⟩
      rw [hkind]
      decide
    · refine ⟨readOnly, hmem, fun hhidden ↦ ?_⟩
      rw [hhidden] at hkind
      exact absurd hkind (by simp [listKinds])
    · refine ⟨readOnly, hmem, ?_⟩
      rw [hkind]
      exact ExtKind.noConfusion
  · rintro ⟨readOnly, hmem, hne⟩
    -- each kind of attribute is printed in one place, as its name tells
    cases hkind : extKind column.1 with
    | hidden => exact absurd hkind hne
    | ordinary =>
      refine Or.inl ⟨readOnly, hmem, rfl, fun hname ↦ h.readOnly ?_⟩
      rw [← hname]
      exact mem_ordinaryNames.mpr ⟨hkind, _, hmem⟩
    | outlet attr =>
      exact Or.inr (Or.inr ⟨h.outlets _ hmem attr hkind, attr, readOnly, hmem, rfl⟩)
    | ip => exact Or.inr (Or.inl ⟨readOnly, "ip.", hmem, by decide⟩)
    | mac => exact Or.inr (Or.inl ⟨readOnly, "mac.", hmem, by decide⟩)
    | fqdn => exact Or.inr (Or.inl ⟨readOnly, "fqdn.", hmem, by decide⟩)
    | hostname => exact Or.inr (Or.inl ⟨readOnly, "hostname.", hmem, by decide⟩)

end

variable {cm : CsvMap}
  (hcm : (CsvMap.ofData [(assetColumns env tmp).map Prod.fst,
    (assetColumns env tmp).map Prod.snd]).deserialize = .ok cm)

include hcm

theorem column_of_mem_titles (h : Kept env tmp) {title : String} (htitle : title ∈ cm.getTitles) :
    ∃ column ∈ assetColumns env tmp, column.1 = title := by
  have ⟨column, hcolumn, heq⟩ := (mem_titles hcm).mp htitle
  rw [ciStrip_of_mem_assetColumns h.normalized hcolumn] at heq
  exact ⟨column, hcolumn, heq⟩

theorem printed_or_ordinary (h : Kept env tmp) {title : String} (htitle : title ∈ cm.getTitles)
    (hpattern : (extKind title).pattern = none) :
    title ∈ printedTitles tmp ∨ title ∈ ordinaryNames tmp := by
  obtain ⟨column, hcolumn, rfl⟩ := h.column_of_mem_titles hcm htitle
  rcases mem_assetColumns.mp hcolumn with hcolumn | hcolumn | hcolumn | hcolumn
  · exact Or.inl (mem_printedTitles_of_mem_baseColumns hcolumn)
  · have ⟨_, hmem, hkind, _⟩ := mem_ordinaryColumns.mp hcolumn
    exact Or.inr (mem_ordinaryNames.mpr ⟨hkind, _, hmem⟩)
  · have ⟨item, hkind⟩ := extKind_of_mem_listsColumns hcolumn
    rw [pattern_of_mem_listKinds _ hkind] at hpattern
    cases hpattern
  · have ⟨attr, hkind⟩ := extKind_of_mem_outletColumns hcolumn
    rw [hkind] at hpattern
    cases hpattern

/-- The groups with a title are the ones that are printed. -/
theorem group_lt (h : Kept env tmp) {k : Nat}
    (hall : ∀ j ≤ k, numbered "group." j ∈ cm.getTitles) : k < tmp.groups.length := by
  by_contra hk
  have htitle := hall tmp.groups.length (by omega)
  have hpattern : (extKind (numbered "group." tmp.groups.length)).pattern = none :=
    pattern_numbered (c := 'g') rfl (by decide) _
  rcases h.printed_or_ordinary hcm htitle hpattern with hprinted | hordinary
  · exact Nat.lt_irrefl _ (group_mem_printedTitles hprinted)
  · exact h.groups _ (Nat.le_refl _) hordinary

theorem source_lt (h : Kept env tmp) {k : Nat}
    (hall : ∀ j ≤ k, numbered "power_source." j ∈ cm.getTitles) :
    k < (printedLinks tmp).length := by
  by_contra hk
  have htitle := hall (printedLinks tmp).length (by omega)
  have hpattern : (extKind (numbered "power_source." (printedLinks tmp).length)).pattern = none :=
    pattern_numbered (c := 'p') rfl (by decide) _
  rcases h.printed_or_ordinary hcm htitle hpattern with hprinted | hordinary
  · exact Nat.lt_irrefl _ (source_mem_printedTitles hprinted)
  · exact h.sources _ (Nat.le_refl _) hordinary

theorem not_used (h : Kept env tmp) {name : String} (hname : name ∈ ordinaryNames tmp) :
    ¬ Used cm.getTitles name := by
  intro hused
  cases hused with
  | field hfield => exact h.fields _ hname hfield
  | group hall => exact h.groups _ (Nat.le_of_lt (h.group_lt hcm hall)) hname
  | power hall hpower =>
    have hlt := h.source_lt hcm hall
    rcases mem_powerTitles.mp hpower with rfl | rfl | rfl
    · exact h.sources _ (Nat.le_of_lt hlt) hname
    · exact (h.sockets _ hlt).1 hname
    · exact (h.sockets _ hlt).2 hname

end Kept

section

variable {env : AssetJsonEnv} {tmp : Shared.WebElement} {isBool : Json → Bool} {doc : Json}

theorem sameAttributes_of_kept (h : Kept env tmp)
    (hread : readSi isBool doc = .ok (assetColumns env tmp))
    (hunquote : ∀ p ∈ listKinds, ∀ value ∈ valuesOf (leftExt tmp) p.1,
      (env.unquote value).isSome = true) :
    SameAttributes isBool ["location_type", "computed"] tmp doc := by
  have htitles : columnTitles (assetColumns env tmp) = (assetColumns env tmp).map Prod.fst :=
    List.map_congr_left fun column hcolumn ↦ ciStrip_of_mem_assetColumns h.normalized hcolumn
  have hnd : (columnTitles (assetColumns env tmp)).Nodup := by
    rw [htitles]
    exact nodup_assetColumns fun column hcolumn hname ↦
      h.not_printed hname (mem_printedTitles_of_mem_baseColumns hcolumn)
  obtain ⟨cm, hcm⟩ : ∃ cm, (CsvMap.ofData [(assetColumns env tmp).map Prod.fst,
      (assetColumns env tmp).map Prod.snd]).deserialize = .ok cm :=
    ⟨_, deserialize_columns_iff.mpr ⟨hnd, rfl⟩⟩
  -- an attribute that is neither hidden nor the type of the location has a column
  have hcolumns {column : Column} (hattribute : column ∈ assetAttributes tmp)
      (hbut : column.1 ∉ ["location_type", "computed"]) :
      column ∈ assetColumns env tmp ∧ extKind column.1 ≠ .hidden := by
    have ⟨readOnly, hmem, hname⟩ := mem_assetAttributes.mp hattribute
    have hkind : extKind column.1 ≠ .hidden := by
      intro hhidden
      rcases extKind_eq_hidden hhidden with heq | heq
      · exact hname heq
      · rw [heq] at hbut
        exact hbut (by decide)
    have hcolumn := (h.mem_attributeColumns_iff hunquote).mpr ⟨readOnly, hmem, hkind⟩
    exact ⟨(assetColumns_perm env tmp).mem_iff.mpr (List.mem_append_right _ hcolumn), hkind⟩
  refine ⟨cm, (csvMapFromSerializationInfo_eq_ok hread).mpr hcm, rows_columns hcm, ?_, ?_⟩
  · intro title hbut
    rw [mem_extendedColumns, List.mem_map]
    constructor
    · intro ⟨htitle, hused⟩
      obtain ⟨column, hcolumn, rfl⟩ := h.column_of_mem_titles hcm htitle
      rw [(assetColumns_perm env tmp).mem_iff, List.mem_append] at hcolumn
      rcases hcolumn with hcolumn | hcolumn
      · exact absurd (used_of_mem_baseColumns hcm hcolumn hbut) hused
      · have ⟨readOnly, hmem, hkind⟩ := (h.mem_attributeColumns_iff hunquote).mp hcolumn
        refine ⟨column, mem_assetAttributes.mpr ⟨readOnly, hmem, fun hname ↦ hkind ?_⟩, rfl⟩
        rw [hname]
        decide
    · rintro ⟨column, hattribute, rfl⟩
      have ⟨hcolumn, hkind⟩ := hcolumns hattribute hbut
      refine ⟨(mem_titles hcm).mpr ⟨column, hcolumn,
        ciStrip_of_mem_assetColumns h.normalized hcolumn⟩, fun hused ↦ ?_⟩
      have hpattern := pattern_of_used hused
      have ⟨readOnly, hmem, _⟩ := mem_assetAttributes.mp hattribute
      cases hordinary : extKind column.1 with
      | hidden => exact hkind hordinary
      | ordinary => exact h.not_used hcm (mem_ordinaryNames.mpr ⟨hordinary, _, hmem⟩) hused
      | _ =>
        rw [hordinary] at hpattern
        cases hpattern
  · intro p hp hbut
    exact (get_columns_iff hcm).mpr ⟨p, (hcolumns hp hbut).1, rfl, rfl⟩

/-- The document of an asset never gives its attributes alone, as the members `location_type` and
`computed` are read like attributes; up to these two, it keeps the attributes exactly when they are
as in `Kept`. -/
theorem getJsonAsset_keeps_attributes (hbool : ∀ b, isBool (jsonBool b) = true) {elemId : Nat}
    (htmp : env.getItem1 elemId = some tmp) (hdoc : getJsonAsset env elemId = some doc) :
    ¬ SameAttributes isBool [] tmp doc ∧
      (SameAttributes isBool ["location_type", "computed"] tmp doc ↔ Kept env tmp) := by
  have ⟨hread, hunquote⟩ := readSi_getJsonAsset hbool htmp hdoc
  refine ⟨?_, ?_, fun h ↦ sameAttributes_of_kept h hread hunquote⟩
  · intro ⟨cm, hcm, _, hsame, _⟩
    rw [csvMapFromSerializationInfo_eq_ok hread] at hcm
    have hname := (hsame "computed" List.not_mem_nil).mp (computed_mem_extendedColumns hcm)
    obtain ⟨⟨name, value⟩, hattribute, rfl⟩ := List.mem_map.mp hname
    have ⟨readOnly, hmem, _⟩ := mem_assetAttributes.mp hattribute
    have hkind : extKind "computed" = .ordinary := extKind_of_head? (c := 'c') rfl (by decide)
    exact computed_not_mem_ordinaryNames hcm (mem_ordinaryNames.mpr ⟨hkind, _, hmem⟩)
  · intro ⟨cm, hcm, _, hsame, hvalues⟩
    rw [csvMapFromSerializationInfo_eq_ok hread] at hcm
    exact kept_of_sameAttributes hcm hsame hvalues hunquote

end

/-- A truth value of a document. -/
def isTruth : Json → Bool
  | .str text => text = "true" || text = "false"
  | _ => false

/-- A server whose second address has no first one. -/
def gapServer : Shared.WebElement where
  basic := {
    id := 1
    name := "server-1"
    typeId := AssetType.device
    typeName := "device"
    parentId := 0
    subtypeName := "server"
    status := "active"
    priority := 1
    assetTag := "" }
  ext := [("ip.2", "10.0.0.2", false), ("name", "Server", false)]
  groups := []
  powers := []
  parents := []
  sorted := by
    rw [List.sortedLT_iff_pairwise]
    decide +kernel

/-- The database with this asset; its texts need no escape. -/
def gapEnv : AssetJsonEnv where
  getItem1 id := if id = 1 then some gapServer else none
  idToNameExtName _ := ("server-1", "Server")
  freeUSize _ := -1
  realpowerNominal _ := none
  rackOutletsAvailable _ := some []
  unquote := some

def gapDoc : Json :=
  .object [("id", .str "server-1"),
    ("power_devices_in_uri",
      .str "/api/v1/assets?in=server-1&sub_type=epdu,pdu,feed,genset,ups,sts,rackcontroller"),
    ("name", .str "Server"), ("status", .str "active"), ("priority", .str "P1"),
    ("type", .str "device"), ("location", .str ""), ("location_type", .str ""),
    ("groups", .array []), ("powers", .array []), ("sub_type", .str "server"),
    ("parents", .array []), ("ext", .array []), ("ips", .array [.str "10.0.0.2"]),
    ("computed", .object [])]

theorem getJsonAsset_keeps_attributes_gap :
    ¬ SameAttributes isTruth [] gapServer gapDoc ∧
      (SameAttributes isTruth ["location_type", "computed"] gapServer gapDoc ↔
        Kept gapEnv gapServer) := by
  have hbool : ∀ b, isTruth (jsonBool b) = true := by decide
  have htmp : gapEnv.getItem1 1 = some gapServer := rfl
  have hdoc : getJsonAsset gapEnv 1 = some gapDoc := by rfl
  exact getJsonAsset_keeps_attributes hbool htmp hdoc

/-- The address is printed without its number, and is read as the first one. -/
theorem gap_is_renumbered :
    getJsonAsset gapEnv 1 = some gapDoc ∧ ¬ SameAttributes isTruth [] gapServer gapDoc ∧
      ¬ SameAttributes isTruth ["location_type", "computed"] gapServer gapDoc := by
  have hread : readSi isTruth gapDoc = .ok [("id", "server-1"), ("name", "Server"),
      ("status", "active"), ("priority", "P1"), ("type", "device"), ("location", ""),
      ("location_type", ""), ("sub_type", "server"), ("ip.1", "10.0.0.2"), ("computed", "")] := rfl
  have hlost (but : List String) (hbut : "ip.2" ∉ but) :
      ¬ SameAttributes isTruth but gapServer gapDoc := by
    intro ⟨cm, hcm, _, _, hvalues⟩
    rw [csvMapFromSerializationInfo_eq_ok hread] at hcm
    have hget := hvalues ("ip.2", "10.0.0.2") (by decide +kernel) hbut
    have ⟨column, hcolumn, htitle, _⟩ := (get_columns_iff hcm).mp hget
    revert column
    decide +kernel
  exact ⟨rfl, hlost [] (by decide), hlost ["location_type", "computed"] (by decide)⟩

end FtyRest.Db
