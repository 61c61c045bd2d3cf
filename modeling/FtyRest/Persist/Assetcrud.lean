import Mathlib.Data.Finset.Dedup
import Mathlib.Data.Finset.Empty
import Mathlib.Data.List.ProdSigma
import FtyRest.Db.Types
import FtyRest.Lib.Sql

/-!
# `persist/assetcrud.cc`

The links of the devices in a container.
-/

namespace FtyRest.Persist

open Db

/-- A row of `v_bios_asset_link`. -/
structure LinkRow where
  idAssetElementSrc : Nat
  idAssetElementDest : Nat
  idAssetLinkType : Nat
  -- asserted for each row
  src_ne_zero : idAssetElementSrc ≠ 0
  dest_ne_zero : idAssetElementDest ≠ 0
deriving DecidableEq

/-- A row of `v_bios_asset_element_super_parent`. -/
structure SuperParentRow where
  idAssetElement : Nat
  idParent1 : Option Nat := none
  idParent2 : Option Nat := none
  idParent3 : Option Nat := none
  idParent4 : Option Nat := none
  idParent5 : Option Nat := none
  idParent6 : Option Nat := none
  idParent7 : Option Nat := none
  idParent8 : Option Nat := none
  idParent9 : Option Nat := none
  idParent10 : Option Nat := none
deriving DecidableEq

structure AssetViews where
  assetLink : List LinkRow
  superParent : List SuperParentRow

def inputPowerChain : Nat := 1

structure LinksReply extends DbReply where
  item : Finset (Nat × Nat) := ∅
deriving DecidableEq

/-- The condition of the query on a row of the links and two rows of the super parents. -/
def linksCondition (linktypeid containerid : Nat) (v : LinkRow) (v1 v2 : SuperParentRow) :
    Sql.Truth :=
  Sql.and (Sql.eq (some v.idAssetLinkType) (some linktypeid)) <|
  Sql.and (Sql.eq (some v.idAssetElementDest) (some v2.idAssetElement)) <|
  Sql.and (Sql.eq (some v.idAssetElementSrc) (some v1.idAssetElement)) <|
  Sql.or
    (Sql.isIn (some containerid)
      [v2.idParent1, v2.idParent2, v2.idParent3,
       v2.idParent4, v2.idParent5, v2.idParent6,
       v2.idParent7, v2.idParent8, v2.idParent9,
       v2.idParent10])
    (Sql.isIn (some containerid)
      [v1.idParent1, v1.idParent2, v1.idParent3,
       v1.idParent4, v1.idParent5, v1.idParent6,
       v1.idParent7, v1.idParent7, v1.idParent9,
       v1.idParent10])

def linksQuery (views : AssetViews) (linktypeid containerid : Nat) : List (Nat × Nat) :=
  (Sql.keep (views.assetLink ×ˢ views.superParent ×ˢ views.superParent) fun (v, v1, v2) ↦
    linksCondition linktypeid containerid v v1 v2).map fun (v, _, _) ↦
      (v.idAssetElementSrc, v.idAssetElementDest)

/-- The views are read through a connection, or an exception says why not. -/
def selectLinksByContainer (jsonify : String → String) (conn : Except String AssetViews)
    (elementId : Nat) : LinksReply :=
  let linktype := inputPowerChain
  match conn with
  | .ok views => { status := 1, item := (linksQuery views linktype elementId).toFinset }
  | .error e =>
      { status := 0, errtype := .dbErr, errsubtype := .internal, msg := jsonify e }

/-! ## The links of a container -/

/-- The ten ancestors of an element. -/
def SuperParentRow.parents (r : SuperParentRow) : List (Option Nat) :=
  [r.idParent1, r.idParent2, r.idParent3, r.idParent4, r.idParent5, r.idParent6, r.idParent7,
   r.idParent8, r.idParent9, r.idParent10]

namespace AssetViews

/-- The rows of an element. -/
def superParents (views : AssetViews) (element : Nat) : List SuperParentRow :=
  views.superParent.filter (·.idAssetElement = element)

def IsInside (views : AssetViews) (element container : Nat) : Prop :=
  ∃ r ∈ views.superParents element, some container ∈ r.parents

/-- The container is found at another place than the eighth. -/
def IsInsideButEighth (views : AssetViews) (element container : Nat) : Prop :=
  ∃ r ∈ views.superParents element, some container ∈ r.parents.eraseIdx 7

theorem mem_superParents {views : AssetViews} {element : Nat} {r : SuperParentRow} :
    r ∈ views.superParents element ↔ r ∈ views.superParent ∧ r.idAssetElement = element := by
  rw [superParents, List.mem_filter, decide_eq_true_eq]

theorem IsInsideButEighth.isInside {views : AssetViews} {element container : Nat}
    (h : views.IsInsideButEighth element container) : views.IsInside element container := by
  obtain ⟨r, hr, hparent⟩ := h
  exact ⟨r, hr, List.mem_of_mem_eraseIdx hparent⟩

end AssetViews

section

variable {views : AssetViews} {container linktypeid : Nat} {v : LinkRow} {v1 v2 : SuperParentRow}

/-- The seventh ancestor of the source stands in the place of the eighth. -/
theorem linksCondition_iff : linksCondition linktypeid container v v1 v2 = some true ↔
    v.idAssetLinkType = linktypeid ∧ v2.idAssetElement = v.idAssetElementDest ∧
    v1.idAssetElement = v.idAssetElementSrc ∧
    (some container ∈ v2.parents ∨ some container ∈ v1.parents.eraseIdx 7) := by
  have hsource : some container ∈
      [v1.idParent1, v1.idParent2, v1.idParent3, v1.idParent4, v1.idParent5, v1.idParent6,
       v1.idParent7, v1.idParent7, v1.idParent9, v1.idParent10] ↔
      some container ∈ v1.parents.eraseIdx 7 := by
    simp only [SuperParentRow.parents, List.eraseIdx_cons_succ, List.eraseIdx_cons_zero,
      List.mem_cons]
    tauto
  unfold linksCondition
  rw [Sql.and_eq_true, Sql.and_eq_true, Sql.and_eq_true, Sql.or_eq_true, Sql.isIn_eq_true,
    Sql.isIn_eq_true, Sql.eq_eq_true, Sql.eq_eq_true, Sql.eq_eq_true, hsource, Option.some.injEq,
    Option.some.injEq, Option.some.injEq, eq_comm (a := linktypeid)]
  rfl

/-- A link is selected for each pair of rows of its ends that the condition holds for. -/
theorem mem_linksQuery {src dest : Nat} : (src, dest) ∈ linksQuery views linktypeid container ↔
    ∃ v ∈ views.assetLink, v.idAssetElementSrc = src ∧ v.idAssetElementDest = dest ∧
      v.idAssetLinkType = linktypeid ∧ ∃ v1 ∈ views.superParents src,
      ∃ v2 ∈ views.superParents dest,
      some container ∈ v2.parents ∨ some container ∈ v1.parents.eraseIdx 7 := by
  unfold linksQuery
  rw [List.mem_map]
  constructor
  · rintro ⟨⟨v, v1, v2⟩, hmem, heq⟩
    rw [Sql.mem_keep, List.mem_product, List.mem_product, linksCondition_iff] at hmem
    obtain ⟨⟨hv, hv1, hv2⟩, htype, hdest, hsrc, hparent⟩ := hmem
    obtain ⟨rfl, rfl⟩ := Prod.mk.inj heq
    exact ⟨v, hv, rfl, rfl, htype, v1, AssetViews.mem_superParents.mpr ⟨hv1, hsrc⟩, v2,
      AssetViews.mem_superParents.mpr ⟨hv2, hdest⟩, hparent⟩
  · rintro ⟨v, hv, rfl, rfl, htype, v1, hv1, v2, hv2, hparent⟩
    obtain ⟨hv1, hsrc⟩ := AssetViews.mem_superParents.mp hv1
    obtain ⟨hv2, hdest⟩ := AssetViews.mem_superParents.mp hv2
    refine ⟨(v, v1, v2), ?_, rfl⟩
    rw [Sql.mem_keep, List.mem_product, List.mem_product, linksCondition_iff]
    exact ⟨⟨hv, hv1, hv2⟩, htype, hdest, hsrc, hparent⟩

/-- The links of a container: the power links with an end inside. -/
def SelectsLinks (views : AssetViews) (container : Nat) (reply : LinksReply) : Prop :=
  ∀ src dest, (src, dest) ∈ reply.item ↔
    ∃ v ∈ views.assetLink, v.idAssetElementSrc = src ∧ v.idAssetElementDest = dest ∧
      v.idAssetLinkType = inputPowerChain ∧
      (views.IsInside src container ∨ views.IsInside dest container)

/-- A link that the query sees: its ends have rows, and if only its source is inside, then not
only by its eighth ancestor. -/
def SeesLink (views : AssetViews) (container src dest : Nat) : Prop :=
  views.superParents src ≠ [] ∧ views.superParents dest ≠ [] ∧
  (views.IsInside dest container ∨ views.IsInsideButEighth src container)

theorem mem_item_iff {jsonify : String → String} {src dest : Nat} :
    (src, dest) ∈ (selectLinksByContainer jsonify (.ok views) container).item ↔
      ∃ v ∈ views.assetLink, v.idAssetElementSrc = src ∧ v.idAssetElementDest = dest ∧
        v.idAssetLinkType = inputPowerChain ∧ SeesLink views container src dest := by
  show (src, dest) ∈ (linksQuery views inputPowerChain container).toFinset ↔ _
  rw [List.mem_toFinset, mem_linksQuery]
  refine exists_congr fun v ↦ and_congr_right fun _ ↦ and_congr_right fun _ ↦
    and_congr_right fun _ ↦ and_congr_right fun _ ↦ ?_
  constructor
  · rintro ⟨v1, hv1, v2, hv2, hparent⟩
    refine ⟨List.ne_nil_of_mem hv1, List.ne_nil_of_mem hv2, ?_⟩
    cases hparent with
    | inl hdest => exact .inl ⟨v2, hv2, hdest⟩
    | inr hsrc => exact .inr ⟨v1, hv1, hsrc⟩
  · rintro ⟨hsrc, hdest, hinside⟩
    cases hinside with
    | inl hinside =>
      obtain ⟨v2, hv2, hparent⟩ := hinside
      obtain ⟨v1, hv1⟩ := List.exists_mem_of_ne_nil _ hsrc
      exact ⟨v1, hv1, v2, hv2, .inl hparent⟩
    | inr hinside =>
      obtain ⟨v1, hv1, hparent⟩ := hinside
      obtain ⟨v2, hv2⟩ := List.exists_mem_of_ne_nil _ hdest
      exact ⟨v1, hv1, v2, hv2, .inr hparent⟩

/-- What is selected has an end inside. -/
theorem SeesLink.isInside {src dest : Nat} (h : SeesLink views container src dest) :
    views.IsInside src container ∨ views.IsInside dest container := by
  obtain ⟨-, -, hinside⟩ := h
  cases hinside with
  | inl hdest => exact .inr hdest
  | inr hsrc => exact .inl hsrc.isInside

/-- The links of a container are selected exactly when the query sees each power link with an end
inside. -/
theorem selectLinksByContainer_selects_iff (jsonify : String → String) (views : AssetViews)
    (container : Nat) :
    SelectsLinks views container (selectLinksByContainer jsonify (.ok views) container) ↔
      ∀ v ∈ views.assetLink, v.idAssetLinkType = inputPowerChain →
        views.IsInside v.idAssetElementSrc container ∨
          views.IsInside v.idAssetElementDest container →
        SeesLink views container v.idAssetElementSrc v.idAssetElementDest := by
  constructor
  · intro h v hv htype hinside
    have hmem := (h v.idAssetElementSrc v.idAssetElementDest).mpr ⟨v, hv, rfl, rfl, htype, hinside⟩
    obtain ⟨_, _, _, _, _, hsees⟩ := mem_item_iff.mp hmem
    exact hsees
  · intro h src dest
    rw [mem_item_iff]
    constructor
    · rintro ⟨v, hv, hsrc, hdest, htype, hsees⟩
      exact ⟨v, hv, hsrc, hdest, htype, hsees.isInside⟩
    · rintro ⟨v, hv, rfl, rfl, htype, hinside⟩
      exact ⟨v, hv, rfl, rfl, htype, h v hv htype hinside⟩

end

/-- The source is in the container by its eighth ancestor. -/
theorem eighth_ancestor_of_source :
    let views : AssetViews :=
      { assetLink := [⟨10, 11, inputPowerChain, by decide, by decide⟩],
        superParent :=
          [{ idAssetElement := 10, idParent1 := some 8, idParent2 := some 7, idParent3 := some 6,
             idParent4 := some 5, idParent5 := some 4, idParent6 := some 3, idParent7 := some 2,
             idParent8 := some 1 },
           { idAssetElement := 11, idParent1 := some 9 }] }
    ¬ SelectsLinks views 1 (selectLinksByContainer id (.ok views) 1) := by
  intro views h
  have hmem : (10, 11) ∈ (selectLinksByContainer id (.ok views) 1).item := by
    refine (h 10 11).mpr ⟨_, List.mem_singleton.mpr rfl, rfl, rfl, rfl, .inl ?_⟩
    exact ⟨_, List.mem_cons_self, by decide⟩
  exact absurd hmem (by decide)

end FtyRest.Persist
