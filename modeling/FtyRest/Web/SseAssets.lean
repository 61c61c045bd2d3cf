import FtyRest.Web.Sse

/-!
# Where a session looks for an asset

The two sets of a session against the latest message about an asset.
-/

namespace FtyRest.Web

open History

/-- A message, and what the other agents answer while it is handled. -/
structure AssetInput where
  env : Env
  asset : AssetMsg

def assetStep (s : Sse) (input : AssetInput) : Sse × Option Event :=
  changeFtyProtoAsset2Json input.env s input.asset

/-- The message says that the asset is a device with no parent; one without a type counts. -/
def AssetMsg.Unlocated (asset : AssetMsg) : Prop :=
  asset.auxString "parent" "0" = "0" ∧
    (asset.auxString "type" "none" = "device" ∨ asset.auxString "type" "none" = "none")

instance (asset : AssetMsg) : Decidable asset.Unlocated :=
  inferInstanceAs (Decidable (_ ∧ _))

/-- Where an asset is: under the datacenter, and among the devices with no parent. -/
structure Place where
  under : Prop
  unlocated : Prop

/-- Where a message puts its asset. -/
def AssetMsg.place (datacenter : String) (asset : AssetMsg) : Place :=
  if asset.operation = .delete then ⟨False, False⟩
  else ⟨isAssetInDatacenter datacenter asset = true, asset.Unlocated⟩

def AssetInput.About (name : String) (input : AssetInput) : Bool :=
  input.asset.name = name ∧ input.asset.operation ≠ .other

/-- Where the latest message about an asset puts it, or the load of the session `s`. -/
def latestPlace (s : Sse) (inputs : List AssetInput) (name : String) : Place :=
  match lastWith (AssetInput.About name) inputs with
  | some input => input.asset.place s.datacenter
  | none => ⟨name ∈ s.assetsOfDatacenter, name ∈ s.assetsWithNoLocation⟩

/-- The sets of the session are where the latest messages put the assets. -/
def Tracks (s : Sse) (inputs : List AssetInput) : Prop :=
  ∀ name,
    (name ∈ (final assetStep s inputs).assetsOfDatacenter ↔
      (latestPlace s inputs name).under) ∧
    (name ∈ (final assetStep s inputs).assetsWithNoLocation ↔
      (latestPlace s inputs name).unlocated)

/-- After a message the sets track the assets, and an asset is only reported as deleted when it is
deleted or in neither place. -/
def Followed (s : Sse) (inputs : List AssetInput) (input : AssetInput) : Prop :=
  Tracks s (inputs ++ [input]) ∧
    ∀ name, (assetStep (final assetStep s inputs) input).2 = some (.deleted name) →
      input.asset.name = name ∧ input.asset.operation = .delete ∨
        ¬ (latestPlace s (inputs ++ [input]) name).under ∧
          ¬ (latestPlace s (inputs ++ [input]) name).unlocated

section

variable {s : Sse} {input : AssetInput} {name : String}

theorem publishAsset_deleted_iff {env : Env} {json : Option Event} {asset : String} :
    publishAsset env asset json = some (.deleted name) ↔ json = some (.deleted name) := by
  unfold publishAsset
  by_cases hid : env.nameToAssetId asset = -1
  · simp only [hid, if_true]
  · cases json with
    | some event => simp only [hid, if_false]
    | none =>
      by_cases hpayload : env.getJsonAsset (env.nameToAssetId asset) = ""
      · simp [hid, hpayload]
      · simp [hid, hpayload]

/-- A message changes nothing for another asset. -/
theorem assetStep_other (h : name ≠ input.asset.name) :
    (name ∈ (assetStep s input).1.assetsOfDatacenter ↔ name ∈ s.assetsOfDatacenter) ∧
      (name ∈ (assetStep s input).1.assetsWithNoLocation ↔ name ∈ s.assetsWithNoLocation) := by
  cases hop : input.asset.operation with
  | other =>
    simp only [assetStep, changeFtyProtoAsset2Json, hop]
    exact ⟨trivial, trivial⟩
  | _ =>
    simp only [assetStep, changeFtyProtoAsset2Json, hop]
    split_ifs <;> simp [h]

/-- Whether the asset of a message is in the set of the datacenter after it. -/
def InDatacenter (s : Sse) (asset : AssetMsg) : Prop :=
  match asset.operation with
  | .delete => False
  | .update | .inventory =>
      asset.name ∈ s.assetsOfDatacenter ∨
        asset.name ∈ s.assetsWithNoLocation ∧ isAssetInDatacenter s.datacenter asset = true
  | .create =>
      asset.name ∈ s.assetsOfDatacenter ∨
        asset.auxString "parent" "0" ≠ "0" ∧ isAssetInDatacenter s.datacenter asset = true
  | .other => asset.name ∈ s.assetsOfDatacenter

/-- Whether it is in the set of the assets without location after it. -/
def InNoLocation (s : Sse) (asset : AssetMsg) : Prop :=
  match asset.operation with
  | .delete | .update | .inventory =>
      asset.name ∈ s.assetsOfDatacenter ∧ asset.name ∈ s.assetsWithNoLocation
  | .create => asset.name ∈ s.assetsWithNoLocation ∨ asset.Unlocated
  | .other => asset.name ∈ s.assetsWithNoLocation

theorem assetStep_self :
    (input.asset.name ∈ (assetStep s input).1.assetsOfDatacenter ↔ InDatacenter s input.asset) ∧
      (input.asset.name ∈ (assetStep s input).1.assetsWithNoLocation ↔
        InNoLocation s input.asset) := by
  cases hop : input.asset.operation with
  | other =>
    simp only [assetStep, changeFtyProtoAsset2Json, InDatacenter, InNoLocation, hop]
    exact ⟨trivial, trivial⟩
  | _ =>
    simp only [assetStep, changeFtyProtoAsset2Json, InDatacenter, InNoLocation, hop,
      AssetMsg.Unlocated]
    split_ifs <;> simp_all

/-- When an asset is reported as deleted. -/
def ReportsDeleted (s : Sse) (asset : AssetMsg) : Prop :=
  match asset.operation with
  | .delete => asset.name ∈ s.assetsOfDatacenter ∨ asset.name ∈ s.assetsWithNoLocation
  | .update | .inventory =>
      asset.name ∉ s.assetsOfDatacenter ∧ asset.name ∈ s.assetsWithNoLocation ∧
        ¬ isAssetInDatacenter s.datacenter asset = true
  | .create | .other => False

theorem assetStep_deleted_iff :
    (assetStep s input).2 = some (.deleted name) ↔
      ReportsDeleted s input.asset ∧ input.asset.name = name := by
  cases hop : input.asset.operation with
  | other => simp [assetStep, changeFtyProtoAsset2Json, ReportsDeleted, hop]
  | _ =>
    simp only [assetStep, changeFtyProtoAsset2Json, ReportsDeleted, hop]
    split_ifs <;> simp_all [publishAsset_deleted_iff]

/-- The message fits the sets before it: it deletes an asset that is in one of them only; it is an
update that leaves an asset of the datacenter under it, moves an asset without location under it
or away from both, or is about an asset in neither place; or it creates an asset that is in no
other place than the one that it says. -/
def Fits (s : Sse) (asset : AssetMsg) : Prop :=
  match asset.operation with
  | .delete => ¬ (asset.name ∈ s.assetsOfDatacenter ∧ asset.name ∈ s.assetsWithNoLocation)
  | .update | .inventory =>
      (asset.name ∈ s.assetsOfDatacenter → isAssetInDatacenter s.datacenter asset = true) ∧
        (isAssetInDatacenter s.datacenter asset = true →
          asset.name ∈ s.assetsOfDatacenter ∨ asset.name ∈ s.assetsWithNoLocation) ∧
        (asset.Unlocated ↔
          asset.name ∈ s.assetsOfDatacenter ∧ asset.name ∈ s.assetsWithNoLocation)
  | .create =>
      (asset.name ∈ s.assetsOfDatacenter → isAssetInDatacenter s.datacenter asset = true) ∧
        (isAssetInDatacenter s.datacenter asset = true →
          asset.name ∈ s.assetsOfDatacenter ∨ asset.auxString "parent" "0" ≠ "0") ∧
        (asset.name ∈ s.assetsWithNoLocation → asset.Unlocated)
  | .other => True

theorem fits_iff {asset : AssetMsg} (h : asset.operation ≠ .other) : Fits s asset ↔
    (InDatacenter s asset ↔ (asset.place s.datacenter).under) ∧
      (InNoLocation s asset ↔ (asset.place s.datacenter).unlocated) := by
  unfold Fits InDatacenter InNoLocation AssetMsg.place
  cases hop : asset.operation with
  | delete => simp only [if_true, iff_false, true_and]
  | update =>
    simp only [reduceCtorEq, if_false]
    tauto
  | inventory =>
    simp only [reduceCtorEq, if_false]
    tauto
  | create =>
    simp only [reduceCtorEq, if_false]
    tauto
  | other => exact absurd hop h

theorem assetStep_datacenter : (assetStep s input).1.datacenter = s.datacenter := by
  unfold assetStep changeFtyProtoAsset2Json
  cases input.asset.operation with
  | other => rfl
  | _ =>
    dsimp only
    split_ifs <;> rfl

theorem final_datacenter {inputs : List AssetInput} :
    (final assetStep s inputs).datacenter = s.datacenter := by
  refine final_induction (I := fun t : Sse ↦ t.datacenter = s.datacenter) rfl ?_
  intro t input _ h
  rw [assetStep_datacenter, h]

theorem latestPlace_other {inputs : List AssetInput} (h : input.asset.name ≠ name) :
    latestPlace s (inputs ++ [input]) name = latestPlace s inputs name := by
  unfold latestPlace
  rw [lastWith_concat, if_neg]
  simp [AssetInput.About, h]

/-- An unknown operation says nothing about its asset. -/
theorem latestPlace_unknown {inputs : List AssetInput} (h : input.asset.operation = .other) :
    latestPlace s (inputs ++ [input]) name = latestPlace s inputs name := by
  unfold latestPlace
  rw [lastWith_concat, if_neg]
  simp [AssetInput.About, h]

theorem latestPlace_self {inputs : List AssetInput} (h : input.asset.operation ≠ .other) :
    latestPlace s (inputs ++ [input]) input.asset.name = input.asset.place s.datacenter := by
  unfold latestPlace
  rw [lastWith_concat, if_pos]
  simp [AssetInput.About, h]

/-- An update that reports its asset as deleted says that it is in neither place, if it fits. -/
theorem reportsDeleted_place {asset : AssetMsg} (hfits : Fits s asset)
    (h : ReportsDeleted s asset) : asset.operation = .delete ∨
      ¬ (asset.place s.datacenter).under ∧ ¬ (asset.place s.datacenter).unlocated := by
  unfold ReportsDeleted at h
  unfold Fits at hfits
  unfold AssetMsg.place
  cases hop : asset.operation with
  | delete => exact Or.inl rfl
  | update =>
    rw [hop] at h hfits
    rw [if_neg (by decide)]
    exact Or.inr ⟨h.2.2, fun hunlocated ↦ h.1 (hfits.2.2.mp hunlocated).1⟩
  | inventory =>
    rw [hop] at h hfits
    rw [if_neg (by decide)]
    exact Or.inr ⟨h.2.2, fun hunlocated ↦ h.1 (hfits.2.2.mp hunlocated).1⟩
  | create =>
    rw [hop] at h
    exact False.elim h
  | other =>
    rw [hop] at h
    exact False.elim h

/-- One message keeps the session on the track exactly when it fits. -/
theorem followed_iff_fits {inputs : List AssetInput} (h : Tracks s inputs) :
    Followed s inputs input ↔ Fits (final assetStep s inputs) input.asset := by
  unfold Followed Tracks
  simp only [final_concat]
  have hdc : (final assetStep s inputs).datacenter = s.datacenter := final_datacenter
  by_cases hop : input.asset.operation = .other
  · -- nothing is changed, and nothing is said
    have hstep : assetStep (final assetStep s inputs) input = (final assetStep s inputs, none) := by
      simp only [assetStep, changeFtyProtoAsset2Json, hop]
    have hfits : Fits (final assetStep s inputs) input.asset := by
      unfold Fits
      rw [hop]
      exact trivial
    simp only [hstep, latestPlace_unknown hop, hfits, iff_true]
    exact ⟨h, fun name hdeleted ↦ nomatch hdeleted⟩
  · rw [fits_iff hop, hdc, ← latestPlace_self hop]
    constructor
    · intro ⟨htracks, _⟩
      have ⟨hunder, hunlocated⟩ := htracks input.asset.name
      rw [assetStep_self.1] at hunder
      rw [assetStep_self.2] at hunlocated
      exact ⟨hunder, hunlocated⟩
    · intro hself
      constructor
      · intro name
        by_cases hname : name = input.asset.name
        · subst hname
          rw [assetStep_self.1, assetStep_self.2]
          exact hself
        · rw [(assetStep_other hname).1, (assetStep_other hname).2,
            latestPlace_other (Ne.symm hname)]
          exact h name
      · intro name hdeleted
        obtain ⟨hreports, rfl⟩ := assetStep_deleted_iff.mp hdeleted
        rw [latestPlace_self hop] at hself ⊢
        rw [← hdc] at hself ⊢
        exact (reportsDeleted_place ((fits_iff hop).mpr hself) hreports).imp (fun h ↦ ⟨rfl, h⟩) id

/-- After every message the session is where the latest messages put the assets, exactly when every
message fits the sets before it. -/
theorem session_followed_iff (s : Sse) (inputs : List AssetInput) :
    EveryTime (Followed s) inputs ↔
      EveryTime (fun before input ↦ Fits (final assetStep s before) input.asset) inputs := by
  apply everyTime_congr (I := Tracks s)
  · intro name
    exact ⟨Iff.rfl, Iff.rfl⟩
  · intro before input h
    exact followed_iff_fits h
  · intro before input h
    exact h.1

end

/-! ## A rack that is moved -/

/-- A session with a rack in its datacenter. -/
def rackSession : Sse where
  datacenter := "datacenter-3"
  assetsOfDatacenter := {"datacenter-3", "rack-7"}
  assetsWithNoLocation := ∅
  alertStates _ := none

/-- The rack is moved to another datacenter. -/
def rackMoved : AssetInput where
  env := ⟨fun _ ↦ 7, fun _ ↦ "rack", fun _ ↦ "alert"⟩
  asset := ⟨"rack-7", .update, [("parent", "9"), ("parent_name.1", "datacenter-9")]⟩

/-- It stays in the set of the datacenter, and is sent as a change. -/
theorem moved_rack_stays :
    "rack-7" ∈ (final assetStep rackSession [rackMoved]).assetsOfDatacenter ∧
      (assetStep rackSession rackMoved).2 = some (.changed "rack-7" "rack") ∧
      ¬ EveryTime (Followed rackSession) [rackMoved] := by
  refine ⟨by decide, by decide, ?_⟩
  intro h
  have hfollowed := h [] rackMoved [] rfl
  have hunder : (latestPlace rackSession [rackMoved] "rack-7").under :=
    (hfollowed.1 "rack-7").1.mp (by decide)
  have hnot : ¬ isAssetInDatacenter "datacenter-3" rackMoved.asset = true := by decide
  exact hnot hunder

end FtyRest.Web
