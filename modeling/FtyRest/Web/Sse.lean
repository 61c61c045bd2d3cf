import Mathlib.Data.Finset.Card
import FtyRest.Lib.History
import FtyRest.Lib.Stoi

/-!
# The events of a session

`web/src/sse.cc`: a session is loaded with the assets of its datacenter, and the messages about
assets and alerts that come in after that are turned into server-sent events.
-/

namespace FtyRest.Web

open History

/-- The operations of an asset message; `other` are those that the session does not know. -/
inductive Operation where
  | create
  | update
  | inventory
  | delete
  | other
deriving DecidableEq, Repr

/-- An asset message. -/
structure AssetMsg where
  name : String
  operation : Operation
  aux : List (String × String)
deriving DecidableEq, Repr

/-- `fty_proto_aux_string` -/
def AssetMsg.auxString (asset : AssetMsg) (name default : String) : String :=
  (asset.aux.lookup name).getD default

/-- An alert message. -/
structure AlertMsg where
  rule : String
  name : String
  state : String
  severity : String
deriving DecidableEq, Repr

/-- `Sse::AlertState` -/
structure AlertState where
  state : String
  severity : String
deriving DecidableEq, Repr

def AlertMsg.alertState (alert : AlertMsg) : AlertState where
  state := alert.state
  severity := alert.severity

/-- The sets and the table of a session. -/
structure Sse where
  datacenter : String
  assetsOfDatacenter : Finset String
  assetsWithNoLocation : Finset String
  alertStates : String → Option AlertState

/-- What is asked of the other agents while a message is handled. -/
structure Env where
  nameToAssetId : String → Int
  getJsonAsset : Int → String
  getJsonAlert : AlertMsg → String

/-- An event for the client. -/
inductive Event where
  | deleted (asset : String)
  | changed (asset payload : String)
  | alarm (rule payload : String)
deriving DecidableEq, Repr

/-- An event as it is sent. -/
def Event.text : Event → String
  | .deleted asset =>
      "data:\x7b\"topic\":\"asset/" ++ asset ++ "\",\"payload\":\x7b\x7d\x7d\n\n"
  | .changed asset payload =>
      "data:\x7b\"topic\":\"asset/" ++ asset ++ "\",\"payload\":" ++ payload ++ "\x7d\n\n"
  | .alarm rule payload =>
      "data:\x7b\"topic\":\"alarm/" ++ rule ++ "\",\"payload\":" ++ payload ++ "\x7d\n\n"

/-- The answers to the queries of a session; an error is the text for the client. -/
structure SessionDb where
  selectAssetElementWebById : Except String String
  selectAssetsByContainer : Except String (List String)
  selectAssetsWithoutContainer : Except String (List String)

/-- `Sse::loadAssetFromDatacenter`, which returns an error, or an empty text. -/
def loadAssetFromDatacenter (db : SessionDb) (s : Sse) : Sse × String :=
  match db.selectAssetElementWebById with
  | .error msg => (s, msg)
  | .ok name =>
      match db.selectAssetsByContainer with
      | .error msg => (s, msg)
      | .ok assets =>
          let s := { s with assetsOfDatacenter := insert name assets.toFinset }
          -- get all assets without location
          match db.selectAssetsWithoutContainer with
          | .error msg => (s, msg)
          | .ok assetsWithNoLocation =>
              ({ s with assetsWithNoLocation := assetsWithNoLocation.toFinset }, "")

/-- The loop of `Sse::isAssetInDatacenter` from the `i`-th parent on. -/
def isAssetInDatacenterFrom (datacenter : String) (asset : AssetMsg) : Nat → Nat → Bool
  | 0, _ => false
  | fuel + 1, i =>
      let parentName := asset.auxString ("parent_name." ++ toString i) "not found"
      if parentName = datacenter then true
      else if parentName = "not found" then false
      else isAssetInDatacenterFrom datacenter asset fuel (i + 1)

/-- `Sse::isAssetInDatacenter`: there are no more parents than attributes. -/
def isAssetInDatacenter (datacenter : String) (asset : AssetMsg) : Bool :=
  isAssetInDatacenterFrom datacenter asset (asset.aux.length + 1) 1

/-- The end of `Sse::changeFtyProtoAsset2Json`: the asset is sent unless there is an event yet. -/
def publishAsset (env : Env) (name : String) (json : Option Event) : Option Event :=
  let elemId := env.nameToAssetId name
  -- an error, `-2`, is only logged
  if elemId = -1 then json
  else
    match json with
    | some event => some event
    | none =>
        let jsonPayload := env.getJsonAsset elemId
        if jsonPayload ≠ "" then some (.changed name jsonPayload) else none

/-- `Sse::changeFtyProtoAsset2Json` -/
def changeFtyProtoAsset2Json (env : Env) (s : Sse) (asset : AssetMsg) : Sse × Option Event :=
  let name := asset.name
  match asset.operation with
  | .delete =>
      if name ∉ s.assetsOfDatacenter then
        -- the asset is maybe without location
        if name ∈ s.assetsWithNoLocation then
          ({ s with assetsWithNoLocation := s.assetsWithNoLocation.erase name }, some (.deleted name))
        else
          (s, none)
      else
        ({ s with assetsOfDatacenter := s.assetsOfDatacenter.erase name }, some (.deleted name))
  | .update | .inventory =>
      if name ∉ s.assetsOfDatacenter then
        -- the asset is maybe without location
        if name ∈ s.assetsWithNoLocation then
          let s := { s with assetsWithNoLocation := s.assetsWithNoLocation.erase name }
          if !isAssetInDatacenter s.datacenter asset then
            (s, publishAsset env name (some (.deleted name)))
          else
            ({ s with assetsOfDatacenter := insert name s.assetsOfDatacenter },
              publishAsset env name none)
        else
          (s, none)
      else
        (s, publishAsset env name none)
  | .create =>
      if asset.auxString "parent" "0" = "0" then
        let type := asset.auxString "type" "none"
        -- autodiscovered items seem to have no type
        if type = "device" ∨ type = "none" then
          ({ s with assetsWithNoLocation := insert name s.assetsWithNoLocation },
            publishAsset env name none)
        else
          (s, none)
      else if !isAssetInDatacenter s.datacenter asset then
        (s, none)
      else
        ({ s with assetsOfDatacenter := insert name s.assetsOfDatacenter },
          publishAsset env name none)
  | .other => (s, none)

/-- `Sse::shouldPublishAlert`: the states are kept by the rule. -/
def shouldPublishAlert (s : Sse) (alert : AlertMsg) : Sse × Bool :=
  match s.alertStates alert.rule with
  | some alertState =>
      if alertState = alert.alertState then (s, false)
      else
        ({ s with alertStates := Function.update s.alertStates alert.rule alert.alertState }, true)
  | none =>
      ({ s with alertStates := Function.update s.alertStates alert.rule alert.alertState }, true)

/-- `Sse::changeFtyProtoAlert2Json` -/
def changeFtyProtoAlert2Json (env : Env) (s : Sse) (alert : AlertMsg) : Sse × Option Event :=
  if alert.name ∉ s.assetsOfDatacenter then (s, none)
  else
    let jsonPayload := env.getJsonAlert alert
    if jsonPayload ≠ "" then
      let (s, shouldPublish) := shouldPublishAlert s alert
      if !shouldPublish then (s, none) else (s, some (.alarm alert.rule jsonPayload))
    else
      (s, none)

/-! ## The parents of an asset -/

section

variable {datacenter : String} {asset : AssetMsg}

def AssetMsg.parentName (asset : AssetMsg) (i : Nat) : String :=
  asset.auxString ("parent_name." ++ toString i) "not found"

/-- The chain of parents leads to the datacenter. -/
def IsUnder (datacenter : String) (asset : AssetMsg) : Prop :=
  ∃ k, 1 ≤ k ∧ asset.parentName k = datacenter ∧
    ∀ j, 1 ≤ j → j < k → asset.parentName j ≠ "not found"

theorem isAssetInDatacenterFrom_iff {fuel i : Nat} :
    isAssetInDatacenterFrom datacenter asset fuel i = true ↔
      ∃ k, i ≤ k ∧ k < i + fuel ∧ asset.parentName k = datacenter ∧
        ∀ j, i ≤ j → j < k → asset.parentName j ≠ "not found" := by
  induction fuel generalizing i with
  | zero =>
    rw [isAssetInDatacenterFrom]
    constructor
    · intro h
      cases h
    · intro ⟨k, hle, hlt, _⟩
      omega
  | succ fuel ih =>
    show (if asset.parentName i = datacenter then true
      else if asset.parentName i = "not found" then false
      else isAssetInDatacenterFrom datacenter asset fuel (i + 1)) = true ↔ _
    -- the loop ends at the datacenter, or at the first parent that is not named
    by_cases hfound : asset.parentName i = datacenter
    · rw [if_pos hfound]
      exact iff_of_true rfl ⟨i, Nat.le_refl i, by omega, hfound, fun j hle hlt ↦ by omega⟩
    · rw [if_neg hfound]
      by_cases hend : asset.parentName i = "not found"
      · rw [if_pos hend]
        constructor
        · intro h
          cases h
        · intro ⟨k, hle, _, hk, hbefore⟩
          rcases Nat.eq_or_lt_of_le hle with rfl | hlt
          · exact absurd hk hfound
          · exact absurd hend (hbefore i (Nat.le_refl i) hlt)
      · rw [if_neg hend, ih]
        constructor
        · intro ⟨k, hle, hlt, hk, hbefore⟩
          refine ⟨k, by omega, by omega, hk, fun j hij hjk ↦ ?_⟩
          rcases Nat.eq_or_lt_of_le hij with rfl | hij
          · exact hend
          · exact hbefore j hij hjk
        · intro ⟨k, hle, hlt, hk, hbefore⟩
          rcases Nat.eq_or_lt_of_le hle with rfl | hik
          · exact absurd hk hfound
          · exact ⟨k, hik, by omega, hk, fun j hij hjk ↦ hbefore j (by omega) hjk⟩

theorem mem_keys_of_lookup {attrs : List (String × String)} {name default : String}
    (h : (attrs.lookup name).getD default ≠ default) : name ∈ attrs.map Prod.fst := by
  by_contra hnot
  have hnone : attrs.lookup name = none := by
    rw [List.lookup_eq_none_iff]
    intro attr hattr
    have hne : name ≠ attr.1 := fun heq ↦ hnot (heq ▸ List.mem_map_of_mem hattr)
    simpa using hne
  rw [hnone] at h
  exact h rfl

/-- The parents in front of a gap are attributes of their own. -/
theorem parents_le {k : Nat} (h : ∀ j, 1 ≤ j → j < k → asset.parentName j ≠ "not found") :
    k ≤ asset.aux.length + 1 := by
  have hsub : (List.range (k - 1)).map (fun j ↦ "parent_name." ++ toString (j + 1)) ⊆
      asset.aux.map Prod.fst := by
    intro name hname
    obtain ⟨j, hj, rfl⟩ := List.mem_map.mp hname
    have hlt := List.mem_range.mp hj
    exact mem_keys_of_lookup (h (j + 1) (by omega) (by omega))
  have hnd : ((List.range (k - 1)).map (fun j ↦ "parent_name." ++ toString (j + 1))).Nodup := by
    apply List.nodup_range.map
    intro j j' heq
    have htext := (String.append_right_inj _).mp heq
    exact Nat.succ.inj (Stoi.toString_inj.mp htext)
  have hlength := (hnd.subperm hsub).length_le
  simp only [List.length_map, List.length_range] at hlength
  omega

theorem isAssetInDatacenter_iff :
    isAssetInDatacenter datacenter asset = true ↔ IsUnder datacenter asset := by
  rw [isAssetInDatacenter, isAssetInDatacenterFrom_iff]
  constructor
  · intro ⟨k, hle, _, hk, hbefore⟩
    exact ⟨k, hle, hk, hbefore⟩
  · intro ⟨k, hle, hk, hbefore⟩
    have hfuel := parents_le hbefore
    exact ⟨k, hle, by omega, hk, hbefore⟩

end

end FtyRest.Web
