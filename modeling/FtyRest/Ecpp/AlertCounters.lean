import FtyRest.Ecpp.Json
import FtyRest.Lib.AssocList
import FtyRest.Shared.Csv
import Mathlib.Data.Finset.Card

/-!
# Alert counters

The number of assets in the states critical and warning, from `alert_assets_states_counter.ecpp`.
-/

namespace FtyRest.Ecpp

open Shared

inductive Severity where
  | severityWarning
  | severityCritical
deriving DecidableEq, Repr

/-- What is read of an alert. -/
structure Alert where
  name : String
  state : String
  severity : String
deriving DecidableEq, Repr

inductive AlertFrame where
  | badFrame
  | undecodable
  | otherMessage
  | alert (decoded : Alert)
deriving DecidableEq, Repr

/-- What is read of an asset. -/
structure AssetElement where
  typeName : String
  subtypeName : String
deriving DecidableEq, Repr

/-- What a request asks the database and the list of alerts.  The error of a query is its text. -/
structure CounterEnv where
  isOkName : String → Bool
  typeToTypeid : String → Nat
  subtypeToSubtypeid : String → Nat
  /-- `cxxtools::split` at commas -/
  split : String → List String
  nameToAssetId : String → Int
  connect : Except String Unit
  selectAssetElementWebById : Nat → Except String String
  selectAssetsByContainer : Nat → Except String (List String)
  selectAssetElementWebByName : String → Option AssetElement
  /-- The frames of the reply behind `LIST` and `ALL-ACTIVE`. -/
  rfcAlertsList : Except String (List AlertFrame)

/-- The checked parameters of a request. -/
structure AlertFilter where
  checkedIn : String
  checkedType : String
  checkedSubtypes : List String
  desiredElements : List String
deriving DecidableEq, Repr

@[ext]
structure Counters where
  counterWarning : Nat
  counterCritical : Nat
deriving DecidableEq, Repr

/-- `std::map<std::string, enum Severity>` -/
abbrev DeviceStates := List (String × Severity)

/-- `device_states[name] = state` -/
def DeviceStates.set (deviceStates : DeviceStates) (name : String) (state : Severity) :
    DeviceStates :=
  deviceStates.filter (fun p ↦ p.1 ≠ name) ++ [(name, state)]

section

variable (env : CounterEnv)

def checkIn (arg : String) : Except HttpDie Unit :=
  if arg ≠ "" ∧ env.isOkName arg = false then
    .error ⟨"request-param-bad", ["asset", "value '" ++ arg ++ "'", "a valid asset"]⟩
  else .ok ()

def checkType (type : String) : Except HttpDie Unit :=
  if type ≠ "" ∧ env.typeToTypeid type = 0 then
    .error ⟨"request-param-bad", ["type", "datacenter/room/row/rack/device"]⟩
  else .ok ()

def checkSubtypes (subType : String) : Except HttpDie (List String) :=
  if subType = "" then .ok []
  else if (env.split subType).any fun subtype ↦ env.subtypeToSubtypeid subtype = 0 then
    .error ⟨"request-param-bad", ["subtype", subType, "See RFC-11 for possible values"]⟩
  else .ok (env.split subType)

def checkElement (checkedIn : String) : Except HttpDie Nat :=
  let dbid := env.nameToAssetId checkedIn
  if checkedIn ≠ "" ∧ dbid = -1 then .error ⟨"element-not-found", [checkedIn]⟩
  else if dbid = -2 then .error (internalError "Connecting to database failed.")
  else .ok (dbid % 2 ^ 32).toNat

/-- The asset and what is topologically under it. -/
def desiredElements (checkedIn : String) (elementId : Nat) : Except HttpDie (List String) :=
  if checkedIn = "" then .ok []
  else do
    let name ← (env.selectAssetElementWebById elementId).mapError internalError
    let names ← (env.selectAssetsByContainer elementId).mapError internalError
    return name :: names

def checkRequest (param : String → String) : Except HttpDie AlertFilter := do
  checkIn env (param "in")
  checkType env (param "type")
  let checkedSubtypes ← checkSubtypes env (param "sub_type")
  let elementId ← checkElement env (param "in")
  env.connect.mapError internalError
  let desiredElements ← desiredElements env (param "in") elementId
  return ⟨param "in", param "type", checkedSubtypes, desiredElements⟩

/-- An alert that is active and is not filtered. -/
def computeAlert (deviceStates : DeviceStates) (decoded : Alert) : DeviceStates :=
  match deviceStates.lookup decoded.name with
  | none =>
      deviceStates.set decoded.name
        (if decoded.severity = "CRITICAL" then .severityCritical else .severityWarning)
  | some state =>
      -- if exist check if criticality need update
      if decoded.severity = "CRITICAL" then deviceStates.set decoded.name .severityCritical
      else if decoded.severity = "WARNING" ∧ state ≠ .severityCritical then
        deviceStates.set decoded.name .severityWarning
      else deviceStates

/-- A frame that is not an alert is skipped. -/
def readFrame (filter : AlertFilter) (deviceStates : DeviceStates) : AlertFrame → DeviceStates
  | .badFrame | .undecodable | .otherMessage => deviceStates
  | .alert decoded =>
      if filter.checkedIn ≠ "" ∧ decoded.name ∉ filter.desiredElements then deviceStates
      else if decoded.state ≠ "ACTIVE" then deviceStates
      else
        match env.selectAssetElementWebByName decoded.name with
        | none => deviceStates
        | some assetElement =>
            if filter.checkedType ≠ "" ∧ assetElement.typeName ≠ filter.checkedType then
              deviceStates
            else if 0 < filter.checkedSubtypes.length ∧
                strip assetElement.subtypeName ∉ filter.checkedSubtypes then
              deviceStates
            else computeAlert deviceStates decoded

def deviceStates (filter : AlertFilter) (frames : List AlertFrame) : DeviceStates :=
  frames.foldl (readFrame env filter) []

def DeviceStates.counters (deviceStates : DeviceStates) : Counters :=
  ⟨deviceStates.countP (·.2 = .severityWarning), deviceStates.countP (·.2 = .severityCritical)⟩

def alertAssetsStatesCounter (param : String → String) : Except HttpDie Counters := do
  let filter ← checkRequest env param
  let frames ← env.rfcAlertsList.mapError internalError
  return (deviceStates env filter frames).counters

/-! ## The assets that are counted -/

/-- An asset that the filter lets through. -/
def Matches (filter : AlertFilter) (name : String) : Prop :=
  (filter.checkedIn ≠ "" → name ∈ filter.desiredElements) ∧
    ∃ assetElement ∈ env.selectAssetElementWebByName name,
      (filter.checkedType ≠ "" → assetElement.typeName = filter.checkedType) ∧
        (filter.checkedSubtypes ≠ [] → strip assetElement.subtypeName ∈ filter.checkedSubtypes)

instance (filter : AlertFilter) (name : String) : Decidable (Matches env filter name) :=
  inferInstanceAs (Decidable (_ ∧ _))

end

/-- The asset has an active alert of the severity. -/
def HasActive (frames : List AlertFrame) (name severity : String) : Prop :=
  .alert ⟨name, "ACTIVE", severity⟩ ∈ frames

instance (frames : List AlertFrame) (name severity : String) :
    Decidable (HasActive frames name severity) :=
  inferInstanceAs (Decidable (_ ∈ _))

def alertName : AlertFrame → Option String
  | .badFrame | .undecodable | .otherMessage => none
  | .alert decoded => some decoded.name

def alertedAssets (frames : List AlertFrame) : Finset String := (frames.filterMap alertName).toFinset

section

variable (env : CounterEnv) (filter : AlertFilter) (frames : List AlertFrame)

/-- The assets with a critical alert. -/
def criticalAssets : Finset String :=
  (alertedAssets frames).filter fun name ↦
    Matches env filter name ∧ HasActive frames name "CRITICAL"

/-- The assets with a warning alert and no critical one. -/
def warningAssets : Finset String :=
  (alertedAssets frames).filter fun name ↦
    Matches env filter name ∧ HasActive frames name "WARNING" ∧ ¬ HasActive frames name "CRITICAL"

/-- The counters tell the worst alerts, whatever the order of the alerts is. -/
structure CountsWorst : Prop where
  critical : (deviceStates env filter frames).counters.counterCritical =
    (criticalAssets env filter frames).card
  warning : (deviceStates env filter frames).counters.counterWarning =
    (warningAssets env filter frames).card
  order : ∀ frames', frames'.Perm frames →
    (deviceStates env filter frames').counters = (deviceStates env filter frames).counters

end

section

variable {env : CounterEnv} {filter : AlertFilter} {frames : List AlertFrame} {name : String}

theorem HasActive.mem_alertedAssets {severity : String} (h : HasActive frames name severity) :
    name ∈ alertedAssets frames := by
  apply List.mem_toFinset.mpr
  exact List.mem_filterMap.mpr ⟨_, h, rfl⟩

theorem mem_criticalAssets : name ∈ criticalAssets env filter frames ↔
    Matches env filter name ∧ HasActive frames name "CRITICAL" := by
  unfold criticalAssets
  rw [Finset.mem_filter]
  exact and_iff_right_of_imp fun h ↦ h.2.mem_alertedAssets

theorem mem_warningAssets : name ∈ warningAssets env filter frames ↔
    Matches env filter name ∧ HasActive frames name "WARNING" ∧
      ¬ HasActive frames name "CRITICAL" := by
  unfold warningAssets
  rw [Finset.mem_filter]
  exact and_iff_right_of_imp fun h ↦ h.2.1.mem_alertedAssets

/-! ## One frame -/

/-- An alert is computed when it is active and matches. -/
theorem readFrame_alert (states : DeviceStates) (decoded : Alert) :
    readFrame env filter states (.alert decoded) =
      if decoded.state = "ACTIVE" ∧ Matches env filter decoded.name then
        computeAlert states decoded
      else states := by
  by_cases hkept : decoded.state = "ACTIVE" ∧ Matches env filter decoded.name
  · rw [if_pos hkept]
    obtain ⟨hstate, hin, assetElement, hasset, htype, hsubtype⟩ := hkept
    unfold readFrame
    dsimp only
    rw [if_neg fun h ↦ h.2 (hin h.1), if_neg (not_not.mpr hstate), Option.mem_def.mp hasset]
    dsimp only
    rw [if_neg fun h ↦ h.2 (htype h.1), if_neg]
    exact fun h ↦ h.2 (hsubtype (List.length_pos_iff.mp h.1))
  · rw [if_neg hkept]
    unfold readFrame
    dsimp only
    -- each check of the source that skips the frame is one of the conditions of `Matches`
    split_ifs with hin hstate
    · rfl
    · rfl
    · cases hasset : env.selectAssetElementWebByName decoded.name with
      | none => rfl
      | some assetElement =>
        dsimp only
        split_ifs with htype hsubtype
        · rfl
        · rfl
        · apply absurd _ hkept
          refine ⟨not_not.mp hstate, fun h ↦ ?_, assetElement, hasset, fun h ↦ ?_, fun h ↦ ?_⟩
          · exact not_not.mp fun hnot ↦ hin ⟨h, hnot⟩
          · exact not_not.mp fun hnot ↦ htype ⟨h, hnot⟩
          · exact not_not.mp fun hnot ↦ hsubtype ⟨List.length_pos_iff.mpr h, hnot⟩

theorem computeAlert_keys {states : DeviceStates} (h : (states.map Prod.fst).Nodup)
    (decoded : Alert) : ((computeAlert states decoded).map Prod.fst).Nodup := by
  unfold computeAlert DeviceStates.set
  cases states.lookup decoded.name with
  | none => exact AssocList.nodup_put h _ _
  | some state =>
    dsimp only
    split_ifs
    · exact AssocList.nodup_put h _ _
    · exact AssocList.nodup_put h _ _
    · exact h

/-- A state is critical once there was a critical alert. -/
theorem computeAlert_lookup (states : DeviceStates) (decoded : Alert) (name : String) :
    (computeAlert states decoded).lookup name =
      if name = decoded.name then
        some (if decoded.severity = "CRITICAL" ∨ states.lookup name = some .severityCritical then
          .severityCritical else .severityWarning)
      else states.lookup name := by
  unfold computeAlert DeviceStates.set
  by_cases hname : name = decoded.name
  · rw [if_pos hname, ← hname]
    cases hstate : states.lookup name with
    | none =>
      dsimp only
      rw [AssocList.lookup_put, if_pos rfl]
      simp
    | some state =>
      dsimp only
      by_cases hcritical : decoded.severity = "CRITICAL"
      · rw [if_pos hcritical, if_pos (Or.inl hcritical), AssocList.lookup_put, if_pos rfl]
      · -- the state that stays is a warning, if it is not critical
        rw [if_neg hcritical]
        cases state with
        | severityCritical => simp [hstate]
        | severityWarning =>
          split_ifs
          · simp_all
          · rw [AssocList.lookup_put, if_pos rfl]
          · simp_all
          · exact hstate
  · rw [if_neg hname]
    cases states.lookup decoded.name with
    | none =>
      dsimp only
      rw [AssocList.lookup_put, if_neg hname]
    | some state =>
      dsimp only
      split_ifs
      · rw [AssocList.lookup_put, if_neg hname]
      · rw [AssocList.lookup_put, if_neg hname]
      · rfl

/-! ## All frames -/

theorem deviceStates_concat (frame : AlertFrame) :
    deviceStates env filter (frames ++ [frame]) =
      readFrame env filter (deviceStates env filter frames) frame := by
  unfold deviceStates
  rw [List.foldl_append, List.foldl_cons, List.foldl_nil]

theorem hasActive_concat {frame : AlertFrame} {severity : String} :
    HasActive (frames ++ [frame]) name severity ↔
      HasActive frames name severity ∨ frame = .alert ⟨name, "ACTIVE", severity⟩ := by
  unfold HasActive
  rw [List.mem_append, List.mem_singleton]
  exact or_congr_right eq_comm

theorem deviceStates_keys (frames : List AlertFrame) :
    ((deviceStates env filter frames).map Prod.fst).Nodup := by
  induction frames using List.reverseRecOn with
  | nil => exact List.nodup_nil
  | append_singleton frames frame ih =>
    rw [deviceStates_concat]
    cases frame with
    | badFrame => exact ih
    | undecodable => exact ih
    | otherMessage => exact ih
    | alert decoded =>
      rw [readFrame_alert]
      split_ifs
      · exact computeAlert_keys ih decoded
      · exact ih

/-- The state of an asset: critical if one of its active alerts is, else a warning. -/
theorem lookup_deviceStates (frames : List AlertFrame) (name : String) :
    ((deviceStates env filter frames).lookup name = some .severityCritical ↔
      Matches env filter name ∧ HasActive frames name "CRITICAL") ∧
    ((deviceStates env filter frames).lookup name = some .severityWarning ↔
      Matches env filter name ∧ (∃ severity, HasActive frames name severity) ∧
        ¬ HasActive frames name "CRITICAL") := by
  induction frames using List.reverseRecOn with
  | nil => simp [deviceStates, HasActive]
  | append_singleton frames frame ih =>
    rw [deviceStates_concat]
    simp only [hasActive_concat]
    cases frame with
    | badFrame => simpa [readFrame] using ih
    | undecodable => simpa [readFrame] using ih
    | otherMessage => simpa [readFrame] using ih
    | alert decoded =>
      obtain ⟨other, state, severity⟩ := decoded
      rw [readFrame_alert]
      simp only [AlertFrame.alert.injEq, Alert.mk.injEq]
      by_cases hkept : state = "ACTIVE" ∧ Matches env filter other
      · rw [if_pos hkept, computeAlert_lookup]
        by_cases hname : name = other
        · -- once critical, an asset stays so
          subst hname
          obtain ⟨hcritical, hwarning⟩ := ih
          have hsome : ∃ s, HasActive frames name s ∨ severity = s := ⟨severity, Or.inr rfl⟩
          by_cases hsev : severity = "CRITICAL" ∨
              (deviceStates env filter frames).lookup name = some .severityCritical
          · have hboth : HasActive frames name "CRITICAL" ∨ severity = "CRITICAL" :=
              hsev.symm.imp_left fun h ↦ (hcritical.mp h).2
            simp only [if_true, hsev, hkept, true_and, hboth, not_true_eq_false, and_false,
              Option.some.injEq, reduceCtorEq]
          · have hnone : ¬ (HasActive frames name "CRITICAL" ∨ severity = "CRITICAL") := by
              rintro (h | h)
              · exact hsev (Or.inr (hcritical.mpr ⟨hkept.2, h⟩))
              · exact hsev (Or.inl h)
            simp only [if_true, hsev, if_false, hkept, true_and, hnone, hsome,
              not_false_eq_true, and_true, Option.some.injEq, reduceCtorEq]
        · simp only [hname, if_false, Ne.symm hname, false_and, or_false]
          exact ih
      · rw [if_neg hkept]
        by_cases hmatches : Matches env filter name
        · -- an alert that is not computed is not active, or its asset does not match
          have hskip (s : String) : (HasActive frames name s ∨
              other = name ∧ state = "ACTIVE" ∧ severity = s) ↔ HasActive frames name s := by
            apply or_iff_left
            rintro ⟨rfl, hstate, -⟩
            exact hkept ⟨hstate, hmatches⟩
          simp only [hskip]
          exact ih
        · simp only [hmatches, false_and] at ih ⊢
          exact ih

/-! ## The counters -/

theorem counterCritical_eq (env : CounterEnv) (filter : AlertFilter) (frames : List AlertFrame) :
    (deviceStates env filter frames).counters.counterCritical =
      (criticalAssets env filter frames).card := by
  apply AssocList.countP_value (deviceStates_keys frames)
  intro name
  rw [mem_criticalAssets, (lookup_deviceStates frames name).1]

/-- The assets that are counted as warnings. -/
def countedWarnings (env : CounterEnv) (filter : AlertFilter) (frames : List AlertFrame) :
    Finset String :=
  (alertedAssets frames).filter fun name ↦
    (deviceStates env filter frames).lookup name = some .severityWarning

theorem mem_countedWarnings : name ∈ countedWarnings env filter frames ↔
    (deviceStates env filter frames).lookup name = some .severityWarning := by
  unfold countedWarnings
  rw [Finset.mem_filter]
  apply and_iff_right_of_imp
  intro h
  obtain ⟨_, ⟨severity, hactive⟩, _⟩ := (lookup_deviceStates frames name).2.mp h
  exact hactive.mem_alertedAssets

theorem counterWarning_eq (env : CounterEnv) (filter : AlertFilter) (frames : List AlertFrame) :
    (deviceStates env filter frames).counters.counterWarning =
      (countedWarnings env filter frames).card :=
  AssocList.countP_value (deviceStates_keys frames) fun _ ↦ mem_countedWarnings

theorem HasActive.perm {frames' : List AlertFrame} (h : frames'.Perm frames) {severity : String} :
    HasActive frames' name severity ↔ HasActive frames name severity :=
  h.mem_iff

theorem counters_perm {frames' : List AlertFrame} (h : frames'.Perm frames) :
    (deviceStates env filter frames').counters = (deviceStates env filter frames).counters := by
  have hcritical : criticalAssets env filter frames' = criticalAssets env filter frames := by
    apply Finset.ext
    intro name
    simp only [mem_criticalAssets, HasActive.perm h]
  have hwarning : countedWarnings env filter frames' = countedWarnings env filter frames := by
    apply Finset.ext
    intro name
    simp only [mem_countedWarnings, (lookup_deviceStates _ name).2, HasActive.perm h]
  rw [Counters.ext_iff, counterWarning_eq, counterWarning_eq, counterCritical_eq,
    counterCritical_eq, hcritical, hwarning]
  exact ⟨rfl, rfl⟩

/-- What a request is answered. -/
theorem alertAssetsStatesCounter_ok {param : String → String} {counters : Counters}
    (h : alertAssetsStatesCounter env param = .ok counters) :
    ∃ filter frames, checkRequest env param = .ok filter ∧ env.rfcAlertsList = .ok frames ∧
      counters = (deviceStates env filter frames).counters := by
  unfold alertAssetsStatesCounter at h
  cases hfilter : checkRequest env param with
  | error e =>
    rw [hfilter] at h
    cases h
  | ok filter =>
    cases hframes : env.rfcAlertsList with
    | error e =>
      rw [hfilter, hframes] at h
      cases h
    | ok frames =>
      rw [hfilter, hframes] at h
      exact ⟨filter, frames, rfl, rfl, (Except.ok.inj h).symm⟩

/-- The counters are right when each matching asset with an active alert has one that is critical
or a warning. -/
theorem countsWorst_iff (env : CounterEnv) (filter : AlertFilter) (frames : List AlertFrame) :
    CountsWorst env filter frames ↔
      ∀ name, Matches env filter name → (∃ severity, HasActive frames name severity) →
        HasActive frames name "CRITICAL" ∨ HasActive frames name "WARNING" := by
  have hsubset : warningAssets env filter frames ⊆ countedWarnings env filter frames := by
    intro name hname
    obtain ⟨hmatches, hwarning, hcritical⟩ := mem_warningAssets.mp hname
    rw [mem_countedWarnings, (lookup_deviceStates frames name).2]
    exact ⟨hmatches, ⟨_, hwarning⟩, hcritical⟩
  constructor
  · intro h name hmatches hactive
    have hcard := h.warning
    rw [counterWarning_eq] at hcard
    -- the counted assets hold those with a warning, so equal counts are equal sets
    have heq := Finset.eq_of_subset_of_card_le hsubset hcard.le
    by_cases hcritical : HasActive frames name "CRITICAL"
    · exact Or.inl hcritical
    · have hcounted : name ∈ countedWarnings env filter frames := by
        rw [mem_countedWarnings, (lookup_deviceStates frames name).2]
        exact ⟨hmatches, hactive, hcritical⟩
      rw [← heq] at hcounted
      exact Or.inr (mem_warningAssets.mp hcounted).2.1
  · intro h
    have heq : countedWarnings env filter frames = warningAssets env filter frames := by
      apply Finset.Subset.antisymm _ hsubset
      intro name hname
      rw [mem_countedWarnings, (lookup_deviceStates frames name).2] at hname
      obtain ⟨hmatches, hactive, hcritical⟩ := hname
      have hwarning := (h name hmatches hactive).resolve_left hcritical
      exact mem_warningAssets.mpr ⟨hmatches, hwarning, hcritical⟩
    refine ⟨counterCritical_eq env filter frames, ?_, fun frames' ↦ counters_perm⟩
    rw [counterWarning_eq, heq]

end

/-- A database with one ups. -/
def oneUps : CounterEnv where
  isOkName _ := true
  typeToTypeid _ := 6
  subtypeToSubtypeid _ := 1
  split subTypes := [subTypes]
  nameToAssetId _ := 1
  connect := .ok ()
  selectAssetElementWebById _ := .ok "datacenter-1"
  selectAssetsByContainer _ := .ok ["ups-2"]
  selectAssetElementWebByName name := if name = "ups-2" then some ⟨"device", "ups"⟩ else none
  rfcAlertsList := .ok [.alert ⟨"ups-2", "ACTIVE", "INFO"⟩]

/-- An alert for information is counted as a warning. -/
theorem info_is_warning : alertAssetsStatesCounter oneUps (fun _ ↦ "") = .ok ⟨1, 0⟩ ∧
    ¬ ∀ env filter frames, CountsWorst env filter frames := by
  refine ⟨by decide +kernel, fun hall ↦ ?_⟩
  have h := (hall oneUps ⟨"", "", [], []⟩ [.alert ⟨"ups-2", "ACTIVE", "INFO"⟩]).warning
  revert h
  decide +kernel

end FtyRest.Ecpp
