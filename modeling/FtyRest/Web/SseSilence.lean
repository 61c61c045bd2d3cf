import FtyRest.Web.SseAssets

/-!
# A deleted asset is silent

What a session sends about an asset between its deletion and its next creation, for any order of
messages about assets and alerts.
-/

namespace FtyRest.Web

open History

/-- A message of either kind. -/
inductive SessionInput where
  | asset (input : AssetInput)
  | alert (env : Env) (msg : AlertMsg)

namespace SessionInput

def name : SessionInput → String
  | .asset input => input.asset.name
  | .alert _ msg => msg.name

def Creates (name : String) : SessionInput → Prop
  | .asset input => input.asset.operation = .create ∧ input.asset.name = name
  | .alert _ _ => False

def Deletes (name : String) : SessionInput → Prop
  | .asset input => input.asset.operation = .delete ∧ input.asset.name = name
  | .alert _ _ => False

end SessionInput

def sessionStep (s : Sse) : SessionInput → Sse × Option Event
  | .asset input => assetStep s input
  | .alert env alert => changeFtyProtoAlert2Json env s alert

/-- Until the asset is created again, no message about it leads to an event, whatever the other
messages are. -/
def SilentFrom (s : Sse) (name : String) : Prop :=
  ∀ span input, (∀ c ∈ span, ¬ SessionInput.Creates name c) →
    ¬ SessionInput.Creates name input → input.name = name →
      (sessionStep (final sessionStep s span) input).2 = none

def InBoth (s : Sse) (name : String) : Prop :=
  name ∈ s.assetsOfDatacenter ∧ name ∈ s.assetsWithNoLocation

def InNeither (s : Sse) (name : String) : Prop :=
  name ∉ s.assetsOfDatacenter ∧ name ∉ s.assetsWithNoLocation

section

variable {s : Sse} {name : String} {input : SessionInput}

theorem alert_sets {env : Env} {alert : AlertMsg} :
    (changeFtyProtoAlert2Json env s alert).1.assetsOfDatacenter = s.assetsOfDatacenter ∧
      (changeFtyProtoAlert2Json env s alert).1.assetsWithNoLocation = s.assetsWithNoLocation := by
  have hpublish : (shouldPublishAlert s alert).1.assetsOfDatacenter = s.assetsOfDatacenter ∧
      (shouldPublishAlert s alert).1.assetsWithNoLocation = s.assetsWithNoLocation := by
    unfold shouldPublishAlert
    split
    · split
      · exact ⟨rfl, rfl⟩
      · exact ⟨rfl, rfl⟩
    · exact ⟨rfl, rfl⟩
  unfold changeFtyProtoAlert2Json
  dsimp only
  split_ifs
  · exact hpublish
  · exact hpublish
  · exact ⟨rfl, rfl⟩
  · exact ⟨rfl, rfl⟩

/-- Only its creation brings an asset back. -/
theorem inNeither_step (h : InNeither s name) (hcreate : ¬ SessionInput.Creates name input) :
    InNeither (sessionStep s input).1 name := by
  cases input with
  | alert env alert =>
    show InNeither (changeFtyProtoAlert2Json env s alert).1 name
    unfold InNeither
    rw [alert_sets.1, alert_sets.2]
    exact h
  | asset input =>
    show InNeither (assetStep s input).1 name
    unfold InNeither
    by_cases hname : name = input.asset.name
    · subst hname
      rw [assetStep_self.1, assetStep_self.2]
      unfold InDatacenter InNoLocation
      cases hop : input.asset.operation with
      | create => exact absurd ⟨hop, rfl⟩ hcreate
      | delete => exact ⟨id, fun hboth ↦ h.1 hboth.1⟩
      | update => exact ⟨fun hin ↦ hin.elim h.1 fun hin ↦ h.2 hin.1, fun hboth ↦ h.1 hboth.1⟩
      | inventory => exact ⟨fun hin ↦ hin.elim h.1 fun hin ↦ h.2 hin.1, fun hboth ↦ h.1 hboth.1⟩
      | other => exact h
    · rw [(assetStep_other hname).1, (assetStep_other hname).2]
      exact h

theorem inNeither_silent (h : InNeither s name) (hcreate : ¬ SessionInput.Creates name input)
    (hname : input.name = name) : (sessionStep s input).2 = none := by
  cases input with
  | alert env alert =>
    have hname : alert.name = name := hname
    subst hname
    show (changeFtyProtoAlert2Json env s alert).2 = none
    unfold changeFtyProtoAlert2Json
    rw [if_pos h.1]
  | asset input =>
    have hname : input.asset.name = name := hname
    subst hname
    show (assetStep s input).2 = none
    unfold assetStep changeFtyProtoAsset2Json
    cases hop : input.asset.operation with
    | create => exact absurd ⟨hop, rfl⟩ hcreate
    | other => rfl
    | _ =>
      dsimp only
      rw [if_pos h.1, if_neg h.2]

theorem silentFrom_of_inNeither (h : InNeither s name) : SilentFrom s name := by
  intro span input hspan hcreate hname
  have hgone : InNeither (final sessionStep s span) name := by
    refine final_induction (I := fun t ↦ InNeither t name) h ?_
    intro t c hc ht
    exact inNeither_step ht (hspan c hc)
  exact inNeither_silent hgone hcreate hname

/-- A deletion of the asset, while nobody answers. -/
def deletion (name : String) : SessionInput :=
  .asset ⟨⟨fun _ ↦ -1, fun _ ↦ "", fun _ ↦ ""⟩, ⟨name, .delete, []⟩⟩

/-- A deletion silences its asset exactly when the asset is not in both sets. -/
theorem silentFrom_delete_iff (hdelete : SessionInput.Deletes name input) :
    SilentFrom (sessionStep s input).1 name ↔ ¬ InBoth s name := by
  cases input with
  | alert env alert => exact False.elim hdelete
  | asset input =>
    obtain ⟨hop, rfl⟩ := hdelete
    show SilentFrom (assetStep s input).1 input.asset.name ↔ _
    have hdc : input.asset.name ∉ (assetStep s input).1.assetsOfDatacenter := by
      rw [assetStep_self.1, InDatacenter, hop]
      exact id
    have hno : input.asset.name ∈ (assetStep s input).1.assetsWithNoLocation ↔
        InBoth s input.asset.name := by
      rw [assetStep_self.2, InNoLocation, hop]
      exact Iff.rfl
    constructor
    · intro hsilent hboth
      -- it is left in the other set, and a second deletion is reported again
      have hnone := hsilent [] (deletion input.asset.name) (fun c hc ↦ absurd hc List.not_mem_nil)
        (fun h ↦ by cases h.1) rfl
      have hevent : (sessionStep (assetStep s input).1 (deletion input.asset.name)).2 =
          some (.deleted input.asset.name) := by
        apply assetStep_deleted_iff.mpr
        exact ⟨Or.inr (hno.mpr hboth), rfl⟩
      rw [final_nil, hevent] at hnone
      cases hnone
    · intro hnot
      exact silentFrom_of_inNeither ⟨hdc, fun h ↦ hnot (hno.mp h)⟩

/-- In a run, every deletion of an asset silences it until it is created again, exactly when each
of these deletions finds the asset in one set at most. -/
theorem deleted_silent_iff (s : Sse) (name : String) (inputs : List SessionInput) :
    EveryTime (fun before input ↦ SessionInput.Deletes name input →
        SilentFrom (final sessionStep s (before ++ [input])) name) inputs ↔
      EveryTime (fun before input ↦ SessionInput.Deletes name input →
        ¬ InBoth (final sessionStep s before) name) inputs := by
  apply everyTime_congr (I := fun _ ↦ True) trivial
  · intro before input _
    rw [final_concat]
    exact forall_congr' fun hdelete ↦ silentFrom_delete_iff hdelete
  · intro before input _
    exact trivial

end

/-! ## A device that is created twice -/

def emptySession : Sse where
  datacenter := "datacenter-3"
  assetsOfDatacenter := ∅
  assetsWithNoLocation := ∅
  alertStates _ := none

def upsMsg (operation : Operation) (aux : List (String × String)) : SessionInput :=
  .asset ⟨⟨fun _ ↦ 5, fun _ ↦ "ups", fun _ ↦ "alert"⟩, ⟨"ups-5", operation, aux⟩⟩

/-- The device is created without a location and with one, and then deleted. -/
def createdTwice : List SessionInput :=
  [upsMsg .create [("type", "device")],
    upsMsg .create [("type", "device"), ("parent", "3"), ("parent_name.1", "datacenter-3")]]

/-- Both deletions are reported. -/
theorem ups_deleted_twice :
    Disjoint emptySession.assetsOfDatacenter emptySession.assetsWithNoLocation ∧
      (sessionStep (final sessionStep emptySession createdTwice) (upsMsg .delete [])).2 =
        some (.deleted "ups-5") ∧
      (sessionStep (final sessionStep emptySession (createdTwice ++ [upsMsg .delete []]))
        (upsMsg .delete [])).2 = some (.deleted "ups-5") ∧
      ¬ SilentFrom (final sessionStep emptySession (createdTwice ++ [upsMsg .delete []])) "ups-5" := by
  have hsecond : (sessionStep (final sessionStep emptySession
      (createdTwice ++ [upsMsg .delete []])) (upsMsg .delete [])).2 = some (.deleted "ups-5") := by
    decide
  refine ⟨by decide, by decide, hsecond, ?_⟩
  intro hsilent
  have hnone := hsilent [] (upsMsg .delete []) (fun c hc ↦ nomatch hc) (fun h ↦ nomatch h.1) rfl
  rw [final_nil, hsecond] at hnone
  cases hnone

end FtyRest.Web
