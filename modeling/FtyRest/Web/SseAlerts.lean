import FtyRest.Web.Sse

/-!
# Which alerts are published

The alerts of a session against their histories: a rule has one state in the session, however many
assets it is about.
-/

namespace FtyRest.Web

open History

structure AlertInput where
  env : Env
  alert : AlertMsg

def alertStep (s : Sse) (input : AlertInput) : Sse × Option Event :=
  changeFtyProtoAlert2Json input.env s input.alert

/-- The message is about an asset of the datacenter, and its JSON can be built. -/
def AlertInput.Sendable (s : Sse) (input : AlertInput) : Prop :=
  input.alert.name ∈ s.assetsOfDatacenter ∧ input.env.getJsonAlert input.alert ≠ ""

/-- The last message of the rule of `alert`. -/
def lastOfRule (inputs : List AlertInput) (alert : AlertMsg) : Option AlertInput :=
  lastWith (fun input ↦ input.alert.rule = alert.rule) inputs

/-- The last message of the same alert: of its rule and its asset. -/
def lastOfAlert (inputs : List AlertInput) (alert : AlertMsg) : Option AlertInput :=
  lastWith (fun input ↦ input.alert.rule = alert.rule ∧ input.alert.name = alert.name) inputs

/-- The message is the first one, or it differs from the previous one. -/
def Changed (previous : Option AlertInput) (alert : AlertMsg) : Prop :=
  ∀ input ∈ previous, input.alert.alertState ≠ alert.alertState

/-- The message is published just when its alert changes. -/
def PublishedOnChange (s : Sse) (before : List AlertInput) (input : AlertInput) : Prop :=
  (alertStep (final alertStep s before) input).2 ≠ none ↔
    Changed (lastOfAlert before input.alert) input.alert

/-- The previous message of the rule is about another asset, and hides a change of the alert or
looks like one. -/
def Interferes (before : List AlertInput) (alert : AlertMsg) : Prop :=
  ∃ other, lastOfRule before alert = some other ∧ other.alert.name ≠ alert.name ∧
    (other.alert.alertState = alert.alertState ∧ Changed (lastOfAlert before alert) alert ∨
      other.alert.alertState ≠ alert.alertState ∧ ¬ Changed (lastOfAlert before alert) alert)

section

variable {s : Sse} {inputs : List AlertInput} {input : AlertInput} {alert : AlertMsg}

theorem shouldPublishAlert_states :
    (shouldPublishAlert s alert).1.alertStates =
      Function.update s.alertStates alert.rule alert.alertState := by
  unfold shouldPublishAlert
  cases hstate : s.alertStates alert.rule with
  | none => rfl
  | some alertState =>
    by_cases heq : alertState = alert.alertState
    · -- the state that is kept is the one of the message
      simp only [heq, if_true]
      rw [← heq, ← hstate, Function.update_eq_self]
    · simp only [heq, if_false]

theorem shouldPublishAlert_assets :
    (shouldPublishAlert s alert).1.assetsOfDatacenter = s.assetsOfDatacenter := by
  unfold shouldPublishAlert
  split
  · split
    · rfl
    · rfl
  · rfl

theorem shouldPublishAlert_iff :
    (shouldPublishAlert s alert).2 = true ↔ s.alertStates alert.rule ≠ some alert.alertState := by
  unfold shouldPublishAlert
  cases hstate : s.alertStates alert.rule with
  | none => simp
  | some alertState =>
    by_cases heq : alertState = alert.alertState
    · simp [heq]
    · simp [heq]

theorem alertStep_sendable (h : input.Sendable s) :
    (alertStep s input).1 = (shouldPublishAlert s input.alert).1 ∧
      ((alertStep s input).2 ≠ none ↔ (shouldPublishAlert s input.alert).2 = true) := by
  unfold alertStep changeFtyProtoAlert2Json
  rw [if_neg (not_not_intro h.1)]
  dsimp only
  rw [if_pos h.2]
  cases (shouldPublishAlert s input.alert).2 with
  | true => simp
  | false => simp

theorem final_assets (h : ∀ input ∈ inputs, input.Sendable s) :
    (final alertStep s inputs).assetsOfDatacenter = s.assetsOfDatacenter := by
  refine final_induction (I := fun t : Sse ↦ t.assetsOfDatacenter = s.assetsOfDatacenter) rfl ?_
  intro t input hinput ht
  have hsendable : input.Sendable t := by
    unfold AlertInput.Sendable
    rw [ht]
    exact h input hinput
  rw [(alertStep_sendable hsendable).1, shouldPublishAlert_assets, ht]

/-- The session keeps the state of the last message of each rule. -/
theorem final_alertStates (hnone : ∀ rule, s.alertStates rule = none)
    (h : ∀ input ∈ inputs, input.Sendable s) :
    (final alertStep s inputs).alertStates alert.rule =
      (lastOfRule inputs alert).map (·.alert.alertState) := by
  induction inputs using List.reverseRecOn with
  | nil => exact hnone alert.rule
  | append_singleton inputs input ih =>
    have hbefore : ∀ input ∈ inputs, input.Sendable s := fun x hx ↦ h x (List.mem_append_left _ hx)
    have hinput : input.Sendable (final alertStep s inputs) := by
      unfold AlertInput.Sendable
      rw [final_assets hbefore]
      exact h input (List.mem_append_right _ List.mem_cons_self)
    rw [final_concat, (alertStep_sendable hinput).1, shouldPublishAlert_states]
    unfold lastOfRule at ih ⊢
    rw [lastWith_concat]
    by_cases hrule : input.alert.rule = alert.rule
    · rw [if_pos (decide_eq_true hrule), ← hrule, Function.update_self]
      rfl
    · rw [Function.update_of_ne (Ne.symm hrule), if_neg fun hp ↦ hrule (of_decide_eq_true hp)]
      exact ih hbefore

/-- A message is published just when the state of its rule changes. -/
theorem published_iff (hnone : ∀ rule, s.alertStates rule = none)
    (h : ∀ input ∈ inputs, input.Sendable s) (hinput : input.Sendable s) :
    (alertStep (final alertStep s inputs) input).2 ≠ none ↔
      Changed (lastOfRule inputs input.alert) input.alert := by
  have hsendable : input.Sendable (final alertStep s inputs) := by
    unfold AlertInput.Sendable
    rw [final_assets h]
    exact hinput
  rw [(alertStep_sendable hsendable).2, shouldPublishAlert_iff, final_alertStates hnone h]
  unfold Changed
  cases lastOfRule inputs input.alert with
  | none => simp
  | some other => simp

/-- The state of the rule and the state of the alert change together unless another asset
interferes. -/
theorem changed_iff_iff : (Changed (lastOfRule inputs alert) alert ↔
    Changed (lastOfAlert inputs alert) alert) ↔ ¬ Interferes inputs alert := by
  unfold Interferes
  have hpart : ∀ x : AlertInput, decide (x.alert.rule = alert.rule ∧ x.alert.name = alert.name) =
      true → decide (x.alert.rule = alert.rule) = true := by
    intro x hx
    exact decide_eq_true (of_decide_eq_true hx).1
  cases hlast : lastOfRule inputs alert with
  | none =>
    have hnone : lastOfAlert inputs alert = none := lastWith_none_of_part hpart hlast
    simp [hnone]
  | some other =>
    have hrule := of_decide_eq_true (lastWith_eq_some hlast).2
    -- the last alert of the rule is of this asset, or of another one
    by_cases hname : other.alert.name = alert.name
    · have hsame : lastOfAlert inputs alert = some other :=
        lastWith_of_part hpart hlast (decide_eq_true ⟨hrule, hname⟩)
      simp [hsame, hname]
    · have hchanged : Changed (some other) alert ↔ other.alert.alertState ≠ alert.alertState := by
        simp [Changed]
      rw [hchanged]
      constructor
      · intro hiff ⟨q, hq, _, hinterferes⟩
        obtain rfl := Option.some.inj hq
        rcases hinterferes with ⟨hsame, hchange⟩ | ⟨hdiffers, hkept⟩
        · exact hiff.mpr hchange hsame
        · exact hkept (hiff.mp hdiffers)
      · intro hnot
        constructor
        · intro hdiffers
          by_contra hkept
          exact hnot ⟨other, rfl, hname, Or.inr ⟨hdiffers, hkept⟩⟩
        · intro hchange hsame
          exact hnot ⟨other, rfl, hname, Or.inl ⟨hsame, hchange⟩⟩

/-- Every message is published just when its alert changes, exactly when no asset interferes with
another one of the same rule. -/
theorem alerts_published_iff (hnone : ∀ rule, s.alertStates rule = none)
    (h : ∀ input ∈ inputs, input.Sendable s) :
    EveryTime (PublishedOnChange s) inputs ↔
      EveryTime (fun before input ↦ ¬ Interferes before input.alert) inputs := by
  have hiff : ∀ before input after, inputs = before ++ input :: after →
      (PublishedOnChange s before input ↔ ¬ Interferes before input.alert) := by
    intro before input after heq
    have hbefore : ∀ x ∈ before, x.Sendable s := by
      intro x hx
      exact h x (heq ▸ List.mem_append_left _ hx)
    have hinput : input.Sendable s := h input (heq ▸ List.mem_append_right _ List.mem_cons_self)
    unfold PublishedOnChange
    rw [published_iff hnone hbefore hinput, changed_iff_iff]
  constructor
  · intro hall before input after heq
    exact (hiff before input after heq).mp (hall before input after heq)
  · intro hall before input after heq
    exact (hiff before input after heq).mpr (hall before input after heq)

end

/-! ## Two devices under one rule -/

def twoUps : Sse where
  datacenter := "datacenter-3"
  assetsOfDatacenter := {"ups-5", "ups-6"}
  assetsWithNoLocation := ∅
  alertStates _ := none

def onBattery (name state : String) : AlertInput where
  env := ⟨fun _ ↦ 5, fun _ ↦ "ups", fun _ ↦ "alert"⟩
  alert := ⟨"onbattery", name, state, "CRITICAL"⟩

theorem alerts_published_iff_ups :
    EveryTime (PublishedOnChange twoUps) [onBattery "ups-5" "ACTIVE", onBattery "ups-5" "RESOLVED"] ↔
      EveryTime (fun before input ↦ ¬ Interferes before input.alert)
        [onBattery "ups-5" "ACTIVE", onBattery "ups-5" "RESOLVED"] :=
  alerts_published_iff (fun _ ↦ rfl) (by unfold AlertInput.Sendable; decide)

/-- The first alert of the second device is not published. -/
theorem second_ups_lost :
    (alertStep (final alertStep twoUps [onBattery "ups-5" "ACTIVE"])
        (onBattery "ups-6" "ACTIVE")).2 = none ∧
      ¬ EveryTime (PublishedOnChange twoUps)
        [onBattery "ups-5" "ACTIVE", onBattery "ups-6" "ACTIVE"] := by
  have hlost : (alertStep (final alertStep twoUps [onBattery "ups-5" "ACTIVE"])
      (onBattery "ups-6" "ACTIVE")).2 = none := by decide
  refine ⟨hlost, ?_⟩
  intro h
  have hpublished := h [onBattery "ups-5" "ACTIVE"] (onBattery "ups-6" "ACTIVE") [] rfl
  have hfirst : lastOfAlert [onBattery "ups-5" "ACTIVE"] (onBattery "ups-6" "ACTIVE").alert = none := by
    decide
  apply hpublished.mpr
  · rw [hfirst]
    intro input hinput
    cases hinput
  · exact hlost

end FtyRest.Web
