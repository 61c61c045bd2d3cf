import FtyRest.Lib.DoWhile
import FtyRest.Shared.ConfigureInform
import FtyRest.Web.Sse

/-!
# The parents of a published asset

The names that `send_configure` puts into a message, and how a session finds them there.
-/

namespace FtyRest.Web

open DoWhile
open Shared (AssetMessage ConfigureEnv DbElement FromRows ParentRow ZHash cb elementMessage hashName
  parentColumns parentStep published_fromRows sendConfigure startAux)

/-! ## The loop of the session -/

/-- One round of `Sse::isAssetInDatacenter`: the number of the next parent, and whether this one was
found. -/
def parentRound (datacenter : String) (asset : AssetMsg) (s : Nat × Bool) : Bool × (Nat × Bool) :=
  let parentName := asset.parentName s.1
  let found := decide (parentName = datacenter)
  (!found && decide (parentName ≠ "not found"), (s.1 + 1, found))

section

variable {datacenter : String} {asset : AssetMsg}

/-- There is a round for each parent, and one more. -/
theorem run_parentRound {fuel i : Nat} {found : Bool}
    (hbefore : ∀ j, 1 ≤ j → j < i → asset.parentName j ≠ "not found")
    (hfuel : asset.aux.length + 1 < i + fuel) :
    ∃ i', run (parentRound datacenter asset) fuel (i, found) =
      some (i', isAssetInDatacenterFrom datacenter asset fuel i) := by
  induction fuel generalizing i found with
  | zero =>
    have hle := parents_le hbefore
    omega
  | succ fuel ih =>
    have hfrom : isAssetInDatacenterFrom datacenter asset (fuel + 1) i =
      if asset.parentName i = datacenter then true
      else if asset.parentName i = "not found" then false
      else isAssetInDatacenterFrom datacenter asset fuel (i + 1) := rfl
    rw [run, parentRound, hfrom]
    -- the loop ends at the parent it looks for, or at the name for no parent
    by_cases hfound : asset.parentName i = datacenter
    · refine ⟨i + 1, ?_⟩
      simp [hfound]
    · by_cases hend : asset.parentName i = "not found"
      · refine ⟨i + 1, ?_⟩
        rw [if_neg hfound, if_pos hend, decide_eq_false hfound]
        simp [hend]
      · rw [if_neg hfound, if_neg hend, decide_eq_false hfound, decide_eq_true hend]
        apply ih
        · intro j hj hlt
          rcases Nat.lt_succ_iff_lt_or_eq.mp hlt with hlt | rfl
          · exact hbefore j hj hlt
          · exact hend
        · omega

/-- The loop ends on every message. -/
theorem isAssetInDatacenter_exits (datacenter : String) (asset : AssetMsg) :
    ∃ i, Exits (parentRound datacenter asset) (1, false)
      (i, isAssetInDatacenter datacenter asset) := by
  have hrun : ∃ i, run (parentRound datacenter asset) (asset.aux.length + 1) (1, false) =
      some (i, isAssetInDatacenter datacenter asset) :=
    run_parentRound (fun j hj hlt ↦ absurd hj (Nat.not_le_of_lt hlt)) (by omega)
  obtain ⟨i, hrun⟩ := hrun
  exact ⟨i, asset.aux.length + 1, hrun⟩

end

/-! ## The names in the message -/

theorem hashName_append (text : String) :
    hashName ("parent_name" ++ text) = "parent_name." ++ text := by
  have hlength : "parent_name".toList.length = 11 := rfl
  have hdot : "parent_name." = "parent_name" ++ "." := rfl
  apply String.toList_injective
  rw [hashName, String.toList_ofList, String.toList_append, List.take_left' hlength,
    List.drop_left' hlength, hdot, String.toList_append, String.toList_append, List.append_assoc]
  rfl

theorem parentColumns_eq :
    parentColumns = (List.range 10).map fun i ↦ "parent_name" ++ toString (i + 1) := by
  decide +kernel

section

variable {row : ParentRow}

/-- What a row puts into a hash. -/
def parentItems (row : ParentRow) : List (String × String) :=
  (parentColumns.filter fun name ↦ (row name).getD "" ≠ "").map fun name ↦
    (hashName name, (row name).getD "")

theorem lookup_cb (s : ZHash × String) (key : String) :
    (cb s row).1.lookup key = (s.1.lookup key).or ((parentItems row).lookup key) := by
  unfold cb parentItems
  induction parentColumns generalizing s with
  | nil =>
    rw [List.foldl_nil, List.filter_nil, List.map_nil, List.lookup_nil, Option.or_none]
  | cons name names ih =>
    rw [List.foldl_cons, ih, parentStep]
    by_cases hfoo : (row name).getD "" = ""
    · rw [if_neg (not_not.mpr hfoo), List.filter_cons_of_neg (by simpa using hfoo)]
    · rw [if_pos hfoo, List.filter_cons_of_pos (by simpa using hfoo), List.map_cons,
        List.lookup_cons, ZHash.lookup_insert, Option.or_assoc]
      congr 1
      -- an earlier entry is kept: the hash does not take a key twice
      by_cases hkey : key = hashName name
      · rw [if_pos hkey, hkey, beq_self_eq_true, Option.some_or]
      · rw [if_neg hkey, beq_eq_false_iff_ne.mpr hkey, Option.none_or]

theorem lookup_startAux {ω : Type} {env : ConfigureEnv ω} {element : DbElement} {k : Nat} :
    (startAux env element).lookup ("parent_name." ++ toString k) = none := by
  have hne (name : String) (h : name.length < 12) : "parent_name." ++ toString k ≠ name := by
    rintro rfl
    rw [String.length_append] at h
    have hlength : "parent_name.".length = 12 := rfl
    omega
  unfold startAux
  rw [ZHash.lookup_insert, ZHash.lookup_insert, ZHash.lookup_insert, ZHash.lookup_insert,
    ZHash.lookup_insert, if_neg (hne "priority" (by decide)), if_neg (hne "type" (by decide)),
    if_neg (hne "subtype" (by decide)), if_neg (hne "parent" (by decide)),
    if_neg (hne "status" (by decide))]
  rfl

/-- The columns of a row hold a chain of named parents without gaps. -/
structure IsChain (row : ParentRow) (parents : List String) : Prop where
  length_le : parents.length ≤ 10
  named : ∀ p ∈ parents, p ≠ "" ∧ p ≠ "not found"
  column : ∀ i < 10, (row ("parent_name" ++ toString (i + 1))).getD "" = parents.getD i ""

variable {parents : List String}

theorem mem_parentItems (h : IsChain row parents) {item : String × String} :
    item ∈ parentItems row ↔
      ∃ i p, parents[i]? = some p ∧ item = ("parent_name." ++ toString (i + 1), p) := by
  unfold parentItems
  rw [parentColumns_eq, List.mem_map]
  constructor
  · rintro ⟨name, hname, rfl⟩
    obtain ⟨hname, hfoo⟩ := List.mem_filter.mp hname
    obtain ⟨i, hi, rfl⟩ := List.mem_map.mp hname
    rw [h.column i (List.mem_range.mp hi), hashName_append]
    rw [h.column i (List.mem_range.mp hi), List.getD_eq_getElem?_getD] at hfoo
    cases hp : parents[i]? with
    | none =>
      rw [hp] at hfoo
      exact absurd rfl (of_decide_eq_true hfoo)
    | some p =>
      rw [List.getD_eq_getElem?_getD, hp]
      exact ⟨i, p, hp, rfl⟩
  · rintro ⟨i, p, hp, rfl⟩
    have hlt := (List.getElem?_eq_some_iff.mp hp).1
    have hi : i < 10 := Nat.lt_of_lt_of_le hlt h.length_le
    -- a parent in the chain has its name in the column of its number
    have hcolumn : (row ("parent_name" ++ toString (i + 1))).getD "" = p := by
      rw [h.column i hi, List.getD_eq_getElem?_getD, hp, Option.getD_some]
    refine ⟨"parent_name" ++ toString (i + 1), List.mem_filter.mpr ⟨?_, ?_⟩, ?_⟩
    · exact List.mem_map.mpr ⟨i, List.mem_range.mpr hi, rfl⟩
    · rw [hcolumn]
      exact decide_eq_true (h.named p (List.mem_of_getElem? hp)).1
    · rw [hcolumn, hashName_append]

theorem numbered_inj {i j : Nat}
    (h : "parent_name." ++ toString i = "parent_name." ++ toString j) : i = j :=
  Stoi.toString_inj.mp ((String.append_right_inj _).mp h)

theorem lookup_parentItems (h : IsChain row parents) (i : Nat) :
    (parentItems row).lookup ("parent_name." ++ toString (i + 1)) = parents[i]? := by
  cases hlookup : (parentItems row).lookup ("parent_name." ++ toString (i + 1)) with
  | some p =>
    -- the number is read back from the key
    obtain ⟨j, q, hq, heq⟩ := (mem_parentItems h).mp (AssocList.mem_of_lookup hlookup)
    obtain ⟨hkey, rfl⟩ := Prod.mk.inj heq
    rw [Nat.succ.inj (numbered_inj hkey), hq]
  | none =>
    cases hp : parents[i]? with
    | none => rfl
    | some p =>
      have hmem := (mem_parentItems h).mpr ⟨i, p, hp, rfl⟩
      have hne := List.lookup_eq_none_iff.mp hlookup _ hmem
      simp at hne

/-- What is looked up in a received message was put into the one that was sent. -/
def Carries (message : AssetMessage) (asset : AssetMsg) : Prop :=
  ∀ key, asset.aux.lookup key = message.aux.lookup key

theorem parentName_of_chain {ω : Type} {env : ConfigureEnv ω} {element : DbElement}
    {operation : ω} (h : IsChain row parents) {asset : AssetMsg}
    (hcarries : Carries (elementMessage env element operation [row]) asset) (i : Nat) :
    asset.parentName (i + 1) = parents[i]?.getD "not found" := by
  rw [AssetMsg.parentName, AssetMsg.auxString, hcarries]
  show ((cb (startAux env element, "") row).1.lookup _).getD _ = _
  rw [lookup_cb, lookup_startAux, Option.none_or, lookup_parentItems h]

/-- A session finds exactly the parents that were published, and the name by which it knows that
there are no more. -/
theorem isUnder_of_chain {ω : Type} {env : ConfigureEnv ω} {element : DbElement}
    {operation : ω} (h : IsChain row parents) {asset : AssetMsg}
    (hcarries : Carries (elementMessage env element operation [row]) asset)
    (datacenter : String) :
    IsUnder datacenter asset ↔ datacenter ∈ parents ∨ datacenter = "not found" := by
  have hname := parentName_of_chain h hcarries
  constructor
  · rintro ⟨k, hk, heq, -⟩
    obtain ⟨i, rfl⟩ := Nat.exists_eq_succ_of_ne_zero (Nat.pos_iff_ne_zero.mp hk)
    rw [Nat.succ_eq_add_one, hname] at heq
    cases hp : parents[i]? with
    | none =>
      rw [hp] at heq
      exact .inr heq.symm
    | some p =>
      rw [hp] at heq
      exact .inl (heq ▸ List.mem_of_getElem? hp)
  · -- the parents of a chain have names, and behind the last one there is none
    have hbefore (n : Nat) (hn : n ≤ parents.length) :
        ∀ j, 1 ≤ j → j < n + 1 → asset.parentName j ≠ "not found" := by
      intro j hj hlt
      obtain ⟨i, rfl⟩ := Nat.exists_eq_succ_of_ne_zero (Nat.pos_iff_ne_zero.mp hj)
      rw [Nat.succ_eq_add_one, hname, List.getElem?_eq_getElem (by omega), Option.getD_some]
      exact (h.named _ (List.getElem_mem _)).2
    rintro (hmem | rfl)
    · obtain ⟨i, hi, heq⟩ := List.mem_iff_getElem.mp hmem
      refine ⟨i + 1, Nat.succ_pos i, ?_, hbefore i (Nat.le_of_lt hi)⟩
      rw [hname, List.getElem?_eq_getElem hi, Option.getD_some, heq]
    · refine ⟨parents.length + 1, Nat.succ_pos _, ?_, hbefore _ (Nat.le_refl _)⟩
      rw [hname, List.getElem?_eq_none (Nat.le_refl _)]
      rfl

/-- The session and the publisher agree, and the search ends on every message; the messages of
`send_configure` are those of its elements, and those for the uptime of their datacenters. -/
theorem publisher_and_session_agree {ω : Type} {env : ConfigureEnv ω} {element : DbElement}
    {operation : ω} (h : IsChain row parents) {asset : AssetMsg}
    (hcarries : Carries (elementMessage env element operation [row]) asset)
    (datacenter : String) :
    (isAssetInDatacenter datacenter asset = true ↔
      datacenter ∈ parents ∨ datacenter = "not found") ∧
    (∀ message : AssetMsg, ∃ i, Exits (parentRound datacenter message) (1, false)
      (i, isAssetInDatacenter datacenter message)) ∧
    ∀ rows, ∀ p ∈ (StateExcept.run (sendConfigure env rows) []).2, FromRows env rows p := by
  refine ⟨?_, isAssetInDatacenter_exits datacenter, fun rows ↦ ?_⟩
  · rw [isAssetInDatacenter_iff]
    exact isUnder_of_chain h hcarries datacenter
  · exact published_fromRows fun _ hp ↦ absurd hp List.not_mem_nil

end

/-- Surroundings that know one chain of parents. -/
def parentsEnv (row : ParentRow) : ConfigureEnv String where
  typeidToType _ := "device"
  subtypeidToSubtype _ := "ups"
  operation2str := id
  ups := 1
  connect := .ok ()
  selectAssetElementSuperParent _ := some [row]
  getDcUpses _ := []
  sent _ := true

def rackedUps : DbElement where
  id := 4
  name := "ups-4"
  status := "active"
  parentId := 3
  priority := 1
  typeId := 6
  subtypeId := 1
  ext := []

def receivedUps (row : ParentRow) : AssetMsg where
  name := "ups-4"
  operation := .create
  aux := (elementMessage (parentsEnv row) rackedUps "create" [row]).aux

/-- A device in a rack of the datacenter. -/
theorem publisher_and_session_agree_rack :
    let row : ParentRow := fun name ↦
      if name = "parent_name1" then some "rack-3"
      else if name = "parent_name2" then some "datacenter-1"
      else none
    isAssetInDatacenter "datacenter-1" (receivedUps row) = true := by
  intro row
  have hchain : IsChain row ["rack-3", "datacenter-1"] := ⟨by decide, by decide, by decide +kernel⟩
  have hcarries : Carries (elementMessage (parentsEnv row) rackedUps "create" [row])
    (receivedUps row) := fun _ ↦ rfl
  exact (publisher_and_session_agree hchain hcarries "datacenter-1").1.mpr (.inl (by decide))

/-- A session for the name by which it knows that there are no more parents. -/
theorem not_found_is_found :
    ¬ (isAssetInDatacenter "not found" (receivedUps fun _ ↦ none) = true ↔
      "not found" ∈ ([] : List String)) := by
  have hchain : IsChain (fun _ ↦ none) [] := ⟨by decide, by decide, fun _ _ ↦ rfl⟩
  have hcarries : Carries (elementMessage (parentsEnv fun _ ↦ none) rackedUps "create"
    [fun _ ↦ none]) (receivedUps fun _ ↦ none) := fun _ ↦ rfl
  intro h
  have hunder := (isUnder_of_chain hchain hcarries "not found").mpr (.inr rfl)
  exact absurd (h.mp (isAssetInDatacenter_iff.mpr hunder)) List.not_mem_nil

end FtyRest.Web
