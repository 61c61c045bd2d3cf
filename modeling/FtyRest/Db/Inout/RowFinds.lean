import FtyRest.Db.Inout.RowTrace

/-!
# The finds of a row

`process_row` takes ids out of the dictionaries of types and subtypes with `find(key)->second`.
Which of these finds are reached, and when each of them gives an entry.
-/

namespace FtyRest.Db

open Shared Checks

/-- A `find` whose `second` is used. -/
structure Find where
  dictionary : List (String × Nat)
  key : String

def Find.Present (f : Find) : Prop := (f.dictionary.lookup f.key).isSome

/-- What is known of a row before its type is looked up. -/
structure RowHead where
  names : List (String × String)
  idStr : String
  id : Int
  ename : String
  iname : String

/-- What is known of a row before its subtype is looked up. -/
structure RowBasics extends RowHead where
  type : String
  typeId : Nat
  status : String
  assetTag : String
  priority : String
  parentId : Nat

section

variable {σ : Type} (db : AssetsDb σ) (tools : Tools) (s : σ) (i : RowInput)

def rowHead : Except Thrown RowHead := do
  require (i.limitations.globalConfigurability ≠ 0) (.bios "action-forbidden"
    ["Asset handling", "Licensing global_configurability limit hit"])
  let names ← sanitizeRowExtNames db s i
  require (i.titles ≠ []) (.bios "bad-request-document" ["Cannot import empty document."])
  let idStr ← rowIdStr i
  let id ← rowId db s i idStr
  let (ename, iname) ← rowName db s i idStr
  return { names, idStr, id, ename, iname }

def rowBasics (head : RowHead) : Except Thrown RowBasics := do
  let (type, typeId) ← rowType tools i
  let status ← rowStatus tools i
  let assetTag ← rowAssetTag i
  let priority ← i.cellStrip "priority"
  let parentId ← rowLocation db s head.names
  return { head with type, typeId, status, assetTag, priority, parentId }

def readBody (b : RowBasics) : Except Thrown RowPlan := do
  let (rackControllerId, subtypeId, subtype) ← rowSubtype tools i b.type
  checkInDb db s b.idStr b.id b.typeId subtypeId
  let groups ← rowGroups db s i b.names
  let links ← rowLinks db s i b.names b.ename b.type
  let ext ← rowExtAttributes db tools s i b.names b.idStr b.ename b.type subtype
  return {
    idStr := b.idStr, id := b.id, ename := b.ename, iname := b.iname, type := b.type
    typeId := b.typeId, status := b.status, assetTag := b.assetTag, parentId := b.parentId
    rackControllerId, subtype, subtypeId, groups, links, ext
    priority := getPriority tools.behindText b.priority }

theorem readRow_eq_bind :
    readRow db tools s i = rowHead db s i >>= rowBasics db tools s i >>= readBody db tools s i := by
  simp only [readRow, rowHead, rowBasics, readBody, bind_assoc, pure_bind]

/-- The dictionary in which the subtype is looked up, by the finds of the two ids in it. -/
def rowSubtypes : List (String × Nat) :=
  localSubtypes i ((i.subtypes.lookup "rack controller").getD tools.behindEnd)
    ((i.subtypes.lookup "patch panel").getD tools.behindEnd)

/-- The finds that a row reaches, in their order. -/
def rowFinds : List Find :=
  match rowHead db s i with
  | .error _ => []
  | .ok head =>
      (match rowType tools i with
        | .error _ => []
        | .ok (type, _) => [⟨i.types, type⟩]) ++
      match rowBasics db tools s i head with
      | .error _ => []
      | .ok b =>
          [⟨i.subtypes, "rack controller"⟩, ⟨i.subtypes, "patch panel"⟩] ++
          match rowSubtype tools i b.type with
          | .error _ => []
          | .ok (_, _, subtype) => [⟨rowSubtypes tools i, subtype⟩]

/-- Every find that is reached gives an entry, the ids of the row are ids of entries, and what is
behind the end of a dictionary changes nothing. -/
structure EntriesUsed : Prop where
  present : ∀ f ∈ rowFinds db tools s i, f.Present
  ids : ∀ plan, readRow db tools s i = .ok plan →
    i.types.lookup plan.type = some plan.typeId ∧
      i.subtypes.lookup "rack controller" = some plan.rackControllerId ∧
        (rowSubtypes tools i).lookup plan.subtype = some plan.subtypeId
  behindEnd : ∀ n, readRow db { tools with behindEnd := n } s i = readRow db tools s i

/-- A row that gets to its subtype, and is not refused for it, has a subtype of the dictionary. -/
def SubtypeKnown : Prop :=
  ∀ head b cell, rowHead db s i = .ok head → rowBasics db tools s i head = .ok b →
    i.cell "sub_type" = .ok cell → b.type ≠ "device" → ¬ (b.type = "group" ∧ ciStrip cell = "") →
      ((rowSubtypes tools i).lookup (ciStrip cell)).isSome

end

section

variable {σ : Type} {db : AssetsDb σ} {tools : Tools} {s : σ} {i : RowInput}

theorem cellStrip_eq_ok {title text : String} :
    i.cellStrip title = .ok text ↔ ∃ cell, i.cell title = .ok cell ∧ ciStrip cell = text := by
  simp only [RowInput.cellStrip, RowInput.cell, CsvMap.getStrip, mapError_eq_ok, map_eq_ok]

theorem rowType_eq_ok {type : String} {typeId : Nat} (h : rowType tools i = .ok (type, typeId)) :
    i.types.lookup type = some typeId := by
  simp only [rowType, bind_eq_ok, orThrow_eq_ok, pure_eq_ok, Prod.mk.injEq] at h
  obtain ⟨text, -, id, hid, rfl, rfl⟩ := h
  exact hid

theorem rowSubtype_eq_ok {type subtype : String} {rackControllerId subtypeId : Nat} :
    rowSubtype tools i type = .ok (rackControllerId, subtypeId, subtype) ↔
      ∃ cell, i.cell "sub_type" = .ok cell ∧ ciStrip cell = subtype ∧
        ¬ (type = "device" ∧ ((rowSubtypes tools i).lookup subtype).isNone) ∧
        ¬ (subtype = "" ∧ type = "group") ∧
        rackControllerId = (i.subtypes.lookup "rack controller").getD tools.behindEnd ∧
        subtypeId = ((rowSubtypes tools i).lookup subtype).getD tools.behindEnd := by
  simp only [rowSubtype, bind_eq_ok, require_eq_ok, pure_eq_ok, Prod.mk.injEq, cellStrip_eq_ok]
  constructor
  · rintro ⟨_, ⟨cell, hcell, rfl⟩, -, hdevice, -, hgroup, rfl, rfl, rfl⟩
    exact ⟨cell, hcell, rfl, hdevice, hgroup, rfl, rfl⟩
  · rintro ⟨cell, hcell, rfl, hdevice, hgroup, rfl, rfl⟩
    exact ⟨_, ⟨cell, hcell, rfl⟩, (), hdevice, (), hgroup, rfl, rfl, rfl⟩

/-- The find of the subtype gives an entry, when the row is not refused before. -/
theorem SubtypeKnown.present (h : SubtypeKnown db tools s i) {head : RowHead} {b : RowBasics}
    (hhead : rowHead db s i = .ok head) (hbasics : rowBasics db tools s i head = .ok b)
    {rackControllerId subtypeId : Nat} {subtype : String}
    (hsubtype : rowSubtype tools i b.type = .ok (rackControllerId, subtypeId, subtype)) :
    ((rowSubtypes tools i).lookup subtype).isSome := by
  obtain ⟨cell, hcell, rfl, hdevice, hgroup, -, -⟩ := rowSubtype_eq_ok.mp hsubtype
  by_cases htype : b.type = "device"
  · rw [Option.isSome_iff_ne_none]
    intro hnone
    exact hdevice ⟨htype, by rw [hnone]; rfl⟩
  · exact h head b cell hhead hbasics hcell htype fun hempty ↦ hgroup ⟨hempty.2, hempty.1⟩

variable {rc pp : Nat}

/-- With both entries, the end of the dictionary is left to the find of the subtype. -/
theorem rowSubtype_behindEnd (hrc : i.subtypes.lookup "rack controller" = some rc)
    (hpp : i.subtypes.lookup "patch panel" = some pp) {type : String}
    (h : ∀ rackControllerId subtypeId subtype,
      rowSubtype tools i type = .ok (rackControllerId, subtypeId, subtype) →
        ((rowSubtypes tools i).lookup subtype).isSome) (n : Nat) :
    rowSubtype { tools with behindEnd := n } i type = rowSubtype tools i type := by
  -- the dictionary itself does not read behind the end
  have hdictionary (t : Tools) : rowSubtypes t i = localSubtypes i rc pp := by
    unfold rowSubtypes
    rw [hrc, hpp]
    rfl
  simp only [rowSubtype_eq_ok, hdictionary] at h
  unfold rowSubtype
  simp only [hrc, hpp, Option.getD_some]
  cases htext : i.cellStrip "sub_type" with
  | error e => rfl
  | ok subtype =>
    obtain ⟨cell, hcell, hcellStrip⟩ := cellStrip_eq_ok.mp htext
    simp only [ok_bind]
    by_cases hdevice : ¬ (type = "device" ∧ ((localSubtypes i rc pp).lookup subtype).isNone)
    · by_cases hgroup : ¬ (subtype = "" ∧ type = "group")
      · have hsome := h _ _ subtype ⟨cell, hcell, hcellStrip, hdevice, hgroup, rfl, rfl⟩
        obtain ⟨id, hid⟩ := Option.isSome_iff_exists.mp hsome
        rw [hid]
        rfl
      · simp only [require, if_neg hgroup]
        rfl
    · simp only [require, if_neg hdevice]
      rfl

theorem readRow_behindEnd (hrc : i.subtypes.lookup "rack controller" = some rc)
    (hpp : i.subtypes.lookup "patch panel" = some pp) (h : SubtypeKnown db tools s i) (n : Nat) :
    readRow db { tools with behindEnd := n } s i = readRow db tools s i := by
  rw [readRow_eq_bind, readRow_eq_bind]
  cases hhead : rowHead db s i with
  | error e => rfl
  | ok head =>
    show (rowBasics db tools s i head >>= readBody db { tools with behindEnd := n } s i) =
      rowBasics db tools s i head >>= readBody db tools s i
    cases hbasics : rowBasics db tools s i head with
    | error e => rfl
    | ok b =>
      show readBody db { tools with behindEnd := n } s i b = readBody db tools s i b
      unfold readBody
      rw [rowSubtype_behindEnd hrc hpp fun _ _ _ hsubtype ↦ h.present hhead hbasics hsubtype]
      rfl

theorem readRow_basics {plan : RowPlan} (h : readRow db tools s i = .ok plan) :
    ∃ head b, rowHead db s i = .ok head ∧ rowBasics db tools s i head = .ok b ∧
      rowType tools i = .ok (plan.type, plan.typeId) ∧
      rowSubtype tools i b.type = .ok (plan.rackControllerId, plan.subtypeId, plan.subtype) := by
  obtain ⟨_, hsteps⟩ := readRow_steps h
  rw [readRow_eq_bind, bind_eq_ok] at h
  obtain ⟨b, hb, hbody⟩ := h
  obtain ⟨head, hhead, hbasics⟩ := bind_eq_ok.mp hb
  refine ⟨head, b, hhead, hbasics, hsteps.type, ?_⟩
  have htype : b.type = plan.type := by
    simp only [readBody, bind_eq_ok, pure_eq_ok] at hbody
    obtain ⟨_, -, _, -, _, -, _, -, _, -, rfl⟩ := hbody
    rfl
  rw [htype]
  exact hsteps.subtype

theorem SubtypeKnown.ids (hrc : i.subtypes.lookup "rack controller" = some rc)
    (h : SubtypeKnown db tools s i) {plan : RowPlan} (hplan : readRow db tools s i = .ok plan) :
    i.types.lookup plan.type = some plan.typeId ∧
      i.subtypes.lookup "rack controller" = some plan.rackControllerId ∧
        (rowSubtypes tools i).lookup plan.subtype = some plan.subtypeId := by
  obtain ⟨head, b, hhead, hbasics, htype, hsubtype⟩ := readRow_basics hplan
  obtain ⟨id, hid⟩ := Option.isSome_iff_exists.mp (h.present hhead hbasics hsubtype)
  obtain ⟨_, -, -, -, -, hrackController, hsubtypeId⟩ := rowSubtype_eq_ok.mp hsubtype
  rw [hrc] at hrackController
  rw [hid] at hsubtypeId
  refine ⟨rowType_eq_ok htype, ?_, ?_⟩
  · rw [hrc, hrackController]
    rfl
  · rw [hid, hsubtypeId]
    rfl

theorem SubtypeKnown.finds_present (hrc : i.subtypes.lookup "rack controller" = some rc)
    (hpp : i.subtypes.lookup "patch panel" = some pp) (h : SubtypeKnown db tools s i) :
    ∀ f ∈ rowFinds db tools s i, f.Present := by
  intro f hf
  unfold rowFinds at hf
  -- each find is made only where the part of the row in front of it was accepted
  cases hhead : rowHead db s i with
  | error e => simp [hhead] at hf
  | ok head =>
    simp only [hhead, List.mem_append] at hf
    rcases hf with hf | hf
    · cases htype : rowType tools i with
      | error e => simp [htype] at hf
      | ok p =>
        simp only [htype, List.mem_singleton] at hf
        rw [hf, Find.Present, rowType_eq_ok htype]
        rfl
    · cases hbasics : rowBasics db tools s i head with
      | error e => simp [hbasics] at hf
      | ok b =>
        simp only [hbasics, List.mem_append, List.mem_cons, List.not_mem_nil, or_false] at hf
        rcases hf with (rfl | rfl) | hf
        · rw [Find.Present, hrc]
          rfl
        · rw [Find.Present, hpp]
          rfl
        · cases hsubtype : rowSubtype tools i b.type with
          | error e => simp [hsubtype] at hf
          | ok p =>
            simp only [hsubtype, List.mem_singleton] at hf
            rw [hf]
            exact h.present hhead hbasics hsubtype

/-- The find of the subtype is reached by a row that is not refused for it. -/
theorem subtype_mem_rowFinds {head : RowHead} {b : RowBasics} {cell : String}
    (hhead : rowHead db s i = .ok head) (hbasics : rowBasics db tools s i head = .ok b)
    (hcell : i.cell "sub_type" = .ok cell) (hdevice : b.type ≠ "device")
    (hgroup : ¬ (b.type = "group" ∧ ciStrip cell = "")) :
    ⟨rowSubtypes tools i, ciStrip cell⟩ ∈ rowFinds db tools s i := by
  have hsubtype : rowSubtype tools i b.type = .ok (_, _, ciStrip cell) :=
    rowSubtype_eq_ok.mpr ⟨cell, hcell, rfl, fun h ↦ hdevice h.1, fun h ↦ hgroup ⟨h.2, h.1⟩, rfl, rfl⟩
  unfold rowFinds
  simp only [hhead, hbasics, hsubtype, List.mem_append]
  exact Or.inr (Or.inr (List.mem_singleton_self _))

/-- The subtype is checked for a device, and for a group that has none; whatever the type is, it is
looked up. -/
theorem entriesUsed_iff (hrc : i.subtypes.lookup "rack controller" = some rc)
    (hpp : i.subtypes.lookup "patch panel" = some pp) :
    EntriesUsed db tools s i ↔ SubtypeKnown db tools s i := by
  constructor
  · intro h head b cell hhead hbasics hcell hdevice hgroup
    exact h.present _ (subtype_mem_rowFinds hhead hbasics hcell hdevice hgroup)
  · intro h
    exact ⟨h.finds_present hrc hpp, fun _ hplan ↦ h.ids hrc hplan, readRow_behindEnd hrc hpp h⟩

end

/-! ## A rack without a subtype -/

/-- A row for a new rack. -/
def rackRow (subtype : String) : RowInput where
  cm := {
    data := [["name", "type", "sub_type", "location", "status", "priority"],
      ["Rack", "rack", subtype, "", "active", "P1"]]
    titleToIndex := ["name", "type", "sub_type", "location", "status", "priority"].zipIdx }
  row := 1
  types := [("device", AssetType.device), ("rack", AssetType.rack)]
  subtypes := [("n_a", 11), ("patch panel", 3), ("rack controller", 2)]
  ids := []
  sanitize := true
  rc0 := 2 ^ 64 - 1
  limitations := { globalConfigurability := 1 }

theorem entriesUsed_iff_rack :
    EntriesUsed (oneUps {}) plainTools "" (rackRow "N_A") ↔
      SubtypeKnown (oneUps {}) plainTools "" (rackRow "N_A") :=
  entriesUsed_iff rfl rfl

/-- Without a subtype the rack gets the id that is behind the end of the dictionary. -/
theorem rack_without_subtype :
    (rackRow "").subtypes.lookup "rack controller" = some 2 ∧
      (rackRow "").subtypes.lookup "patch panel" = some 3 ∧
      (∀ n, ((readRow (oneUps {}) { plainTools with behindEnd := n } "" (rackRow "")).map
        RowPlan.subtypeId).toOption = some n) ∧
      ¬ EntriesUsed (oneUps {}) plainTools "" (rackRow "") := by
  have hfind : (rowFinds (oneUps {}) plainTools "" (rackRow "")).map
      (fun f ↦ (f.dictionary.lookup f.key).isSome) = [true, true, true, false] := by
    decide +kernel
  refine ⟨rfl, rfl, fun n ↦ ?_, fun h ↦ ?_⟩
  · rfl
  · have hall : ∀ b ∈ [true, true, true, false], b = true := by
      rw [← hfind]
      intro b hb
      obtain ⟨f, hf, rfl⟩ := List.mem_map.mp hb
      exact h.present f hf
    exact absurd (hall false (by decide)) (by decide)

end FtyRest.Db
