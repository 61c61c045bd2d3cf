import FtyRest.Lib.PickByKey
import Mathlib.Data.Multiset.MapFold

/-!
# The order of a topology

`topology_location.ecpp` and `topology_input_power_chain.ecpp`: `reorder` builds a document again
from the rows of a query.
-/

namespace FtyRest.Ecpp

open PickByKey

/-- What a query is asked for: the elements with the names `ids`, ordered by an attribute. -/
structure OrderQuery where
  fieldOrder : String
  dir : String
  ids : List String
deriving DecidableEq

/-- What a query gives: names, and whether an exception comes behind them.  The name of an element
is found in one row. -/
structure OrderRows where
  rows : List String
  thrown : Bool
  nodup : rows.Nodup

/-! ## `topology_location` -/

structure DeviceInfo where
  name : String
  id : String
  assetOrder : Int
  type : String
  subType : String
deriving DecidableEq

inductive Device where
  | mk (info : DeviceInfo) (rooms rows racks devices : List Device)

/-- The lists of `contains`. -/
inductive ListName where
  | rooms
  | rows
  | racks
  | devices
deriving DecidableEq

namespace Device

def info : Device → DeviceInfo
  | mk info _ _ _ _ => info

def id (device : Device) : String := device.info.id

def contains : Device → ListName → List Device
  | mk _ rooms _ _ _, .rooms => rooms
  | mk _ _ rows _ _, .rows => rows
  | mk _ _ _ racks _, .racks => racks
  | mk _ _ _ _ devices, .devices => devices

theorem sizeOf_contains (device : Device) (listName : ListName) :
    sizeOf (device.contains listName) < sizeOf device := by
  cases device with
  | mk info rooms rows racks devices =>
    rw [mk.sizeOf_spec]
    cases listName with
    | rooms => show sizeOf rooms < _; omega
    | rows => show sizeOf rows < _; omega
    | racks => show sizeOf racks < _; omega
    | devices => show sizeOf devices < _; omega

end Device

/-- A list as it is at the end of `process`, or when an exception leaves it. -/
structure Processed where
  output : List Device
  thrown : Bool

/-- Behind an exception nothing is processed. -/
def Processed.next (before p : Processed) : Processed :=
  if before.thrown then ⟨[], true⟩ else p

@[simp] theorem Processed.next_thrown {before p : Processed} :
    (before.next p).thrown = (before.thrown || p.thrown) := by
  unfold next
  cases before.thrown with
  | true => rfl
  | false => rfl

@[simp] theorem Processed.next_output {before p : Processed} :
    (before.next p).output = if before.thrown then [] else p.output := by
  unfold next
  split
  · rfl
  · rfl

section

-- the answer of the database to the query for the list `listName` of the device at a position
variable (query : List (ListName × String) → ListName → OrderQuery → OrderRows)
variable (order dir : String)

mutual

/-- `process`; the device that it takes the list of stands at `position`. -/
def process (position : List (ListName × String)) (listName : ListName) (dev : List Device) :
    Processed :=
  let ids := dev.map Device.id
  if ids = [] then ⟨[], false⟩
  else
    let result := query position listName ⟨order, dir, ids⟩
    let output := result.rows.filterMap fun name ↦
      match _ : dev.find? (fun item ↦ item.id = name) with
      | some it => some (reorder ((listName, name) :: position) it)
      | none => none
    ⟨output, result.thrown⟩
termination_by sizeOf dev
decreasing_by exact List.sizeOf_lt_of_mem (List.mem_of_find?_eq_some ‹_›)

def reorder (position : List (ListName × String)) (device : Device) : Device :=
  let rooms := process position .rooms (device.contains .rooms)
  let rows := rooms.next (process position .rows (device.contains .rows))
  let racks := rows.next (process position .racks (device.contains .racks))
  let devices := racks.next (process position .devices (device.contains .devices))
  .mk device.info rooms.output rows.output racks.output devices.output
termination_by sizeOf device
decreasing_by all_goals exact Device.sizeOf_contains device _

end

end

/-! ## `topology_input_power_chain` -/

structure ChainDevice where
  name : String
  id : String
  subType : String
deriving DecidableEq

structure Power where
  srcId : String
  dstId : String
deriving DecidableEq

structure PowerChain where
  devices : List ChainDevice
  powers : List Power
deriving DecidableEq

def reorderChain (query : OrderQuery → OrderRows) (fieldOrder dir : String) (other : PowerChain) :
    PowerChain :=
  let ids := other.devices.map ChainDevice.id
  let result := query ⟨fieldOrder, dir, ids⟩
  let devices := result.rows.filterMap fun name ↦ other.devices.find? fun dev ↦ dev.id = name
  -- what has been built is dropped with the exception
  if result.thrown then other else { devices := devices, powers := other.powers }

/-! ## The same topology -/

/-- The same devices in every list, in any order. -/
inductive SameTree : Device → Device → Prop
  | mk {device out : Device} : device.info = out.info →
      (∀ listName, Multiset.Rel SameTree (device.contains listName : Multiset Device)
        (out.contains listName : Multiset Device)) →
      SameTree device out

/-- The same devices in any order, and the same links. -/
structure SameChain (other out : PowerChain) : Prop where
  devices : out.devices.Perm other.devices
  powers : out.powers = other.powers

theorem SameTree.info {device out : Device} (h : SameTree device out) : device.info = out.info := by
  cases h with
  | mk hinfo _ => exact hinfo

theorem SameTree.contains {device out : Device} (h : SameTree device out) (listName : ListName) :
    Multiset.Rel SameTree (device.contains listName : Multiset Device)
      (out.contains listName : Multiset Device) := by
  cases h with
  | mk _ hcontains => exact hcontains listName

/-- The ids of a list stay. -/
theorem ids_of_rel {dev output : List Device}
    (h : Multiset.Rel SameTree (dev : Multiset Device) (output : Multiset Device)) :
    (dev.map Device.id).Perm (output.map Device.id) := by
  rw [← Multiset.coe_eq_coe, ← Multiset.map_coe, ← Multiset.map_coe, ← Multiset.rel_eq,
    Multiset.rel_map]
  apply h.mono
  intro device _ out _ hsame
  rw [Device.id, Device.id, hsame.info]

namespace ListName

/-- The lists that are processed behind a list. -/
def later : ListName → List ListName
  | rooms => [rows, racks, devices]
  | rows => [racks, devices]
  | racks => [devices]
  | devices => []

end ListName

section

variable {query : List (ListName × String) → ListName → OrderQuery → OrderRows}
variable {order dir : String} {position : List (ListName × String)} {listName : ListName}

/-! ## One list -/

/-- The answer for a list of devices. -/
def rowsOf (query : List (ListName × String) → ListName → OrderQuery → OrderRows)
    (order dir : String) (position : List (ListName × String)) (listName : ListName)
    (dev : List Device) : OrderRows :=
  query position listName ⟨order, dir, dev.map Device.id⟩

theorem process_nil : process query order dir position listName [] = ⟨[], false⟩ := by
  rw [process]
  rfl

theorem process_ne_nil {dev : List Device} (h : dev ≠ []) :
    process query order dir position listName dev =
      { output := (pick Device.id dev (rowsOf query order dir position listName dev).rows).map
          fun it ↦ reorder query order dir ((listName, it.id) :: position) it,
        thrown := (rowsOf query order dir position listName dev).thrown } := by
  have hids : ¬ dev.map Device.id = [] := by rwa [List.map_eq_nil_iff]
  rw [process]
  dsimp only
  -- the rows pick the devices by their ids, as the first device with the id is taken
  rw [if_neg hids, pick, List.map_filterMap]
  congr 1
  apply List.filterMap_congr
  intro name _
  split
  · rename_i it hfind
    have hname : it.id = name :=
      of_decide_eq_true (List.find?_some (p := fun item : Device ↦ item.id = name) hfind)
    rw [hfind, Option.map_some, hname]
  · rename_i hfind
    rw [hfind]
    rfl

theorem thrown_process {dev : List Device}
    (h : (process query order dir position listName dev).thrown = true) :
    dev ≠ [] ∧ (rowsOf query order dir position listName dev).thrown = true := by
  by_cases hdev : dev = []
  · rw [hdev, process_nil] at h
    cases h
  · rw [process_ne_nil hdev] at h
    exact ⟨hdev, h⟩

/-! ## The four lists -/

theorem reorder_info {device : Device} :
    (reorder query order dir position device).info = device.info := by
  rw [reorder]
  rfl

/-- Without an exception in front of it a list is processed. -/
theorem reorder_contains {device : Device}
    (h : ∀ before, listName ∈ before.later →
      (process query order dir position before (device.contains before)).thrown = false) :
    (reorder query order dir position device).contains listName =
      (process query order dir position listName (device.contains listName)).output := by
  rw [reorder]
  cases listName with
  | rooms => rfl
  | rows =>
    show (Processed.next _ _).output = _
    simp [h .rooms (by decide)]
  | racks =>
    show (Processed.next (Processed.next _ _) _).output = _
    simp [h .rooms (by decide), h .rows (by decide)]
  | devices =>
    show (Processed.next (Processed.next (Processed.next _ _) _) _).output = _
    simp [h .rooms (by decide), h .rows (by decide), h .racks (by decide)]

/-- The lists behind an exception are lost. -/
theorem reorder_contains_thrown {device : Device} {before : ListName}
    (hlater : listName ∈ before.later)
    (h : (process query order dir position before (device.contains before)).thrown = true) :
    (reorder query order dir position device).contains listName = [] := by
  rw [reorder]
  -- the lists behind the one that throws are not printed
  cases listName with
  | rooms => cases before <;> exact absurd hlater (by decide)
  | rows =>
    show (Processed.next _ _).output = _
    cases before with
    | rooms => simp [h]
    | _ => exact absurd hlater (by decide)
  | racks =>
    show (Processed.next (Processed.next _ _) _).output = _
    cases before with
    | rooms => simp [h]
    | rows => simp [h]
    | _ => exact absurd hlater (by decide)
  | devices =>
    show (Processed.next (Processed.next (Processed.next _ _) _) _).output = _
    cases before with
    | rooms => simp [h]
    | rows => simp [h]
    | racks => simp [h]
    | devices => exact absurd hlater (by decide)

/-! ## The whole tree -/

/-- A list that loses nothing: distinct ids, all of them among the rows, and no exception that a
list behind it is lost to. -/
structure ListAnswered (query : List (ListName × String) → ListName → OrderQuery → OrderRows)
    (order dir : String) (position : List (ListName × String)) (device : Device)
    (listName : ListName) : Prop where
  nodup : ((device.contains listName).map Device.id).Nodup
  answered : ∀ it ∈ device.contains listName,
    it.id ∈ (rowsOf query order dir position listName (device.contains listName)).rows
  thrown : (rowsOf query order dir position listName (device.contains listName)).thrown = true →
    ∀ behind ∈ listName.later, device.contains behind = []

/-- Every list of the tree that is not empty loses nothing. -/
inductive Answered (query : List (ListName × String) → ListName → OrderQuery → OrderRows)
    (order dir : String) : List (ListName × String) → Device → Prop
  | mk {position : List (ListName × String)} {device : Device} :
      (∀ listName, device.contains listName ≠ [] →
        ListAnswered query order dir position device listName) →
      (∀ listName, ∀ it ∈ device.contains listName,
        Answered query order dir ((listName, it.id) :: position) it) →
      Answered query order dir position device

/-- A list that is processed holds the devices of its rows. -/
theorem output_of_rel {device : Device} (hne : device.contains listName ≠ [])
    (h : Multiset.Rel SameTree (device.contains listName : Multiset Device)
      ((reorder query order dir position device).contains listName : Multiset Device)) :
    (reorder query order dir position device).contains listName =
      (process query order dir position listName (device.contains listName)).output := by
  apply reorder_contains
  intro before hlater
  -- behind an exception the list would be empty, and would not hold the same devices
  rw [← Bool.not_eq_true]
  intro hthrown
  rw [reorder_contains_thrown hlater hthrown] at h
  have hnil := Multiset.rel_zero_right.mp h
  exact hne (Multiset.coe_eq_zero _ |>.mp hnil)

theorem id_reorder {it : Device} : (reorder query order dir position it).id = it.id := by
  rw [Device.id, reorder_info, Device.id]

theorem listAnswered_of_sameTree {device : Device} (hne : device.contains listName ≠ [])
    (h : SameTree device (reorder query order dir position device)) :
    ListAnswered query order dir position device listName := by
  have hrel := h.contains listName
  have hids := ids_of_rel hrel
  rw [output_of_rel hne hrel, process_ne_nil hne, List.map_map] at hids
  have hpicked : (device.contains listName |>.map Device.id).Perm
      ((pick Device.id (device.contains listName)
        (rowsOf query order dir position listName (device.contains listName)).rows).map
          Device.id) := by
    apply hids.trans
    rw [show (Device.id ∘ fun it ↦ reorder query order dir ((listName, it.id) :: position) it) =
      Device.id from funext fun it ↦ id_reorder]
  obtain ⟨hnodup, hall⟩ := all_of_pick_perm (OrderRows.nodup _) hpicked
  refine ⟨hnodup, hall, fun hthrown behind hbehind ↦ ?_⟩
  have hprocess : (process query order dir position listName
      (device.contains listName)).thrown = true := by
    rw [process_ne_nil hne]
    exact hthrown
  have hlost := h.contains behind
  rw [reorder_contains_thrown hbehind hprocess] at hlost
  exact Multiset.coe_eq_zero _ |>.mp (Multiset.rel_zero_right.mp hlost)

/-- A device of a list is found again with its own tree. -/
theorem sameTree_of_mem {device it : Device} (hmem : it ∈ device.contains listName)
    (h : SameTree device (reorder query order dir position device)) :
    SameTree it (reorder query order dir ((listName, it.id) :: position) it) := by
  have hne := List.ne_nil_of_mem hmem
  have hrel := h.contains listName
  have hnodup := (listAnswered_of_sameTree hne h).nodup
  obtain ⟨out, hout, hsame⟩ := Multiset.exists_mem_of_rel_of_mem hrel (Multiset.mem_coe.mpr hmem)
  rw [Multiset.mem_coe, output_of_rel hne hrel, process_ne_nil hne] at hout
  obtain ⟨found, hfound, rfl⟩ := List.mem_map.mp hout
  -- the ids are distinct, so the device that is found is the one of the list
  have hid : it.id = found.id := by
    rw [Device.id, hsame.info]
    exact id_reorder
  rw [List.inj_on_of_nodup_map hnodup hmem (mem_of_mem_pick hfound).1 hid]
  rw [List.inj_on_of_nodup_map hnodup hmem (mem_of_mem_pick hfound).1 hid] at hsame
  exact hsame

theorem answered_of_sameTree (position : List (ListName × String)) (device : Device)
    (h : SameTree device (reorder query order dir position device)) :
    Answered query order dir position device := by
  apply Answered.mk
  · intro listName hne
    exact listAnswered_of_sameTree hne h
  · intro listName it hmem
    exact answered_of_sameTree _ it (sameTree_of_mem hmem h)
termination_by sizeOf device
decreasing_by exact (List.sizeOf_lt_of_mem hmem).trans (Device.sizeOf_contains device listName)

theorem sameTree_of_answered {device : Device}
    (h : Answered query order dir position device) :
    SameTree device (reorder query order dir position device) := by
  induction h with
  | @mk position device hlists _ ih =>
    apply SameTree.mk reorder_info.symm
    intro listName
    -- a list that an exception is in front of is empty anyway
    by_cases hthrown : ∃ before, listName ∈ before.later ∧
        (process query order dir position before (device.contains before)).thrown = true
    · obtain ⟨before, hlater, hthrown⟩ := hthrown
      rw [reorder_contains_thrown hlater hthrown]
      obtain ⟨hne, hrows⟩ := thrown_process hthrown
      rw [(hlists before hne).thrown hrows listName hlater]
      exact Multiset.Rel.zero
    · rw [reorder_contains fun before hlater ↦
        Bool.not_eq_true _ |>.mp fun h ↦ hthrown ⟨before, hlater, h⟩]
      by_cases hne : device.contains listName = []
      · rw [hne, process_nil]
        exact Multiset.Rel.zero
      · obtain ⟨hnodup, hall, -⟩ := hlists listName hne
        have hpick := pick_perm hnodup (OrderRows.nodup _) hall
        rw [process_ne_nil hne, ← Multiset.map_coe, Multiset.coe_eq_coe.mpr hpick,
          Multiset.rel_map_right]
        exact Multiset.rel_refl_of_refl_on fun it hit ↦ ih listName it (Multiset.mem_coe.mp hit)

theorem sameTree_iff {device : Device} :
    SameTree device (reorder query order dir position device) ↔
      Answered query order dir position device :=
  ⟨answered_of_sameTree position device, sameTree_of_answered⟩

end

theorem sameChain_iff {query : OrderQuery → OrderRows} {fieldOrder dir : String}
    {other : PowerChain} : SameChain other (reorderChain query fieldOrder dir other) ↔
      let ids := other.devices.map ChainDevice.id
      let result := query ⟨fieldOrder, dir, ids⟩
      result.thrown = true ∨ ids.Nodup ∧ ∀ dev ∈ other.devices, dev.id ∈ result.rows := by
  have hdevices (h : ¬ (query ⟨fieldOrder, dir, other.devices.map ChainDevice.id⟩).thrown = true) :
      reorderChain query fieldOrder dir other =
        { devices := pick ChainDevice.id other.devices
            (query ⟨fieldOrder, dir, other.devices.map ChainDevice.id⟩).rows,
          powers := other.powers } := by
    unfold reorderChain
    dsimp only
    rw [if_neg h]
    rfl
  dsimp only
  -- a query that throws leaves the chain as it was
  by_cases h : (query ⟨fieldOrder, dir, other.devices.map ChainDevice.id⟩).thrown = true
  · have hother : reorderChain query fieldOrder dir other = other := by
      unfold reorderChain
      dsimp only
      rw [if_pos h]
    rw [hother]
    exact iff_of_true ⟨List.Perm.refl _, rfl⟩ (.inl h)
  · rw [or_iff_right h, hdevices h]
    constructor
    · intro hsame
      exact all_of_pick_perm (OrderRows.nodup _) (hsame.devices.symm.map ChainDevice.id)
    · rintro ⟨hnodup, hall⟩
      exact ⟨pick_perm hnodup (OrderRows.nodup _) hall, rfl⟩

/-- Nothing is lost of a location tree exactly when each of its lists is answered, and nothing of a
power chain exactly when its devices are answered or the query fails. -/
theorem reorder_loses_nothing_iff
    (query : List (ListName × String) → ListName → OrderQuery → OrderRows)
    (chainQuery : OrderQuery → OrderRows) (order dir : String) (device : Device)
    (other : PowerChain) :
    (SameTree device (reorder query order dir [] device) ↔ Answered query order dir [] device) ∧
    (SameChain other (reorderChain chainQuery order dir other) ↔
      let ids := other.devices.map ChainDevice.id
      let result := chainQuery ⟨order, dir, ids⟩
      result.thrown = true ∨ ids.Nodup ∧ ∀ dev ∈ other.devices, dev.id ∈ result.rows) :=
  ⟨sameTree_iff, sameChain_iff⟩

/-- The database does not know the room of a datacenter. -/
theorem unknown_room_is_lost :
    let room : Device := .mk ⟨"Room", "room-2", 1, "room", "N_A"⟩ [] [] [] []
    let datacenter : Device := .mk ⟨"DC", "datacenter-1", 1, "datacenter", "N_A"⟩ [room] [] [] []
    ¬ SameTree datacenter (reorder (fun _ _ _ ↦ ⟨[], false, List.nodup_nil⟩) "asset_order" "ASC" []
      datacenter) := by
  intro room datacenter h
  have hne : datacenter.contains .rooms ≠ [] := List.cons_ne_nil _ _
  have hrooms := (listAnswered_of_sameTree hne h).answered
  exact absurd (hrooms room List.mem_cons_self) List.not_mem_nil

end FtyRest.Ecpp
