import FtyRest.Ecpp.Json
import FtyRest.Lib.AssocList
import FtyRest.Lib.Checks
import FtyRest.Shared.Csv

/-!
# `CsvMap_from_serialization_info`

The reader of `shared/csv.cc` that makes a table with one row of a document.
-/

namespace FtyRest.Shared

open Checks
open Ecpp (Json)

inductive JsonError where
  -- std::invalid_argument
  | invalidArgument (msg : String)
  | csv (e : CsvError)
deriving DecidableEq, Repr

/-- A title and its cell: the two rows of the table grow together. -/
abbrev Column := String × String

/-- A title with the counter of a loop that has gone through `i` elements. -/
def countedTitle (item : String) (i : Nat) : String := item ++ toString (i + 1)

/-- One element of `powers`; the id of the source is ignored. -/
def powerColumns (oneElement : Json) (i : Nat) : Except JsonError (List Column) := do
  let srcName ← orThrow (oneElement.getMember "src_name")
    (.invalidArgument "Key 'src_name' in the key 'powers' is mandatory")
  let optional (name item : String) : List Column :=
    match oneElement.getMember name with
    | some value => [(countedTitle item i, value.getValue)]
    | none => []
  return (countedTitle "power_source." i, srcName.getValue) ::
    optional "src_socket" "power_plug_src." ++ optional "dest_socket" "power_input."

def processPowersKey : Json → Except JsonError (List Column)
  | .array items => do
      let columns ← items.zipIdx.mapM fun (oneElement, i) ↦ powerColumns oneElement i
      return columns.flatten
  | _ => .error (.invalidArgument "Key 'powers' should be an array")

/-- One element of `groups`; its id is ignored. -/
def groupColumn (oneElement : Json) (i : Nat) : Except JsonError Column := do
  let groupName ← orThrow (oneElement.getMember "name")
    (.invalidArgument "Key 'name' in the key 'groups' is mandatory")
  return (countedTitle "group." i, groupName.getValue)

def processGroupsKey : Json → Except JsonError (List Column)
  | .array items => items.zipIdx.mapM fun (oneElement, i) ↦ groupColumn oneElement i
  | _ => .error (.invalidArgument "Key 'groups' should be an array")

/-- A list of values, which are numbered by their position. -/
def processValuesKey (key item : String) : Json → Except JsonError (List Column)
  | .array items => .ok (items.zipIdx.map fun (oneElement, i) ↦
      (countedTitle item i, oneElement.getValue))
  | _ => .error (.invalidArgument ("Key '" ++ key ++ "' should be an array"))

def processIpsKey : Json → Except JsonError (List Column) := processValuesKey "ips" "ip."

def processMacsKey : Json → Except JsonError (List Column) := processValuesKey "macs" "mac."

def processHostnamesKey : Json → Except JsonError (List Column) :=
  processValuesKey "hostnames" "hostname."

def processFqdnsKey : Json → Except JsonError (List Column) := processValuesKey "fqdns" "fqdn."

section

-- whether a value can be read as a truth value
variable (isBool : Json → Bool)

/-- An attribute of an outlet. -/
def outletColumn (outlet : String) (oneOutletAttr : Json) : Except JsonError Column :=
  match oneOutletAttr.getMember "name", oneOutletAttr.getMember "value",
      oneOutletAttr.getMember "read_only" with
  | some name, some value, some readOnly =>
      if isBool readOnly then
        .ok ("outlet." ++ outlet ++ "." ++ name.getValue, value.getValue)
      else
        .error (.invalidArgument "In outlet object key 'name/value/read_only' is missing")
  | _, _, _ => .error (.invalidArgument "In outlet object key 'name/value/read_only' is missing")

def processOneOutlet : String × Json → Except JsonError (List Column)
  | (outlet, .array items) => items.mapM (outletColumn isBool outlet)
  | (outlet, _) => .error (.invalidArgument ("Key '" ++ outlet ++ "' should be an array"))

def processOutletsKey : Json → Except JsonError (List Column)
  | .object members => do
      let columns ← members.mapM (processOneOutlet isBool)
      return columns.flatten
  | _ => .error (.invalidArgument "Key 'outlets' should be an object")

/-- An attribute in the format of GET: of its two members, `read_only` is an information only. -/
def extColumns (oneAttrEl : Json) : Except JsonError (List Column) :=
  if oneAttrEl.members.length ≠ 2 then
    .error (.invalidArgument "Expected two properties per each ext attribute")
  else
    .ok ((oneAttrEl.members.filter (·.1 ≠ "read_only")).map fun (name, value) ↦
      (name, value.getValue))

/-- The members that are there for information. -/
def informationKeys : List String :=
  ["location_id", "location_uri", "power_devices_in_uri", "parents"]

/-- One member in the loop of `s_read_si`.  A key is read from the first of the members `all` that
has it, and `ext` is what this gives for the key `ext`. -/
def readMember (all : List (String × Json)) (ext : Except JsonError (List Column))
    (name : String) (it : Json) : Except JsonError (List Column) :=
  let si := (all.lookup name).getD it
  if name = "ext" then ext
  else if name ∈ informationKeys then .ok []
  else if name = "powers" then processPowersKey si
  else if name = "groups" then processGroupsKey si
  else if name = "outlets" then processOutletsKey isBool si
  else if name = "ips" then processIpsKey si
  else if name = "macs" then processMacsKey si
  else if name = "hostnames" then processHostnamesKey si
  else if name = "fqdns" then processFqdnsKey si
  else .ok [(name, it.getValue)]

/-- The loop of `s_read_si`. -/
def readMembers (all : List (String × Json)) (ext : Except JsonError (List Column)) :
    List (String × Json) → Except JsonError (List Column)
  | [] => .ok []
  | (name, it) :: rest => do
      let columns ← readMember isBool all ext name it
      let more ← readMembers all ext rest
      return columns ++ more

mutual

def processExtKey : Json → Except JsonError (List Column)
  -- this information in GET format
  | .array items => do
      let columns ← items.mapM extColumns
      return columns.flatten
  -- this information in PUT POST format
  | .object members => readMembers isBool members (processFirstExt members) members
  | _ => .error (.invalidArgument "Key 'ext' should be an Array or Object")

/-- The first member with the name `ext`. -/
def processFirstExt : List (String × Json) → Except JsonError (List Column)
  | [] => .ok []
  | (name, it) :: rest => if name = "ext" then processExtKey it else processFirstExt rest

end

def readSi (si : Json) : Except JsonError (List Column) :=
  readMembers isBool si.members (processFirstExt isBool si.members) si.members

def csvMapFromSerializationInfo (si : Json) : Except JsonError CsvMap := do
  let data ← readSi isBool si
  (CsvMap.ofData [data.map Prod.fst, data.map Prod.snd]).deserialize.mapError .csv

end

/-! ## The keys -/

section

variable {isBool : Json → Bool} {all : List (String × Json)}
  {ext : Except JsonError (List Column)} {it : Json}

theorem readMember_ext : readMember isBool all ext "ext" it = ext := rfl

theorem readMember_powers :
    readMember isBool all ext "powers" it = processPowersKey ((all.lookup "powers").getD it) := rfl

theorem readMember_groups :
    readMember isBool all ext "groups" it = processGroupsKey ((all.lookup "groups").getD it) := rfl

theorem readMember_outlets : readMember isBool all ext "outlets" it =
    processOutletsKey isBool ((all.lookup "outlets").getD it) := rfl

theorem readMember_ips : readMember isBool all ext "ips" it =
    processValuesKey "ips" "ip." ((all.lookup "ips").getD it) := rfl

theorem readMember_macs : readMember isBool all ext "macs" it =
    processValuesKey "macs" "mac." ((all.lookup "macs").getD it) := rfl

theorem readMember_hostnames : readMember isBool all ext "hostnames" it =
    processValuesKey "hostnames" "hostname." ((all.lookup "hostnames").getD it) := rfl

theorem readMember_fqdns : readMember isBool all ext "fqdns" it =
    processValuesKey "fqdns" "fqdn." ((all.lookup "fqdns").getD it) := rfl

/-- The first member with the name `ext` is the one that is looked up. -/
theorem processFirstExt_eq {members : List (String × Json)} {it : Json}
    (h : members.lookup "ext" = some it) :
    processFirstExt isBool members = processExtKey isBool it := by
  induction members with
  | nil => cases h
  | cons p members ih =>
    obtain ⟨name, it'⟩ := p
    rw [processFirstExt]
    rw [List.lookup_cons] at h
    by_cases hname : name = "ext"
    · subst hname
      obtain rfl : it' = it := Option.some.inj h
      rw [if_pos rfl]
    · have hne : ("ext" == name) = false := by
        rw [beq_eq_false_iff_ne]
        exact fun h ↦ hname h.symm
      rw [hne] at h
      rw [if_neg hname]
      exact ih h

end

/-! ## The table of the columns -/

section

variable {isBool : Json → Bool} {si : Json} {columns : List Column} {cm : CsvMap}

/-- The titles of the table. -/
def columnTitles (columns : List Column) : List String := columns.map fun c ↦ ciStrip c.1

theorem csvMapFromSerializationInfo_eq_ok (h : readSi isBool si = .ok columns) :
    csvMapFromSerializationInfo isBool si = .ok cm ↔
      (CsvMap.ofData [columns.map Prod.fst, columns.map Prod.snd]).deserialize = .ok cm := by
  rw [csvMapFromSerializationInfo, h, ok_bind, mapError_eq_ok]

theorem deserialize_columns_iff :
    (CsvMap.ofData [columns.map Prod.fst, columns.map Prod.snd]).deserialize = .ok cm ↔
      (columnTitles columns).Nodup ∧
        cm = { data := [columns.map Prod.fst, columns.map Prod.snd],
               titleToIndex := (columnTitles columns).zipIdx } := by
  have htitles : (columns.map Prod.fst).map ciStrip = columnTitles columns := List.map_map
  rw [CsvMap.deserialize_ok_iff]
  constructor
  · intro ⟨header, rest, heq, hnd, hcm⟩
    obtain ⟨rfl, rfl⟩ := List.cons_eq_cons.mp heq
    rw [htitles] at hnd hcm
    exact ⟨hnd, hcm⟩
  · intro ⟨hnd, hcm⟩
    exact ⟨_, _, rfl, by rwa [htitles], by rwa [htitles]⟩

theorem rows_columns
    (hcm : (CsvMap.ofData [columns.map Prod.fst, columns.map Prod.snd]).deserialize = .ok cm) :
    cm.rows = 2 := by
  have ⟨_, heq⟩ := deserialize_columns_iff.mp hcm
  rw [heq]
  rfl

theorem mem_getTitles_columns
    (hcm : (CsvMap.ofData [columns.map Prod.fst, columns.map Prod.snd]).deserialize = .ok cm)
    {title : String} : title ∈ cm.getTitles ↔ title ∈ columnTitles columns := by
  have ⟨_, heq⟩ := deserialize_columns_iff.mp hcm
  rw [heq, CsvMap.getTitles, List.mem_insertionSort, List.zipIdx_map_fst]

/-- A cell is read under its title, as it is compared. -/
theorem get_columns_iff
    (hcm : (CsvMap.ofData [columns.map Prod.fst, columns.map Prod.snd]).deserialize = .ok cm)
    {title cell : String} : cm.get 1 title = .ok cell ↔
      ∃ c ∈ columns, ciStrip c.1 = ciStrip title ∧ c.2 = cell := by
  constructor
  · intro h
    obtain ⟨_, heq⟩ := deserialize_columns_iff.mp hcm
    rw [heq, CsvMap.get] at h
    simp only [List.getElem?_cons_succ, List.getElem?_cons_zero] at h
    split at h
    · cases h
    · rename_i col hcol
      -- the index finds the column of this title in the header
      have htitle : (columnTitles columns)[col]? = some (ciStrip title) :=
        List.mk_mem_zipIdx_iff_getElem?.mp (AssocList.mem_of_lookup hcol)
      split at h
      · cases h
      · rename_i cell' hcell
        obtain rfl := Except.ok.inj h
        rw [columnTitles, List.getElem?_map, Option.map_eq_some_iff] at htitle
        obtain ⟨c, hc, hstrip⟩ := htitle
        rw [List.getElem?_map, hc] at hcell
        exact ⟨c, List.mem_of_getElem? hc, hstrip, Option.some.inj hcell⟩
  · rintro ⟨c, hc, htitle, hcell⟩
    obtain ⟨j, hj⟩ := List.mem_iff_getElem?.mp hc
    subst hcell
    have hheader : ((columns.map Prod.fst).map ciStrip)[j]? = some (ciStrip title) := by
      rw [List.getElem?_map, List.getElem?_map, hj, ← htitle]
      rfl
    exact CsvMap.get_of_title hcm rfl rfl hheader (by rw [List.getElem?_map, hj]; rfl)

end

end FtyRest.Shared
