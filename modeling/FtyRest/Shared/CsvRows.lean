import FtyRest.Shared.CsvJson

/-!
# The row of a document

Which cells the table has that `CsvMap_from_serialization_info` makes of a document.
-/

namespace FtyRest.Shared

open Checks
open Ecpp (Json)

/-- The keys of lists that are numbered, with the beginning of their titles. -/
def valueKeys : List (String × String) :=
  [("ips", "ip."), ("macs", "mac."), ("hostnames", "hostname."), ("fqdns", "fqdn.")]

/-- The keys that are not read as they are. -/
def handledKeys : List String :=
  "ext" :: informationKeys ++ ["powers", "groups", "outlets"] ++ valueKeys.map Prod.fst

/-- What a document gives a title. -/
inductive Cell : Json → String → String → Prop
  | powerSource {si oneElement value : Json} {items : List Json} {i : Nat} :
      si.getMember "powers" = some (.array items) → items[i]? = some oneElement →
      oneElement.getMember "src_name" = some value →
      Cell si (countedTitle "power_source." i) value.getValue
  | powerPlugSrc {si oneElement value : Json} {items : List Json} {i : Nat} :
      si.getMember "powers" = some (.array items) → items[i]? = some oneElement →
      oneElement.getMember "src_socket" = some value →
      Cell si (countedTitle "power_plug_src." i) value.getValue
  | powerInput {si oneElement value : Json} {items : List Json} {i : Nat} :
      si.getMember "powers" = some (.array items) → items[i]? = some oneElement →
      oneElement.getMember "dest_socket" = some value →
      Cell si (countedTitle "power_input." i) value.getValue
  | group {si oneElement value : Json} {items : List Json} {i : Nat} :
      si.getMember "groups" = some (.array items) → items[i]? = some oneElement →
      oneElement.getMember "name" = some value →
      Cell si (countedTitle "group." i) value.getValue
  | value {si oneElement : Json} {items : List Json} {i : Nat} {key item : String} :
      (key, item) ∈ valueKeys → si.getMember key = some (.array items) →
      items[i]? = some oneElement → Cell si (countedTitle item i) oneElement.getValue
  | outlet {si oneOutletAttr name value : Json} {outlets : List (String × Json)}
      {outlet : String} {attributes : List Json} :
      si.getMember "outlets" = some (.object outlets) → (outlet, .array attributes) ∈ outlets →
      oneOutletAttr ∈ attributes → oneOutletAttr.getMember "name" = some name →
      oneOutletAttr.getMember "value" = some value →
      Cell si ("outlet." ++ outlet ++ "." ++ name.getValue) value.getValue
  | member {si it : Json} {name : String} :
      (name, it) ∈ si.members → name ∉ handledKeys → Cell si name it.getValue
  | extAttribute {si oneAttrEl value : Json} {items : List Json} {name : String} :
      si.getMember "ext" = some (.array items) → oneAttrEl ∈ items →
      (name, value) ∈ oneAttrEl.members → name ≠ "read_only" → Cell si name value.getValue
  | ext {si : Json} {members : List (String × Json)} {title cell : String} :
      si.getMember "ext" = some (.object members) → Cell (.object members) title cell →
      Cell si title cell

section

variable {isBool : Json → Bool} {columns : List Column} {c : Column}

/-! ## One key -/

theorem mem_powerColumns {oneElement : Json} {i : Nat}
    (h : powerColumns oneElement i = .ok columns) : c ∈ columns ↔
      (∃ value, oneElement.getMember "src_name" = some value ∧
        c = (countedTitle "power_source." i, value.getValue)) ∨
      (∃ value, oneElement.getMember "src_socket" = some value ∧
        c = (countedTitle "power_plug_src." i, value.getValue)) ∨
      ∃ value, oneElement.getMember "dest_socket" = some value ∧
        c = (countedTitle "power_input." i, value.getValue) := by
  unfold powerColumns at h
  rw [bind_eq_ok] at h
  obtain ⟨srcName, hsrc, h⟩ := h
  rw [orThrow_eq_ok] at hsrc
  rw [pure_eq_ok] at h
  rw [← h, hsrc]
  simp only [Option.some.injEq, exists_eq_left', List.mem_append, List.mem_cons, or_assoc]
  apply or_congr_right
  apply or_congr
  · cases oneElement.getMember "src_socket" with
    | none => simp
    | some value => simp
  · cases oneElement.getMember "dest_socket" with
    | none => simp
    | some value => simp

theorem mem_zipIdx_mapM {items : List Json} {f : Json × Nat → Except JsonError (List Column)}
    {found : List (List Column)} (h : items.zipIdx.mapM f = .ok found) :
    c ∈ found.flatten ↔ ∃ oneElement i, items[i]? = some oneElement ∧
      ∃ columns, f (oneElement, i) = .ok columns ∧ c ∈ columns := by
  rw [mem_flatten_mapM h]
  constructor
  · rintro ⟨⟨oneElement, i⟩, hmem, hcolumns⟩
    exact ⟨oneElement, i, List.mk_mem_zipIdx_iff_getElem?.mp hmem, hcolumns⟩
  · rintro ⟨oneElement, i, hget, hcolumns⟩
    exact ⟨(oneElement, i), List.mk_mem_zipIdx_iff_getElem?.mpr hget, hcolumns⟩

theorem mem_processPowersKey {j : Json} (h : processPowersKey j = .ok columns) :
    c ∈ columns ↔ ∃ items, j = .array items ∧ ∃ oneElement i, items[i]? = some oneElement ∧
      ∃ found, powerColumns oneElement i = .ok found ∧ c ∈ found := by
  cases j with
  | array items =>
    unfold processPowersKey at h
    rw [bind_eq_ok] at h
    obtain ⟨found, hfound, h⟩ := h
    rw [pure_eq_ok] at h
    rw [← h, mem_zipIdx_mapM hfound]
    simp
  | null => cases h
  | str text => cases h
  | int value => cases h
  | object members => cases h

theorem powerColumns_ok {items : List Json} {oneElement : Json} {i : Nat}
    (h : processPowersKey (.array items) = .ok columns) (hget : items[i]? = some oneElement) :
    ∃ found, powerColumns oneElement i = .ok found := by
  unfold processPowersKey at h
  rw [bind_eq_ok] at h
  obtain ⟨found, hfound, -⟩ := h
  obtain ⟨columns, -, hcolumns⟩ :=
    mapM_ok_image hfound (List.mk_mem_zipIdx_iff_getElem?.mpr hget)
  exact ⟨columns, hcolumns⟩

theorem mem_processGroupsKey {j : Json} (h : processGroupsKey j = .ok columns) :
    c ∈ columns ↔ ∃ items, j = .array items ∧ ∃ oneElement i, items[i]? = some oneElement ∧
      ∃ value, oneElement.getMember "name" = some value ∧
        c = (countedTitle "group." i, value.getValue) := by
  cases j with
  | array items =>
    unfold processGroupsKey at h
    have hcolumn (oneElement : Json) (i : Nat) : groupColumn oneElement i = .ok c ↔
        ∃ value, oneElement.getMember "name" = some value ∧
          c = (countedTitle "group." i, value.getValue) := by
      unfold groupColumn
      simp only [bind_eq_ok, orThrow_eq_ok, pure_eq_ok]
      exact exists_congr fun _ ↦ and_congr_right fun _ ↦ eq_comm
    rw [mem_mapM h]
    simp only [Json.array.injEq, exists_eq_left']
    constructor
    · rintro ⟨⟨oneElement, i⟩, hmem, hc⟩
      exact ⟨oneElement, i, List.mk_mem_zipIdx_iff_getElem?.mp hmem, (hcolumn _ _).mp hc⟩
    · rintro ⟨oneElement, i, hget, hc⟩
      exact ⟨(oneElement, i), List.mk_mem_zipIdx_iff_getElem?.mpr hget, (hcolumn _ _).mpr hc⟩
  | null => cases h
  | str text => cases h
  | int value => cases h
  | object members => cases h

theorem mem_processValuesKey {key item : String} {j : Json}
    (h : processValuesKey key item j = .ok columns) :
    c ∈ columns ↔ ∃ items, j = .array items ∧ ∃ oneElement i, items[i]? = some oneElement ∧
      c = (countedTitle item i, oneElement.getValue) := by
  cases j with
  | array items =>
    unfold processValuesKey at h
    rw [← Except.ok.inj h, List.mem_map]
    simp only [Json.array.injEq, exists_eq_left']
    constructor
    · rintro ⟨⟨oneElement, i⟩, hmem, rfl⟩
      exact ⟨oneElement, i, List.mk_mem_zipIdx_iff_getElem?.mp hmem, rfl⟩
    · rintro ⟨oneElement, i, hget, rfl⟩
      exact ⟨(oneElement, i), List.mk_mem_zipIdx_iff_getElem?.mpr hget, rfl⟩
  | null => cases h
  | str text => cases h
  | int value => cases h
  | object members => cases h

/-- An attribute that went through has a name and a value. -/
theorem outletColumn_ok {outlet : String} {oneOutletAttr : Json}
    (h : outletColumn isBool outlet oneOutletAttr = .ok c) :
    ∃ name value, oneOutletAttr.getMember "name" = some name ∧
      oneOutletAttr.getMember "value" = some value ∧
      c = ("outlet." ++ outlet ++ "." ++ name.getValue, value.getValue) := by
  unfold outletColumn at h
  split at h
  · rename_i name value readOnly hname hvalue _
    split at h
    · exact ⟨name, value, hname, hvalue, (Except.ok.inj h).symm⟩
    · cases h
  · cases h

theorem mem_processOneOutlet {outlet : String × Json}
    (h : processOneOutlet isBool outlet = .ok columns) :
    c ∈ columns ↔ ∃ attributes, outlet.2 = .array attributes ∧ ∃ oneOutletAttr ∈ attributes,
      ∃ name value, oneOutletAttr.getMember "name" = some name ∧
        oneOutletAttr.getMember "value" = some value ∧
        c = ("outlet." ++ outlet.1 ++ "." ++ name.getValue, value.getValue) := by
  obtain ⟨outlet, j⟩ := outlet
  cases j with
  | array attributes =>
    unfold processOneOutlet at h
    rw [mem_mapM h]
    simp only [Json.array.injEq, exists_eq_left']
    constructor
    · rintro ⟨oneOutletAttr, hmem, hc⟩
      exact ⟨oneOutletAttr, hmem, outletColumn_ok hc⟩
    · rintro ⟨oneOutletAttr, hmem, name, value, hname, hvalue, rfl⟩
      obtain ⟨column, _, hcolumn⟩ := mapM_ok_image h hmem
      obtain ⟨name', value', hname', hvalue', rfl⟩ := outletColumn_ok hcolumn
      rw [hname] at hname'
      rw [hvalue] at hvalue'
      rw [Option.some.inj hname', Option.some.inj hvalue']
      exact ⟨oneOutletAttr, hmem, hcolumn⟩
  | null => cases h
  | str text => cases h
  | int value => cases h
  | object members => cases h

theorem mem_processOutletsKey {j : Json} (h : processOutletsKey isBool j = .ok columns) :
    c ∈ columns ↔ ∃ outlets, j = .object outlets ∧ ∃ outlet ∈ outlets,
      ∃ found, processOneOutlet isBool outlet = .ok found ∧ c ∈ found := by
  cases j with
  | object outlets =>
    unfold processOutletsKey at h
    rw [bind_eq_ok] at h
    obtain ⟨found, hfound, h⟩ := h
    rw [pure_eq_ok] at h
    rw [← h, mem_flatten_mapM hfound]
    simp only [Json.object.injEq, exists_eq_left']
  | null => cases h
  | str text => cases h
  | int value => cases h
  | array items => cases h

theorem processOneOutlet_ok {outlets : List (String × Json)} {outlet : String × Json}
    (h : processOutletsKey isBool (.object outlets) = .ok columns) (hmem : outlet ∈ outlets) :
    ∃ found, processOneOutlet isBool outlet = .ok found := by
  unfold processOutletsKey at h
  rw [bind_eq_ok] at h
  obtain ⟨found, hfound, -⟩ := h
  obtain ⟨columns, -, hcolumns⟩ := mapM_ok_image hfound hmem
  exact ⟨columns, hcolumns⟩

theorem mem_extColumns {oneAttrEl : Json} (h : extColumns oneAttrEl = .ok columns) :
    c ∈ columns ↔ ∃ name value, (name, value) ∈ oneAttrEl.members ∧ name ≠ "read_only" ∧
      c = (name, value.getValue) := by
  unfold extColumns at h
  split at h
  · cases h
  · rw [← Except.ok.inj h, List.mem_map]
    constructor
    · rintro ⟨⟨name, value⟩, hmem, rfl⟩
      obtain ⟨hmem, hname⟩ := List.mem_filter.mp hmem
      exact ⟨name, value, hmem, of_decide_eq_true hname, rfl⟩
    · rintro ⟨name, value, hmem, hname, rfl⟩
      exact ⟨(name, value), List.mem_filter.mpr ⟨hmem, decide_eq_true hname⟩, rfl⟩

/-! ## One member -/

variable {all : List (String × Json)} {ext : Except JsonError (List Column)} {name : String}
  {it : Json}

theorem readMember_information (h : name ∈ informationKeys) :
    readMember isBool all ext name it = .ok [] := by
  have hne : name ≠ "ext" := by
    rintro rfl
    simp [informationKeys] at h
  unfold readMember
  dsimp only
  rw [if_neg hne, if_pos h]

theorem readMember_values {key item : String} (h : (key, item) ∈ valueKeys) :
    readMember isBool all ext key it = processValuesKey key item ((all.lookup key).getD it) := by
  simp only [valueKeys, List.mem_cons, Prod.mk.injEq, List.not_mem_nil, or_false] at h
  rcases h with ⟨rfl, rfl⟩ | ⟨rfl, rfl⟩ | ⟨rfl, rfl⟩ | ⟨rfl, rfl⟩
  · exact readMember_ips
  · exact readMember_macs
  · exact readMember_hostnames
  · exact readMember_fqdns

theorem readMember_other (h : name ∉ handledKeys) :
    readMember isBool all ext name it = .ok [(name, it.getValue)] := by
  simp only [handledKeys, valueKeys, List.map_cons, List.map_nil, List.mem_append, List.mem_cons,
    List.not_mem_nil, or_false, not_or, and_assoc] at h
  obtain ⟨hext, hinformation, hpowers, hgroups, houtlets, hips, hmacs, hhostnames, hfqdns⟩ := h
  unfold readMember
  dsimp only
  rw [if_neg hext, if_neg hinformation, if_neg hpowers, if_neg hgroups, if_neg houtlets,
    if_neg hips, if_neg hmacs, if_neg hhostnames, if_neg hfqdns]

/-! ## All members -/

theorem readMembers_ok {members : List (String × Json)}
    (h : readMembers isBool all ext members = .ok columns) :
    (c ∈ columns ↔ ∃ m ∈ members, ∃ found, readMember isBool all ext m.1 m.2 = .ok found ∧
      c ∈ found) ∧
    ∀ m ∈ members, ∃ found, readMember isBool all ext m.1 m.2 = .ok found := by
  induction members generalizing columns with
  | nil =>
    unfold readMembers at h
    rw [← Except.ok.inj h]
    exact ⟨by simp, fun m hm ↦ absurd hm List.not_mem_nil⟩
  | cons m members ih =>
    obtain ⟨name, it⟩ := m
    unfold readMembers at h
    simp only [bind_eq_ok, pure_eq_ok] at h
    obtain ⟨found, hfound, more, hmore, rfl⟩ := h
    obtain ⟨hmem, hall⟩ := ih hmore
    constructor
    · rw [List.mem_append, hmem, List.exists_mem_cons_iff, hfound]
      simp only [Except.ok.injEq, exists_eq_left']
    · exact List.forall_mem_cons.mpr ⟨⟨found, hfound⟩, hall⟩

theorem mem_members_of_getMember {si it : Json} (h : si.getMember name = some it) :
    (name, it) ∈ si.members :=
  AssocList.mem_of_lookup h

theorem getMember_of_mem {si it : Json} (h : (name, it) ∈ si.members) :
    ∃ first, si.getMember name = some first := by
  cases hlookup : si.getMember name with
  | some first => exact ⟨first, rfl⟩
  | none => exact absurd rfl (List.lookup_eq_none_iff.mp hlookup (name, it) h |> bne_iff_ne.mp)

/-- A document is larger than its members. -/
theorem sizeOf_getMember {si it : Json} (h : si.getMember name = some it) :
    sizeOf it < sizeOf si := by
  have hmem := mem_members_of_getMember h
  cases si with
  | object members =>
    change (name, it) ∈ members at hmem
    have hlt := List.sizeOf_lt_of_mem hmem
    simp only [Prod.mk.sizeOf_spec] at hlt
    simp only [Json.object.sizeOf_spec]
    omega
  | array items =>
    obtain ⟨item, hitem, heq⟩ := List.mem_map.mp hmem
    obtain ⟨-, rfl⟩ := Prod.mk.inj heq
    have hlt := List.sizeOf_lt_of_mem hitem
    simp only [Json.array.sizeOf_spec]
    omega
  | null => cases h
  | str text => cases h
  | int value => cases h

theorem mem_handledKeys : name ∈ handledKeys ↔ name = "ext" ∨ name ∈ informationKeys ∨
    name = "powers" ∨ name = "groups" ∨ name = "outlets" ∨ ∃ item, (name, item) ∈ valueKeys := by
  have hvalues : name ∈ valueKeys.map Prod.fst ↔ ∃ item, (name, item) ∈ valueKeys := by
    rw [List.mem_map]
    constructor
    · rintro ⟨⟨key, item⟩, hmem, rfl⟩
      exact ⟨item, hmem⟩
    · rintro ⟨item, hmem⟩
      exact ⟨_, hmem, rfl⟩
  unfold handledKeys
  rw [List.mem_append, List.mem_append, List.mem_cons, hvalues]
  simp only [List.mem_cons, List.not_mem_nil, or_false, or_assoc]

/-- What a key gives that is read from the first of its members. -/
theorem readMember_getMember {si first : Json}
    (hall : ∀ m ∈ si.members, ∃ found, readMember isBool si.members ext m.1 m.2 = .ok found)
    (hfirst : si.getMember name = some first) :
    ∃ found, readMember isBool si.members ext name first = .ok found ∧
      (name, first) ∈ si.members ∧ (si.members.lookup name).getD first = first := by
  have hmem := mem_members_of_getMember hfirst
  obtain ⟨found, hfound⟩ := hall _ hmem
  refine ⟨found, hfound, hmem, ?_⟩
  show (si.getMember name).getD first = first
  rw [hfirst, Option.getD_some]

/-- What a power link gives, the powers give. -/
theorem exists_column_of_power {si oneElement : Json} {items : List Json} {i : Nat}
    (hall : ∀ m ∈ si.members, ∃ found, readMember isBool si.members ext m.1 m.2 = .ok found)
    (hpowers : si.getMember "powers" = some (.array items)) (helement : items[i]? = some oneElement)
    (hcolumn : ∀ {found}, powerColumns oneElement i = .ok found → c ∈ found) :
    ∃ m ∈ si.members, ∃ found, readMember isBool si.members ext m.1 m.2 = .ok found ∧
      c ∈ found := by
  obtain ⟨found, hfound, hm, hget⟩ := readMember_getMember hall hpowers
  refine ⟨_, hm, found, hfound, ?_⟩
  rw [readMember_powers, hget] at hfound
  obtain ⟨found', hfound'⟩ := powerColumns_ok hfound helement
  exact (mem_processPowersKey hfound).mpr ⟨_, rfl, _, _, helement, found', hfound', hcolumn hfound'⟩

/-- A column that a member gives is a cell of the document, if those of `ext` are. -/
theorem cell_of_readMember {si it : Json} {found : List Column} {title cell : String}
    (hnested : ∀ members found, si.getMember "ext" = some (.object members) →
      readSi isBool (.object members) = .ok found → (title, cell) ∈ found →
        Cell (.object members) title cell)
    (hm : (name, it) ∈ si.members)
    (hfound : readMember isBool si.members (processFirstExt isBool si.members) name it = .ok found)
    (hc : (title, cell) ∈ found) : Cell si title cell := by
  obtain ⟨first, hfirst⟩ := getMember_of_mem hm
  -- of members with one name, the first is read
  have hget : (si.members.lookup name).getD it = first := by
    show (si.getMember name).getD it = first
    rw [hfirst, Option.getD_some]
  by_cases hhandled : name ∈ handledKeys
  · rcases mem_handledKeys.mp hhandled with rfl | hinformation | rfl | rfl | rfl | ⟨item, hvalue⟩
    · rw [readMember_ext, processFirstExt_eq hfirst] at hfound
      cases first with
      | array items =>
        unfold processExtKey at hfound
        rw [bind_eq_ok] at hfound
        obtain ⟨parts, hparts, hfound⟩ := hfound
        rw [pure_eq_ok] at hfound
        rw [← hfound, mem_flatten_mapM hparts] at hc
        obtain ⟨oneAttrEl, hattr, found', hfound', hc⟩ := hc
        obtain ⟨name, value, hmember, hname, heq⟩ := (mem_extColumns hfound').mp hc
        obtain ⟨rfl, rfl⟩ := Prod.mk.inj heq
        exact .extAttribute hfirst hattr hmember hname
      | object members =>
        unfold processExtKey at hfound
        exact .ext hfirst (hnested members found hfirst hfound hc)
      | null => cases hfound
      | str text => cases hfound
      | int value => cases hfound
    · rw [readMember_information hinformation] at hfound
      rw [← Except.ok.inj hfound] at hc
      cases hc
    · rw [readMember_powers, hget] at hfound
      obtain ⟨items, rfl, oneElement, i, helement, found', hfound', hc⟩ :=
        (mem_processPowersKey hfound).mp hc
      rcases (mem_powerColumns hfound').mp hc with ⟨value, hvalue, heq⟩ | ⟨value, hvalue, heq⟩ |
        ⟨value, hvalue, heq⟩
      · obtain ⟨rfl, rfl⟩ := Prod.mk.inj heq
        exact .powerSource hfirst helement hvalue
      · obtain ⟨rfl, rfl⟩ := Prod.mk.inj heq
        exact .powerPlugSrc hfirst helement hvalue
      · obtain ⟨rfl, rfl⟩ := Prod.mk.inj heq
        exact .powerInput hfirst helement hvalue
    · rw [readMember_groups, hget] at hfound
      obtain ⟨items, rfl, oneElement, i, helement, value, hvalue, heq⟩ :=
        (mem_processGroupsKey hfound).mp hc
      obtain ⟨rfl, rfl⟩ := Prod.mk.inj heq
      exact .group hfirst helement hvalue
    · rw [readMember_outlets, hget] at hfound
      obtain ⟨outlets, rfl, ⟨outlet, j⟩, houtlet, found', hfound', hc⟩ :=
        (mem_processOutletsKey hfound).mp hc
      obtain ⟨attributes, rfl, oneOutletAttr, hattr, attrName, value, hname, hvalue, heq⟩ :=
        (mem_processOneOutlet hfound').mp hc
      obtain ⟨rfl, rfl⟩ := Prod.mk.inj heq
      exact .outlet hfirst houtlet hattr hname hvalue
    · rw [readMember_values hvalue, hget] at hfound
      obtain ⟨items, rfl, oneElement, i, helement, heq⟩ := (mem_processValuesKey hfound).mp hc
      obtain ⟨rfl, rfl⟩ := Prod.mk.inj heq
      exact .value hvalue hfirst helement
  · -- any other key is its own title
    rw [readMember_other hhandled] at hfound
    rw [← Except.ok.inj hfound] at hc
    obtain ⟨rfl, rfl⟩ := Prod.mk.inj (List.mem_singleton.mp hc)
    exact .member hm hhandled

/-- A cell of the document is a column that a member gives, if those of `ext` are. -/
theorem exists_column_of_cell {si : Json} {title cell : String}
    (hnested : ∀ members found, si.getMember "ext" = some (.object members) →
      readSi isBool (.object members) = .ok found → Cell (.object members) title cell →
        (title, cell) ∈ found)
    (hall : ∀ m ∈ si.members, ∃ found,
      readMember isBool si.members (processFirstExt isBool si.members) m.1 m.2 = .ok found)
    (hcell : Cell si title cell) : ∃ m ∈ si.members, ∃ found,
      readMember isBool si.members (processFirstExt isBool si.members) m.1 m.2 = .ok found ∧
        (title, cell) ∈ found := by
  cases hcell with
  | powerSource hpowers helement hvalue =>
    exact exists_column_of_power hall hpowers helement
      fun hfound ↦ (mem_powerColumns hfound).mpr (.inl ⟨_, hvalue, rfl⟩)
  | powerPlugSrc hpowers helement hvalue =>
    exact exists_column_of_power hall hpowers helement
      fun hfound ↦ (mem_powerColumns hfound).mpr (.inr (.inl ⟨_, hvalue, rfl⟩))
  | powerInput hpowers helement hvalue =>
    exact exists_column_of_power hall hpowers helement
      fun hfound ↦ (mem_powerColumns hfound).mpr (.inr (.inr ⟨_, hvalue, rfl⟩))
  | group hgroups helement hvalue =>
    obtain ⟨found, hfound, hm, hget⟩ := readMember_getMember hall hgroups
    refine ⟨_, hm, found, hfound, ?_⟩
    rw [readMember_groups, hget] at hfound
    exact (mem_processGroupsKey hfound).mpr ⟨_, rfl, _, _, helement, _, hvalue, rfl⟩
  | value hkey hitems helement =>
    obtain ⟨found, hfound, hm, hget⟩ := readMember_getMember hall hitems
    refine ⟨_, hm, found, hfound, ?_⟩
    rw [readMember_values hkey, hget] at hfound
    exact (mem_processValuesKey hfound).mpr ⟨_, rfl, _, _, helement, rfl⟩
  | outlet houtlets houtlet hattr hname hvalue =>
    obtain ⟨found, hfound, hm, hget⟩ := readMember_getMember hall houtlets
    refine ⟨_, hm, found, hfound, ?_⟩
    rw [readMember_outlets, hget] at hfound
    obtain ⟨found', hfound'⟩ := processOneOutlet_ok hfound houtlet
    exact (mem_processOutletsKey hfound).mpr ⟨_, rfl, _, houtlet, found', hfound',
      (mem_processOneOutlet hfound').mpr ⟨_, rfl, _, hattr, _, _, hname, hvalue, rfl⟩⟩
  -- every other member is a column by itself
  | member hm hname =>
    exact ⟨_, hm, _, readMember_other hname, List.mem_singleton.mpr rfl⟩
  | extAttribute hext hattr hmember hname =>
    obtain ⟨found, hfound, hm, hget⟩ := readMember_getMember hall hext
    refine ⟨_, hm, found, hfound, ?_⟩
    rw [readMember_ext, processFirstExt_eq hext] at hfound
    unfold processExtKey at hfound
    rw [bind_eq_ok] at hfound
    obtain ⟨parts, hparts, hfound⟩ := hfound
    rw [pure_eq_ok] at hfound
    obtain ⟨found', _, hfound'⟩ := mapM_ok_image hparts hattr
    rw [← hfound, mem_flatten_mapM hparts]
    exact ⟨_, hattr, found', hfound', (mem_extColumns hfound').mpr ⟨_, _, hmember, hname, rfl⟩⟩
  -- an object in `ext` is read as the whole document, so the induction goes on there
  | ext hext hcell =>
    obtain ⟨found, hfound, hm, hget⟩ := readMember_getMember hall hext
    refine ⟨_, hm, found, hfound, ?_⟩
    rw [readMember_ext, processFirstExt_eq hext] at hfound
    unfold processExtKey at hfound
    exact hnested _ found hext hfound hcell

/-- The columns are the cells of the document. -/
theorem mem_readSi (si : Json) {columns : List Column} (h : readSi isBool si = .ok columns)
    (title cell : String) : (title, cell) ∈ columns ↔ Cell si title cell := by
  obtain ⟨hmem, hall⟩ := readMembers_ok (c := (title, cell)) h
  -- by induction on the document: the object under `ext` is smaller
  have hnested (members : List (String × Json)) (found : List Column)
      (hext : si.getMember "ext" = some (.object members))
      (hfound : readSi isBool (.object members) = .ok found) :
      (title, cell) ∈ found ↔ Cell (.object members) title cell :=
    mem_readSi (.object members) hfound title cell
  rw [hmem]
  constructor
  · rintro ⟨⟨name, it⟩, hm, found, hfound, hc⟩
    exact cell_of_readMember (fun members found hext hread ↦ (hnested members found hext hread).mp)
      hm hfound hc
  · exact exists_column_of_cell
      (fun members found hext hread ↦ (hnested members found hext hread).mpr) hall
termination_by sizeOf si
decreasing_by exact sizeOf_getMember hext

/-- The row of a document: a title and a cell for everything it says, no title twice. -/
structure IsRowOf (si : Json) (cm : CsvMap) : Prop where
  rows : ∃ titles cells, cm.data = [titles, cells] ∧ titles.length = cells.length ∧
    (titles.map ciStrip).Nodup ∧
    ∀ title cell, (title, cell) ∈ titles.zip cells ↔ Cell si title cell
  get : ∀ title cell, cm.get 1 title = .ok cell ↔
    ∃ name, Cell si name cell ∧ ciStrip name = ciStrip title

theorem csvMapFromSerializationInfo_row {si : Json} {cm : CsvMap}
    (h : csvMapFromSerializationInfo isBool si = .ok cm) : IsRowOf si cm := by
  cases hsi : readSi isBool si with
  | error e =>
    unfold csvMapFromSerializationInfo at h
    rw [hsi] at h
    cases h
  | ok columns =>
    have hcm := (csvMapFromSerializationInfo_eq_ok hsi).mp h
    -- `deserialize` refuses a title that occurs twice
    obtain ⟨hnodup, rfl⟩ := deserialize_columns_iff.mp hcm
    have hcell := mem_readSi si hsi
    constructor
    · refine ⟨columns.map Prod.fst, columns.map Prod.snd, rfl, ?_, ?_, fun title cell ↦ ?_⟩
      · rw [List.length_map, List.length_map]
      · rw [List.map_map]
        exact hnodup
      · rw [← List.unzip_fst, ← List.unzip_snd, List.zip_unzip]
        exact hcell title cell
    · intro title cell
      rw [get_columns_iff hcm]
      constructor
      · rintro ⟨⟨name, value⟩, hc, htitle, rfl⟩
        exact ⟨name, (hcell name value).mp hc, htitle⟩
      · rintro ⟨name, hc, htitle⟩
        exact ⟨(name, cell), (hcell name cell).mpr hc, htitle, rfl⟩

end

/-- A device with an address has both in its row. -/
theorem csvMapFromSerializationInfo_row_device :
    let si : Json := .object [("name", .str "ups"), ("ips", .array [.str "10.0.0.1"])]
    let cm : CsvMap :=
      { data := [["name", "ip.1"], ["ups", "10.0.0.1"]],
        titleToIndex := [("name", 0), ("ip.1", 1)] }
    IsRowOf si cm := by
  have hsi : readSi (fun _ ↦ true) (.object [("name", .str "ups"),
      ("ips", .array [.str "10.0.0.1"])]) = .ok [("name", "ups"), ("ip.1", "10.0.0.1")] := by
    rfl
  have htitles : columnTitles [("name", "ups"), ("ip.1", "10.0.0.1")] = ["name", "ip.1"] := by
    decide +kernel
  apply csvMapFromSerializationInfo_row
  rw [csvMapFromSerializationInfo_eq_ok hsi, deserialize_columns_iff, htitles]
  exact ⟨by decide, rfl⟩

end FtyRest.Shared
