import FtyRest.Shared.ExtNames

/-!
# Reading the document of an asset

The columns that the reader makes of what the printer has printed.
-/

namespace FtyRest.Shared

open AssocList Checks Db
open Ecpp (Json)

/-! ## The columns -/

section

variable (env : AssetJsonEnv) (tmp : WebElement)

def extNameOf (id : Nat) : String := (env.idToNameExtName id).2

def fieldColumns : List Column :=
  [("id", tmp.basic.name), ("name", extNameOf env tmp.basic.id), ("status", tmp.basic.status),
    ("priority", "P" ++ toString tmp.basic.priority), ("type", tmp.basic.typeName)]

def locationType : String :=
  if tmp.basic.parentId ≠ 0 then
    ((env.getItem1 tmp.basic.parentId).map (·.basic.typeName)).getD ""
  else ""

def locationColumns : List Column :=
  [("location", if tmp.basic.parentId ≠ 0 then extNameOf env tmp.basic.parentId else ""),
    ("location_type", locationType env tmp)]

def groupColumns : List Column :=
  tmp.groups.zipIdx.map fun (oneGroup, i) ↦ (countedTitle "group." i, extNameOf env oneGroup.1)

def socketColumn (item socket : String) (i : Nat) : List Column :=
  if socket = "" then [] else [(countedTitle item i, socket)]

def linkColumns (oneLink : WebLink) (i : Nat) : List Column :=
  (countedTitle "power_source." i, extNameOf env oneLink.srcId) ::
    socketColumn "power_plug_src." oneLink.srcSocket i ++
    socketColumn "power_input." oneLink.destSocket i

/-- The links that are printed. -/
def printedLinks : List WebLink :=
  if tmp.basic.typeId = AssetType.device then tmp.powers else []

def linksColumns : List Column :=
  (printedLinks tmp).zipIdx.flatMap fun (oneLink, i) ↦ linkColumns env oneLink i

def subtypeColumns : List Column :=
  if tmp.basic.typeId = AssetType.group then
    match tmp.ext.lookup "type" with
    | some (value, _) => [("sub_type", strip value)]
    | none => []
  else [("sub_type", strip tmp.basic.subtypeName)]

def tagColumns : List Column :=
  if tmp.basic.assetTag = "" then [] else [("asset_tag", tmp.basic.assetTag)]

/-- The attributes that are printed one by one; what is called `read_only` is not read. -/
def ordinaryColumns : List Column :=
  ((ofKind (leftExt tmp) .ordinary).filter (·.1 ≠ "read_only")).map fun (name, value, _) ↦
    (name, value)

/-- The values of a list, as they are read. -/
def listedValues (kind : ExtKind) : List String :=
  (valuesOf (leftExt tmp) kind).map fun value ↦ (env.unquote value).getD ""

def listColumns (kind : ExtKind) (item : String) : List Column :=
  (listedValues env tmp kind).zipIdx.map fun (value, i) ↦ (countedTitle item i, value)

def assetColumns : List Column :=
  fieldColumns env tmp ++ locationColumns env tmp ++ groupColumns env tmp ++
    linksColumns env tmp ++ subtypeColumns tmp ++ (tagColumns tmp ++ ordinaryColumns tmp) ++
    listColumns env tmp .ip "ip." ++ listColumns env tmp .mac "mac." ++
    listColumns env tmp .fqdn "fqdn." ++ listColumns env tmp .hostname "hostname." ++
    outletColumns (outletsOf (leftExt tmp)) ++ [("computed", "")]

end

/-! ## The reader -/

section

variable {isBool : Json → Bool} {all : List (String × Json)}
  {ext : Except JsonError (List Column)}

theorem readMembers_append {xs ys : List (String × Json)} {a b : List Column}
    (hxs : readMembers isBool all ext xs = .ok a) (hys : readMembers isBool all ext ys = .ok b) :
    readMembers isBool all ext (xs ++ ys) = .ok (a ++ b) := by
  induction xs generalizing a with
  | nil =>
    obtain rfl : [] = a := Except.ok.inj hxs
    exact hys
  | cons x xs ih =>
    obtain ⟨name, it⟩ := x
    rw [readMembers] at hxs
    rw [List.cons_append, readMembers]
    simp only [bind_eq_ok, pure_eq_ok] at hxs ⊢
    obtain ⟨columns, hcolumns, more, hmore, rfl⟩ := hxs
    exact ⟨columns, hcolumns, more ++ b, ih hmore, (List.append_assoc _ _ _).symm⟩

theorem readMembers_singleton {name : String} {it : Json} {columns : List Column}
    (h : readMember isBool all ext name it = .ok columns) :
    readMembers isBool all ext [(name, it)] = .ok columns := by
  rw [readMembers, h]
  show Except.ok (columns ++ []) = _
  rw [List.append_nil]

theorem processGroupsKey_eq {groups : List (String × String)} :
    processGroupsKey (.array (groups.map fun p ↦
        .object [("id", .str p.1), ("name", .str p.2)])) =
      .ok (groups.zipIdx.map fun (p, i) ↦ (countedTitle "group." i, p.2)) := by
  rw [processGroupsKey, List.zipIdx_map]
  exact mapM_map_eq_ok fun _ _ ↦ rfl

theorem processValuesKey_eq {key item : String} {values : List String} :
    processValuesKey key item (.array (values.map .str)) =
      .ok (values.zipIdx.map fun (value, i) ↦ (countedTitle item i, value)) := by
  rw [processValuesKey, List.zipIdx_map, List.map_map]
  rfl

theorem outletColumn_eq (hbool : ∀ b, isBool (jsonBool b) = true) {oNumber : String} {o : Outlet}
    {attr : OutletAttr} :
    outletColumn isBool oNumber (.object [("name", .str attr.name), ("value", .str (o.get attr).1),
      ("read_only", jsonBool (o.get attr).2)]) =
        .ok (outletTitle oNumber attr, (o.get attr).1) := by
  simp [outletColumn, Json.getMember, Json.members, List.lookup_cons, Json.getValue, outletTitle,
    hbool]

theorem processOutletsKey_eq (hbool : ∀ b, isBool (jsonBool b) = true) {outlets : OutletMap} :
    processOutletsKey isBool (.object (outlets.map fun (n, o) ↦ (n, .array (outletElements o)))) =
      .ok (outletColumns outlets) := by
  have hone : ∀ p ∈ outlets, processOneOutlet isBool (p.1, .array (outletElements p.2)) =
      .ok ((outletAttrs p.2).map fun attr ↦ (outletTitle p.1 attr, (p.2.get attr).1)) := by
    intro p _
    exact mapM_map_eq_ok fun attr _ ↦ outletColumn_eq hbool
  rw [processOutletsKey, mapM_map_eq_ok hone]
  show Except.ok _ = _
  rw [outletColumns, List.flatMap_def]

theorem extColumns_eq {name value : String} {readOnly : Bool} :
    extColumns (extElement name value readOnly) =
      .ok (if name = "read_only" then [] else [(name, value)]) := by
  by_cases h : name = "read_only"
  · simp [extColumns, extElement, Json.members, h]
  · simp [extColumns, extElement, Json.members, h, Json.getValue]

theorem processExtKey_eq {attrs : List (String × String × Bool)} :
    processExtKey isBool (.array (attrs.map fun p ↦ extElement p.1 p.2.1 p.2.2)) =
      .ok ((attrs.filter (·.1 ≠ "read_only")).map fun p ↦ (p.1, p.2.1)) := by
  rw [processExtKey, mapM_map_eq_ok fun p _ ↦ extColumns_eq]
  show Except.ok _ = _
  congr 1
  induction attrs with
  | nil => rfl
  | cons p attrs ih =>
    rw [List.map_cons, List.flatten_cons, ih]
    by_cases h : p.1 = "read_only"
    · rw [if_pos h, List.filter_cons_of_neg (by simpa using h), List.nil_append]
    · rw [if_neg h, List.filter_cons_of_pos (by simpa using h)]
      rfl

/-- A power link, with the external name of its source. -/
def linkJson (p : String × WebLink) : Json :=
  .object ([("src_name", .str p.1), ("src_id", .str p.2.srcName)] ++
    socketMember "src_socket" p.2.srcSocket ++ socketMember "dest_socket" p.2.destSocket)

theorem powerColumns_eq (p : String × WebLink) (i : Nat) :
    powerColumns (linkJson p) i = .ok ((countedTitle "power_source." i, p.1) ::
      socketColumn "power_plug_src." p.2.srcSocket i ++
      socketColumn "power_input." p.2.destSocket i) := by
  by_cases hsrc : p.2.srcSocket = "" <;> by_cases hdest : p.2.destSocket = "" <;>
    simp [powerColumns, linkJson, socketMember, socketColumn, Json.getMember, Json.members,
      List.lookup_cons, hsrc, hdest, orThrow, Json.getValue]

theorem processPowersKey_eq {links : List (String × WebLink)} :
    processPowersKey (.array (links.map linkJson)) =
      .ok (links.zipIdx.flatMap fun (p, i) ↦ (countedTitle "power_source." i, p.1) ::
        socketColumn "power_plug_src." p.2.srcSocket i ++
        socketColumn "power_input." p.2.destSocket i) := by
  have hmap : (links.zipIdx.map (Prod.map linkJson id)).mapM (fun q ↦
      powerColumns q.1 q.2) =
        .ok (links.zipIdx.map fun q ↦ (countedTitle "power_source." q.2, q.1.1) ::
          socketColumn "power_plug_src." q.1.2.srcSocket q.2 ++
          socketColumn "power_input." q.1.2.destSocket q.2) :=
    mapM_map_eq_ok fun q _ ↦ powerColumns_eq q.1 q.2
  rw [processPowersKey, List.zipIdx_map, hmap]
  show Except.ok _ = _
  rw [List.flatMap_def]

end

/-! ## The document -/

section

variable {env : AssetJsonEnv} {tmp : WebElement}

theorem elementNames_eq_some {id : Nat} {names : String × String}
    (h : elementNames env id = some names) : names = env.idToNameExtName id := by
  unfold elementNames at h
  dsimp only at h
  split at h
  · cases h
  · exact (Option.some.inj h).symm

theorem groups_eq {groups : List Json} (h : tmp.groups.mapM (groupElement env) = some groups) :
    groups = (tmp.groups.map fun p ↦ (p.2, extNameOf env p.1)).map fun p ↦
      .object [("id", .str p.1), ("name", .str p.2)] := by
  rw [List.map_map]
  refine (mapM_eq_some (fun p y hy ↦ ?_) h).1
  simp only [groupElement, Option.bind_eq_bind, Option.bind_eq_some_iff, Option.pure_def,
    Option.some.injEq] at hy
  obtain ⟨names, hnames, rfl⟩ := hy
  rw [elementNames_eq_some hnames]
  rfl

theorem powers_eq {powers : List Json} {links : List WebLink}
    (h : links.mapM (powerElement env) = some powers) :
    powers = (links.map fun l ↦ (extNameOf env l.srcId, l)).map linkJson := by
  rw [List.map_map]
  refine (mapM_eq_some (fun p y hy ↦ ?_) h).1
  simp only [powerElement, Option.bind_eq_bind, Option.bind_eq_some_iff, Option.pure_def,
    Option.some.injEq] at hy
  obtain ⟨names, hnames, rfl⟩ := hy
  rw [elementNames_eq_some hnames]
  rfl

/-- The keys that a document can have, in their order. -/
def assetKeys : List String :=
  ["id", "power_devices_in_uri", "name", "status", "priority", "type"] ++
    ["location_uri", "location_id", "location", "location_type"] ++ ["groups"] ++ ["powers"] ++
    ["sub_type", "parents"] ++ ["ext"] ++ ["ips"] ++ ["macs"] ++ ["fqdns"] ++ ["hostnames"] ++
    ["outlets"] ++ ["computed"]

theorem locationMembers_keys {basic : WebBasicElement} :
    ((locationMembers env basic).map Prod.fst).Sublist
      ["location_uri", "location_id", "location", "location_type"] := by
  unfold locationMembers
  rcases env.idToNameExtName basic.parentId with ⟨parentName, extParentName⟩
  dsimp only
  split
  · exact List.Sublist.refl _
  · exact ((List.Sublist.refl _).cons _).cons _

theorem powersMember_keys {powers : List (String × Json)} (h : powersMember env tmp = some powers) :
    (powers.map Prod.fst).Sublist ["powers"] := by
  unfold powersMember at h
  split at h
  · simp only [Option.bind_eq_bind, Option.bind_eq_some_iff, Option.pure_def,
      Option.some.injEq] at h
    obtain ⟨items, _, rfl⟩ := h
    exact List.Sublist.refl _
  · obtain rfl : [] = powers := Option.some.inj h
    exact List.nil_sublist _

theorem subtypeMembers_keys {subtype : List (String × Json)}
    (h : subtypeMembers env tmp = some subtype) :
    (subtype.map Prod.fst).Sublist ["sub_type", "parents"] := by
  unfold subtypeMembers at h
  split at h
  · split at h
    · obtain rfl := Option.some.inj h
      exact (List.nil_sublist _).cons_cons _
    · obtain rfl : [] = subtype := Option.some.inj h
      exact List.nil_sublist _
  · simp only [Option.bind_eq_bind, Option.bind_eq_some_iff, Option.pure_def,
      Option.some.injEq] at h
    obtain ⟨items, _, rfl⟩ := h
    exact List.Sublist.refl _

theorem valuesMember_keys {key : String} {values : List String} {member : List (String × Json)}
    (h : valuesMember env key values = some member) : (member.map Prod.fst).Sublist [key] := by
  unfold valuesMember at h
  split at h
  · obtain rfl : [] = member := Option.some.inj h
    exact List.nil_sublist _
  · simp only [Option.bind_eq_bind, Option.bind_eq_some_iff, Option.pure_def,
      Option.some.injEq] at h
    obtain ⟨items, _, rfl⟩ := h
    exact List.Sublist.refl _

theorem outletsMember_keys {outlets : OutletMap} :
    ((outletsMember outlets).map Prod.fst).Sublist ["outlets"] := by
  unfold outletsMember
  split
  · exact List.nil_sublist _
  · exact List.Sublist.refl _

theorem computedMember_key {member : String × Json} (h : computedMember env tmp = some member) :
    member.1 = "computed" := by
  unfold computedMember at h
  split at h
  · simp only [Option.bind_eq_bind, Option.bind_eq_some_iff, Option.pure_def,
      Option.some.injEq] at h
    obtain ⟨res, _, outlets, _, rfl⟩ := h
    rfl
  · obtain rfl := Option.some.inj h
    rfl

theorem readMembers_location {isBool : Json → Bool} {all : List (String × Json)}
    {ext : Except JsonError (List Column)} :
    readMembers isBool all ext (locationMembers env tmp.basic) =
      .ok (locationColumns env tmp) := by
  unfold locationMembers locationColumns locationType extNameOf
  rcases env.idToNameExtName tmp.basic.parentId with ⟨parentName, extParentName⟩
  dsimp only
  split
  · rfl
  · rfl

theorem readMembers_values {isBool : Json → Bool} {all : List (String × Json)}
    {ext : Except JsonError (List Column)} {key item : String} {kind : ExtKind}
    {member : List (String × Json)}
    (hread : ∀ it, readMember isBool all ext key it =
      processValuesKey key item ((all.lookup key).getD it))
    (hmember : valuesMember env key (valuesOf (leftExt tmp) kind) = some member)
    (hlookup : ∀ p ∈ member, all.lookup p.1 = some p.2) :
    readMembers isBool all ext member = .ok (listColumns env tmp kind item) ∧
      ∀ value ∈ valuesOf (leftExt tmp) kind, (env.unquote value).isSome = true := by
  unfold valuesMember at hmember
  unfold listColumns listedValues
  split at hmember
  · rename_i hnil
    obtain rfl : [] = member := Option.some.inj hmember
    rw [hnil]
    exact ⟨rfl, fun value hvalue ↦ absurd hvalue List.not_mem_nil⟩
  · simp only [Option.bind_eq_bind, Option.bind_eq_some_iff, Option.pure_def,
      Option.some.injEq] at hmember
    obtain ⟨items, hitems, rfl⟩ := hmember
    have ⟨heq, hall⟩ := mapM_eq_some (g := fun value ↦ (env.unquote value).getD "")
      (fun x y hy ↦ by rw [hy]; rfl) hitems
    subst heq
    constructor
    · apply readMembers_singleton
      rw [hread, hlookup _ List.mem_cons_self]
      exact processValuesKey_eq
    · intro value hvalue
      rw [hall value hvalue]
      rfl

theorem readMembers_powers {isBool : Json → Bool} {all : List (String × Json)}
    {ext : Except JsonError (List Column)} {member : List (String × Json)}
    (hmember : powersMember env tmp = some member)
    (hlookup : ∀ p ∈ member, all.lookup p.1 = some p.2) :
    readMembers isBool all ext member = .ok (linksColumns env tmp) := by
  unfold powersMember at hmember
  unfold linksColumns printedLinks
  split at hmember
  · rename_i hdevice
    simp only [Option.bind_eq_bind, Option.bind_eq_some_iff, Option.pure_def,
      Option.some.injEq] at hmember
    obtain ⟨powers, hpowers, rfl⟩ := hmember
    have hlookup := hlookup _ List.mem_cons_self
    apply readMembers_singleton
    rw [readMember_powers, hlookup, powers_eq hpowers, if_pos hdevice]
    rw [Option.getD_some, processPowersKey_eq, List.zipIdx_map, List.flatMap_map]
    rfl
  · rename_i hdevice
    obtain rfl : [] = member := Option.some.inj hmember
    rw [if_neg hdevice]
    rfl

theorem readMembers_subtype {isBool : Json → Bool} {all : List (String × Json)}
    {ext : Except JsonError (List Column)} {member : List (String × Json)}
    (hmember : subtypeMembers env tmp = some member) :
    readMembers isBool all ext member = .ok (subtypeColumns tmp) := by
  unfold subtypeMembers at hmember
  unfold subtypeColumns
  split at hmember
  · rename_i hgroup
    rw [if_pos hgroup]
    cases htype : tmp.ext.lookup "type" with
    | some entry =>
      rw [htype] at hmember
      obtain rfl := Option.some.inj hmember
      rfl
    | none =>
      rw [htype] at hmember
      obtain rfl : [] = member := Option.some.inj hmember
      rfl
  · rename_i hgroup
    rw [if_neg hgroup]
    simp only [Option.bind_eq_bind, Option.bind_eq_some_iff, Option.pure_def,
      Option.some.injEq] at hmember
    obtain ⟨parents, _, rfl⟩ := hmember
    rfl

theorem readMembers_ext {isBool : Json → Bool} {all : List (String × Json)}
    (hlookup : all.lookup "ext" = some (extMember tmp).2) :
    readMembers isBool all (processFirstExt isBool all) [extMember tmp] =
      .ok (tagColumns tmp ++ ordinaryColumns tmp) := by
  apply readMembers_singleton
  show readMember isBool all _ "ext" _ = _
  rw [readMember_ext, processFirstExt_eq hlookup]
  have hitems : (extMember tmp).2 = .array (((if tmp.basic.assetTag = "" then []
      else [("asset_tag", tmp.basic.assetTag, false)]) ++ ofKind (leftExt tmp) .ordinary).map
        fun p ↦ extElement p.1 p.2.1 p.2.2) := by
    rw [extMember, List.map_append]
    split <;> rfl
  rw [hitems, processExtKey_eq, List.filter_append, List.map_append, tagColumns]
  split <;> rfl

theorem readMembers_outlets {isBool : Json → Bool} {all : List (String × Json)}
    {ext : Except JsonError (List Column)} (hbool : ∀ b, isBool (jsonBool b) = true)
    {outlets : OutletMap} (hlookup : ∀ p ∈ outletsMember outlets, all.lookup p.1 = some p.2) :
    readMembers isBool all ext (outletsMember outlets) = .ok (outletColumns outlets) := by
  unfold outletsMember at hlookup ⊢
  split
  · rename_i hnil
    rw [hnil]
    rfl
  · rename_i hne
    rw [if_neg hne] at hlookup
    apply readMembers_singleton
    rw [readMember_outlets, hlookup _ List.mem_cons_self]
    exact processOutletsKey_eq hbool

theorem readMembers_computed {isBool : Json → Bool} {all : List (String × Json)}
    {ext : Except JsonError (List Column)} {member : String × Json}
    (hmember : computedMember env tmp = some member) :
    readMembers isBool all ext [member] = .ok [("computed", "")] := by
  unfold computedMember at hmember
  split at hmember
  · simp only [Option.bind_eq_bind, Option.bind_eq_some_iff, Option.pure_def,
      Option.some.injEq] at hmember
    obtain ⟨res, _, outlets, _, rfl⟩ := hmember
    rfl
  · obtain rfl := Option.some.inj hmember
    rfl

/-- What is read of the document that is printed. -/
theorem readSi_getJsonAsset {isBool : Json → Bool} (hbool : ∀ b, isBool (jsonBool b) = true)
    {elemId : Nat} {doc : Json} (htmp : env.getItem1 elemId = some tmp)
    (hdoc : getJsonAsset env elemId = some doc) :
    readSi isBool doc = .ok (assetColumns env tmp) ∧
      ∀ p ∈ listKinds, ∀ value ∈ valuesOf (leftExt tmp) p.1, (env.unquote value).isSome = true := by
  unfold getJsonAsset at hdoc
  simp only [htmp, Option.bind_eq_bind, Option.bind_eq_some_iff, Option.pure_def,
    Option.some.injEq, exists_eq_left'] at hdoc
  obtain ⟨names, hnames, uri, -, groups, hgroups, powers, hpowers, subtype, hsubtype, ips, hips,
    macs, hmacs, fqdns, hfqdns, hostnames, hhostnames, computed, hcomputed, hdoc⟩ := hdoc
  obtain rfl := elementNames_eq_some hnames
  obtain rfl := groups_eq hgroups
  obtain ⟨ms, rfl⟩ : ∃ ms, doc = .object ms := ⟨_, hdoc.symm⟩
  injection hdoc with hms
  -- no key is printed twice
  have hkey : computed.1 = "computed" := computedMember_key hcomputed
  have hkeys : (ms.map Prod.fst).Sublist assetKeys := by
    rw [← hms]
    simp only [List.map_append]
    exact (((((((((((List.Sublist.refl _).append locationMembers_keys).append
      (List.Sublist.refl ["groups"])).append (powersMember_keys hpowers)).append
      (subtypeMembers_keys hsubtype)).append (List.Sublist.refl ["ext"])).append
      (valuesMember_keys hips)).append (valuesMember_keys hmacs)).append
      (valuesMember_keys hfqdns)).append (valuesMember_keys hhostnames)).append
      outletsMember_keys).append (by rw [List.map_singleton, hkey])
  have hnd : (ms.map Prod.fst).Nodup := hkeys.nodup (by decide)
  -- read with any list of members in which each key is found with its own value
  have hread : ∀ all : List (String × Json), (∀ p ∈ ms, all.lookup p.1 = some p.2) →
      readMembers isBool all (processFirstExt isBool all) ms = .ok (assetColumns env tmp) ∧
        ∀ p ∈ listKinds, ∀ value ∈ valuesOf (leftExt tmp) p.1,
          (env.unquote value).isSome = true := by
    intro all hlookup
    rw [← hms] at hlookup ⊢
    simp only [List.forall_mem_append, List.forall_mem_singleton] at hlookup
    obtain ⟨⟨⟨⟨⟨⟨⟨⟨⟨⟨⟨-, -⟩, hgroup⟩, hpower⟩, -⟩, hext⟩, hip⟩, hmac⟩, hfqdn⟩, hhostname⟩, houtlet⟩,
      -⟩ := hlookup
    have hfields : readMembers isBool all (processFirstExt isBool all)
        [("id", .str tmp.basic.name), ("power_devices_in_uri", .str uri),
          ("name", .str (env.idToNameExtName tmp.basic.id).2), ("status", .str tmp.basic.status),
          ("priority", .str ("P" ++ toString tmp.basic.priority)),
          ("type", .str tmp.basic.typeName)] = .ok (fieldColumns env tmp) := rfl
    have hgroups : readMembers isBool all (processFirstExt isBool all)
        [("groups", .array ((tmp.groups.map fun p ↦ (p.2, extNameOf env p.1)).map fun p ↦
          .object [("id", .str p.1), ("name", .str p.2)]))] = .ok (groupColumns env tmp) := by
      apply readMembers_singleton
      rw [readMember_groups, hgroup, Option.getD_some, processGroupsKey_eq, List.zipIdx_map,
        List.map_map]
      rfl
    have ⟨hips, hipValues⟩ : readMembers isBool all (processFirstExt isBool all) ips =
        .ok (listColumns env tmp .ip "ip.") ∧ _ :=
      readMembers_values (fun it ↦ readMember_ips) hips hip
    have ⟨hmacs, hmacValues⟩ : readMembers isBool all (processFirstExt isBool all) macs =
        .ok (listColumns env tmp .mac "mac.") ∧ _ :=
      readMembers_values (fun it ↦ readMember_macs) hmacs hmac
    have ⟨hfqdns, hfqdnValues⟩ : readMembers isBool all (processFirstExt isBool all) fqdns =
        .ok (listColumns env tmp .fqdn "fqdn.") ∧ _ :=
      readMembers_values (fun it ↦ readMember_fqdns) hfqdns hfqdn
    have ⟨hhostnames, hhostnameValues⟩ : readMembers isBool all (processFirstExt isBool all) hostnames =
        .ok (listColumns env tmp .hostname "hostname.") ∧ _ :=
      readMembers_values (fun it ↦ readMember_hostnames) hhostnames hhostname
    constructor
    · exact readMembers_append (readMembers_append (readMembers_append (readMembers_append
        (readMembers_append (readMembers_append (readMembers_append (readMembers_append
        (readMembers_append (readMembers_append (readMembers_append hfields
          readMembers_location) hgroups) (readMembers_powers hpowers hpower))
          (readMembers_subtype hsubtype)) (readMembers_ext hext)) hips) hmacs) hfqdns)
          hhostnames) (readMembers_outlets hbool houtlet)) (readMembers_computed hcomputed)
    · simp only [listKinds, List.forall_mem_cons, List.not_mem_nil, false_implies, implies_true,
        and_true]
      exact ⟨hipValues, hmacValues, hfqdnValues, hhostnameValues⟩
  exact hread ms fun p hp ↦ lookup_of_mem hnd hp

end

end FtyRest.Shared
