import FtyRest.Lib.Checks
import FtyRest.Shared.AssetText
import FtyRest.Shared.ExtNames
import Mathlib.Data.List.Dedup

/-!
# The text of an asset is an object

Every part of the text brings the commas that it needs, whichever parts are there.  What
`jsonify` does not quote has to be fit for the place where it is printed.
-/

namespace FtyRest.Shared

open Db JsonText Web

/-! ## Counters -/

theorem counter32_ne {n : Nat} (h : n ≤ 2 ^ 32) :
    ∀ i < n, 0 < i → counter32 i ≠ counter32 n := by
  intro i hi hpos
  unfold counter32
  omega

theorem id_ne {n : Nat} : ∀ i < n, 0 < i → id i ≠ id n := fun _ hi _ ↦ Nat.ne_of_lt hi

/-! ## Values -/

theorem boolText_value (b : Bool) : Value (boolText b) := by
  cases b with
  | false => exact .false
  | true => exact .true

theorem countText_value (n : Int) : Value (countText n) := by
  unfold countText
  split
  · rename_i h
    obtain ⟨m, rfl⟩ := Int.eq_ofNat_of_zero_le h
    exact .number (number_toString m)
  · exact .null

theorem quotedText_value {value : String} (h : StringBody value) : Value (quotedText value) :=
  .string h

/-- The texts of elements that each have a text of their own. -/
theorem values_of_mapM {α : Type} {f : α → Option String} {xs : List α} {texts : List String}
    (htexts : xs.mapM f = some texts) (h : ∀ x text, f x = some text → Value text) :
    texts.length = xs.length ∧ ∀ text ∈ texts, Value text := by
  have ⟨heq, hall⟩ := Checks.mapM_eq_some (g := fun x ↦ (f x).getD "")
    (fun x text htext ↦ by rw [htext]; rfl) htexts
  subst heq
  refine ⟨List.length_map _, fun text htext ↦ ?_⟩
  obtain ⟨x, hx, rfl⟩ := List.mem_map.mp htext
  exact h x _ (hall x hx)

/-! ## The loop over the attributes -/

section

variable {ext : List (String × String × Bool)}

theorem ofKind_concat {name : String} {v : String × Bool} {kind : ExtKind} :
    ofKind (ext ++ [(name, v)]) kind =
      ofKind ext kind ++ if extKind name = kind then [(name, v)] else [] := by
  unfold ofKind
  rw [List.filter_append, List.filter_singleton, Bool.cond_decide]

theorem valuesOf_concat {name : String} {v : String × Bool} {kind : ExtKind} :
    valuesOf (ext ++ [(name, v)]) kind =
      valuesOf ext kind ++ if extKind name = kind then [v.1] else [] := by
  unfold valuesOf
  rw [ofKind_concat, List.map_append]
  split
  · rfl
  · rfl

/-- What the loop makes of the attributes: each goes to the list or to the outlets of its kind, or
is printed behind the texts that are there. -/
theorem foldl_extStep {jsonify : String → String → String} (tag : List String) :
    ext.foldl (extStep jsonify) { json := itemsText tag } =
      { json := itemsText (tag ++ (ofKind ext .ordinary).map fun (name, value, readOnly) ↦
          extElementText jsonify name value readOnly)
        outlets := outletsOf ext
        ips := valuesOf ext .ip
        macs := valuesOf ext .mac
        fqdns := valuesOf ext .fqdn
        hostnames := valuesOf ext .hostname } := by
  induction ext using List.reverseRecOn with
  | nil => simp [ofKind, valuesOf, outletsOf]
  | append_singleton ext attr ih =>
    obtain ⟨name, value, readOnly⟩ := attr
    rw [List.foldl_append, ih, List.foldl_cons, List.foldl_nil]
    unfold extStep
    simp only [valuesOf_concat, ofKind_concat, outletsOf_concat]
    cases hkind : extKind name <;>
      simp [appendItem_itemsText, ← List.append_assoc]

end

/-- The texts of `ext`. -/
def extTexts (jsonify : String → String → String) (tmp : WebElement) : List String :=
  let assetTag := tmp.basic.assetTag
  (if assetTag ≠ "" then [assetTagText jsonify assetTag] else []) ++
    (ofKind (leftExt tmp) .ordinary).map fun (name, value, readOnly) ↦
      extElementText jsonify name value readOnly

/-- The loop over the attributes of an asset. -/
theorem extLoop_eq (jsonify : String → String → String) (tmp : WebElement) :
    extLoop jsonify tmp =
      { json := itemsText (extTexts jsonify tmp)
        outlets := outletsOf (leftExt tmp)
        ips := valuesOf (leftExt tmp) .ip
        macs := valuesOf (leftExt tmp) .mac
        fqdns := valuesOf (leftExt tmp) .fqdn
        hostnames := valuesOf (leftExt tmp) .hostname } := by
  unfold extLoop extTexts
  dsimp only
  split
  · exact foldl_extStep [assetTagText jsonify tmp.basic.assetTag]
  · exact foldl_extStep []

/-! ## The outlets of an asset -/

/-- The numbers in the names of the attributes of outlets. -/
def outletNumbers (ext : List (String × String × Bool)) : List String :=
  ext.filterMap fun (attrName, _) ↦
    match extKind attrName with
    | .outlet _ => some (getOutletNumber attrName)
    | _ => none

section

variable {ext : List (String × String × Bool)}

theorem OutletMap.mem_keys_set {outlets : OutletMap} {oNumber n : String} {attr : OutletAttr}
    {v : String × Bool} (h : n ∈ (outlets.set oNumber attr v).map Prod.fst) :
    n = oNumber ∨ n ∈ outlets.map Prod.fst := by
  unfold OutletMap.set at h
  split at h
  · rw [List.map_map] at h
    exact Or.inr h
  · obtain ⟨p, hp, rfl⟩ := List.mem_map.mp h
    rcases (List.mem_orderedInsert _).mp hp with rfl | hp
    · exact Or.inl rfl
    · exact Or.inr (List.mem_map.mpr ⟨p, hp, rfl⟩)

theorem outletNumbers_concat {name : String} {v : String × Bool} :
    outletNumbers (ext ++ [(name, v)]) = outletNumbers ext ++
      match extKind name with
      | .outlet _ => [getOutletNumber name]
      | _ => [] := by
  unfold outletNumbers
  rw [List.filterMap_append]
  cases hkind : extKind name <;> simp [hkind]

theorem outletsOf_keys {n : String} (h : n ∈ (outletsOf ext).map Prod.fst) :
    n ∈ outletNumbers ext := by
  induction ext using List.reverseRecOn with
  | nil => exact absurd h List.not_mem_nil
  | append_singleton ext attr ih =>
    obtain ⟨name, v⟩ := attr
    rw [outletsOf_concat] at h
    rw [outletNumbers_concat]
    cases hkind : extKind name with
    | outlet attr =>
      rw [hkind] at h
      rcases OutletMap.mem_keys_set h with rfl | hold
      · exact List.mem_append_right _ List.mem_cons_self
      · exact List.mem_append_left _ (ih hold)
    | _ =>
      rw [hkind] at h
      exact List.mem_append_left _ (ih h)

/-- There are no more outlets than numbers. -/
theorem outletsOf_length : (outletsOf ext).length ≤ (outletNumbers ext).dedup.length := by
  rw [← List.length_map (f := Prod.fst)]
  apply List.Subperm.length_le
  apply List.subperm_of_subset nodup_outletsOf
  intro n hn
  exact List.mem_dedup.mpr (outletsOf_keys hn)

theorem stringBody_outletNumber {n : String} (h : n ∈ outletNumbers ext) : StringBody n := by
  unfold outletNumbers at h
  obtain ⟨⟨name, v⟩, _, hn⟩ := List.mem_filterMap.mp h
  dsimp only at hn
  split at hn
  · rename_i attr hkind
    obtain rfl := Option.some.inj hn
    have ⟨number, _, hdigits, heq⟩ := isNumberedName_iff.mp (isNumberedName_of_extKind hkind rfl)
    have hsuffix : attr.suffix.toList = '.' :: attr.name.toList := by
      rw [OutletAttr.suffix, String.toList_append]
      rfl
    rw [hsuffix] at heq
    rw [getOutletNumber_eq hdigits heq]
    apply stringBody_plain
    intro c hc
    rw [String.toList_ofList] at hc
    exact plain_of_isDigit (hdigits c hc)
  · cases hn

end

section

variable {jsonify : String → String → String} (hjsonify : ∀ key value, Members (jsonify key value))
  {env : AssetJsonEnv}

include hjsonify

theorem lead_jsonify (key value : String) : Lead (jsonify key value ++ ",") :=
  (hjsonify key value).lead

theorem lead_headText {basic : WebBasicElement} (hname : StringBody basic.name)
    (assetExtName : String) : Lead (headText jsonify basic assetExtName) := by
  have hbody : StringBody ("/api/v1/assets?in=" ++ basic.name ++
      "&sub_type=epdu,pdu,feed,genset,ups,sts,rackcontroller") :=
    (StringBody.append (by decide) hname).append (by decide)
  have hvalue : Value ("\"/api/v1/assets?in=" ++ (basic.name ++
      "&sub_type=epdu,pdu,feed,genset,ups,sts,rackcontroller\"")) :=
    value_string_around rfl rfl hbody
  have hpower : Members ("\"power_devices_in_uri\": \"/api/v1/assets?in=" ++ (basic.name ++
      "&sub_type=epdu,pdu,feed,genset,ups,sts,rackcontroller\"")) :=
    members_of_prefix "" "power_devices_in_uri" "" " " rfl (by decide) (by decide) (by decide)
      (by decide) hvalue
  have hlead := ((((lead_jsonify hjsonify "id" basic.name).append hpower.lead).append
    (lead_jsonify hjsonify "name" assetExtName)).append
    (lead_jsonify hjsonify "status" basic.status)).append
    ((lead_jsonify hjsonify "priority" ("P" ++ toString basic.priority)).append
      (lead_jsonify hjsonify "type" basic.typeName))
  unfold headText
  simpa only [String.append_assoc] using hlead

theorem lead_locationText (env : AssetJsonEnv) (basic : WebBasicElement) :
    Lead (locationText jsonify env basic) := by
  unfold locationText
  dsimp only
  split
  · intro members hmembers
    simp only [String.append_assoc]
    apply (hjsonify "location_uri" _).cons
    apply (hjsonify "location_id" _).cons
    apply (hjsonify "location" _).cons
    exact (hjsonify "location_type" _).cons hmembers
  · have hempty : Value ("\"\"" ++ "") := Value.string (show StringBody "" by decide)
    have hlocation : Members ("\"location\":\"\"" ++ "") :=
      members_of_prefix "" "location" "" "" rfl (by decide) (by decide) (by decide) (by decide)
        hempty
    have htype : Members ("\"location_type\":\"\"" ++ "") :=
      members_of_prefix "" "location_type" "" "" rfl (by decide) (by decide) (by decide) (by decide)
        hempty
    simpa only [String.append_assoc, String.empty_append] using hlocation.lead.append htype.lead

theorem groupText_value {oneGroup : Nat × String} {text : String}
    (h : groupText jsonify env oneGroup = some text) : Value text := by
  unfold groupText at h
  obtain ⟨names, _, h⟩ := Option.bind_eq_some_iff.mp h
  obtain rfl := Option.some.inj h
  have hvalue := Value.object (((hjsonify "id" oneGroup.2).append (hjsonify "name" names.2)))
  simpa only [String.append_assoc] using hvalue

theorem groupsText_members {tmp : WebElement} {text : String} (hlength : tmp.groups.length ≤ 2 ^ 32)
    (h : groupsText jsonify env tmp = some text) : Members text := by
  unfold groupsText at h
  obtain ⟨groups, hgroups, h⟩ := Option.bind_eq_some_iff.mp h
  obtain rfl := Option.some.inj h
  have ⟨hlen, hvalues⟩ := values_of_mapM hgroups fun _ _ ↦ groupText_value hjsonify
  have hvalue := value_countedText (counter32_ne (by omega)) hvalues (show Blank "" by decide)
  rw [String.append_assoc] at hvalue ⊢
  exact members_of_prefix "" "groups" "" " " rfl (by decide) (by decide) (by decide) (by decide)
    hvalue

theorem socketText_tail (key socket : String) : Tail (socketText jsonify key socket) := by
  unfold socketText
  split
  · exact Or.inl rfl
  · exact Tail.of_members (hjsonify key socket)

theorem powerText_value {oneLink : WebLink} {text : String}
    (h : powerText jsonify env oneLink = some text) : Value text := by
  unfold powerText at h
  obtain ⟨names, _, h⟩ := Option.bind_eq_some_iff.mp h
  obtain rfl := Option.some.inj h
  have hsockets := (socketText_tail hjsonify "src_socket" oneLink.srcSocket).append
    (socketText_tail hjsonify "dest_socket" oneLink.destSocket)
  have hvalue := Value.object (((hjsonify "src_name" names.2).cons
    (hjsonify "src_id" oneLink.srcName)).tail hsockets)
  simpa only [String.append_assoc] using hvalue

theorem powersText_tail {tmp : WebElement} {text : String}
    (hlength : tmp.basic.typeId = AssetType.device → tmp.powers.length ≤ 2 ^ 32)
    (h : powersText jsonify env tmp = some text) : Tail text := by
  unfold powersText at h
  split at h
  · rename_i hdevice
    obtain ⟨powers, hpowers, h⟩ := Option.bind_eq_some_iff.mp h
    obtain rfl := Option.some.inj h
    have ⟨hlen, hvalues⟩ := values_of_mapM hpowers fun _ _ ↦ powerText_value hjsonify
    have hle := hlength hdevice
    have hvalue := value_countedText (counter32_ne (by omega)) hvalues (show Blank "" by decide)
    rw [String.append_assoc] at hvalue ⊢
    exact tail_of_prefix "" " " "powers" "" " " rfl (by decide) (by decide) (by decide) (by decide)
      (by decide) hvalue
  · obtain rfl := Option.some.inj h
    exact Or.inl rfl

theorem parentText_value {it : WebParent} {text : String}
    (h : parentText jsonify env it = some text) : Value text := by
  unfold parentText at h
  obtain ⟨names, _, h⟩ := Option.bind_eq_some_iff.mp h
  obtain rfl := Option.some.inj h
  have hvalue := Value.object ((hjsonify "id" it.name).cons ((hjsonify "name" names.2).cons
    ((hjsonify "type" it.type).cons (hjsonify "sub_type" it.subType))))
  simpa only [String.append_assoc] using hvalue

theorem subtypeText_tail {tmp : WebElement} {text : String}
    (h : subtypeText jsonify env tmp = some text) : Tail text := by
  unfold subtypeText at h
  split at h
  · split at h
    · obtain rfl := Option.some.inj h
      exact Tail.of_members (hjsonify "sub_type" _)
    · obtain rfl := Option.some.inj h
      exact Or.inl rfl
  · obtain ⟨parents, hparents, h⟩ := Option.bind_eq_some_iff.mp h
    obtain rfl := Option.some.inj h
    have ⟨_, hvalues⟩ := values_of_mapM hparents fun _ _ ↦ parentText_value hjsonify
    have hvalue := value_countedText id_ne hvalues (show Blank " " by decide)
    rw [String.append_assoc] at hvalue
    have htail : Tail (", \"parents\" : [" ++ (countedText id " " parents ++ "]")) :=
      tail_of_prefix "" " " "parents" " " " " rfl (by decide) (by decide) (by decide) (by decide)
        (by decide) hvalue
    have hboth := (Tail.of_members (hjsonify "sub_type" (strip tmp.basic.subtypeName))).append htail
    simpa only [String.append_assoc] using hboth

theorem extElementText_value (name value : String) (readOnly : Bool) :
    Value (extElementText jsonify name value readOnly) := by
  have hflag : Tail (",\"read_only\" :" ++ boolText readOnly) :=
    tail_of_prefix "" "" "read_only" " " "" rfl (by decide) (by decide) (by decide) (by decide)
      (by decide) (boolText_value readOnly).empty_append
  have hvalue := Value.object ((hjsonify name value).tail hflag)
  simpa only [extElementText, String.append_assoc] using hvalue

theorem assetTagText_value (assetTag : String) : Value (assetTagText jsonify assetTag) := by
  have hflag : Tail (", \"read_only\" : " ++ boolText false) :=
    tail_of_prefix "" " " "read_only" " " " " rfl (by decide) (by decide) (by decide) (by decide)
      (by decide) (boolText_value false).empty_append
  have hvalue := Value.object ((hjsonify "asset_tag" assetTag).tail hflag)
  simpa only [assetTagText, String.append_assoc] using hvalue

theorem extTexts_value (tmp : WebElement) : ∀ text ∈ extTexts jsonify tmp, Value text := by
  intro text htext
  unfold extTexts at htext
  rcases List.mem_append.mp htext with htag | hmem
  · split at htag
    · rw [List.mem_singleton.mp htag]
      exact assetTagText_value hjsonify _
    · exact absurd htag List.not_mem_nil
  · obtain ⟨⟨name, value, readOnly⟩, _, rfl⟩ := List.mem_map.mp hmem
    exact extElementText_value hjsonify name value readOnly

theorem outletAttr_value (attr : OutletAttr) (value : String) (readOnly : Bool) :
    Value ("\x7b" ++ quotedText "name" ++ ":" ++ quotedText attr.name ++ "," ++
      jsonify "value" value ++ ",\"read_only\" : " ++ boolText readOnly ++ "\x7d") := by
  have hbody : StringBody attr.name := by cases attr <;> decide
  have hname : Members (quotedText "name" ++ (":" ++ quotedText attr.name)) :=
    members_of_key "" "" rfl (by decide) (by decide) (by decide)
      (quotedText_value hbody).empty_append
  have hflag : Tail (",\"read_only\" : " ++ boolText readOnly) :=
    tail_of_prefix "" "" "read_only" " " " " rfl (by decide) (by decide) (by decide) (by decide)
      (by decide) (boolText_value readOnly).empty_append
  have hvalue := Value.object ((hname.cons (hjsonify "value" value)).tail hflag)
  simpa only [String.append_assoc] using hvalue

theorem foldl_outletAttrStep (o : Outlet) (attrs : List OutletAttr) {texts : List String}
    (h : ∀ text ∈ texts, Value text) : ∃ texts', (∀ text ∈ texts', Value text) ∧
      attrs.foldl (outletAttrStep jsonify o) (itemsText texts) = itemsText texts' := by
  induction attrs generalizing texts with
  | nil => exact ⟨texts, h, rfl⟩
  | cons attr attrs ih =>
    rcases hget : o.get attr with ⟨value, readOnly⟩
    simp only [List.foldl_cons, outletAttrStep, hget]
    split
    · exact ih h
    · rw [appendItem_itemsText]
      apply ih
      intro text htext
      rcases List.mem_append.mp htext with hmem | hmem
      · exact h text hmem
      · rw [List.mem_singleton.mp hmem]
        exact outletAttr_value hjsonify attr value readOnly

theorem outletText_members {oneOutlet : String × Outlet} (hkey : StringBody oneOutlet.1) :
    Members (outletText jsonify oneOutlet) := by
  have hnone : ∀ text ∈ ([] : List String), Value text := fun _ h ↦ absurd h List.not_mem_nil
  have ⟨texts, htexts, heq⟩ :=
    foldl_outletAttrStep hjsonify oneOutlet.2 [.label, .group, .type] hnone
  unfold outletText
  rw [show (("", false) : String × Bool) = itemsText [] from rfl, heq]
  have hvalue := value_commaText htexts
  rw [String.append_assoc] at hvalue
  have hmembers : Members (quotedText oneOutlet.1 ++ (" : [" ++ (commaText texts ++ "]"))) :=
    members_of_key " " " " rfl hkey (by decide) (by decide) hvalue
  rw [String.append_assoc, String.append_assoc]
  exact hmembers

theorem outletsText_tail {ext : List (String × String × Bool)}
    (hlength : (outletNumbers ext).dedup.length ≤ 2 ^ 32) :
    Tail (outletsText jsonify (outletsOf ext)) := by
  unfold outletsText
  split
  · exact Or.inl rfl
  · have hmembers : ∀ text ∈ (outletsOf ext).map (outletText jsonify), Members text := by
      intro text htext
      obtain ⟨oneOutlet, hmem, rfl⟩ := List.mem_map.mp htext
      apply outletText_members hjsonify
      exact stringBody_outletNumber (outletsOf_keys (List.mem_map.mpr ⟨_, hmem, rfl⟩))
    have hle := outletsOf_length.trans hlength
    have hvalue := object_countedText
      (counter32_ne ((List.length_map (outletText jsonify)).trans_le hle)) hmembers
    rw [String.append_assoc] at hvalue ⊢
    exact tail_of_prefix "" " " "outlets" "" " " rfl (by decide) (by decide) (by decide) (by decide)
      (by decide) hvalue

end

/-! ## The values as they are -/

section

variable {env : AssetJsonEnv}

theorem valuesText_tail {start : String} {values : List String} (blank before key : String)
    (hstart : start = blank ++ "," ++ (before ++ "\"" ++ key ++ "\"" ++ " " ++ ":" ++ " " ++ "["))
    (hblank : Blank blank) (hbefore : Blank before) (hkey : StringBody key)
    (hlength : values.length ≤ 2 ^ 32) (hvalues : ∀ value ∈ values, StringBody value) :
    Tail (valuesText start values) := by
  unfold valuesText
  split
  · exact Or.inl rfl
  · have hquoted : ∀ text ∈ values.map quotedText, Value text := by
      intro text htext
      obtain ⟨value, hmem, rfl⟩ := List.mem_map.mp htext
      exact quotedText_value (hvalues value hmem)
    have hvalue := value_countedText
      (counter32_ne ((List.length_map quotedText).trans_le hlength)) hquoted
      (show Blank "" by decide)
    rw [String.append_assoc] at hvalue ⊢
    exact tail_of_prefix blank before key " " " " hstart hblank hbefore hkey (by decide) (by decide)
      hvalue

theorem availableText_members {it : String × Int} (hkey : CountKey it.1) :
    Members (availableText it) := by
  have hbody : StringBody it.1 := by
    rcases hkey with heq | ⟨id, heq⟩
    · rw [heq]
      decide
    · rw [heq]
      apply stringBody_plain
      intro c hc
      exact plain_of_isDigit (isDigit_of_mem_toString hc)
  unfold availableText
  rw [String.append_assoc]
  exact members_of_key "" "" rfl hbody (by decide) (by decide)
    (countText_value it.2).empty_append

theorem rackText_members {db : RackDb} {basic : WebBasicElement} {text : String}
    (hrealpower : ∀ text, env.realpowerNominal basic.name = some text → Number text)
    (h : rackText (env.withRack db) basic = some text) : Members text := by
  have hpower : Value ((env.realpowerNominal basic.name).getD "null") := by
    cases hnominal : env.realpowerNominal basic.name with
    | none => exact .null
    | some text => exact .number (hrealpower text hnominal)
  obtain ⟨res, hres, htext⟩ := Option.bind_eq_some_iff.mp h
  have hkeys := rackOutletsAvailable_keys hres
  obtain rfl := Option.some.inj htext
  have havailable : ∀ text ∈ res.map availableText, Members text := by
    intro text hmem
    obtain ⟨it, hit, rfl⟩ := List.mem_map.mp hmem
    exact availableText_members (hkeys it hit)
  have hobject := object_countedText id_ne havailable
  rw [String.append_assoc] at hobject
  have hsize : Members ("\"freeusize\":" ++ countText (env.freeUSize basic.id)) :=
    members_of_prefix "" "freeusize" "" "" rfl (by decide) (by decide) (by decide) (by decide)
      (countText_value _).empty_append
  have hnominal : Tail (",\"realpower.nominal\":" ++
      (env.realpowerNominal basic.name).getD "null") :=
    tail_of_prefix "" "" "realpower.nominal" "" "" rfl (by decide) (by decide) (by decide)
      (by decide) (by decide) hpower.empty_append
  have houtlets : Tail (", \"outlet.available\" : \x7b" ++
      (countedText id "" (res.map availableText) ++ "\x7d")) :=
    tail_of_prefix "" " " "outlet.available" " " " " rfl (by decide) (by decide) (by decide)
      (by decide) (by decide) hobject
  -- the three members are read one after the other, in the order they are printed
  have hmembers := (hsize.tail hnominal).tail houtlets
  simpa only [String.append_assoc, AssetJsonEnv.withRack_freeUSize,
    AssetJsonEnv.withRack_realpowerNominal] using hmembers

theorem computedText_tail {db : RackDb} {basic : WebBasicElement} {text : String}
    (hrealpower : basic.typeId = AssetType.rack →
      ∀ text, env.realpowerNominal basic.name = some text → Number text)
    (h : computedText (env.withRack db) basic = some text) : Tail text := by
  unfold computedText at h
  obtain ⟨rack, hrack, rfl⟩ := Option.map_eq_some_iff.mp h
  have hvalue : Value ("\x7b" ++ (rack ++ "\x7d")) := by
    rw [← String.append_assoc]
    split at hrack
    · rename_i htype
      exact .object (rackText_members (hrealpower htype) hrack)
    · obtain rfl := Option.some.inj hrack
      exact .noMembers (by decide)
  rw [String.append_assoc]
  exact tail_of_prefix "" " " "computed" " " " " rfl (by decide) (by decide) (by decide) (by decide)
    (by decide) hvalue

end

/-! ## The object -/

/-- The kinds whose values are printed between quotes as they are. -/
def quotedKinds : List ExtKind := [.ip, .mac, .fqdn, .hostname]

/-- What is printed as it is can stand where it is printed, and the counters hold the lengths. -/
structure Printable (env : AssetJsonEnv) (tmp : WebElement) : Prop where
  name : StringBody tmp.basic.name
  values : ∀ attr ∈ tmp.ext, extKind attr.1 ∈ quotedKinds → StringBody attr.2.1
  realpower : tmp.basic.typeId = AssetType.rack →
    ∀ text, env.realpowerNominal tmp.basic.name = some text → Number text
  groups : tmp.groups.length ≤ 2 ^ 32
  powers : tmp.basic.typeId = AssetType.device → tmp.powers.length ≤ 2 ^ 32
  lists : ∀ kind ∈ quotedKinds, (ofKind tmp.ext kind).length < 2 ^ 31 - 1
  outlets : (outletNumbers tmp.ext).dedup.length < 2 ^ 31 - 1

theorem leftExt_sublist (tmp : WebElement) : (leftExt tmp).Sublist tmp.ext := by
  unfold leftExt
  split
  · exact List.filter_sublist
  · exact List.Sublist.refl _

section

variable {env : AssetJsonEnv} {tmp : WebElement}

theorem Printable.valuesOf (h : Printable env tmp) (kind : ExtKind) (hkind : kind ∈ quotedKinds) :
    (valuesOf (leftExt tmp) kind).length ≤ 2 ^ 32 ∧
      ∀ value ∈ valuesOf (leftExt tmp) kind, StringBody value := by
  have hsub : (ofKind (leftExt tmp) kind).Sublist (ofKind tmp.ext kind) :=
    (leftExt_sublist tmp).filter _
  constructor
  · have hlength := h.lists kind hkind
    have hle := hsub.length_le
    unfold Shared.valuesOf
    rw [List.length_map]
    omega
  · intro value hvalue
    obtain ⟨attr, hattr, rfl⟩ := List.mem_map.mp hvalue
    have ⟨hmem, heq⟩ := List.mem_filter.mp (hsub.subset hattr)
    apply h.values attr hmem
    rw [of_decide_eq_true heq]
    exact hkind

theorem Printable.outletNumbers (h : Printable env tmp) :
    (outletNumbers (leftExt tmp)).dedup.length ≤ 2 ^ 32 := by
  have hsub : (Shared.outletNumbers (leftExt tmp)).Sublist (Shared.outletNumbers tmp.ext) :=
    (leftExt_sublist tmp).filterMap _
  have hlength := h.outlets
  have hle := (List.subperm_of_subset (List.nodup_dedup (Shared.outletNumbers (leftExt tmp)))
    fun n hn ↦ List.mem_dedup.mpr (hsub.subset (List.mem_dedup.mp hn))).length_le
  omega

/-- The lists of an asset. -/
def listsText (tmp : WebElement) : String :=
  let left := leftExt tmp
  valuesText ", \"ips\" : [" (valuesOf left .ip) ++
    (valuesText ", \"macs\" : [" (valuesOf left .mac) ++
    (valuesText ", \"fqdns\" : [" (valuesOf left .fqdn) ++
    valuesText " , \"hostnames\" : [" (valuesOf left .hostname)))

/-- Each list brings a comma of its own. -/
theorem listsText_tail (h : Printable env tmp) : Tail (listsText tmp) := by
  have ⟨hipsLength, hips⟩ := h.valuesOf .ip (by decide)
  have ⟨hmacsLength, hmacs⟩ := h.valuesOf .mac (by decide)
  have ⟨hfqdnsLength, hfqdns⟩ := h.valuesOf .fqdn (by decide)
  have ⟨hhostnamesLength, hhostnames⟩ := h.valuesOf .hostname (by decide)
  apply Tail.append
  · exact valuesText_tail "" " " "ips" rfl (by decide) (by decide) (by decide) hipsLength hips
  apply Tail.append
  · exact valuesText_tail "" " " "macs" rfl (by decide) (by decide) (by decide) hmacsLength hmacs
  apply Tail.append
  · exact valuesText_tail "" " " "fqdns" rfl (by decide) (by decide) (by decide) hfqdnsLength hfqdns
  · exact valuesText_tail " " " " "hostnames" rfl (by decide) (by decide) (by decide)
      hhostnamesLength hhostnames

/-- What is printed between the braces, when the database does not fail. -/
theorem assetText_eq {jsonify : String → String → String} {elemId : Nat} {text : String}
    (h : assetText jsonify env elemId = some text) :
    ∃ tmp assetExtName groups powers subtype computed, env.getItem1 elemId = some tmp ∧
      groupsText jsonify env tmp = some groups ∧ powersText jsonify env tmp = some powers ∧
      subtypeText jsonify env tmp = some subtype ∧ computedText env tmp.basic = some computed ∧
      text = "\x7b" ++ (headText jsonify tmp.basic assetExtName ++
        (locationText jsonify env tmp.basic ++ (groups ++ (powers ++ (subtype ++
          (", \"ext\" : [" ++ (commaText (extTexts jsonify tmp) ++ "]") ++ (listsText tmp ++
            (outletsText jsonify (outletsOf (leftExt tmp)) ++ computed)))))))) ++ "\x7d" := by
  unfold assetText at h
  obtain ⟨tmp, htmp, h⟩ := Option.bind_eq_some_iff.mp h
  obtain ⟨names, _, h⟩ := Option.bind_eq_some_iff.mp h
  obtain ⟨groups, hgroups, h⟩ := Option.bind_eq_some_iff.mp h
  obtain ⟨powers, hpowers, h⟩ := Option.bind_eq_some_iff.mp h
  obtain ⟨subtype, hsubtype, h⟩ := Option.bind_eq_some_iff.mp h
  obtain ⟨computed, hcomputed, h⟩ := Option.bind_eq_some_iff.mp h
  obtain rfl := Option.some.inj h
  refine ⟨tmp, names.2, groups, powers, subtype, computed, htmp, hgroups, hpowers, hsubtype,
    hcomputed, ?_⟩
  simp only [extLoop_eq, itemsText, listsText, String.append_assoc]

theorem getJsonAssetText_ne_empty {jsonify : String → String → String} {elemId : Nat}
    (h : (assetText jsonify env elemId).isSome = true) :
    getJsonAssetText jsonify env elemId ≠ "" := by
  obtain ⟨text, htext⟩ := Option.isSome_iff_exists.mp h
  obtain ⟨tmp, name, groups, powers, subtype, computed, _, _, _, _, _, rfl⟩ := assetText_eq htext
  unfold getJsonAssetText
  rw [htext]
  intro hempty
  have hlist := congrArg String.toList hempty
  simp [String.toList_append] at hlist

/-- When everything that `jsonify` does not quote is fit to be printed as it is, what is printed is
an object. -/
theorem getJsonAsset_object {jsonify : String → String → String}
    (hjsonify : ∀ key value, Members (jsonify key value)) {db : RackDb} {elemId : Nat}
    (hprintable : ∀ tmp, env.getItem1 elemId = some tmp → Printable env tmp)
    (htext : getJsonAssetText jsonify (env.withRack db) elemId ≠ "") :
    Object (getJsonAssetText jsonify (env.withRack db) elemId) := by
  unfold getJsonAssetText at htext ⊢
  cases hasset : assetText jsonify (env.withRack db) elemId with
  | none =>
    rw [hasset] at htext
    exact absurd rfl htext
  | some text =>
    obtain ⟨tmp, assetExtName, groups, powers, subtype, computed, htmp, hgroups, hpowers,
      hsubtype, hcomputed, rfl⟩ := assetText_eq hasset
    have hp := hprintable tmp htmp
    have hext : Tail (", \"ext\" : [" ++ (commaText (extTexts jsonify tmp) ++ "]")) := by
      have hvalue := value_commaText (extTexts_value hjsonify tmp)
      rw [String.append_assoc] at hvalue
      exact tail_of_prefix "" " " "ext" " " " " rfl (by decide) (by decide) (by decide) (by decide)
        (by decide) hvalue
    -- behind the groups every member brings its comma
    have htail := (powersText_tail hjsonify hp.powers hpowers).append
      ((subtypeText_tail hjsonify hsubtype).append (hext.append ((listsText_tail hp).append
        ((outletsText_tail hjsonify hp.outletNumbers).append
          (computedText_tail hp.realpower hcomputed)))))
    have hmembers := (groupsText_members hjsonify hp.groups hgroups).tail htail
    -- before them every member is followed by one
    have hall := lead_headText hjsonify hp.name assetExtName _
      (lead_locationText hjsonify (env.withRack db) tmp.basic _ hmembers)
    exact ⟨_, rfl, Or.inl hall⟩

end

/-- A `jsonify` that escapes what cannot stand between quotes. -/
def escapingJsonify (key value : String) : String :=
  "\"" ++ escape key ++ "\"" ++ (" : \"" ++ (escape value ++ "\""))

theorem escapingJsonify_members (key value : String) : Members (escapingJsonify key value) := by
  have hvalue : Value ("\"" ++ (escape value ++ "\"")) := by
    rw [← String.append_assoc]
    exact .string (stringBody_escape value)
  exact members_of_key " " " " rfl (stringBody_escape key) (by decide) (by decide) hvalue

/-- A rack or a server with one address. -/
def oneAddress (typeId : Nat) (typeName address : String) : WebElement where
  basic := {
    id := 1
    name := "asset-1"
    typeId := typeId
    typeName := typeName
    parentId := 0
    subtypeName := "N_A"
    status := "active"
    priority := 1
    assetTag := "" }
  ext := [("ip.1", address, false), ("model", "M 1", true), ("outlet.7.label", "A7", false)]
  groups := [(3, "group-3")]
  powers := []
  parents := []
  sorted := by
    rw [List.sortedLT_iff_pairwise]
    show ["ip.1", "model", "outlet.7.label"].Pairwise (· < ·)
    decide +kernel

def oneAssetEnv (tmp : WebElement) : AssetJsonEnv where
  getItem1 id := if id = 1 then some tmp else none
  idToNameExtName _ := ("asset-1", "Asset 1")
  freeUSize _ := 42
  realpowerNominal _ := some "1000.000000"
  rackOutletsAvailable _ := none
  unquote := some

/-- One pdu with eight outlets, of which two are used. -/
def onePdu : RackDb where
  isEpdu _ := false
  isPdu subtype := subtype = 3
  selectAssetsByContainer _ := some [(12, 3), (13, 5)]
  selectExtAttributes _ := some [("outlet.count", "8.00")]
  countOfLinkSrc _ := some 2

theorem getJsonAsset_object_rack :
    Object (getJsonAssetText escapingJsonify
      ((oneAssetEnv (oneAddress AssetType.rack "rack" "10.0.0.1")).withRack onePdu) 1) := by
  apply getJsonAsset_object escapingJsonify_members
  · intro tmp htmp
    obtain rfl := Option.some.inj htmp
    constructor
    · decide
    · decide +kernel
    · intro _ text htext
      obtain rfl := Option.some.inj htext
      decide
    · decide
    · intro _
      decide
    · decide +kernel
    · decide +kernel
  · exact getJsonAssetText_ne_empty rfl

/-! ## Control characters -/

section

variable {env : AssetJsonEnv} {tmp : WebElement}

theorem mem_leftExt {attr : String × String × Bool} (h : attr ∈ tmp.ext)
    (hkind : extKind attr.1 ∈ quotedKinds) : attr ∈ leftExt tmp := by
  unfold leftExt
  split
  · rw [List.mem_filter, decide_eq_true_eq]
    refine ⟨h, fun htype ↦ ?_⟩
    rw [htype] at hkind
    exact absurd hkind (by decide)
  · exact h

theorem mem_valuesText (start : String) {value : String} {values : List String}
    (hvalue : value ∈ values) {c : Char} (hc : c ∈ value.toList) :
    c ∈ (valuesText start values).toList := by
  have hquoted : c ∈ (quotedText value).toList := by simp [quotedText, hc]
  have hmem : c ∈ (countedText counter32 "" (values.map quotedText)).toList :=
    mem_countedText (List.mem_map.mpr ⟨value, hvalue, rfl⟩) hquoted
  unfold valuesText
  rw [if_neg (List.ne_nil_of_mem hvalue)]
  simp [hmem]

theorem mem_listsText {attr : String × String × Bool} (hattr : attr ∈ tmp.ext)
    (hkind : extKind attr.1 ∈ quotedKinds) {c : Char} (hc : c ∈ attr.2.1.toList) :
    c ∈ (listsText tmp).toList := by
  have hleft := mem_leftExt hattr hkind
  have hvalue : ∀ kind, extKind attr.1 = kind → attr.2.1 ∈ valuesOf (leftExt tmp) kind :=
    fun kind heq ↦ List.mem_map.mpr ⟨attr, List.mem_filter.mpr ⟨hleft, decide_eq_true heq⟩, rfl⟩
  unfold listsText
  simp only [String.toList_append, List.mem_append]
  simp only [quotedKinds, List.mem_cons, List.not_mem_nil, or_false] at hkind
  rcases hkind with heq | heq | heq | heq
  · exact Or.inl (mem_valuesText _ (hvalue .ip heq) hc)
  · exact Or.inr (Or.inl (mem_valuesText _ (hvalue .mac heq) hc))
  · exact Or.inr (Or.inr (Or.inl (mem_valuesText _ (hvalue .fqdn heq) hc)))
  · exact Or.inr (Or.inr (Or.inr (mem_valuesText _ (hvalue .hostname heq) hc)))

/-- A control character in an address, a domain name or a host name is printed as it is, and what
is printed then is no object. -/
theorem not_object_of_control {jsonify : String → String → String} {elemId : Nat}
    (htmp : env.getItem1 elemId = some tmp) {attr : String × String × Bool}
    (hattr : attr ∈ tmp.ext) (hkind : extKind attr.1 ∈ quotedKinds) {c : Char}
    (hc : c ∈ attr.2.1.toList) (hcontrol : ¬ Printed c)
    (htext : getJsonAssetText jsonify env elemId ≠ "") :
    ¬ Object (getJsonAssetText jsonify env elemId) := by
  intro hobject
  apply hcontrol
  apply hobject.value.printed
  unfold getJsonAssetText at htext ⊢
  cases hasset : assetText jsonify env elemId with
  | none =>
    rw [hasset] at htext
    exact absurd rfl htext
  | some text =>
    obtain ⟨tmp', assetExtName, groups, powers, subtype, computed, htmp', _, _, _, _, rfl⟩ :=
      assetText_eq hasset
    obtain rfl : tmp = tmp' := Option.some.inj (htmp.symm.trans htmp')
    have hmem := mem_listsText hattr hkind hc
    simp [hmem]

end

/-- The bell in the address is printed as it is. -/
theorem bell_in_address_is_printed :
    ¬ ∀ (jsonify : String → String → String) (env : AssetJsonEnv) (db : RackDb) (elemId : Nat),
      (∀ key value, Members (jsonify key value)) →
      getJsonAssetText jsonify (env.withRack db) elemId ≠ "" →
      Object (getJsonAssetText jsonify (env.withRack db) elemId) := by
  intro hall
  have htext : getJsonAssetText escapingJsonify ((oneAssetEnv
      (oneAddress AssetType.device "device" "10.0.0.1\x07")).withRack onePdu) 1 ≠ "" :=
    getJsonAssetText_ne_empty rfl
  have hobject := hall escapingJsonify _ onePdu 1 escapingJsonify_members htext
  have hbell : Char.ofNat 7 ∈ "10.0.0.1\x07".toList := by decide
  exact not_object_of_control rfl List.mem_cons_self (by decide +kernel) hbell (by decide) htext
    hobject

end FtyRest.Shared
