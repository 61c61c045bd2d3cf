import FtyRest.Lib.AssocList
import FtyRest.Shared.CsvJson
import FtyRest.Shared.UtilsJson
import Mathlib.Data.List.Induction

/-!
# Names with numbers

Which attributes the printer takes for the lists and for the outlets, and what it keeps of them.
-/

namespace FtyRest.Shared

open AssocList

/-! ## Matches -/

section

variable {item suffix name : String}

theorem isNumberedName_iff : isNumberedName item suffix name = true ↔
    ∃ number : List Char, number ≠ [] ∧ (∀ c ∈ number, c.isDigit = true) ∧
      name.toList = item.toList ++ number ++ suffix.toList := by
  unfold isNumberedName
  simp only [Bool.and_eq_true, Bool.not_eq_true', List.isEmpty_eq_false_iff, List.all_eq_true,
    decide_eq_true_eq, and_assoc]
  constructor
  · intro ⟨hne, hdigits, heq⟩
    exact ⟨_, hne, hdigits, heq⟩
  · intro ⟨number, hne, hdigits, heq⟩
    have hnumber : (name.toList.drop item.length).take
        (name.length - item.length - suffix.length) = number := by
      rw [← String.length_toList (s := name), heq, ← String.length_toList (s := item),
        ← String.length_toList (s := suffix), List.append_assoc, List.drop_left,
        List.length_append, List.length_append]
      rw [show item.toList.length + (number.length + suffix.toList.length) - item.toList.length -
        suffix.toList.length = number.length by omega, List.take_left]
    rw [hnumber]
    exact ⟨hne, hdigits, heq⟩

/-- A name that starts with another letter is not a match. -/
theorem not_isNumberedName {c d : Char} (hitem : item.toList.head? = some c)
    (hname : name.toList.head? = some d) (h : d ≠ c) : isNumberedName item suffix name = false := by
  rw [Bool.eq_false_iff]
  intro hmatch
  have ⟨number, _, _, heq⟩ := isNumberedName_iff.mp hmatch
  rw [heq, List.append_assoc, List.head?_append, hitem] at hname
  exact h (Option.some.inj hname).symm

theorem isNumberedName_countedTitle (i : Nat) :
    isNumberedName item "" (countedTitle item i) = true := by
  rw [isNumberedName_iff]
  refine ⟨(toString (i + 1)).toList, ?_, fun c hc ↦ isDigit_of_mem_toString hc, ?_⟩
  · intro h
    have hempty : toString (i + 1) = "" := String.toList_injective h
    rw [Nat.toString_eq_repr] at hempty
    exact Nat.repr_ne_empty hempty
  · rw [countedTitle, String.toList_append]
    simp

end

theorem head?_countedTitle {item : String} {c : Char} (h : item.toList.head? = some c) (i : Nat) :
    (countedTitle item i).toList.head? = some c := by
  rw [countedTitle, String.toList_append, List.head?_append, h]
  rfl

/-! ## Kinds -/

/-- The prefix and the suffix of the names of a kind. -/
def ExtKind.pattern : ExtKind → Option (String × String)
  | .outlet attr => some ("outlet.", attr.suffix)
  | .ip => some ("ip.", "")
  | .mac => some ("mac.", "")
  | .fqdn => some ("fqdn.", "")
  | .hostname => some ("hostname.", "")
  | .hidden | .ordinary => none

/-- The kinds that are printed as a list, with the item that the reader numbers. -/
def listKinds : List (ExtKind × String) :=
  [(.ip, "ip."), (.mac, "mac."), (.fqdn, "fqdn."), (.hostname, "hostname.")]

theorem isNumberedName_of_extKind {name : String} {kind : ExtKind} (h : extKind name = kind)
    {item suffix : String} (hpattern : kind.pattern = some (item, suffix)) :
    isNumberedName item suffix name = true := by
  subst h
  unfold extKind at hpattern
  split_ifs at hpattern with h₁ h₂ h₃ h₄ h₅ h₆ h₇ h₈ h₉
  all_goals
    cases hpattern
    try assumption

theorem ne_of_head? {name other : String} {c d : Char} (hother : other.toList.head? = some c)
    (hname : name.toList.head? = some d) (h : d ≠ c) : name ≠ other := by
  rintro rfl
  exact h (Option.some.inj (hname.symm.trans hother))

/-- A name that is not hidden, and not of an outlet, by its first letter. -/
theorem extKind_eq_of_head? {name : String} {c : Char} (h : name.toList.head? = some c)
    (hc : c ∉ ['n', 'l', 'o']) : extKind name =
      if isNumberedName "ip." "" name then .ip
      else if isNumberedName "mac." "" name then .mac
      else if isNumberedName "fqdn." "" name then .fqdn
      else if isNumberedName "hostname." "" name then .hostname
      else .ordinary := by
  simp only [List.mem_cons, List.not_mem_nil, or_false, not_or] at hc
  have ⟨hn, hl, ho⟩ := hc
  unfold extKind
  rw [if_neg (ne_of_head? (c := 'n') rfl h hn), if_neg (ne_of_head? (c := 'l') rfl h hl),
    not_isNumberedName (c := 'o') rfl h ho, not_isNumberedName (c := 'o') rfl h ho,
    not_isNumberedName (c := 'o') rfl h ho]
  rfl

/-- No pattern and no hidden name starts with another letter than these. -/
theorem extKind_of_head? {name : String} {c : Char} (h : name.toList.head? = some c)
    (hc : c ∉ ['n', 'l', 'o', 'i', 'm', 'f', 'h']) : extKind name = .ordinary := by
  simp only [List.mem_cons, List.not_mem_nil, or_false, not_or] at hc
  have ⟨hn, hl, ho, hi, hm, hf, hh⟩ := hc
  rw [extKind_eq_of_head? h (by simp [hn, hl, ho]), not_isNumberedName (c := 'i') rfl h hi,
    not_isNumberedName (c := 'm') rfl h hm, not_isNumberedName (c := 'f') rfl h hf,
    not_isNumberedName (c := 'h') rfl h hh]
  rfl

/-- What the reader numbers is of the kind that the printer lists. -/
theorem extKind_countedTitle {kind : ExtKind} {item : String} (h : (kind, item) ∈ listKinds)
    (i : Nat) : extKind (countedTitle item i) = kind := by
  have hmatch : isNumberedName item "" (countedTitle item i) = true :=
    isNumberedName_countedTitle i
  simp only [listKinds, List.mem_cons, Prod.mk.injEq, List.not_mem_nil, or_false] at h
  rcases h with ⟨rfl, rfl⟩ | ⟨rfl, rfl⟩ | ⟨rfl, rfl⟩ | ⟨rfl, rfl⟩
  · have h : (countedTitle "ip." i).toList.head? = some 'i' := head?_countedTitle rfl i
    rw [extKind_eq_of_head? h (by decide), hmatch]
    rfl
  · have h : (countedTitle "mac." i).toList.head? = some 'm' := head?_countedTitle rfl i
    rw [extKind_eq_of_head? h (by decide), not_isNumberedName (c := 'i') rfl h (by decide),
      hmatch]
    rfl
  · have h : (countedTitle "fqdn." i).toList.head? = some 'f' := head?_countedTitle rfl i
    rw [extKind_eq_of_head? h (by decide), not_isNumberedName (c := 'i') rfl h (by decide),
      not_isNumberedName (c := 'm') rfl h (by decide), hmatch]
    rfl
  · have h : (countedTitle "hostname." i).toList.head? = some 'h' := head?_countedTitle rfl i
    rw [extKind_eq_of_head? h (by decide), not_isNumberedName (c := 'i') rfl h (by decide),
      not_isNumberedName (c := 'm') rfl h (by decide),
      not_isNumberedName (c := 'f') rfl h (by decide), hmatch]
    rfl

/-! ## Outlets -/

/-- The name of an attribute of an outlet. -/
def outletTitle (oNumber : String) (attr : OutletAttr) : String :=
  "outlet." ++ oNumber ++ "." ++ attr.name

theorem ne_point_of_isDigit {c : Char} (h : c.isDigit = true) : decide (c ≠ '.') = true := by
  rw [decide_eq_true_eq]
  rintro rfl
  exact absurd h (by decide)

theorem getOutletNumber_eq {number : List Char} (h : ∀ c ∈ number, c.isDigit = true)
    {name : String} {rest : List Char} (hname : name.toList = "outlet.".toList ++ number ++ '.' :: rest) :
    getOutletNumber name = .ofList number := by
  have hdrop : (name.toList.dropWhile (· ≠ '.')).drop 1 = number ++ '.' :: rest := by
    rw [hname]
    rfl
  have hnumber : ∀ c ∈ number, (decide (c ≠ '.')) = true := fun c hc ↦ ne_point_of_isDigit (h c hc)
  rw [getOutletNumber, hdrop, List.takeWhile_append_of_pos hnumber]
  simp

theorem outletTitle_getOutletNumber {name : String} {attr : OutletAttr}
    (h : extKind name = .outlet attr) : outletTitle (getOutletNumber name) attr = name := by
  have ⟨number, _, hdigits, heq⟩ :=
    isNumberedName_iff.mp (isNumberedName_of_extKind h rfl)
  -- the suffix starts with the point that ends the number
  have hsuffix : attr.suffix.toList = '.' :: attr.name.toList := by
    rw [OutletAttr.suffix, String.toList_append]
    rfl
  rw [hsuffix] at heq
  apply String.toList_injective
  rw [getOutletNumber_eq hdigits heq, heq, outletTitle]
  simp

namespace Outlet

theorem get_set (o : Outlet) (attr attr' : OutletAttr) (value : String × Bool) :
    (o.set attr value).get attr' = if attr' = attr then value else o.get attr' := by
  cases attr <;> cases attr' <;> rfl

theorem get_empty (attr : OutletAttr) : Outlet.get {} attr = ("", false) := by
  cases attr <;> rfl

end Outlet

namespace OutletMap

variable {outlets : OutletMap}

/-- What is set for an attribute of an outlet, if anything. -/
def value (outlets : OutletMap) (oNumber : String) (attr : OutletAttr) : String × Bool :=
  ((outlets.lookup oNumber).map (·.get attr)).getD ("", false)

theorem value_set (oNumber oNumber' : String) (attr attr' : OutletAttr) (v : String × Bool) :
    (outlets.set oNumber attr v).value oNumber' attr' =
      if oNumber' = oNumber ∧ attr' = attr then v else outlets.value oNumber' attr' := by
  unfold OutletMap.set value
  split
  · rename_i hsome
    have hmap : (outlets.map fun p ↦ (p.1, if p.1 = oNumber then p.2.set attr v else p.2)).lookup
        oNumber' = (outlets.lookup oNumber').map fun o ↦
          if oNumber' = oNumber then o.set attr v else o :=
      lookup_map_value (f := fun n o ↦ if n = oNumber then Outlet.set o attr v else o)
    rw [hmap]
    -- an outlet that is there is changed in its place, and the others are not
    by_cases hn : oNumber' = oNumber
    · subst hn
      obtain ⟨o, ho⟩ := Option.isSome_iff_exists.mp hsome
      rw [ho]
      simp [Outlet.get_set]
    · simp only [hn, false_and, if_false]
      cases outlets.lookup oNumber' <;> simp
  · rename_i hnone
    rw [Option.not_isSome_iff_eq_none] at hnone
    rw [lookup_orderedInsert hnone]
    by_cases hn : oNumber' = oNumber
    · subst hn
      simp [Outlet.get_set, Outlet.get_empty, hnone]
    · simp [hn]

theorem nodup_set (h : (outlets.map Prod.fst).Nodup) (oNumber : String) (attr : OutletAttr)
    (v : String × Bool) : ((outlets.set oNumber attr v).map Prod.fst).Nodup := by
  unfold OutletMap.set
  split
  · rw [List.map_map]
    exact h
  · rename_i hnone
    rw [Option.not_isSome_iff_eq_none] at hnone
    have hperm := (List.perm_orderedInsert (fun a b : String × Outlet ↦ a.1 ≤ b.1)
      (oNumber, Outlet.set {} attr v) outlets).map Prod.fst
    rw [hperm.nodup_iff, List.map_cons, List.nodup_cons]
    refine ⟨fun hmem ↦ ?_, h⟩
    have ⟨p, hp, hfst⟩ := List.mem_map.mp hmem
    have hne := List.lookup_eq_none_iff.mp hnone p hp
    rw [hfst, bne_self_eq_false] at hne
    cases hne

end OutletMap

section

variable {ext : List (String × String × Bool)}

theorem outletsOf_concat {name : String} {v : String × Bool} :
    outletsOf (ext ++ [(name, v)]) = match extKind name with
      | .outlet attr => (outletsOf ext).set (getOutletNumber name) attr v
      | _ => outletsOf ext := by
  rw [outletsOf, List.foldl_append]
  rfl

theorem nodup_outletsOf : ((outletsOf ext).map Prod.fst).Nodup := by
  induction ext using List.reverseRecOn with
  | nil => exact List.nodup_nil
  | append_singleton ext attr ih =>
    rw [outletsOf_concat]
    split
    · exact OutletMap.nodup_set ih _ _ _
    · exact ih

/-- What is set comes from an attribute of this name. -/
theorem mem_of_value_outletsOf {oNumber : String} {attr : OutletAttr}
    (h : ((outletsOf ext).value oNumber attr).1 ≠ "") :
    ∃ name, (name, (outletsOf ext).value oNumber attr) ∈ ext ∧ extKind name = .outlet attr ∧
      getOutletNumber name = oNumber := by
  induction ext using List.reverseRecOn with
  | nil => exact absurd rfl h
  | append_singleton ext p ih =>
    obtain ⟨name, v⟩ := p
    rw [outletsOf_concat] at h ⊢
    cases hkind : extKind name with
    | outlet attr' =>
      rw [hkind] at h
      simp only [OutletMap.value_set] at h ⊢
      -- the last attribute of the list wins, so it is looked at first
      by_cases heq : oNumber = getOutletNumber name ∧ attr = attr'
      · obtain ⟨rfl, rfl⟩ := heq
        refine ⟨name, ?_, hkind, rfl⟩
        rw [if_pos ⟨rfl, rfl⟩]
        exact List.mem_append_right _ List.mem_cons_self
      · rw [if_neg heq] at h ⊢
        have ⟨name', hmem, hname'⟩ := ih h
        exact ⟨name', List.mem_append_left _ hmem, hname'⟩
    | _ =>
      rw [hkind] at h
      have ⟨name', hmem, hname'⟩ := ih h
      exact ⟨name', List.mem_append_left _ hmem, hname'⟩

/-- The attribute of this name is what is set. -/
theorem value_outletsOf_of_mem (hnd : (ext.map Prod.fst).Nodup) {name : String}
    {v : String × Bool} {attr : OutletAttr} (hmem : (name, v) ∈ ext)
    (hkind : extKind name = .outlet attr) :
    (outletsOf ext).value (getOutletNumber name) attr = v := by
  induction ext using List.reverseRecOn with
  | nil => exact absurd hmem List.not_mem_nil
  | append_singleton ext p ih =>
    obtain ⟨name', v'⟩ := p
    rw [List.map_append, List.nodup_append] at hnd
    rw [outletsOf_concat]
    rcases List.mem_append.mp hmem with hmem | hmem
    · have hold := ih hnd.1 hmem
      split
      · rename_i attr' hkind'
        -- a later attribute of the same outlet would have the same name
        rw [OutletMap.value_set, if_neg, hold]
        intro ⟨hnumber, hattr⟩
        have hname : name = name' := by
          rw [← outletTitle_getOutletNumber hkind, ← outletTitle_getOutletNumber hkind', hnumber,
            hattr]
        exact hnd.2.2 name (List.mem_map.mpr ⟨_, hmem, rfl⟩) name' List.mem_cons_self hname
      · exact hold
    · obtain ⟨rfl, rfl⟩ := Prod.mk.inj (List.mem_singleton.mp hmem)
      rw [hkind]
      simp only [OutletMap.value_set, and_self, if_true]

/-- What an outlet has: an empty attribute is left out. -/
def outletAttrs (o : Outlet) : List OutletAttr :=
  [OutletAttr.label, .group, .type].filter fun attr ↦ (o.get attr).1 ≠ ""

def outletColumns (outlets : OutletMap) : List Column :=
  outlets.flatMap fun (n, o) ↦ (outletAttrs o).map fun attr ↦ (outletTitle n attr, (o.get attr).1)

theorem mem_outletAttrs {o : Outlet} {attr : OutletAttr} :
    attr ∈ outletAttrs o ↔ (o.get attr).1 ≠ "" := by
  rw [outletAttrs, List.mem_filter, decide_eq_true_eq]
  cases attr <;> simp

/-- An attribute of an outlet has the name that it is read under. -/
theorem of_mem_outletsOf {oNumber : String} {o : Outlet} (ho : (oNumber, o) ∈ outletsOf ext)
    {attr : OutletAttr} (h : (o.get attr).1 ≠ "") :
    (outletTitle oNumber attr, o.get attr) ∈ ext ∧
      extKind (outletTitle oNumber attr) = .outlet attr ∧
      getOutletNumber (outletTitle oNumber attr) = oNumber := by
  have hvalue : (outletsOf ext).value oNumber attr = o.get attr := by
    rw [OutletMap.value, lookup_of_mem nodup_outletsOf ho]
    rfl
  rw [← hvalue] at h
  have ⟨name, hmem, hkind, hnumber⟩ := mem_of_value_outletsOf h
  have hname := outletTitle_getOutletNumber hkind
  rw [hnumber] at hname
  rw [hname, ← hvalue]
  exact ⟨hmem, hkind, hnumber⟩

theorem mem_outletColumns (hnd : (ext.map Prod.fst).Nodup) {column : Column} :
    column ∈ outletColumns (outletsOf ext) ↔
      column.2 ≠ "" ∧ ∃ attr readOnly, (column.1, column.2, readOnly) ∈ ext ∧
        extKind column.1 = .outlet attr := by
  rw [outletColumns, List.mem_flatMap]
  constructor
  · intro ⟨(oNumber, o), ho, hcolumn⟩
    have ⟨attr, hattr, heq⟩ := List.mem_map.mp hcolumn
    subst heq
    have hne := mem_outletAttrs.mp hattr
    have ⟨hmem, hkind, _⟩ := of_mem_outletsOf ho hne
    exact ⟨hne, attr, _, hmem, hkind⟩
  · intro ⟨hne, attr, readOnly, hmem, hkind⟩
    -- each attribute has a place of its own, as the names differ
    have hvalue := value_outletsOf_of_mem hnd hmem hkind
    cases hlookup : (outletsOf ext).lookup (getOutletNumber column.1) with
    | none =>
      rw [OutletMap.value, hlookup] at hvalue
      exact absurd (congrArg Prod.fst hvalue).symm hne
    | some o =>
      rw [OutletMap.value, hlookup] at hvalue
      have hget : o.get attr = (column.2, readOnly) := hvalue
      refine ⟨_, mem_of_lookup hlookup, List.mem_map.mpr ⟨attr, ?_, ?_⟩⟩
      · rw [mem_outletAttrs, hget]
        exact hne
      · rw [hget, outletTitle_getOutletNumber hkind]

theorem nodup_outletColumns : ((outletColumns (outletsOf ext)).map Prod.fst).Nodup := by
  rw [outletColumns, List.map_flatMap, List.nodup_flatMap]
  constructor
  · intro (oNumber, o) ho
    rw [List.map_map]
    apply List.Nodup.map_on
    · intro attr hattr attr' hattr' heq
      have ⟨_, hkind, _⟩ := of_mem_outletsOf ho (mem_outletAttrs.mp hattr)
      have ⟨_, hkind', _⟩ := of_mem_outletsOf ho (mem_outletAttrs.mp hattr')
      have heq : outletTitle oNumber attr = outletTitle oNumber attr' := heq
      rw [heq, hkind'] at hkind
      exact (ExtKind.outlet.inj hkind).symm
    · exact List.Nodup.filter _ (by decide)
  · -- two outlets have two numbers, which their titles tell
    apply (List.pairwise_map.mp nodup_outletsOf).imp_of_mem
    intro (oNumber, o) (oNumber', o') ho ho' hne title htitle htitle'
    have ⟨attr, hattr, heq⟩ : ∃ attr ∈ outletAttrs o, outletTitle oNumber attr = title := by
      simpa using htitle
    have ⟨attr', hattr', heq'⟩ : ∃ attr ∈ outletAttrs o', outletTitle oNumber' attr = title := by
      simpa using htitle'
    have ⟨_, _, hnumber⟩ := of_mem_outletsOf ho (mem_outletAttrs.mp hattr)
    have ⟨_, _, hnumber'⟩ := of_mem_outletsOf ho' (mem_outletAttrs.mp hattr')
    have heq : outletTitle oNumber attr = outletTitle oNumber' attr' := heq.trans heq'.symm
    rw [heq, hnumber'] at hnumber
    exact hne hnumber.symm

end

end FtyRest.Shared
