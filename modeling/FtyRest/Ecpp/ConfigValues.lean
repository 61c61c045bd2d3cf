import FtyRest.Ecpp.Config

/-!
# Which values survive

A value that is stored into an item and loaded from it again.
-/

namespace FtyRest.Ecpp

open Checks Stoi

mutual

/-- The values of the configuration: integers of 32 bits, and no empty containers. -/
def Json.Valid : Json → Prop
  | .null => True
  | .str _ => True
  | .int value => minInt ≤ value ∧ value ≤ maxInt
  | .array items => items ≠ [] ∧ ValidItems items
  | .object members => members ≠ [] ∧ ValidMembers members

def ValidItems : List Json → Prop
  | [] => True
  | child :: items => child.Valid ∧ ValidItems items

def ValidMembers : List (String × Json) → Prop
  | [] => True
  | (_, child) :: members => child.Valid ∧ ValidMembers members

end

/-- There is no character in the text that ends it in C. -/
def NoNul (text : String) : Prop := '\x00' ∉ text.toList

/-- The text does not begin with a number, or with one of 32 bits that something follows. -/
def NotNumber (text : String) : Prop :=
  stoi text = .invalidArgument ∨ ∃ n pos, stoi text = .ok n pos ∧ pos ≠ text.length

/-- The names are `0`, `1`, `2` and so on, in this order. -/
def Indices (names : List String) : Prop :=
  names = (List.range names.length).map toString

mutual

/-- The values that survive. -/
def Json.Storable : Json → Prop
  | .null => True
  | .str text => NoNul text ∧ NotNumber text
  | .int _ => True
  | .array items => StorableItems items
  | .object members => ¬ Indices (members.map Prod.fst) ∧ StorableMembers members

def StorableItems : List Json → Prop
  | [] => True
  | child :: items => child.Storable ∧ StorableItems items

def StorableMembers : List (String × Json) → Prop
  | [] => True
  | (name, child) :: members => NoNul name ∧ child.Storable ∧ StorableMembers members

end

theorem cStr_of_noNul {text : String} (h : NoNul text) : cStr text = text := by
  unfold cStr
  rw [List.takeWhile_eq_self_iff.mpr, String.ofList_toList]
  intro c hc
  rw [decide_eq_true_eq]
  intro heq
  exact h (heq ▸ hc)

theorem noNul_cStr (text : String) : NoNul (cStr text) := by
  unfold NoNul cStr
  rw [String.toList_ofList]
  intro h
  have hne := List.mem_takeWhile_imp h
  exact absurd hne (by decide)

theorem cStr_eq_iff {text : String} : cStr text = text ↔ NoNul text := by
  constructor
  · intro h
    rw [← h]
    exact noNul_cStr text
  · exact cStr_of_noNul

theorem store_name {name : String} {v : Json} : (store name v).name = name := by
  cases v <;> rfl

theorem storeMembers_names {members : List (String × Json)} :
    (storeMembers members).map ZConfig.name = members.map fun m ↦ cStr m.1 := by
  induction members with
  | nil => rfl
  | cons m members ih =>
    show (store (cStr m.1) m.2).name :: (storeMembers members).map ZConfig.name = _
    rw [store_name, ih]
    rfl

theorem isArrayFrom_iff {cpt : Nat} {children : List ZConfig} :
    isArrayFrom cpt children = true ↔
      children.map ZConfig.name = (List.range' cpt children.length).map toString := by
  induction children generalizing cpt with
  | nil => exact iff_of_true rfl rfl
  | cons child children ih =>
    rw [isArrayFrom, Bool.and_eq_true, decide_eq_true_eq, ih, List.map_cons, List.length_cons,
      List.range'_succ, List.map_cons, List.cons.injEq, eq_comm]

theorem isArrayFrom_storeItems {cpt : Nat} {items : List Json} :
    isArrayFrom cpt (storeItems cpt items) = true := by
  induction items generalizing cpt with
  | nil => rfl
  | cons child items ih =>
    show (decide (toString cpt = (store (toString cpt) child).name) &&
      isArrayFrom (cpt + 1) (storeItems (cpt + 1) items)) = true
    rw [store_name, ih, decide_eq_true rfl]
    rfl

/-- An object is taken for an array when its names are the positions. -/
theorem isArrayFrom_storeMembers {members : List (String × Json)} :
    isArrayFrom 0 (storeMembers members) = true ↔ Indices (members.map fun m ↦ cStr m.1) := by
  have hlength : (storeMembers members).length = (members.map fun m ↦ cStr m.1).length := by
    rw [← storeMembers_names, List.length_map]
  rw [isArrayFrom_iff, storeMembers_names, hlength, Indices, List.range_eq_range']

theorem loadValue_str_iff {text : String} :
    loadValue (some (cStr text)) = .ok (.str text) ↔ (Json.str text).Storable := by
  show _ ↔ NoNul text ∧ NotNumber text
  by_cases hnul : NoNul text
  · rw [cStr_of_noNul hnul]
    unfold loadValue NotNumber
    dsimp only
    cases hstoi : stoi text with
    | ok n pos =>
      by_cases hpos : pos = text.length
      · simp [hpos]
      · simp [hpos, hnul]
    | invalidArgument => simp [hnul]
    | outOfRange => simp
  · have hne : cStr text ≠ text := fun h ↦ hnul (cStr_eq_iff.mp h)
    simp only [hnul, false_and, iff_false]
    unfold loadValue
    dsimp only
    intro h
    -- the text that is loaded is the one that ends at the first such character
    cases hstoi : stoi (cStr text) with
    | ok n pos =>
      rw [hstoi] at h
      by_cases hpos : pos = (cStr text).length
      · simp [hpos] at h
      · simp only [ne_eq, hpos, not_false_eq_true, if_true, Except.ok.injEq, Json.str.injEq] at h
        exact hne h
    | invalidArgument =>
      rw [hstoi] at h
      exact hne (Json.str.inj (Except.ok.inj h))
    | outOfRange =>
      rw [hstoi] at h
      cases h

/-- Induction on a document, with one property for items and one for members. -/
theorem Json.induct {P : Json → Prop} {I : List Json → Prop} {M : List (String × Json) → Prop}
    (hnull : P .null) (hstr : ∀ text, P (.str text)) (hint : ∀ value, P (.int value))
    (harray : ∀ items, I items → P (.array items))
    (hobject : ∀ members, M members → P (.object members))
    (hnil : I []) (hcons : ∀ child items, P child → I items → I (child :: items))
    (hnone : M []) (hmore : ∀ name child members, P child → M members →
      M ((name, child) :: members)) (v : Json) : P v :=
  @Json.rec P I M (fun m ↦ P m.2) hnull hstr hint harray hobject hnil hcons hnone
    (fun m members hm hmembers ↦ hmore m.1 m.2 members hm hmembers) (fun _ _ h ↦ h) v

theorem storeItems_isEmpty {cpt : Nat} {items : List Json} (h : items ≠ []) :
    (storeItems cpt items).isEmpty = false := by
  cases items with
  | nil => exact absurd rfl h
  | cons child items => rfl

theorem storeMembers_isEmpty {members : List (String × Json)} (h : members ≠ []) :
    (storeMembers members).isEmpty = false := by
  cases members with
  | nil => exact absurd rfl h
  | cons m members => rfl

/-- An item without children is loaded from its value. -/
theorem load_leaf {name : String} {value : Option String} :
    load (.node name value []) = loadValue value := by
  rw [load, List.isEmpty_nil, if_pos rfl]

theorem load_array {name : String} {items : List Json} (h : items ≠ []) :
    load (store name (.array items)) = (loadItems (storeItems 0 items)).map .array := by
  show load (.node name (some "") (storeItems 0 items)) = _
  rw [load, storeItems_isEmpty h, isArrayFrom_storeItems]
  cases loadItems (storeItems 0 items) <;> rfl

theorem load_object {name : String} {members : List (String × Json)} (h : members ≠ [])
    (hnames : ¬ Indices (members.map fun m ↦ cStr m.1)) :
    load (store name (.object members)) = (loadMembers (storeMembers members)).map .object := by
  show load (.node name (some "") (storeMembers members)) = _
  rw [load, storeMembers_isEmpty h, Bool.eq_false_iff.mpr fun h ↦ hnames
    (isArrayFrom_storeMembers.mp h)]
  cases loadMembers (storeMembers members) <;> rfl

/-- An object whose names are the positions becomes an array. -/
theorem load_object_ne {name : String} {members : List (String × Json)} (h : members ≠ [])
    (hnames : Indices (members.map fun m ↦ cStr m.1)) {members' : List (String × Json)} :
    load (store name (.object members)) ≠ .ok (.object members') := by
  show load (.node name (some "") (storeMembers members)) ≠ _
  rw [load, storeMembers_isEmpty h, isArrayFrom_storeMembers.mpr hnames]
  cases loadItems (storeMembers members) with
  | error e => exact fun heq ↦ nomatch heq
  | ok items => exact fun heq ↦ nomatch heq

theorem storableMembers_noNul {members : List (String × Json)} (h : StorableMembers members) :
    (members.map fun m ↦ cStr m.1) = members.map Prod.fst := by
  induction members with
  | nil => rfl
  | cons m members ih =>
    obtain ⟨hname, _, hrest⟩ := h
    rw [List.map_cons, List.map_cons, ih hrest, cStr_of_noNul hname]

/-- A value is loaded as it was stored exactly when it is one of those that survive. -/
theorem load_store_iff (v : Json) : ∀ name, v.Valid →
    (load (store name v) = .ok v ↔ v.Storable) := by
  -- by induction on the value, with the items of its arrays and the members of its objects
  apply Json.induct
    (P := fun v ↦ ∀ name, v.Valid → (load (store name v) = .ok v ↔ v.Storable))
    (I := fun items ↦ ∀ cpt, ValidItems items →
      (loadItems (storeItems cpt items) = .ok items ↔ StorableItems items))
    (M := fun members ↦ ValidMembers members →
      (loadMembers (storeMembers members) = .ok members ↔ StorableMembers members))
  case hnull =>
    intro name _
    exact iff_of_true rfl trivial
  case hstr =>
    intro text name _
    rw [store, load_leaf]
    exact loadValue_str_iff
  case hint =>
    rintro value name ⟨hmin, hmax⟩
    refine iff_of_true ?_ trivial
    rw [store, load_leaf]
    simp only [loadValue, stoi_toString hmin hmax, ne_eq, not_true_eq_false, if_false]
  case harray =>
    rintro items ih name ⟨hne, hvalid⟩
    show _ ↔ StorableItems items
    rw [← ih 0 hvalid, load_array hne]
    simp
  case hobject =>
    rintro members ih name ⟨hne, hvalid⟩
    show _ ↔ ¬ Indices (members.map Prod.fst) ∧ StorableMembers members
    rw [← ih hvalid]
    by_cases hnames : Indices (members.map fun m ↦ cStr m.1)
    · -- an object with the names of an array is loaded as one
      refine iff_of_false (load_object_ne hne hnames) ?_
      rintro ⟨hnot, hload⟩
      rw [storableMembers_noNul ((ih hvalid).mp hload)] at hnames
      exact hnot hnames
    · rw [load_object hne hnames]
      simp only [map_eq_ok, Json.object.injEq, exists_eq_right]
      constructor
      · intro hload
        rw [storableMembers_noNul ((ih hvalid).mp hload)] at hnames
        exact ⟨hnames, hload⟩
      · rintro ⟨_, hload⟩
        exact hload
  case hnil =>
    intro cpt _
    exact iff_of_true rfl trivial
  case hcons =>
    rintro child items hchild hitems cpt ⟨hvalid, hvalids⟩
    show _ ↔ child.Storable ∧ StorableItems items
    rw [← hchild (toString cpt) hvalid, ← hitems (cpt + 1) hvalids]
    show (do
      let first ← load (store (toString cpt) child)
      let rest ← loadItems (storeItems (cpt + 1) items)
      return first :: rest) = .ok (child :: items) ↔ _
    simp only [bind_eq_ok, pure_eq_ok, List.cons.injEq]
    constructor
    · rintro ⟨first, hfirst, rest, hrest, heq, heqs⟩
      subst heq heqs
      exact ⟨hfirst, hrest⟩
    · rintro ⟨hfirst, hrest⟩
      exact ⟨child, hfirst, items, hrest, rfl, rfl⟩
  case hnone =>
    intro _
    exact iff_of_true rfl trivial
  case hmore =>
    rintro name child members hchild hmembers ⟨hvalid, hvalids⟩
    show _ ↔ NoNul name ∧ child.Storable ∧ StorableMembers members
    rw [← hchild (cStr name) hvalid, ← hmembers hvalids, ← cStr_eq_iff]
    show (do
      let first ← load (store (cStr name) child)
      let rest ← loadMembers (storeMembers members)
      return ((store (cStr name) child).name, first) :: rest) = .ok ((name, child) :: members) ↔ _
    simp only [bind_eq_ok, pure_eq_ok, List.cons.injEq, Prod.mk.injEq, store_name]
    constructor
    · rintro ⟨first, hfirst, rest, hrest, ⟨hname, heq⟩, heqs⟩
      subst heq heqs
      exact ⟨hname, hfirst, hrest⟩
    · rintro ⟨hname, hfirst, hrest⟩
      exact ⟨child, hfirst, members, hrest, ⟨hname, rfl⟩, rfl⟩

/-! ## Through the files -/

theorem ZConfig.itemAt_replaceAt {pos : List Nat} {root child item : ZConfig}
    (h : root.itemAt pos = some child) : (root.replaceAt pos item).itemAt pos = some item := by
  induction pos generalizing root with
  | nil => rfl
  | cons i pos ih =>
    rw [ZConfig.itemAt] at h
    cases hchild : root.children[i]? with
    | none =>
      rw [hchild] at h
      cases h
    | some next =>
      rw [hchild] at h
      have hi := (List.getElem?_eq_some_iff.mp hchild).1
      have hset : (ZConfig.node root.name root.value
          (root.children.set i (next.replaceAt pos item))).children[i]? =
            some (next.replaceAt pos item) := List.getElem?_set_self hi
      rw [ZConfig.replaceAt, hchild, ZConfig.itemAt, hset]
      exact ih h

section

variable {φ : Type}

/-- What is known of the library: a file that is saved is read back as it was, and no other file
is touched; a save that fails touches nothing; a path leads to where it led when the item there is
replaced by one of the same name. -/
structure ZConfigLaws (api : ZConfigApi φ) : Prop where
  saved : ∀ fs file root, (api.save fs file root).2 = 0 →
    api.load (api.save fs file root).1 = Function.update (api.load fs) file (some root)
  failed : ∀ fs file root, (api.save fs file root).2 ≠ 0 →
    api.load (api.save fs file root).1 = api.load fs
  located : ∀ root path pos child, api.locate root path = some pos →
    root.itemAt pos = some child → ∀ item, item.name = child.name →
      api.locate (root.replaceAt pos item) path = some pos

variable {api : ZConfigApi φ} {configMap : ConfigMap} {fs fs' : φ} {key : String}
  {entry : ConfigEntry} {root child : ZConfig} {pos : List Nat} {value : Json}

theorem locateItem_eq_some {treepath : String}
    (h : locateItem api root treepath = some (pos, child)) :
    api.locate root treepath = some pos ∧ root.itemAt pos = some child := by
  unfold locateItem at h
  cases hlocate : api.locate root treepath with
  | none =>
    rw [hlocate] at h
    cases h
  | some pos' =>
    rw [hlocate] at h
    obtain ⟨child', hchild, heq⟩ := Option.map_eq_some_iff.mp h
    obtain ⟨rfl, rfl⟩ := Prod.mk.inj heq
    exact ⟨rfl, hchild⟩

theorem locateItem_of {treepath : String} (hlocate : api.locate root treepath = some pos)
    (hchild : root.itemAt pos = some child) :
    locateItem api root treepath = some (pos, child) := by
  unfold locateItem
  rw [hlocate]
  dsimp only
  rw [hchild]
  rfl

/-- An item that is replaced by one of the same name is located where it was. -/
theorem locateItem_replaceAt (hapi : ZConfigLaws api) {treepath : String} {item : ZConfig}
    (hlocate : api.locate root treepath = some pos) (hchild : root.itemAt pos = some child)
    (hname : item.name = child.name) :
    locateItem api (root.replaceAt pos item) treepath = some (pos, item) :=
  locateItem_of (hapi.located root treepath pos child hlocate hchild item hname)
    (ZConfig.itemAt_replaceAt hchild)

theorem storedTree_of_item {treepath : String}
    (h : locateItem api root treepath = some (pos, child)) :
    storedTree api root treepath value = some (root.replaceAt pos (store child.name value)) := by
  unfold storedTree
  rw [h]
  dsimp only [Option.isSome_some]
  rw [if_pos rfl, h]
  rfl

/-- A value is read back after it is saved exactly when it is one of those that survive. -/
theorem config_survives_iff (hapi : ZConfigLaws api)
    (hentry : configMap.lookup key = some entry)
    (hload : api.load fs entry.filepath = some root)
    (hitem : locateItem api root entry.treepath = some (pos, child)) (hvalid : value.Valid)
    (hsave : saveConfig api configMap fs key value = (fs', .ok ())) :
    loadConfig api configMap fs' key = .ok value ↔ value.Storable := by
  obtain ⟨hlocate, hchild⟩ := locateItem_eq_some hitem
  have hfs : api.load fs' entry.filepath =
      some (root.replaceAt pos (store child.name value)) := by
    unfold saveConfig at hsave
    rw [hentry] at hsave
    dsimp only at hsave
    rw [hload] at hsave
    dsimp only at hsave
    rw [storedTree_of_item hitem] at hsave
    dsimp only at hsave
    by_cases hr : (api.save fs entry.filepath
        (root.replaceAt pos (store child.name value))).2 ≠ 0
    · rw [if_pos hr] at hsave
      cases (Prod.mk.inj hsave).2
    · rw [if_neg hr] at hsave
      rw [← (Prod.mk.inj hsave).1, hapi.saved _ _ _ (not_not.mp hr), Function.update_self]
  have hitem' : locateItem api (root.replaceAt pos (store child.name value)) entry.treepath =
      some (pos, store child.name value) :=
    locateItem_replaceAt hapi hlocate hchild store_name
  unfold loadConfig
  rw [hentry]
  dsimp only
  rw [hfs]
  dsimp only
  rw [hitem']
  exact load_store_iff value child.name hvalid

end

/-! ## Files that can always be written -/

/-- The names that a path consists of. -/
def segments (path : String) : List (List Char) := path.toList.splitOn '/'

def ZConfig.childNames (root : ZConfig) : List String := root.children.map ZConfig.name

/-- The position that a path of names leads to. -/
def positionOf : ZConfig → List String → Option (List Nat)
  | _, [] => some []
  | root, name :: path =>
      match root.childNames.idxOf? name with
      | none => none
      | some i =>
          match root.children[i]? with
          | none => none
          | some child => (positionOf child path).map fun pos ↦ i :: pos

/-- The items of a path are entered where there are none. -/
def putNames : ZConfig → List String → ZConfig
  | root, [] => root
  | root, name :: path =>
      match root.childNames.idxOf? name with
      | none =>
          .node root.name root.value (root.children ++ [putNames (.node name (some "") []) path])
      | some i =>
          match root.children[i]? with
          | none => root
          | some child => .node root.name root.value (root.children.set i (putNames child path))

def plainFiles : ZConfigApi (String → Option ZConfig) where
  load fs file := fs file
  save fs file root := (Function.update fs file (some root), 0)
  locate root path := positionOf root ((segments path).map String.ofList)
  put root path := putNames root ((segments path).map String.ofList)

theorem replaceAt_name {pos : List Nat} {root child item : ZConfig}
    (h : root.itemAt pos = some child) (hname : item.name = child.name) :
    (root.replaceAt pos item).name = root.name := by
  cases pos with
  | nil =>
    obtain rfl := Option.some.inj h
    exact hname
  | cons i pos =>
    rw [ZConfig.replaceAt]
    split
    · rfl
    · rfl

theorem positionOf_cons {root : ZConfig} {name : String} {path : List String} {pos : List Nat} :
    positionOf root (name :: path) = some pos ↔
      ∃ i child pos', root.childNames.idxOf? name = some i ∧ root.children[i]? = some child ∧
        positionOf child path = some pos' ∧ pos = i :: pos' := by
  rw [positionOf]
  constructor
  · intro h
    cases hi : root.childNames.idxOf? name with
    | none =>
      rw [hi] at h
      cases h
    | some i =>
      rw [hi] at h
      dsimp only at h
      cases hchild : root.children[i]? with
      | none =>
        rw [hchild] at h
        cases h
      | some child =>
        rw [hchild] at h
        obtain ⟨pos', hpos', rfl⟩ := Option.map_eq_some_iff.mp h
        exact ⟨i, child, pos', rfl, hchild, hpos', rfl⟩
  · rintro ⟨i, child, pos', hi, hchild, hpos', rfl⟩
    rw [hi]
    dsimp only
    rw [hchild]
    dsimp only
    rw [hpos']
    rfl

theorem itemAt_cons {root child : ZConfig} {i : Nat} {pos : List Nat}
    (hchild : root.children[i]? = some child) : root.itemAt (i :: pos) = child.itemAt pos := by
  rw [ZConfig.itemAt, hchild]

/-- A child that is replaced by one of the same name leaves the names as they were. -/
theorem childNames_set {root child child' : ZConfig} {i : Nat}
    (hchild : root.children[i]? = some child) (hname : child'.name = child.name) :
    (ZConfig.node root.name root.value (root.children.set i child')).childNames =
      root.childNames := by
  obtain ⟨hlt, hget⟩ := List.getElem?_eq_some_iff.mp hchild
  show (root.children.set i child').map ZConfig.name = root.children.map ZConfig.name
  rw [List.map_set, hname, ← hget]
  apply List.ext_getElem
  · simp
  · intro k hk hk'
    by_cases hik : i = k
    · subst hik
      simp
    · simp [List.getElem_set_ne hik]

theorem positionOf_replaceAt {path : List String} {pos : List Nat} {root child item : ZConfig}
    (h : positionOf root path = some pos) (hchild : root.itemAt pos = some child)
    (hname : item.name = child.name) : positionOf (root.replaceAt pos item) path = some pos := by
  induction path generalizing root pos with
  | nil => exact h
  | cons name path ih =>
    obtain ⟨i, next, pos', hi, hnext, hpos', rfl⟩ := positionOf_cons.mp h
    rw [itemAt_cons hnext] at hchild
    have hlt := (List.getElem?_eq_some_iff.mp hnext).1
    rw [ZConfig.replaceAt, hnext]
    refine positionOf_cons.mpr ⟨i, next.replaceAt pos' item, pos', ?_, List.getElem?_set_self hlt,
      ih hpos' hchild, rfl⟩
    rw [childNames_set hnext (replaceAt_name hchild hname)]
    exact hi

theorem plainFiles_laws : ZConfigLaws plainFiles where
  saved _ _ _ _ := rfl
  failed _ _ _ h := absurd rfl h
  located _ _ _ _ h hchild _ hname := positionOf_replaceAt h hchild hname

/-- One file, with the settings of the mail. -/
def mailRoot : ZConfig :=
  .node "root" none [.node "snmp" (some "") [.node "community" (some "public") []],
    .node "smtp" (some "") [.node "server" (some "localhost") []]]

def mailFiles : String → Option ZConfig :=
  Function.update (fun _ ↦ none) "/etc/fty-email/fty-email.cfg" (some mailRoot)

def mailMap : ConfigMap :=
  [("BIOS_SNMP_COMMUNITY_NAME", ⟨"/etc/fty-email/fty-email.cfg", "snmp/community"⟩),
    ("BIOS_SMTP_SERVER", ⟨"/etc/fty-email/fty-email.cfg", "smtp/server"⟩)]

theorem config_survives_iff_server :
    loadConfig plainFiles mailMap
        (saveConfig plainFiles mailMap mailFiles "BIOS_SMTP_SERVER" (.str "mail")).1
        "BIOS_SMTP_SERVER" = .ok (.str "mail") ↔ (Json.str "mail").Storable := by
  have hload : plainFiles.load mailFiles "/etc/fty-email/fty-email.cfg" = some mailRoot := rfl
  have hitem : locateItem plainFiles mailRoot "smtp/server" = some ([1, 0], _) := rfl
  have hsave : saveConfig plainFiles mailMap mailFiles "BIOS_SMTP_SERVER" (.str "mail") =
      (_, .ok ()) := rfl
  exact config_survives_iff plainFiles_laws rfl hload hitem trivial hsave

/-- The name of a community that is a number comes back as a number, and one that is too large
cannot be loaded at all. -/
theorem community_changes :
    (saveConfig plainFiles mailMap mailFiles "BIOS_SNMP_COMMUNITY_NAME" (.str "12")).2 = .ok () ∧
      loadConfig plainFiles mailMap
        (saveConfig plainFiles mailMap mailFiles "BIOS_SNMP_COMMUNITY_NAME" (.str "12")).1
        "BIOS_SNMP_COMMUNITY_NAME" = .ok (.int 12) ∧
      loadConfig plainFiles mailMap
        (saveConfig plainFiles mailMap mailFiles "BIOS_SNMP_COMMUNITY_NAME"
          (.str "4294967296")).1 "BIOS_SNMP_COMMUNITY_NAME" = .error .outOfRange ∧
      (Json.int 12 : Json) ≠ .str "12" := by
  refine ⟨rfl, rfl, rfl, ?_⟩
  intro h
  cases h

end FtyRest.Ecpp
