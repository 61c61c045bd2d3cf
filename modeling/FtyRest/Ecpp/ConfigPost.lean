import Mathlib.Data.List.Infix
import Mathlib.Data.List.Pairwise
import FtyRest.Ecpp.ConfigValues
import FtyRest.Lib.AssocList

/-!
# What a rejected request leaves behind

The members of a request are saved one after the other, so that a request that is rejected has
saved the members in front of the one that is refused.  It leaves the files as they were when those
members store what the files hold already.
-/

namespace FtyRest.Ecpp

/-! ## Trees that differ at some items only -/

namespace ZConfig

/-- What an item holds itself. -/
def label (item : ZConfig) : String × Option String := (item.name, item.value)

theorem itemAt_append {p q : List Nat} {root : ZConfig} :
    root.itemAt (p ++ q) = (root.itemAt p).bind fun item ↦ item.itemAt q := by
  induction p generalizing root with
  | nil => rfl
  | cons i p ih =>
    rw [List.cons_append, itemAt, itemAt]
    cases root.children[i]? with
    | none => rfl
    | some child => exact ih

/-- Two trees with the same items at the same positions are the same. -/
theorem eq_of_labels : ∀ {a b : ZConfig},
    (∀ q, (a.itemAt q).map label = (b.itemAt q).map label) → a = b
  | .node name value children, .node name' value' children', h => by
    have hroot := Option.some.inj (h [])
    obtain ⟨rfl, rfl⟩ := Prod.mk.inj hroot
    congr 1
    apply List.ext_getElem?
    intro i
    have hitem := fun q ↦ h (i :: q)
    simp only [itemAt, show ∀ n v c, (ZConfig.node n v c).children = c from fun _ _ _ ↦ rfl]
      at hitem
    cases hchild : children[i]? with
    | none =>
      cases hchild' : children'[i]? with
      | none => rfl
      | some child' =>
        have hnone := hitem []
        rw [hchild, hchild'] at hnone
        cases hnone
    | some child =>
      cases hchild' : children'[i]? with
      | none =>
        have hnone := hitem []
        rw [hchild, hchild'] at hnone
        cases hnone
      | some child' =>
        simp only [hchild, hchild'] at hitem
        -- the children are smaller, and agree at every position below them
        have hmem := List.mem_of_getElem? hchild
        rw [eq_of_labels hitem]

theorem itemAt_congr {a b : ZConfig} {j : Nat} {q : List Nat}
    (h : a.children[j]? = b.children[j]?) : a.itemAt (j :: q) = b.itemAt (j :: q) := by
  rw [itemAt, itemAt, h]

/-- Nothing but the items at the position changes. -/
theorem label_replaceAt {pos q : List Nat} {root child item : ZConfig}
    (h : root.itemAt pos = some child) (hq : ¬ pos <+: q) :
    ((root.replaceAt pos item).itemAt q).map label = (root.itemAt q).map label := by
  induction pos generalizing root q with
  | nil => exact absurd List.nil_prefix hq
  | cons i pos ih =>
    rw [itemAt] at h
    cases hnext : root.children[i]? with
    | none =>
      rw [hnext] at h
      cases h
    | some next =>
      rw [hnext] at h
      dsimp only at h
      rw [replaceAt, hnext]
      cases q with
      | nil => rfl
      | cons j q =>
        -- the two positions go on into the same child, or part here
        by_cases hij : i = j
        · subst hij
          have hset : (ZConfig.node root.name root.value
              (root.children.set i (next.replaceAt pos item))).children[i]? =
                some (next.replaceAt pos item) :=
            List.getElem?_set_self (List.getElem?_eq_some_iff.mp hnext).1
          dsimp only
          rw [itemAt_cons hset, itemAt_cons hnext]
          exact ih h fun hpre ↦ hq (List.cons_prefix_cons.mpr ⟨rfl, hpre⟩)
        · exact congrArg (Option.map label) (itemAt_congr (List.getElem?_set_ne hij))

/-- The trees are the same but for what is at some positions and below. -/
def SameBut (P : List Nat → Prop) (a b : ZConfig) : Prop :=
  ∀ q, (∀ p, P p → ¬ p <+: q) → (a.itemAt q).map label = (b.itemAt q).map label

theorem SameBut.eq {P : List Nat → Prop} {a b : ZConfig} (h : SameBut P a b)
    (hitems : ∀ p, P p → a.itemAt p = b.itemAt p) : a = b := by
  apply eq_of_labels
  intro q
  by_cases hq : ∀ p, P p → ¬ p <+: q
  · exact h q hq
  · push Not at hq
    obtain ⟨p, hp, t, rfl⟩ := hq
    rw [itemAt_append, itemAt_append, hitems p hp]

end ZConfig

/-! ## Paths -/

/-- A path without empty names. -/
def Plain (path : String) : Prop := [] ∉ segments path

/-- Neither path leads through the other. -/
def Apart (path path' : String) : Prop :=
  ¬ segments path <+: segments path' ∧ ¬ segments path' <+: segments path

/-- What is known of paths and of writing: which files can be written is a matter of the files, and
a save does not change it; an item that is entered is found; and what is entered or replaced at one
path changes nothing at another one. -/
structure ZConfigPathLaws {φ : Type} (api : ZConfigApi φ) (writable : φ → String → Prop) : Prop
    extends ZConfigLaws api where
  writes : ∀ fs file root, (api.save fs file root).2 = 0 ↔ writable fs file
  lasting : ∀ fs file root other,
    writable (api.save fs file root).1 other ↔ writable fs other
  entered : ∀ root path, Plain path → locateItem api root path = none →
    (locateItem api (api.put root path) path).isSome
  put : ∀ root path path' found, Plain path → Plain path' → Apart path path' →
    locateItem api root path' = some found → locateItem api (api.put root path) path' = some found
  replaced : ∀ root path path' pos child item found, Plain path → Plain path' →
    Apart path path' → locateItem api root path = some (pos, child) → item.name = child.name →
      locateItem api root path' = some found →
        locateItem api (root.replaceAt pos item) path' = some found

/-- No item of the mapping lies in another one. -/
structure ConfigMap.Separate (configMap : ConfigMap) : Prop where
  plain : ∀ {key entry}, configMap.lookup key = some entry → Plain entry.treepath
  apart : ∀ {key key' entry entry'}, configMap.lookup key = some entry →
    configMap.lookup key' = some entry' → entry.filepath = entry'.filepath → entry ≠ entry' →
      Apart entry.treepath entry'.treepath

section

variable {φ : Type} (api : ZConfigApi φ) (configMap : ConfigMap) (writable : φ → String → Prop)

/-- A member can be saved: its key is one of the mapping, and its file is there and can be
written. -/
def Taken (fs : φ) (member : String × Json) : Prop :=
  ∃ entry root, configMap.lookup member.1 = some entry ∧
    api.load fs entry.filepath = some root ∧ writable fs entry.filepath

/-- The item of a member holds its value already. -/
def Holds (trees : String → Option ZConfig) (member : String × Json) : Prop :=
  ∃ entry root pos child, configMap.lookup member.1 = some entry ∧
    trees entry.filepath = some root ∧
    locateItem api root entry.treepath = some (pos, child) ∧ store child.name member.2 = child

/-- What the last member for each item stores is there already. -/
def AllHold (trees : String → Option ZConfig) (members : List (String × Json)) : Prop :=
  ∀ front member rest, members = front ++ member :: rest →
    (∀ other ∈ rest, configMap.lookup other.1 ≠ configMap.lookup member.1) →
      Holds api configMap trees member

/-- The tree that a member makes of the trees of the files, with its file. -/
def memberTree (trees : String → Option ZConfig) (member : String × Json) :
    Option (String × ZConfig) :=
  match configMap.lookup member.1 with
  | none => none
  | some entry =>
      match trees entry.filepath with
      | none => none
      | some root =>
          (storedTree api root entry.treepath member.2).map fun tree ↦ (entry.filepath, tree)

/-- The trees of the files after some members are stored in them. -/
def applied (trees : String → Option ZConfig) :
    List (String × Json) → String → Option ZConfig
  | [] => trees
  | member :: members =>
      match memberTree api configMap trees member with
      | none => applied trees members
      | some (file, tree) => applied (Function.update trees file (some tree)) members

end

section

variable {φ : Type} {api : ZConfigApi φ} {configMap : ConfigMap} {fs fs' : φ}
  {member : String × Json} {members : List (String × Json)}

theorem saveConfig_of_no_tree (h : memberTree api configMap (api.load fs) member = none) :
    ∃ e, saveConfig api configMap fs member.1 member.2 = (fs, .error e) := by
  unfold memberTree at h
  unfold saveConfig
  cases hentry : configMap.lookup member.1 with
  | none => exact ⟨_, rfl⟩
  | some entry =>
    rw [hentry] at h
    dsimp only at h ⊢
    cases hload : api.load fs entry.filepath with
    | none => exact ⟨_, rfl⟩
    | some root =>
      rw [hload] at h
      dsimp only at h ⊢
      rw [Option.map_eq_none_iff.mp h]
      exact ⟨_, rfl⟩

theorem saveConfig_of_tree {file : String} {tree : ZConfig}
    (h : memberTree api configMap (api.load fs) member = some (file, tree)) :
    saveConfig api configMap fs member.1 member.2 =
      ((api.save fs file tree).1,
        if (api.save fs file tree).2 ≠ 0 then
          .error (.bios "internal-error" ("Failed to save file " ++ file))
        else .ok ()) := by
  unfold memberTree at h
  unfold saveConfig
  cases hentry : configMap.lookup member.1 with
  | none =>
    rw [hentry] at h
    cases h
  | some entry =>
    rw [hentry] at h
    dsimp only at h ⊢
    cases hload : api.load fs entry.filepath with
    | none =>
      rw [hload] at h
      cases h
    | some root =>
      rw [hload] at h
      obtain ⟨tree', htree, heq⟩ := Option.map_eq_some_iff.mp h
      obtain ⟨rfl, rfl⟩ := Prod.mk.inj heq
      dsimp only
      rw [htree]
      dsimp only
      split_ifs
      · rfl
      · rfl

theorem applied_cons {trees : String → Option ZConfig} :
    applied api configMap trees (member :: members) =
      applied api configMap (applied api configMap trees [member]) members := by
  simp only [applied]
  cases memberTree api configMap trees member with
  | none => rfl
  | some found => rfl

theorem applied_append {front : List (String × Json)} {trees : String → Option ZConfig} :
    applied api configMap trees (front ++ members) =
      applied api configMap (applied api configMap trees front) members := by
  induction front generalizing trees with
  | nil => rfl
  | cons member front ih => rw [List.cons_append, applied_cons, ih, ← applied_cons]

variable {writable : φ → String → Prop} {trees : String → Option ZConfig} {entry : ConfigEntry}
  {root root' : ZConfig}

/-! ## One item -/

/-- There is a tree for every value, in which its item is located and holds the value. -/
theorem storedTree_item (hlaws : ZConfigPathLaws api writable) (root : ZConfig)
    {treepath : String} (hplain : Plain treepath) (value : Json) :
    ∃ root' pos name, storedTree api root treepath value = some root' ∧
      locateItem api root' treepath = some (pos, store name value) := by
  have hstored (root₁ : ZConfig) (hsome : (locateItem api root₁ treepath).isSome) :
      ∃ root' pos name, ((locateItem api root₁ treepath).map fun item ↦
          root₁.replaceAt item.1 (store item.2.name value)) = some root' ∧
        locateItem api root' treepath = some (pos, store name value) := by
    obtain ⟨⟨pos, child⟩, hitem⟩ := Option.isSome_iff_exists.mp hsome
    obtain ⟨hlocate, hchild⟩ := locateItem_eq_some hitem
    refine ⟨root₁.replaceAt pos (store child.name value), pos, child.name, ?_, ?_⟩
    · rw [hitem]
      rfl
    · exact locateItem_replaceAt hlaws.toZConfigLaws hlocate hchild store_name
  unfold storedTree
  -- an item that is not there is entered first, and located then
  by_cases hsome : (locateItem api root treepath).isSome
  · rw [if_pos hsome]
    exact hstored root hsome
  · rw [if_neg hsome]
    exact hstored _ (hlaws.entered root treepath hplain (Option.not_isSome_iff_eq_none.mp hsome))

/-- What is stored at one path leaves the item at another one as it was. -/
theorem storedTree_keeps (hlaws : ZConfigPathLaws api writable) {treepath other : String}
    (hplain : Plain treepath) (hother : Plain other) (hapart : Apart treepath other)
    {value : Json} (h : storedTree api root treepath value = some root')
    {found : List Nat × ZConfig} (hfound : locateItem api root other = some found) :
    locateItem api root' other = some found := by
  have hstored (root₁ : ZConfig) (hfound : locateItem api root₁ other = some found)
      (h : ((locateItem api root₁ treepath).map fun item ↦
        root₁.replaceAt item.1 (store item.2.name value)) = some root') :
      locateItem api root' other = some found := by
    obtain ⟨⟨pos, child⟩, hitem, rfl⟩ := Option.map_eq_some_iff.mp h
    exact hlaws.replaced root₁ treepath other pos child _ found hplain hother hapart hitem
      store_name hfound
  unfold storedTree at h
  by_cases hsome : (locateItem api root treepath).isSome
  · rw [if_pos hsome] at h
    exact hstored root hfound h
  · rw [if_neg hsome] at h
    exact hstored _ (hlaws.put root treepath other found hplain hother hapart hfound) h

/-! ## One member -/

theorem memberTree_of {root : ZConfig} (hentry : configMap.lookup member.1 = some entry)
    (hroot : trees entry.filepath = some root)
    (h : storedTree api root entry.treepath member.2 = some root') :
    memberTree api configMap trees member = some (entry.filepath, root') := by
  unfold memberTree
  rw [hentry]
  dsimp only
  rw [hroot]
  dsimp only
  rw [h]
  rfl

theorem memberTree_eq_some {file : String} (h : memberTree api configMap trees member = some (file, root')) :
    ∃ entry root, configMap.lookup member.1 = some entry ∧ trees entry.filepath = some root ∧
      storedTree api root entry.treepath member.2 = some root' ∧ file = entry.filepath := by
  unfold memberTree at h
  cases hentry : configMap.lookup member.1 with
  | none =>
    rw [hentry] at h
    cases h
  | some entry =>
    rw [hentry] at h
    dsimp only at h
    cases hroot : trees entry.filepath with
    | none =>
      rw [hroot] at h
      cases h
    | some root =>
      rw [hroot] at h
      obtain ⟨tree, htree, heq⟩ := Option.map_eq_some_iff.mp h
      obtain ⟨rfl, rfl⟩ := Prod.mk.inj heq
      exact ⟨entry, root, rfl, hroot, htree, rfl⟩

/-- A member that can be saved is saved, and changes its file as its tree says. -/
theorem saveConfig_taken (hlaws : ZConfigPathLaws api writable) (hsep : configMap.Separate)
    (h : Taken api configMap writable fs member) :
    ∃ fs', saveConfig api configMap fs member.1 member.2 = (fs', .ok ()) ∧
      api.load fs' = applied api configMap (api.load fs) [member] ∧
      ∀ other, writable fs' other ↔ writable fs other := by
  obtain ⟨entry, root, hentry, hroot, hwritable⟩ := h
  obtain ⟨root', -, -, hstored, -⟩ :=
    storedTree_item hlaws root (hsep.plain hentry) member.2
  have htree := memberTree_of hentry hroot hstored
  have hzero := (hlaws.writes fs entry.filepath root').mpr hwritable
  refine ⟨(api.save fs entry.filepath root').1, ?_, ?_, hlaws.lasting fs entry.filepath root'⟩
  · rw [saveConfig_of_tree htree, if_neg (not_not_intro hzero)]
  · simp only [applied]
    rw [htree]
    exact hlaws.saved fs entry.filepath root' hzero

/-- A member that cannot be saved is refused, and changes no file. -/
theorem saveConfig_refused (hlaws : ZConfigPathLaws api writable)
    (h : ¬ Taken api configMap writable fs member) :
    ∃ fs' e, saveConfig api configMap fs member.1 member.2 = (fs', .error e) ∧
      api.load fs' = api.load fs := by
  cases htree : memberTree api configMap (api.load fs) member with
  | none =>
    obtain ⟨e, he⟩ := saveConfig_of_no_tree htree
    exact ⟨fs, e, he, rfl⟩
  | some found =>
    obtain ⟨entry, root, hentry, hroot, -, hfile⟩ := memberTree_eq_some htree
    -- there is a tree to save, so it is the file that cannot be written
    have hr : (api.save fs found.1 found.2).2 ≠ 0 := by
      intro hzero
      exact h ⟨entry, root, hentry, hroot, hfile ▸ (hlaws.writes fs found.1 found.2).mp hzero⟩
    have hsave := saveConfig_of_tree htree
    rw [if_pos hr] at hsave
    exact ⟨_, _, hsave, hlaws.failed fs found.1 found.2 hr⟩

variable (api configMap trees members) in
/-- No file comes or goes. -/
theorem applied_isSome (file : String) :
    (applied api configMap trees members file).isSome = (trees file).isSome := by
  induction members generalizing trees with
  | nil => rfl
  | cons member members ih =>
    rw [applied_cons, ih]
    simp only [applied]
    cases htree : memberTree api configMap trees member with
    | none => rfl
    | some found =>
      obtain ⟨entry, root, -, hroot, -, hfile⟩ := memberTree_eq_some htree
      dsimp only
      by_cases hsame : file = found.1
      · rw [hsame, Function.update_self, hfile, hroot]
        rfl
      · rw [Function.update_of_ne hsame]

/-! ## The members of a request -/

/-- Members that can be saved are saved, and what can be saved afterwards is what could be saved
before. -/
theorem saveMembers_taken (hlaws : ZConfigPathLaws api writable) (hsep : configMap.Separate)
    (h : ∀ member ∈ members, Taken api configMap writable fs member) :
    ∃ fs', saveMembers api configMap fs members = (fs', .ok ()) ∧
      api.load fs' = applied api configMap (api.load fs) members ∧
      ∀ other, Taken api configMap writable fs' other ↔ Taken api configMap writable fs other := by
  induction members generalizing fs with
  | nil => exact ⟨fs, rfl, rfl, fun _ ↦ Iff.rfl⟩
  | cons member members ih =>
    obtain ⟨fs₁, hsave, hload, hwritable⟩ :=
      saveConfig_taken hlaws hsep (h member List.mem_cons_self)
    -- a save brings no file and takes none, so the other members can be saved as before
    have hsame (other : String × Json) :
        Taken api configMap writable fs₁ other ↔ Taken api configMap writable fs other := by
      have hsome (file : String) : (api.load fs₁ file).isSome = (api.load fs file).isSome := by
        rw [hload, applied_isSome]
      constructor
      · rintro ⟨entry, root, hentry, hroot, hw⟩
        have hthere := hsome entry.filepath
        rw [hroot] at hthere
        obtain ⟨root', hroot'⟩ := Option.isSome_iff_exists.mp hthere.symm
        exact ⟨entry, root', hentry, hroot', (hwritable _).mp hw⟩
      · rintro ⟨entry, root, hentry, hroot, hw⟩
        have hthere := hsome entry.filepath
        rw [hroot] at hthere
        obtain ⟨root', hroot'⟩ := Option.isSome_iff_exists.mp hthere
        exact ⟨entry, root', hentry, hroot', (hwritable _).mpr hw⟩
    obtain ⟨fs₂, hsaves, hload₂, hsame₂⟩ := ih fun m hm ↦
      (hsame m).mpr (h m (List.mem_cons_of_mem _ hm))
    refine ⟨fs₂, ?_, ?_, fun other ↦ (hsame₂ other).trans (hsame other)⟩
    · rw [saveMembers, hsave]
      exact hsaves
    · rw [hload₂, hload, ← applied_cons]

/-- After the members that are saved, the other ones are taken. -/
theorem saveMembers_append {saved : List (String × Json)} {fs₁ : φ}
    (h : saveMembers api configMap fs saved = (fs₁, .ok ())) :
    saveMembers api configMap fs (saved ++ members) = saveMembers api configMap fs₁ members := by
  induction saved generalizing fs with
  | nil =>
    rw [saveMembers] at h
    rw [← (Prod.mk.inj h).1]
    rfl
  | cons member saved ih =>
    rw [saveMembers] at h
    rw [List.cons_append, saveMembers]
    cases hsave : saveConfig api configMap fs member.1 member.2 with
    | mk fs₂ answer =>
      rw [hsave] at h
      cases answer with
      | error e => cases (Prod.mk.inj h).2
      | ok _ => exact ih h

/-- A request with a member that cannot be saved is rejected, and the ones in front of the first
such member are saved. -/
theorem saveMembers_refused (rest : List (String × Json))
    (hlaws : ZConfigPathLaws api writable) (hsep : configMap.Separate)
    {saved : List (String × Json)}
    (hsaved : ∀ m ∈ saved, Taken api configMap writable fs m)
    (hrefused : ¬ Taken api configMap writable fs member) :
    ∃ fs' e, saveMembers api configMap fs (saved ++ member :: rest) = (fs', .error e) ∧
      api.load fs' = applied api configMap (api.load fs) saved := by
  obtain ⟨fs₁, hsaves, hload, hsame⟩ := saveMembers_taken hlaws hsep hsaved
  obtain ⟨fs', e, hsave, hload'⟩ :=
    saveConfig_refused hlaws (mt (hsame member).mp hrefused)
  refine ⟨fs', e, ?_, hload'.trans hload⟩
  rw [saveMembers_append hsaves, saveMembers, hsave]

variable (api configMap writable fs) in
/-- Either all members can be saved, or there is a first one that cannot. -/
theorem taken_or_refused (members : List (String × Json)) :
    (∀ m ∈ members, Taken api configMap writable fs m) ∨
      ∃ saved member rest, members = saved ++ member :: rest ∧
        (∀ m ∈ saved, Taken api configMap writable fs m) ∧
        ¬ Taken api configMap writable fs member := by
  induction members with
  | nil => exact Or.inl fun m hm ↦ absurd hm List.not_mem_nil
  | cons member members ih =>
    by_cases htaken : Taken api configMap writable fs member
    · rcases ih with hall | ⟨saved, refused, rest, rfl, hsaved, hrefused⟩
      · exact Or.inl (List.forall_mem_cons.mpr ⟨htaken, hall⟩)
      · exact Or.inr ⟨member :: saved, refused, rest, rfl,
          List.forall_mem_cons.mpr ⟨htaken, hsaved⟩, hrefused⟩
    · exact Or.inr ⟨[], member, members, rfl, fun m hm ↦ absurd hm List.not_mem_nil, htaken⟩

/-! ## When the files are as they were -/

/-- The item of an entry is left alone by members with other entries. -/
theorem applied_located (hlaws : ZConfigPathLaws api writable) (hsep : configMap.Separate)
    {key : String} (hentry : configMap.lookup key = some entry)
    (hroot : trees entry.filepath = some root) {found : List Nat × ZConfig}
    (hfound : locateItem api root entry.treepath = some found)
    (hothers : ∀ other ∈ members, configMap.lookup other.1 ≠ some entry) :
    ∃ root', applied api configMap trees members entry.filepath = some root' ∧
      locateItem api root' entry.treepath = some found := by
  induction members generalizing trees root with
  | nil => exact ⟨root, hroot, hfound⟩
  | cons member members ih =>
    obtain ⟨hother, hothers⟩ := List.forall_mem_cons.mp hothers
    simp only [applied]
    cases htree : memberTree api configMap trees member with
    | none => exact ih hroot hfound hothers
    | some stored =>
      obtain ⟨file, tree⟩ := stored
      obtain ⟨entry', root₁, hentry', hroot₁, hstored, rfl⟩ := memberTree_eq_some htree
      dsimp only
      have hne : entry ≠ entry' := fun heq ↦ hother (heq ▸ hentry')
      -- a member for the same file stores at another path of it
      by_cases hfile : entry.filepath = entry'.filepath
      · have hapart := hsep.apart hentry' hentry hfile.symm hne.symm
        rw [hfile, hroot₁] at hroot
        obtain rfl := Option.some.inj hroot
        refine ih ?_ (storedTree_keeps hlaws (hsep.plain hentry') (hsep.plain hentry) hapart
          hstored hfound) hothers
        rw [hfile, Function.update_self]
      · refine ih ?_ hfound hothers
        rw [Function.update_of_ne hfile]
        exact hroot

variable (trees) in
/-- The last member for an item leaves its value there. -/
theorem applied_last (hlaws : ZConfigPathLaws api writable) (hsep : configMap.Separate)
    (front : List (String × Json)) {rest : List (String × Json)} (hentry : configMap.lookup member.1 = some entry)
    (hthere : (trees entry.filepath).isSome)
    (hlast : ∀ other ∈ rest, configMap.lookup other.1 ≠ configMap.lookup member.1) :
    ∃ root' pos name,
      applied api configMap trees (front ++ member :: rest) entry.filepath = some root' ∧
        locateItem api root' entry.treepath = some (pos, store name member.2) := by
  rw [← applied_isSome api configMap front trees] at hthere
  obtain ⟨root, hroot⟩ := Option.isSome_iff_exists.mp hthere
  obtain ⟨root₁, pos, name, hstored, hitem⟩ :=
    storedTree_item hlaws root (hsep.plain hentry) member.2
  have htree := memberTree_of hentry hroot hstored
  obtain ⟨root', hroot', hfound⟩ := applied_located hlaws hsep hentry
    (Function.update_self _ _ (applied api configMap trees front)) hitem
    fun other hother ↦ hentry ▸ hlast other hother
  refine ⟨root', pos, name, ?_, hfound⟩
  rw [applied_append, applied, htree]
  exact hroot'

variable (configMap) in
/-- Every member has a last one for its entry. -/
theorem exists_last (h : member ∈ members) :
    ∃ front last rest, members = front ++ last :: rest ∧
      configMap.lookup last.1 = configMap.lookup member.1 ∧
      ∀ other ∈ rest, configMap.lookup other.1 ≠ configMap.lookup last.1 := by
  induction members generalizing member with
  | nil => exact absurd h List.not_mem_nil
  | cons first members ih =>
    by_cases hlater : ∃ later ∈ members, configMap.lookup later.1 = configMap.lookup member.1
    · obtain ⟨later, hmem, hsame⟩ := hlater
      obtain ⟨front, last, rest, rfl, hlast, hrest⟩ := ih hmem
      exact ⟨first :: front, last, rest, rfl, hlast.trans hsame, hrest⟩
    · push Not at hlater
      rcases List.mem_cons.mp h with rfl | hmem
      · exact ⟨[], member, members, rfl, rfl, hlater⟩
      · exact absurd rfl (hlater member hmem)

variable (api configMap) in
/-- A position that a member of the request leads to in a file. -/
def Touched (members : List (String × Json)) (file : String) (root : ZConfig)
    (pos : List Nat) : Prop :=
  ∃ member ∈ members, ∃ entry child, configMap.lookup member.1 = some entry ∧
    entry.filepath = file ∧ locateItem api root entry.treepath = some (pos, child)

variable (api configMap) in
/-- The files are as they were but for what the items of the members hold. -/
structure OnlyTouched (members : List (String × Json)) (trees now : String → Option ZConfig) :
    Prop where
  located : ∀ {member entry root pos child}, member ∈ members →
    configMap.lookup member.1 = some entry → trees entry.filepath = some root →
    locateItem api root entry.treepath = some (pos, child) →
      ∃ root' child', now entry.filepath = some root' ∧
        locateItem api root' entry.treepath = some (pos, child') ∧ child'.name = child.name
  same : ∀ {file root root'}, trees file = some root → now file = some root' →
    ZConfig.SameBut (Touched api configMap members file root) root root'

theorem OnlyTouched.refl : OnlyTouched api configMap members trees trees where
  located _ _ hroot hitem := ⟨_, _, hroot, hitem, rfl⟩
  same hroot hroot' := by
    obtain rfl := Option.some.inj (hroot.symm.trans hroot')
    exact fun _ _ ↦ rfl

/-- One more member whose item is there. -/
theorem OnlyTouched.step (hlaws : ZConfigPathLaws api writable) (hsep : configMap.Separate)
    {now : String → Option ZConfig} (h : OnlyTouched api configMap members trees now)
    (hmem : member ∈ members) (hholds : ∃ last : String × Json,
      configMap.lookup last.1 = configMap.lookup member.1 ∧ Holds api configMap trees last) :
    OnlyTouched api configMap members trees (applied api configMap now [member]) := by
  obtain ⟨last, hlast, entry, root, pos, child, hentry, hroot, hitem, -⟩ := hholds
  rw [hlast] at hentry
  obtain ⟨root', child', hroot', hitem', hname⟩ := h.located hmem hentry hroot hitem
  obtain ⟨hlocate, hchild⟩ := locateItem_eq_some hitem'
  have hstored : storedTree api root' entry.treepath member.2 = _ := storedTree_of_item hitem'
  simp only [applied]
  rw [memberTree_of hentry hroot' hstored]
  dsimp only
  constructor
  · -- the item that is replaced keeps its position and its name, and the others are apart from it
    intro other entry₁ root₁ pos₁ child₁ hother hentry₁ hroot₁ hitem₁
    obtain ⟨root₂, child₂, hroot₂, hitem₂, hname₂⟩ := h.located hother hentry₁ hroot₁ hitem₁
    by_cases hfile : entry₁.filepath = entry.filepath
    · rw [hfile, hroot'] at hroot₂
      obtain rfl := Option.some.inj hroot₂
      rw [hfile, Function.update_self]
      by_cases hsame : entry₁ = entry
      · -- the item of the member itself
        subst hsame
        rw [hroot] at hroot₁
        obtain rfl := Option.some.inj hroot₁
        rw [hitem] at hitem₁
        obtain ⟨rfl, rfl⟩ := Prod.mk.inj (Option.some.inj hitem₁)
        exact ⟨_, _, rfl, locateItem_replaceAt hlaws.toZConfigLaws hlocate hchild store_name,
          store_name.trans hname⟩
      · have hapart := hsep.apart hentry hentry₁ hfile.symm (Ne.symm hsame)
        exact ⟨_, child₂, rfl, storedTree_keeps hlaws (hsep.plain hentry) (hsep.plain hentry₁)
          hapart hstored hitem₂, hname₂⟩
    · rw [Function.update_of_ne hfile]
      exact ⟨root₂, child₂, hroot₂, hitem₂, hname₂⟩
  · intro file root₁ root₂ hroot₁ hroot₂
    by_cases hfile : file = entry.filepath
    · subst hfile
      rw [Function.update_self] at hroot₂
      obtain rfl := Option.some.inj hroot₂
      intro q hq
      rw [h.same hroot₁ hroot' q hq]
      rw [hroot] at hroot₁
      obtain rfl := Option.some.inj hroot₁
      have htouched : Touched api configMap members entry.filepath root pos :=
        ⟨member, hmem, entry, child, hentry, rfl, hitem⟩
      exact (ZConfig.label_replaceAt hchild (hq pos htouched)).symm
    · rw [Function.update_of_ne hfile] at hroot₂
      exact h.same hroot₁ hroot₂

/-- The members leave every tree as it was exactly when the last one for each item stores what is
there. -/
theorem applied_eq_iff (hlaws : ZConfigPathLaws api writable) (hsep : configMap.Separate)
    (hthere : ∀ m ∈ members, ∃ entry root, configMap.lookup m.1 = some entry ∧
      trees entry.filepath = some root) :
    applied api configMap trees members = trees ↔ AllHold api configMap trees members := by
  constructor
  · rintro heq front member rest rfl hlast
    obtain ⟨entry, root, hentry, hroot⟩ :=
      hthere member (List.mem_append_right _ List.mem_cons_self)
    obtain ⟨root', pos, name, hroot', hitem⟩ := applied_last trees hlaws hsep front
      hentry (by rw [hroot]; rfl) hlast
    -- nothing has changed, so what the last member stores was there
    rw [heq] at hroot'
    refine ⟨entry, root', pos, store name member.2, hentry, hroot', hitem, ?_⟩
    rw [store_name]
  · intro hall
    have hlasts {m : String × Json} (hm : m ∈ members) : ∃ front last rest,
        members = front ++ last :: rest ∧ configMap.lookup last.1 = configMap.lookup m.1 ∧
          (∀ other ∈ rest, configMap.lookup other.1 ≠ configMap.lookup last.1) ∧
            Holds api configMap trees last := by
      obtain ⟨front, last, rest, heq, hsame, hrest⟩ := exists_last configMap hm
      exact ⟨front, last, rest, heq, hsame, hrest, hall front last rest heq hrest⟩
    -- the induction is on the members that are stored; every item stays in its place meanwhile
    have hrun : ∀ done : List (String × Json), (∀ m ∈ done, m ∈ members) → ∀ now,
        OnlyTouched api configMap members trees now →
          OnlyTouched api configMap members trees (applied api configMap now done) := by
      intro done
      induction done with
      | nil => exact fun _ now h ↦ h
      | cons m done ih =>
        intro hmem now h
        obtain ⟨hm, hdone⟩ := List.forall_mem_cons.mp hmem
        obtain ⟨-, last, -, -, hsame, -, hholds⟩ := hlasts hm
        rw [applied_cons]
        exact ih hdone _ (h.step hlaws hsep hm ⟨last, hsame, hholds⟩)
    have hend := hrun members (fun _ hm ↦ hm) trees .refl
    funext file
    have hsome := applied_isSome api configMap members trees file
    cases hroot : trees file with
    | none =>
      rw [hroot] at hsome
      exact Option.not_isSome_iff_eq_none.mp (by rw [hsome]; exact Bool.false_ne_true)
    | some root =>
      rw [hroot] at hsome
      obtain ⟨root', hroot'⟩ := Option.isSome_iff_exists.mp hsome
      rw [hroot', (hend.same hroot hroot').eq]
      rintro pos ⟨m, hm, entry, child, hentry, rfl, hitem⟩
      -- what is there at last is what the last member has stored
      obtain ⟨front, last, rest, heq, hsame, hlast, entry', root₁, pos₁, child₁, hentry', hroot₁,
        hitem₁, hstored⟩ := hlasts hm
      obtain rfl : entry = entry' :=
        Option.some.inj (hentry.symm.trans (hsame.symm.trans hentry'))
      obtain rfl := Option.some.inj (hroot.symm.trans hroot₁)
      obtain ⟨rfl, rfl⟩ := Prod.mk.inj (Option.some.inj (hitem.symm.trans hitem₁))
      obtain ⟨root₂, pos₂, name, hroot₂, hitem₂⟩ := applied_last trees hlaws hsep front
        hentry' (by rw [hroot]; rfl) hlast
      rw [← heq, hroot'] at hroot₂
      obtain rfl := Option.some.inj hroot₂
      obtain ⟨root₃, child₃, hroot₃, hitem₃, hname⟩ := hend.located hm hentry hroot hitem
      rw [hroot'] at hroot₃
      obtain rfl := Option.some.inj hroot₃
      obtain ⟨rfl, rfl⟩ := Prod.mk.inj (Option.some.inj (hitem₂.symm.trans hitem₃))
      rw [(locateItem_eq_some hitem).2, (locateItem_eq_some hitem₃).2, ← hstored, ← hname,
        store_name]

/-- A request that is rejected changes no file exactly when the last member for each item, of those
in front of the one that is refused, stores what is there. -/
theorem saveMembers_rejected_iff (hlaws : ZConfigPathLaws api writable)
    (hsep : configMap.Separate) (fs : φ) (members : List (String × Json)) :
    ((∃ e, (saveMembers api configMap fs members).2 = .error e) →
        api.load (saveMembers api configMap fs members).1 = api.load fs) ↔
      ∀ saved member rest, members = saved ++ member :: rest →
        (∀ m ∈ saved, Taken api configMap writable fs m) →
          ¬ Taken api configMap writable fs member → AllHold api configMap (api.load fs) saved := by
  have hthere {saved : List (String × Json)}
      (hsaved : ∀ m ∈ saved, Taken api configMap writable fs m) : ∀ m ∈ saved, ∃ entry root,
        configMap.lookup m.1 = some entry ∧ api.load fs entry.filepath = some root := by
    intro m hm
    obtain ⟨entry, root, hentry, hroot, -⟩ := hsaved m hm
    exact ⟨entry, root, hentry, hroot⟩
  constructor
  · rintro h saved member rest rfl hsaved hrefused
    obtain ⟨fs', e, hpost, hload⟩ := saveMembers_refused rest hlaws hsep hsaved hrefused
    rw [hpost] at h
    exact (applied_eq_iff hlaws hsep (hthere hsaved)).mp (hload.symm.trans (h ⟨e, rfl⟩))
  · rintro h ⟨e, he⟩
    -- a request whose members can all be saved is not rejected
    rcases taken_or_refused api configMap fs writable members with hall | ⟨saved, member, rest, rfl, hsaved, hrefused⟩
    · obtain ⟨fs', hsaves, -, -⟩ := saveMembers_taken hlaws hsep hall
      rw [hsaves] at he
      cases he
    · obtain ⟨fs', e', hpost, hload⟩ :=
        saveMembers_refused rest hlaws hsep hsaved hrefused
      rw [hpost, hload]
      exact (applied_eq_iff hlaws hsep (hthere hsaved)).mpr (h saved member rest rfl hsaved hrefused)

end

/-! ## The mapping -/

theorem mapping_segments : (mapping.map fun m ↦ segments m.2.treepath).Pairwise fun p q ↦
    [] ∉ p ∧ [] ∉ q ∧ ¬ p <+: q ∧ ¬ q <+: p := by
  decide +kernel

theorem mapping_separate : mapping.Separate := by
  have hsymm : Std.Symm fun m m' : String × ConfigEntry ↦
      [] ∉ segments m.2.treepath ∧ [] ∉ segments m'.2.treepath ∧
        ¬ segments m.2.treepath <+: segments m'.2.treepath ∧
          ¬ segments m'.2.treepath <+: segments m.2.treepath :=
    ⟨fun _ _ ⟨h, h', hapart⟩ ↦ ⟨h', h, hapart.symm⟩⟩
  have happart := (List.pairwise_map.mp mapping_segments).forall
  constructor
  · intro key entry hentry
    have hmem := AssocList.mem_of_lookup hentry
    -- each entry is compared with some other one
    by_cases hkey : key = "language"
    · have hne : (key, entry) ≠ ("BIOS_SNMP_COMMUNITY_NAME",
          ⟨"/etc/fty-email/fty-email.cfg", "snmp/community"⟩) := by
        subst hkey
        intro heq
        exact absurd (Prod.mk.inj heq).1 (by decide)
      exact (happart hmem (by simp [mapping]) hne).1
    · have hne : (key, entry) ≠ ("language",
          ⟨"/etc/fty-email/fty-email.cfg", "server/language"⟩) :=
        fun heq ↦ hkey (Prod.mk.inj heq).1
      exact (happart hmem (by simp [mapping]) hne).1
  · intro key key' entry entry' hentry hentry' _ hne
    have hpair : (key, entry) ≠ (key', entry') := fun heq ↦ hne (Prod.mk.inj heq).2
    exact (happart (AssocList.mem_of_lookup hentry) (AssocList.mem_of_lookup hentry') hpair).2.2

/-- A request that is rejected changes no file exactly when, of the members in front of the first
one that cannot be saved, the last one for each item stores what is there. -/
theorem rejected_post_iff {φ : Type} {api : ZConfigApi φ} {writable : φ → String → Prop}
    (hlaws : ZConfigPathLaws api writable) (fs : φ) (members : List (String × Json)) :
    ((∃ e, (postConfig api mapping fs (.object members)).2 = .error e) →
        api.load (postConfig api mapping fs (.object members)).1 = api.load fs) ↔
      ∀ saved member rest, members = saved ++ member :: rest →
        (∀ m ∈ saved, Taken api mapping writable fs m) →
          ¬ Taken api mapping writable fs member → AllHold api mapping (api.load fs) saved :=
  saveMembers_rejected_iff hlaws mapping_separate fs members

/-! ## An unknown key behind a known one -/

theorem idxOf?_append {l l' : List String} {name : String} :
    (l ++ l').idxOf? name =
      (l.idxOf? name).or ((l'.idxOf? name).map fun i ↦ i + l.length) :=
  List.findIdx?_append

theorem putNames_name (path : List String) (root : ZConfig) :
    (putNames root path).name = root.name := by
  cases path with
  | nil => rfl
  | cons name path =>
    rw [putNames]
    split
    · rfl
    · split
      · rfl
      · rfl

/-- An item that is entered is found. -/
theorem positionOf_putNames (path : List String) (root : ZConfig) :
    ∃ pos item, positionOf (putNames root path) path = some pos ∧
      (putNames root path).itemAt pos = some item := by
  induction path generalizing root with
  | nil => exact ⟨[], root, rfl, rfl⟩
  | cons name path ih =>
    rw [putNames]
    cases hi : root.childNames.idxOf? name with
    | none =>
      obtain ⟨pos, item, hpos, hitem⟩ := ih (.node name (some "") [])
      dsimp only
      -- a new item is added behind the others
      have hnew : (ZConfig.node root.name root.value (root.children ++
          [putNames (.node name (some "") []) path])).children[root.children.length]? =
            some (putNames (.node name (some "") []) path) := List.getElem?_concat_length
      refine ⟨root.children.length :: pos, item, positionOf_cons.mpr
        ⟨root.children.length, _, pos, ?_, hnew, hpos, rfl⟩, ?_⟩
      · show ((root.children ++ [putNames (.node name (some "") []) path]).map
          ZConfig.name).idxOf? name = _
        rw [List.map_append, List.map_singleton, putNames_name, idxOf?_append]
        rw [ZConfig.childNames] at hi
        rw [hi]
        simp [ZConfig.name]
      · rw [itemAt_cons hnew]
        exact hitem
    | some i =>
      obtain ⟨hlt, -, -⟩ := List.idxOf?_eq_some_iff.mp hi
      have hlt : i < root.children.length := by simpa [ZConfig.childNames] using hlt
      have hchild := List.getElem?_eq_getElem hlt
      obtain ⟨pos, item, hpos, hitem⟩ := ih root.children[i]
      dsimp only
      rw [hchild]
      dsimp only
      -- an item that is there is entered, and keeps its place
      have hnew : (ZConfig.node root.name root.value (root.children.set i
          (putNames root.children[i] path))).children[i]? =
            some (putNames root.children[i] path) := List.getElem?_set_self hlt
      refine ⟨i :: pos, item, positionOf_cons.mpr ⟨i, _, pos, ?_, hnew, hpos, rfl⟩, ?_⟩
      · rw [childNames_set hchild (putNames_name path _)]
        exact hi
      · rw [itemAt_cons hnew]
        exact hitem

/-- What is entered at one path changes nothing at another one. -/
theorem positionOf_putNames_apart {path path' : List String} {root child : ZConfig}
    {pos : List Nat} (h : ¬ path <+: path') (h' : ¬ path' <+: path)
    (hpos : positionOf root path' = some pos) (hitem : root.itemAt pos = some child) :
    positionOf (putNames root path) path' = some pos ∧
      (putNames root path).itemAt pos = some child := by
  induction path generalizing root path' pos with
  | nil => exact absurd List.nil_prefix h
  | cons name path ih =>
    cases path' with
    | nil => exact absurd List.nil_prefix h'
    | cons name' path' =>
      obtain ⟨j, next, pos', hj, hnext, hpos', rfl⟩ := positionOf_cons.mp hpos
      rw [itemAt_cons hnext] at hitem
      rw [putNames]
      cases hi : root.childNames.idxOf? name with
      | none =>
        -- the new item comes behind the others
        dsimp only
        have hsame : (ZConfig.node root.name root.value (root.children ++
            [putNames (.node name (some "") []) path])).children[j]? = some next := by
          show (root.children ++ _)[j]? = _
          rw [List.getElem?_append_left (List.getElem?_eq_some_iff.mp hnext).1, hnext]
        refine ⟨positionOf_cons.mpr ⟨j, next, pos', ?_, hsame, hpos', rfl⟩, ?_⟩
        · show ((root.children ++ [putNames (.node name (some "") []) path]).map
            ZConfig.name).idxOf? name' = _
          rw [List.map_append, idxOf?_append]
          rw [ZConfig.childNames] at hj
          rw [hj, Option.some_or]
        · rw [itemAt_cons hsame]
          exact hitem
      | some i =>
        obtain ⟨hlt, hnamei, -⟩ := List.idxOf?_eq_some_iff.mp hi
        have hlt : i < root.children.length := by simpa [ZConfig.childNames] using hlt
        have hchild := List.getElem?_eq_getElem hlt
        dsimp only
        rw [hchild]
        dsimp only
        have hnames := childNames_set hchild (putNames_name path root.children[i])
        -- the paths go on into the same child, or part here
        by_cases hij : i = j
        · subst hij
          obtain ⟨_, hnamej, -⟩ := List.idxOf?_eq_some_iff.mp hj
          obtain rfl : name = name' := hnamei.symm.trans hnamej
          obtain rfl := Option.some.inj (hchild.symm.trans hnext)
          obtain ⟨hpos, hitem⟩ := ih (fun hpre ↦ h (List.cons_prefix_cons.mpr ⟨rfl, hpre⟩))
            (fun hpre ↦ h' (List.cons_prefix_cons.mpr ⟨rfl, hpre⟩)) hpos' hitem
          have hnew : (ZConfig.node root.name root.value (root.children.set i
              (putNames root.children[i] path))).children[i]? =
                some (putNames root.children[i] path) := List.getElem?_set_self hlt
          refine ⟨positionOf_cons.mpr ⟨i, _, pos', hnames ▸ hi, hnew, hpos, rfl⟩, ?_⟩
          rw [itemAt_cons hnew]
          exact hitem
        · have hsame : (ZConfig.node root.name root.value (root.children.set i
              (putNames root.children[i] path))).children[j]? = some next := by
            show (root.children.set i _)[j]? = _
            rw [List.getElem?_set_ne hij, hnext]
          refine ⟨positionOf_cons.mpr ⟨j, next, pos', hnames ▸ hj, hsame, hpos', rfl⟩, ?_⟩
          rw [itemAt_cons hsame]
          exact hitem

/-- What is replaced at one path changes nothing at another one. -/
theorem positionOf_replaceAt_apart {path path' : List String} {root child child' item : ZConfig}
    {pos pos' : List Nat} (h : ¬ path <+: path') (h' : ¬ path' <+: path)
    (hpos : positionOf root path = some pos) (hchild : root.itemAt pos = some child)
    (hname : item.name = child.name) (hpos' : positionOf root path' = some pos')
    (hchild' : root.itemAt pos' = some child') :
    positionOf (root.replaceAt pos item) path' = some pos' ∧
      (root.replaceAt pos item).itemAt pos' = some child' := by
  induction path generalizing root path' pos pos' with
  | nil => exact absurd List.nil_prefix h
  | cons name path ih =>
    cases path' with
    | nil => exact absurd List.nil_prefix h'
    | cons name' path' =>
      obtain ⟨i, next, tail, hi, hnext, htail, rfl⟩ := positionOf_cons.mp hpos
      obtain ⟨j, next', tail', hj, hnext', htail', rfl⟩ := positionOf_cons.mp hpos'
      rw [itemAt_cons hnext] at hchild
      rw [itemAt_cons hnext'] at hchild'
      have hnames := childNames_set hnext (replaceAt_name hchild hname)
      rw [ZConfig.replaceAt, hnext]
      dsimp only
      -- the paths part here, or go through one child and part below it
      by_cases hij : i = j
      · subst hij
        obtain ⟨_, hnamei, -⟩ := List.idxOf?_eq_some_iff.mp hi
        obtain ⟨_, hnamej, -⟩ := List.idxOf?_eq_some_iff.mp hj
        obtain rfl : name = name' := hnamei.symm.trans hnamej
        obtain rfl := Option.some.inj (hnext.symm.trans hnext')
        obtain ⟨hpos₁, hitem₁⟩ := ih (fun hpre ↦ h (List.cons_prefix_cons.mpr ⟨rfl, hpre⟩))
          (fun hpre ↦ h' (List.cons_prefix_cons.mpr ⟨rfl, hpre⟩)) htail hchild htail' hchild'
        have hnew : (ZConfig.node root.name root.value (root.children.set i
            (next.replaceAt tail item))).children[i]? = some (next.replaceAt tail item) :=
          List.getElem?_set_self (List.getElem?_eq_some_iff.mp hnext).1
        refine ⟨positionOf_cons.mpr ⟨i, _, tail', hnames ▸ hi, hnew, hpos₁, rfl⟩, ?_⟩
        rw [itemAt_cons hnew]
        exact hitem₁
      · have hsame : (ZConfig.node root.name root.value (root.children.set i
            (next.replaceAt tail item))).children[j]? = some next' := by
          show (root.children.set i _)[j]? = _
          rw [List.getElem?_set_ne hij, hnext']
        refine ⟨positionOf_cons.mpr ⟨j, next', tail', hnames ▸ hj, hsame, htail', rfl⟩, ?_⟩
        rw [itemAt_cons hsame]
        exact hchild'

theorem not_prefix_map {p q : List (List Char)} (h : ¬ p <+: q) :
    ¬ p.map String.ofList <+: q.map String.ofList := by
  intro hpre
  have hback := hpre.map String.toList
  simp only [List.map_map, Function.comp_def, String.toList_ofList, List.map_id'] at hback
  exact h hback

theorem plainFiles_pathLaws : ZConfigPathLaws plainFiles fun _ _ ↦ True where
  toZConfigLaws := plainFiles_laws
  writes _ _ _ := iff_of_true rfl trivial
  lasting _ _ _ _ := Iff.rfl
  entered root path _ _ := by
    obtain ⟨pos, item, hpos, hitem⟩ :=
      positionOf_putNames ((segments path).map String.ofList) root
    exact Option.isSome_iff_exists.mpr ⟨_, locateItem_of hpos hitem⟩
  put root path path' found _ _ hapart hfound := by
    obtain ⟨hlocate, hitem⟩ := locateItem_eq_some hfound
    obtain ⟨hpos, hitem⟩ := positionOf_putNames_apart (not_prefix_map hapart.1)
      (not_prefix_map hapart.2) hlocate hitem
    exact locateItem_of hpos hitem
  replaced root path path' pos child item found _ _ hapart hitem hname hfound := by
    obtain ⟨hlocate, hchild⟩ := locateItem_eq_some hitem
    obtain ⟨hlocate', hchild'⟩ := locateItem_eq_some hfound
    obtain ⟨hpos, hitem⟩ := positionOf_replaceAt_apart (not_prefix_map hapart.1)
      (not_prefix_map hapart.2) hlocate hchild hname hlocate' hchild'
    exact locateItem_of hpos hitem

def serverAndUnknown : List (String × Json) :=
  [("BIOS_SMTP_SERVER", .str "mail"), ("BIOS_NO_SUCH_KEY", .int 1)]

theorem rejected_post_iff_mail :
    ((∃ e, (postConfig plainFiles mapping mailFiles (.object serverAndUnknown)).2 = .error e) →
        plainFiles.load (postConfig plainFiles mapping mailFiles (.object serverAndUnknown)).1 =
          plainFiles.load mailFiles) ↔
      ∀ saved member rest, serverAndUnknown = saved ++ member :: rest →
        (∀ m ∈ saved, Taken plainFiles mapping (fun _ _ ↦ True) mailFiles m) →
          ¬ Taken plainFiles mapping (fun _ _ ↦ True) mailFiles member →
            AllHold plainFiles mapping (plainFiles.load mailFiles) saved :=
  rejected_post_iff plainFiles_pathLaws mailFiles serverAndUnknown

/-- The request is rejected for the unknown key, and the server is changed. -/
theorem server_changed_by_rejected_post :
    (postConfig plainFiles mapping mailFiles (.object serverAndUnknown)).2 =
        .error (.bios "element-not-found" "BIOS_NO_SUCH_KEY") ∧
      loadConfig plainFiles mapping mailFiles "BIOS_SMTP_SERVER" = .ok (.str "localhost") ∧
      loadConfig plainFiles mapping
        (postConfig plainFiles mapping mailFiles (.object serverAndUnknown)).1
        "BIOS_SMTP_SERVER" = .ok (.str "mail") ∧
      plainFiles.load (postConfig plainFiles mapping mailFiles (.object serverAndUnknown)).1 ≠
        plainFiles.load mailFiles := by
  have hbefore : loadConfig plainFiles mapping mailFiles "BIOS_SMTP_SERVER" =
      .ok (.str "localhost") := rfl
  have hafter : loadConfig plainFiles mapping
      (postConfig plainFiles mapping mailFiles (.object serverAndUnknown)).1 "BIOS_SMTP_SERVER" =
        .ok (.str "mail") := rfl
  refine ⟨rfl, hbefore, hafter, ?_⟩
  intro hsame
  have heq : (postConfig plainFiles mapping mailFiles (.object serverAndUnknown)).1 = mailFiles :=
    hsame
  rw [heq, hbefore] at hafter
  have htext := Json.str.inj (Except.ok.inj hafter)
  exact absurd htext (by decide)

end FtyRest.Ecpp
