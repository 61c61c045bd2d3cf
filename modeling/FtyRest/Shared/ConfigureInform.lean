import FtyRest.Lib.AssocList
import FtyRest.Lib.Checks
import FtyRest.Lib.StateExcept

/-!
# `send_configure`

`shared/configure_inform.cc`: the messages by which changed elements are published.
-/

namespace FtyRest.Shared

open Checks StateExcept

/-- `zhash_t` -/
abbrev ZHash := List (String × String)

namespace ZHash

/-- An item that is there stays. -/
def insert (hash : ZHash) (key value : String) : ZHash :=
  if (hash.lookup key).isSome then hash else hash ++ [(key, value)]

def update (hash : ZHash) (key value : String) : ZHash :=
  hash.filter (·.1 ≠ key) ++ [(key, value)]

theorem lookup_insert (hash : ZHash) (key value key' : String) :
    (hash.insert key value).lookup key' =
      (hash.lookup key').or (if key' = key then some value else none) := by
  unfold insert
  split
  · rename_i h
    split
    · rename_i heq
      rw [heq]
      cases hlookup : hash.lookup key with
      | none =>
        rw [hlookup] at h
        cases h
      | some old => rfl
    · rw [Option.or_none]
  · rw [List.lookup_append, List.lookup_cons, List.lookup_nil]
    by_cases heq : key' = key
    · rw [heq, beq_self_eq_true, if_pos rfl]
    · rw [beq_eq_false_iff_ne.mpr heq, if_neg heq]

end ZHash

/-- `db_a_elmnt_t` -/
structure DbElement where
  id : Nat
  name : String
  status : String
  parentId : Nat
  priority : Nat
  typeId : Nat
  subtypeId : Nat
  ext : List (String × String)

/-- A row of the super parents, by the names of its columns; `none` is `NULL`. -/
abbrev ParentRow := String → Option String

structure AssetMessage where
  subject : String
  aux : ZHash
  name : String
  operation : String
  ext : ZHash
deriving DecidableEq

inductive Published where
  | asset (message : AssetMessage)
  -- the agent is asked to publish the asset again
  | republish (name : String)

/-- What `send_configure` asks its surroundings, for the operations `ω`. -/
structure ConfigureEnv (ω : Type) where
  typeidToType : Nat → String
  subtypeidToSubtype : Nat → String
  operation2str : ω → String
  ups : Nat
  /-- the client, connected as a producer, or the text of the exception -/
  connect : Except String Unit
  /-- `none` is a failed query. -/
  selectAssetElementSuperParent : Nat → Option (List ParentRow)
  /-- what is put into the hash -/
  getDcUpses : String → ZHash
  /-- `mlm_client_send` returns `0` -/
  sent : AssetMessage → Bool

/-- The columns of the ancestors. -/
def parentColumns : List String :=
  ["parent_name1", "parent_name2", "parent_name3", "parent_name4", "parent_name5", "parent_name6",
   "parent_name7", "parent_name8", "parent_name9", "parent_name10"]

/-- `hash_name.insert(11, 1, '.')` -/
def hashName (name : String) : String :=
  String.ofList (name.toList.take 11 ++ '.' :: name.toList.drop 11)

/-- One column in the loop of `cb`, which also keeps the name of the datacenter. -/
def parentStep (row : ParentRow) (s : ZHash × String) (name : String) : ZHash × String :=
  let foo := (row name).getD ""
  if foo ≠ "" then (s.1.insert (hashName name) foo, foo) else s

def cb (s : ZHash × String) (row : ParentRow) : ZHash × String :=
  parentColumns.foldl (parentStep row) s

section

variable {ω : Type} (env : ConfigureEnv ω)

def startAux (element : DbElement) : ZHash :=
  ZHash.insert (ZHash.insert (ZHash.insert (ZHash.insert (ZHash.insert []
    "priority" (toString element.priority))
    "type" (env.typeidToType element.typeId))
    "subtype" (env.subtypeidToSubtype element.subtypeId))
    "parent" (toString element.parentId))
    "status" element.status

/-- The message about an element with the rows of its ancestors. -/
def elementMessage (element : DbElement) (operation : ω) (parents : List ParentRow) :
    AssetMessage where
  subject := env.typeidToType element.typeId ++ "." ++
    env.subtypeidToSubtype element.subtypeId ++ "@" ++ element.name
  aux := (parents.foldl cb (startAux env element, "")).1
  name := element.name
  operation := env.operation2str operation
  ext := element.ext

/-- The last ancestor: the topology ends with a datacenter. -/
def dcName (element : DbElement) (parents : List ParentRow) : String :=
  (parents.foldl cb (startAux env element, "")).2

/-- The data for the uptime of a datacenter. -/
def uptimeMessage (dcName : String) : AssetMessage where
  subject := "datacenter.unknown@" ++ dcName
  aux := (env.getDcUpses dcName).update "type" "datacenter"
  name := dcName
  operation := "inventory"
  ext := []

def publish (message : AssetMessage) : Prog (List Published) String Unit := do
  look fun _ ↦ require (env.sent message) "mlm_client_send () failed."
  change (· ++ [.asset message])

/-- A new or changed asset is published again, with its UUID. -/
def askRepublish (oneRow : DbElement × ω) : Prog (List Published) String Unit :=
  if env.operation2str oneRow.2 = "create" ∨ env.operation2str oneRow.2 = "update" then
    change (· ++ [.republish oneRow.1.name])
  else pure ()

def publishUptime (element : DbElement) (parents : List ParentRow) :
    Prog (List Published) String Unit :=
  if element.subtypeId = env.ups then publish env (uptimeMessage env (dcName env element parents))
  else pure ()

def configureRow (oneRow : DbElement × ω) : Prog (List Published) String Unit := do
  let parents ← look fun _ ↦ orThrow (env.selectAssetElementSuperParent oneRow.1.id)
    "persist::select_asset_element_super_parent () failed."
  publish env (elementMessage env oneRow.1 oneRow.2 parents)
  askRepublish env oneRow
  publishUptime env oneRow.1 parents

def sendConfigure (rows : List (DbElement × ω)) : Prog (List Published) String Unit := do
  look fun _ ↦ env.connect
  rows.forM (configureRow env)

end

/-! ## What is published -/

section

variable {ω : Type} {env : ConfigureEnv ω} {rows : List (DbElement × ω)}

/-- A message is about a row, or about the datacenter of one. -/
def FromRows (env : ConfigureEnv ω) (rows : List (DbElement × ω)) : Published → Prop
  | .asset message => ∃ oneRow ∈ rows, ∃ parents,
      env.selectAssetElementSuperParent oneRow.1.id = some parents ∧
      (message = elementMessage env oneRow.1 oneRow.2 parents ∨
        oneRow.1.subtypeId = env.ups ∧
          message = uptimeMessage env (dcName env oneRow.1 parents))
  | .republish name => ∃ oneRow ∈ rows, name = oneRow.1.name

theorem keeps_publish {I : List Published → Prop} {message : AssetMessage}
    (h : ∀ published, I published → I (published ++ [.asset message])) :
    Keeps I (publish env message) :=
  keeps_bind keeps_look fun _ ↦ keeps_change h

/-- However it ends, nothing else is published. -/
theorem published_fromRows {published : List Published}
    (h : ∀ p ∈ published, FromRows env rows p) :
    ∀ p ∈ (run (sendConfigure env rows) published).2, FromRows env rows p := by
  have hmore (p : Published) (hp : FromRows env rows p) (published : List Published)
      (h : ∀ p ∈ published, FromRows env rows p) :
      ∀ p' ∈ published ++ [p], FromRows env rows p' := by
    intro p' hp'
    rcases List.mem_append.mp hp' with hp' | hp'
    · exact h p' hp'
    · rw [List.mem_singleton.mp hp']
      exact hp
  -- a row publishes its configuration, and for a ups its uptime
  have hrow (oneRow : DbElement × ω) (hmem : oneRow ∈ rows) :
      Keeps (fun published ↦ ∀ p ∈ published, FromRows env rows p) (configureRow env oneRow) := by
    apply keeps_look_bind
    intro _ parents hparents
    have hparents := orThrow_eq_ok.mp hparents
    apply keeps_bind
    · exact keeps_publish (hmore _ ⟨oneRow, hmem, parents, hparents, .inl rfl⟩)
    · intro _
      apply keeps_bind
      · apply keeps_ite
        · exact keeps_change (hmore _ ⟨oneRow, hmem, rfl⟩)
        · exact keeps_pure
      · intro _
        unfold publishUptime
        split
        · rename_i hups
          exact keeps_publish (hmore _ ⟨oneRow, hmem, parents, hparents, .inr ⟨hups, rfl⟩⟩)
        · exact keeps_pure
  exact keeps_bind keeps_look (fun _ ↦ keeps_forM_mem hrow) published h

end

end FtyRest.Shared
