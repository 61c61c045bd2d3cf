import FtyRest.Lib.CString
import FtyRest.Persist.Assetcrud
import Mathlib.Algebra.Ring.Nat

/-!
# Texts of the links

`select_asset_device_links_all` of `persist/assetcrud.cc` and the sockets it shows, which
`process_row` stores; with the sizes of their buffers.
-/

namespace FtyRest.Persist

/-- `new char[4]` of `process_row` -/
def socketSize : Nat := 4

/-- `char buff[26]; // 10+3+3+10` -/
def buffSize : Nat := 26

/-- What `process_row` copies of a cell, `substr(0, 4).c_str()`. -/
def socketText (cell : List UInt8) : CString := .ofMemory (cell.take 4)

/-- What `strcpy` writes for a cell `power_plug_src` or `power_input`. -/
def strcpySocket (cell : List UInt8) : List UInt8 := (socketText cell).stored

theorem strlen_socketText {cell : List UInt8} :
    (socketText cell).strlen = min 4 (CString.ofMemory cell).strlen := CString.strlen_ofMemory_take

/-- A socket as an import can store it. -/
structure Socket where
  text : CString
  short : text.strlen ≤ 4
deriving DecidableEq

def Socket.ofCell (cell : List UInt8) : Socket where
  text := socketText cell
  short := by
    rw [strlen_socketText]
    exact Nat.min_le_left 4 _

/-- Each of them is stored for some cell. -/
theorem Socket.ofCell_surjective : Function.Surjective Socket.ofCell := by
  rintro ⟨text, short⟩
  refine ⟨text.bytes, ?_⟩
  have hwhole : text.bytes.take 4 = text.bytes := List.take_of_length_le short
  simp only [Socket.ofCell, socketText, hwhole, CString.ofMemory_bytes]

/-- A row of `v_bios_asset_link`, with the sockets and with ids as wide as in the table. -/
structure SocketRow extends LinkRow where
  srcOut : Option Socket := none
  destIn : Option Socket := none
  src_lt : idAssetElementSrc < 2 ^ 32
  dest_lt : idAssetElementDest < 2 ^ 32
deriving DecidableEq

def srcoutDestinIsNull : CString := .ofAscii "999"

def socketOrDefault (socket : Option Socket) : CString :=
  match socket with
  | some socket => socket.text
  | none => srcoutDestinIsNull

/-- `"%s:%" PRIu32 ":%s:%" PRIu32` -/
def linkText (row : SocketRow) : CString :=
  socketOrDefault row.srcOut ++ .ofAscii ":" ++ .decimal row.idAssetElementSrc ++ .ofAscii ":" ++
    socketOrDefault row.destIn ++ .ofAscii ":" ++ .decimal row.idAssetElementDest

/-- The condition of the query; a type of `0` is any type. -/
def SocketRow.selected (deviceId linkTypeId : Nat) (row : SocketRow) : Bool :=
  (row.idAssetElementDest = deviceId ∨ row.idAssetElementSrc = deviceId) ∧
    (linkTypeId = 0 ∨ row.idAssetLinkType = linkTypeId)

/-- The list grows at its front; `none` is a database that fails. -/
def selectAssetDeviceLinksAll (conn : Except String (List SocketRow)) (deviceId linkTypeId : Nat) :
    Option (List CString) :=
  match conn with
  | .ok rows =>
    some <| (rows.filter (SocketRow.selected deviceId linkTypeId)).foldl
      (fun links row ↦ linkText row :: links) []
  | .error _ => none

/-! ## Lengths -/

/-- The number of characters of a link that its sockets and ids decide. -/
def SocketRow.width (row : SocketRow) : Nat :=
  (socketOrDefault row.srcOut).strlen + (socketOrDefault row.destIn).strlen +
    (Nat.toDigits 10 row.idAssetElementSrc).length + (Nat.toDigits 10 row.idAssetElementDest).length

theorem strlen_linkText {row : SocketRow} : (linkText row).strlen = row.width + 3 := by
  have hcolon : (CString.ofAscii ":").strlen = 1 := by decide
  unfold linkText SocketRow.width
  simp only [CString.strlen_append, CString.strlen_decimal, hcolon]
  omega

theorem mem_selectAssetDeviceLinksAll {rows : List SocketRow} {deviceId linkTypeId : Nat}
    {links : List CString}
    (h : selectAssetDeviceLinksAll (.ok rows) deviceId linkTypeId = some links) {text : CString} : text ∈ links ↔
      ∃ row ∈ rows, row.selected deviceId linkTypeId = true ∧ linkText row = text := by
  obtain rfl := Option.some.inj h
  rw [List.foldl_flip_cons_eq_append, List.append_nil, List.mem_reverse, List.mem_map]
  simp only [List.mem_filter, and_assoc]

/-- A socket fits when the cell has at most three characters; the links fit when each of them has
sockets and ids of at most 22 characters: the comment on the size leaves out three colons.  The
sockets of the rows are those that are stored for the cells. -/
theorem linkTexts_fit_iff (cell : List UInt8) (conn : Except String (List SocketRow))
    (deviceId linkTypeId : Nat) :
    ((strcpySocket cell).length ≤ socketSize ↔ (CString.ofMemory cell).strlen ≤ 3) ∧
    ((∀ links, selectAssetDeviceLinksAll conn deviceId linkTypeId = some links →
        ∀ text ∈ links, text.stored.length ≤ buffSize) ↔
      ∀ rows, conn = .ok rows → ∀ row ∈ rows, row.selected deviceId linkTypeId = true →
        row.width ≤ 22) ∧
    Function.Surjective Socket.ofCell := by
  refine ⟨?_, ?_, Socket.ofCell_surjective⟩
  · rw [strcpySocket, CString.strlen_stored, strlen_socketText, socketSize]
    omega
  · constructor
    · -- the three colons and the terminator take four of the 26 bytes
      rintro hfit rows rfl row hrow hselected
      have htext : linkText row ∈ (rows.filter (SocketRow.selected deviceId linkTypeId)).foldl
          (fun links row ↦ linkText row :: links) [] :=
        (mem_selectAssetDeviceLinksAll rfl).mpr ⟨row, hrow, hselected, rfl⟩
      have hlength := hfit _ rfl _ htext
      rw [CString.strlen_stored, strlen_linkText, buffSize] at hlength
      omega
    · intro hnarrow links hlinks text htext
      cases conn with
      | error what => cases hlinks
      | ok rows =>
        obtain ⟨row, hrow, hselected, rfl⟩ := (mem_selectAssetDeviceLinksAll hlinks).mp htext
        have hwidth := hnarrow rows rfl row hrow hselected
        rw [CString.strlen_stored, strlen_linkText, buffSize]
        omega

/-- A link between devices with large ids, without sockets. -/
def largeIds : SocketRow where
  idAssetElementSrc := 4294967294
  idAssetElementDest := 4294967295
  idAssetLinkType := 1
  src_ne_zero := by decide
  dest_ne_zero := by decide
  src_lt := by decide
  dest_lt := by decide

/-- Neither do the sockets fit nor the links. -/
theorem linkTexts_overflow :
    (¬ ∀ cell, (strcpySocket cell).length ≤ socketSize) ∧
    ¬ ∀ (conn : Except String (List SocketRow)) (deviceId linkTypeId : Nat) (links : List CString),
      selectAssetDeviceLinksAll conn deviceId linkTypeId = some links →
        ∀ text ∈ links, text.stored.length ≤ buffSize := by
  constructor
  · intro hfit
    have hport := hfit (CString.ofAscii "port").bytes
    exact absurd hport (by decide)
  · intro hfit
    have hlarge := hfit (.ok [largeIds]) 4294967295 1 [linkText largeIds] rfl (linkText largeIds)
      List.mem_cons_self
    rw [CString.strlen_stored, strlen_linkText] at hlarge
    exact absurd hlarge (by decide)

end FtyRest.Persist
