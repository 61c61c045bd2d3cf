import FtyRest.Db.Inout.ProcessRow
import FtyRest.Shared.Csv

/-!
# `bios-csv compare`

`s_compare` of `bios-csv/bios-csv.cc`, which tells whether two files say the same, and how far that
is an equivalence.
-/

namespace FtyRest.BiosCsv

open Db Shared

/-- `std::transform (…, ::tolower)` -/
def lowered (s : String) : String := .ofList (s.toList.map Char.toLower)

/-- Two cells of a column that both files have; `behind` is what is read behind the terminator of
an empty priority. -/
def cellsEqual (behind : Char) (title value1 value2 : String) : Bool :=
  -- whatever is no digit from 1 to 5 is the priority 5
  if title = "priority" then getPriority behind value1 = getPriority behind value2
  else if title = "type" ∨ title = "sub_type" ∨ title = "status" then
    lowered value1 = lowered value2
  else value1 = value2

section

variable (behind : Char) (c1 c2 : CsvMap) (line : Nat)

end

/-- The cell of a line, if the file has the column. -/
def entry (c : CsvMap) (line : Nat) (title : String) : Option String :=
  if title ∈ c.getTitles then (c.get line title).toOption else none

/-- A missing column counts as one of empty cells. -/
def Matches (behind : Char) (title : String) : Option String → Option String → Prop
  | none, none => True
  | some value1, none => value1 = ""
  | none, some value2 => value2 = ""
  | some value1, some value2 => cellsEqual behind title value1 value2 = true

/-- The empty priority in the middle is the default priority, but no longer when the column is
missing on one side. -/
def Lost (entry1 entry2 entry3 : Option String) : Prop :=
  entry2 = some "" ∧
    (entry1 = none ∧ (∃ value, entry3 = some value ∧ value ≠ "") ∨
      entry3 = none ∧ ∃ value, entry1 = some value ∧ value ≠ "")

/-! ## Cells -/

section

variable {behind : Char} {title value value1 value2 value3 : String} {entry1 entry2 entry3 : Option String}

theorem cellsEqual_priority :
    cellsEqual behind "priority" value1 value2 = true ↔ getPriority behind value1 = getPriority behind value2 := by
  simp [cellsEqual]

theorem lowered_eq_empty : lowered value = "" ↔ value = "" := by
  constructor
  · intro h
    have hlist := congrArg String.toList h
    rw [lowered, String.toList_ofList] at hlist
    exact String.toList_injective (List.map_eq_nil_iff.mp hlist)
  · rintro rfl
    rfl

/-- The text that decides in a column other than the priority. -/
def normal (title value : String) : String :=
  if title = "type" ∨ title = "sub_type" ∨ title = "status" then lowered value else value

theorem cellsEqual_iff (h : title ≠ "priority") :
    cellsEqual behind title value1 value2 = true ↔ normal title value1 = normal title value2 := by
  unfold cellsEqual normal
  rw [if_neg h]
  split <;> simp

theorem normal_eq_empty : normal title value = normal title "" ↔ value = "" := by
  unfold normal
  split
  · exact lowered_eq_empty
  · exact Iff.rfl

theorem matches_iff (h : title ≠ "priority") : Matches behind title entry1 entry2 ↔
    normal title (entry1.getD "") = normal title (entry2.getD "") := by
  cases entry1 with
  | none =>
    cases entry2 with
    | none => exact iff_of_true trivial rfl
    | some value2 => exact normal_eq_empty.symm.trans eq_comm
  | some value1 =>
    cases entry2 with
    | none => exact normal_eq_empty.symm
    | some value2 => exact cellsEqual_iff h

theorem matches_symm (h : Matches behind title entry1 entry2) : Matches behind title entry2 entry1 := by
  by_cases htitle : title = "priority"
  · subst htitle
    cases entry1 with
    | none => cases entry2 <;> exact h
    | some value1 =>
      cases entry2 with
      | none => exact h
      | some value2 => exact cellsEqual_priority.mpr (cellsEqual_priority.mp h).symm
  · exact (matches_iff htitle).mpr ((matches_iff htitle).mp h).symm

end

/-! ## Files -/

section

variable {behind : Char} {c c1 c2 c3 : CsvMap} {line : Nat} {title : String}

/-- What `s_compare` tells of two files. -/
structure SameFiles (behind : Char) (c1 c2 : CsvMap) : Prop where
  rows : c1.rows = c2.rows
  lines : ∀ line, 1 ≤ line → line < c1.rows →
    ∀ title, Matches behind title (entry c1 line title) (entry c2 line title)

theorem SameFiles.symm (h : SameFiles behind c1 c2) : SameFiles behind c2 c1 where
  rows := h.rows.symm
  lines := by
    intro line hpos hlt title
    exact matches_symm (h.lines line hpos (h.rows ▸ hlt) title)

variable {deserializer : Char → List Char → Option (List (List String))} {file file1 file2 file3 : List Char}

end

/-! ## A column that is missing in one of three files -/

end FtyRest.BiosCsv
