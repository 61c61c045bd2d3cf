import Mathlib.Data.List.Basic

/-!
# `augtool`

`shared/augtool.{h,cc}`: one process that lives as long as the server does, and to which every
request writes its commands.  It edits a tree, and `save` writes the tree to the files.  The lines
of a command are kept with the number of the request that has issued them.
-/

namespace FtyRest.Shared

/-- What the process does with a line. -/
inductive LineKind where
  | edit
  | save
  | load
  | other
deriving DecidableEq, Repr

/-- The program `augtool`, over trees `τ` and files `φ`.  A `save` that fails writes nothing, and
`output` are the lines that a command prints, with the echo and the prompt around them. -/
structure Augeas (τ φ : Type) where
  kind : String → LineKind
  edit : τ → String → τ
  load : φ → τ
  save : τ → φ → τ × Option φ
  output : τ → String → List String
  kind_save : kind "save" = .save
  kind_set : ∀ rest, kind ("set " ++ rest) = .edit
  kind_rm : ∀ rest, kind ("rm " ++ rest) = .edit

/-- The running process.  `pending` are the edits since the tree was last the one of the files, and
`written` the edits that a `save` has written. -/
structure Augtool (τ φ : Type) where
  tree : τ
  files : φ
  request : Nat
  pending : List (Nat × String)
  written : List (Nat × String)

namespace Augtool

variable {τ φ : Type} (aug : Augeas τ φ)

/-- The edits that the files hold, or will hold with the next `save`. -/
def lines (s : Augtool τ φ) : List (Nat × String) := s.written ++ s.pending

/-- The process after `augtool::init`. -/
def start (files : φ) : Augtool τ φ where
  tree := aug.load files
  files := files
  request := 0
  pending := []
  written := []

def runLine (s : Augtool τ φ) (line : String) : Augtool τ φ :=
  match aug.kind line with
  | .edit =>
      { s with
        tree := aug.edit s.tree line
        pending := s.pending ++ [(s.request, line)] }
  | .save =>
      match aug.save s.tree s.files with
      | (tree, none) => { s with tree := tree }
      | (tree, some files) =>
          { s with
            tree := tree
            files := files
            pending := []
            written := s.written ++ s.pending }
  | .load => { s with tree := aug.load s.files, pending := [] }
  | .other => s

/-- The lines of a command, which gets a line end when it has none. -/
def commandLines (cmd : String) : List String :=
  let lines := (cmd.toList.splitOn '\n').map String.ofList
  if lines.length > 1 ∧ lines.getLast? = some "" then lines.dropLast else lines

/-- `run_cmd` -/
def runCmd (cmd : String) (s : Augtool τ φ) : Augtool τ φ :=
  (commandLines cmd).foldl (runLine aug) s

def save (s : Augtool τ φ) : Augtool τ φ := runCmd aug "save" s

end Augtool

section

variable {τ φ : Type} {aug : Augeas τ φ} {s : Augtool τ φ}

namespace Augtool

theorem commandLines_line {cmd : String} (h : '\n' ∉ cmd.toList) : commandLines cmd = [cmd] := by
  unfold commandLines
  rw [List.splitOn_eq_singleton h]
  simp

/-- A line end in a command makes two lines of it. -/
theorem commandLines_two {first second : String} (hfirst : '\n' ∉ first.toList)
    (hsecond : '\n' ∉ second.toList) (hne : second ≠ "") :
    commandLines (first ++ "\n" ++ second) = [first, second] := by
  have hlist : (first ++ "\n" ++ second).toList = first.toList ++ '\n' :: second.toList := by
    simp only [String.toList_append, List.append_assoc]
    rfl
  unfold commandLines
  rw [hlist, List.splitOn_append_cons_self_of_not_mem hfirst, List.splitOn_eq_singleton hsecond]
  simp [hne]

theorem save_eq_runLine : save aug s = runLine aug s "save" := rfl

theorem save_tree : (save aug s).tree = (aug.save s.tree s.files).1 := by
  rw [save_eq_runLine, runLine, aug.kind_save]
  rcases aug.save s.tree s.files with ⟨tree, _ | files⟩
  · rfl
  · rfl

/-- What a `save` that goes through adds to the files. -/
theorem save_written {tree : τ} {files : φ} (h : aug.save s.tree s.files = (tree, some files)) :
    (save aug s).written = s.written ++ s.pending := by
  rw [save_eq_runLine, runLine, aug.kind_save, h]

end Augtool

end

/-! ## Reading -/

/-- Right of `=` and the blank after it, or the whole line.  `none` is the exception of `substr`
for a position behind the end. -/
def outputValue (line : String) : Option String :=
  match line.toList.findIdx? (· = '=') with
  | some pos =>
      if line.length < pos + 2 then none else some (String.ofList (line.toList.drop (pos + 2)))
  | none => some line

/-- `get_cmd_out`, without a filter, from the lines that a command has printed. -/
def getCmdOut (lines : List String) (keyValue : Bool) (sep : String) : Option String :=
  if lines.length < 3 then some ""
  else do
    -- without the echo and the prompt
    let lines := lines.tail.dropLast.filter fun line ↦ !keyValue || line.toList.contains '='
    let values ← lines.mapM outputValue
    return values.foldl (fun ret line ↦ ret ++ (if ret = "" then "" else sep) ++ line) ""

theorem outputValue_value {path value : String} (h : '=' ∉ path.toList) :
    outputValue (path ++ " = " ++ value) = some value := by
  have hlist : (path ++ " = " ++ value).toList =
      (path.toList ++ [' ']) ++ '=' :: ' ' :: value.toList := by
    simp only [String.toList_append, List.append_assoc]
    rfl
  -- the first equals sign is the one behind the path
  have hfind : ((path.toList ++ [' ']) ++ '=' :: ' ' :: value.toList).findIdx? (· = '=') =
      some (path.toList.length + 1) := by
    rw [List.findIdx?_append, List.findIdx?_eq_none_iff.mpr]
    · simp [List.findIdx?_cons]
    · intro c hc
      rcases List.mem_append.mp hc with hc | hc
      · exact decide_eq_false fun heq ↦ h (heq ▸ hc)
      · rw [List.mem_singleton.mp hc]
        decide
  have hlength : (path ++ " = " ++ value).length =
      path.toList.length + value.toList.length + 3 := by
    rw [← String.length_toList, hlist]
    simp only [List.length_append, List.length_cons, List.length_nil]
    omega
  have hdrop : ((path.toList ++ [' ']) ++ '=' :: ' ' :: value.toList).drop
      (path.toList.length + 1 + 2) = value.toList := by
    rw [List.drop_append, List.drop_of_length_le (by simp)]
    simp
  unfold outputValue
  rw [hlist, hfind]
  dsimp only
  rw [hlength, if_neg (by omega), hdrop, String.ofList_toList]

theorem outputValue_path {path : String} (h : '=' ∉ path.toList) :
    outputValue path = some path := by
  unfold outputValue
  rw [List.findIdx?_eq_none_iff.mpr]
  intro c hc
  apply decide_eq_false
  rintro rfl
  exact h hc

/-! What is read between the echo and the prompt, when the command prints one line. -/

theorem getCmdOut_value (cmd sep value : String) {path : String} (h : '=' ∉ path.toList) :
    getCmdOut [cmd, path ++ " = " ++ value, "augtool> "] true sep = some value := by
  unfold getCmdOut
  rw [if_neg (by simp)]
  simp [outputValue_value h]

theorem getCmdOut_unset (cmd sep : String) {path : String} (h : '=' ∉ path.toList) :
    getCmdOut [cmd, path ++ " (o)", "augtool> "] true sep = some "" := by
  unfold getCmdOut
  rw [if_neg (by simp)]
  simp [h]

theorem getCmdOut_path (cmd sep : String) {path : String} (h : '=' ∉ path.toList) :
    getCmdOut [cmd, path, "augtool> "] false sep = some path := by
  unfold getCmdOut
  rw [if_neg (by simp)]
  simp [outputValue_path h]

end FtyRest.Shared
