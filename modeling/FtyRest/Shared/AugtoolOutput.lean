import FtyRest.Lib.Separated
import FtyRest.Shared.Augtool

/-!
# The answer of `augtool`

`get_cmd_out` with a filter, from the text that the process has printed.  A `Char` of a text is one
`char` of C, a byte.
-/

namespace FtyRest.Shared

open Separated

section

-- `sep` separates values, and `filter` excludes a value
variable (keyValue : Bool) (sep : String) (filter : String → Bool)

/-- One line in the loop of `get_cmd_out`; `none` is the exception of `substr`. -/
def cmdOutLine (ret line : String) : Option String :=
  if !line.toList.contains '=' && keyValue then some ret
  else do
    let value ← outputValue line
    return if filter value then ret else ret ++ (if ret = "" then "" else sep) ++ value

/-- `get_cmd_out` on the raw output; `split` is `fty::split`. -/
def getCmdOutOfRaw (split : String → String → List String) (cmdOutput : String) : Option String :=
  let lines := split cmdOutput "\n"
  if lines.length ≥ 3 then
    -- the first and the last line are prompts
    lines.tail.dropLast.foldlM (cmdOutLine keyValue sep filter) ""
  else some ""

/-! ## What is to be answered -/

def innerLines (lines : List String) : List String := lines.tail.dropLast

/-- The text behind the first `=` and the blank after it, or the line. -/
def lineValue (line : String) : String :=
  match line.toList.findIdx? (· = '=') with
  | some pos => String.ofList (line.toList.drop (pos + 2))
  | none => line

def keptValues (lines : List String) : List String :=
  ((lines.filter fun line ↦ line.toList.contains '=' || !keyValue).map lineValue).filter
    fun value ↦ !filter value

/-- The kept values of the inner lines, with one separator between two of them. -/
def JoinsValues (split : String → String → List String) (cmdOutput : String) : Prop :=
  getCmdOutOfRaw keyValue sep filter split cmdOutput =
    some (sep.intercalate (keptValues keyValue filter (innerLines (split cmdOutput "\n"))))

/-- The first `=` of the line is its end. -/
def EndsInEquals (line : String) : Prop := ∃ path, line = path ++ "=" ∧ '=' ∉ path.toList

end

section

variable {keyValue : Bool} {sep : String} {filter : String → Bool} {line ret : String}
  {lines : List String}

/-! ## One line -/

theorem findIdx?_equals {path rest : List Char} (h : '=' ∉ path) :
    (path ++ '=' :: rest).findIdx? (· = '=') = some path.length := by
  rw [List.findIdx?_append, List.findIdx?_eq_none_iff.mpr]
  · simp [List.findIdx?_cons]
  · intro c hc
    exact decide_eq_false fun heq ↦ h (heq ▸ hc)

theorem findIdx?_equals_none (h : '=' ∉ line.toList) :
    line.toList.findIdx? (· = '=') = none := by
  rw [List.findIdx?_eq_none_iff]
  intro c hc
  apply decide_eq_false
  rintro rfl
  exact h hc

theorem EndsInEquals.mem (h : EndsInEquals line) : '=' ∈ line.toList := by
  obtain ⟨path, rfl, -⟩ := h
  rw [String.toList_append]
  exact List.mem_append_right _ (List.mem_singleton.mpr rfl)

/-- A line with its first `=` ends in it exactly when nothing is behind it. -/
theorem endsInEquals_iff {path rest : List Char} (hline : line.toList = path ++ '=' :: rest)
    (hpath : '=' ∉ path) : EndsInEquals line ↔ rest = [] := by
  constructor
  · rintro ⟨path', rfl, hpath'⟩
    have hend : path'.toList ++ '=' :: [] = path ++ '=' :: rest := by
      rw [← hline, String.toList_append]
      rfl
    have hfirst : (path ++ '=' :: rest).findIdx? (· = '=') = some path.length :=
      findIdx?_equals hpath
    rw [← hend, findIdx?_equals hpath'] at hfirst
    have hlength := congrArg List.length hend
    simp only [List.length_append, List.length_cons, List.length_nil] at hlength
    have hpos := Option.some.inj hfirst
    exact List.length_eq_zero_iff.mp (by omega)
  · rintro rfl
    refine ⟨String.ofList path, ?_, by rwa [String.toList_ofList]⟩
    apply String.toList_injective
    rw [hline, String.toList_append, String.toList_ofList]
    rfl

/-- `substr` throws exactly for a line that ends in its first `=`. -/
theorem outputValue_of_endsInEquals (h : EndsInEquals line) : outputValue line = none := by
  obtain ⟨path, rfl, hpath⟩ := h
  have hline : (path ++ "=").toList = path.toList ++ '=' :: [] := String.toList_append
  have hlength : (path ++ "=").length < path.toList.length + 2 := by
    rw [← String.length_toList, hline, List.length_append]
    exact Nat.lt_succ_self _
  unfold outputValue
  rw [hline, findIdx?_equals hpath]
  dsimp only
  rw [if_pos hlength]

theorem outputValue_of_not_endsInEquals (h : ¬ EndsInEquals line) :
    outputValue line = some (lineValue line) := by
  unfold outputValue lineValue
  by_cases hmem : '=' ∈ line.toList
  · obtain ⟨path, rest, hline, hpath⟩ := List.eq_append_cons_of_mem hmem
    rw [endsInEquals_iff hline hpath] at h
    have hrest := List.length_pos_iff.mpr h
    have hlength : ¬ line.length < path.length + 2 := by
      rw [← String.length_toList, hline, List.length_append, List.length_cons]
      omega
    rw [hline, findIdx?_equals hpath]
    dsimp only
    rw [if_neg hlength]
  · rw [findIdx?_equals_none hmem]

/-! ## The loop -/

theorem cmdOutLine_eq : cmdOutLine keyValue sep filter ret line =
    if line.toList.contains '=' || !keyValue then
      (outputValue line).map fun value ↦ if filter value then ret else joinStep sep ret value
    else some ret := by
  unfold cmdOutLine
  cases line.toList.contains '=' with
  | true => cases outputValue line with
    | none => rfl
    | some value => rfl
  | false => cases keyValue with
    | true => rfl
    | false => cases outputValue line with
      | none => rfl
      | some value => rfl

theorem cmdOutLine_of_endsInEquals (h : EndsInEquals line) :
    cmdOutLine keyValue sep filter ret line = none := by
  have hmem : line.toList.contains '=' = true := List.contains_iff_mem.mpr h.mem
  rw [cmdOutLine_eq, hmem, outputValue_of_endsInEquals h]
  rfl

theorem cmdOutLine_of_not_endsInEquals (h : ¬ EndsInEquals line) :
    cmdOutLine keyValue sep filter ret line =
      some ((keptValues keyValue filter [line]).foldl (joinStep sep) ret) := by
  rw [cmdOutLine_eq, outputValue_of_not_endsInEquals h, keptValues, List.filter_singleton]
  cases line.toList.contains '=' || !keyValue with
  | false => rfl
  | true =>
    rw [if_pos rfl, cond_true, List.map_singleton, List.filter_singleton, Option.map_some]
    cases filter (lineValue line) with
    | false => rfl
    | true => rfl

theorem keptValues_cons : keptValues keyValue filter (line :: lines) =
    keptValues keyValue filter [line] ++ keptValues keyValue filter lines := by
  unfold keptValues
  rw [← List.filter_append, ← List.map_append, ← List.filter_append]
  rfl

theorem foldlM_cmdOutLine (h : ∀ line ∈ lines, ¬ EndsInEquals line) :
    lines.foldlM (cmdOutLine keyValue sep filter) ret =
      some ((keptValues keyValue filter lines).foldl (joinStep sep) ret) := by
  induction lines generalizing ret with
  | nil => rfl
  | cons line lines ih =>
    obtain ⟨hline, hlines⟩ := List.forall_mem_cons.mp h
    rw [keptValues_cons, List.foldl_append, List.foldlM_cons,
      cmdOutLine_of_not_endsInEquals hline]
    exact ih hlines

/-- A line that ends in its first `=` ends the loop, whatever the filter says. -/
theorem foldlM_cmdOutLine_none (hmem : line ∈ lines) (h : EndsInEquals line) :
    lines.foldlM (cmdOutLine keyValue sep filter) ret = none := by
  induction lines generalizing ret with
  | nil => cases hmem
  | cons first lines ih =>
    rw [List.foldlM_cons]
    cases hmem with
    | head =>
      rw [cmdOutLine_of_endsInEquals h]
      rfl
    | tail _ hmem =>
      cases cmdOutLine keyValue sep filter ret first with
      | none => rfl
      | some ret => exact ih hmem

theorem innerLines_eq_nil (h : ¬ lines.length ≥ 3) : innerLines lines = [] := by
  apply List.length_eq_zero_iff.mp
  rw [innerLines, List.length_dropLast, List.length_tail]
  omega

theorem getCmdOutOfRaw_eq (split : String → String → List String) (cmdOutput : String) :
    getCmdOutOfRaw keyValue sep filter split cmdOutput =
      (innerLines (split cmdOutput "\n")).foldlM (cmdOutLine keyValue sep filter) "" := by
  unfold getCmdOutOfRaw
  dsimp only
  split
  · rfl
  · rename_i hshort
    rw [innerLines_eq_nil hshort]
    rfl

theorem joinsValues_iff (keyValue : Bool) (sep : String) (filter : String → Bool)
    (split : String → String → List String) (cmdOutput : String) :
    JoinsValues keyValue sep filter split cmdOutput ↔
      let lines := innerLines (split cmdOutput "\n")
      let values := keptValues keyValue filter lines
      (∀ line ∈ lines, ¬ EndsInEquals line) ∧
        (sep = "" ∨ values.length ≤ 1 ∨ values.head? ≠ some "") := by
  unfold JoinsValues
  rw [getCmdOutOfRaw_eq]
  dsimp only
  constructor
  · intro h
    have hlines : ∀ line ∈ innerLines (split cmdOutput "\n"), ¬ EndsInEquals line := by
      intro line hmem hline
      rw [foldlM_cmdOutLine_none hmem hline] at h
      cases h
    rw [foldlM_cmdOutLine hlines] at h
    exact ⟨hlines, foldl_joinStep_eq_iff.mp (Option.some.inj h)⟩
  · rintro ⟨hlines, hvalues⟩
    rw [foldlM_cmdOutLine hlines, foldl_joinStep_eq_iff.mpr hvalues]

/-- Without a filter the answer is the one that is read from the lines. -/
theorem getCmdOutOfRaw_eq_getCmdOut (split : String → String → List String) (cmdOutput : String) :
    getCmdOutOfRaw keyValue sep (fun _ ↦ false) split cmdOutput =
      getCmdOut (split cmdOutput "\n") keyValue sep := by
  -- the loop collects the values and joins them at once
  have hloop (ret : String) (lines : List String) :
      lines.foldlM (cmdOutLine keyValue sep fun _ ↦ false) ret =
        ((lines.filter fun line ↦ !keyValue || line.toList.contains '=').mapM outputValue).bind
          fun values ↦ some (values.foldl (joinStep sep) ret) := by
    induction lines generalizing ret with
    | nil => rfl
    | cons line lines ih =>
      rw [List.foldlM_cons, cmdOutLine_eq, List.filter_cons, Bool.or_comm (!keyValue)]
      cases line.toList.contains '=' || !keyValue with
      | false => exact ih ret
      | true =>
        rw [if_pos rfl, if_pos rfl, List.mapM_cons]
        cases outputValue line with
        | none => rfl
        | some value =>
          show lines.foldlM (cmdOutLine keyValue sep fun _ ↦ false) (joinStep sep ret value) = _
          rw [ih]
          cases (lines.filter fun line ↦ !keyValue || line.toList.contains '=').mapM outputValue with
          | none => rfl
          | some values => rfl
  unfold getCmdOut
  rw [getCmdOutOfRaw_eq, hloop]
  split
  · rename_i hshort
    rw [innerLines_eq_nil (Nat.not_le.mpr hshort)]
    rfl
  · rfl

/-- The answer is the joined values exactly when no inner line ends in its first `=`, and the first
of several values is not empty; without a filter it is the one that the pages read. -/
theorem getCmdOutOfRaw_joins_iff (keyValue : Bool) (sep : String) (filter : String → Bool)
    (split : String → String → List String) (cmdOutput : String) :
    (JoinsValues keyValue sep filter split cmdOutput ↔
      let lines := innerLines (split cmdOutput "\n")
      let values := keptValues keyValue filter lines
      (∀ line ∈ lines, ¬ EndsInEquals line) ∧
        (sep = "" ∨ values.length ≤ 1 ∨ values.head? ≠ some "")) ∧
    getCmdOutOfRaw keyValue sep (fun _ ↦ false) split cmdOutput =
      getCmdOut (split cmdOutput "\n") keyValue sep :=
  ⟨joinsValues_iff keyValue sep filter split cmdOutput,
    getCmdOutOfRaw_eq_getCmdOut split cmdOutput⟩

end

/-- The first of two values is empty, and its separator is lost. -/
theorem first_value_empty :
    ¬ JoinsValues true "," (fun _ ↦ false)
      (fun text _ ↦ (text.toList.splitOn '\n').map String.ofList)
      "match /files\n/files/a = \n/files/b = x\naugtool> " := by
  unfold JoinsValues
  decide +kernel

end FtyRest.Shared
