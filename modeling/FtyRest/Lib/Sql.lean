import Mathlib.Data.List.Basic

/-!
# Conditions of a query

A condition is true, false or unknown, and it is unknown where it compares with `NULL`.  A query
keeps the rows for which its condition is true.
-/

namespace Sql

/-- `none` is unknown. -/
abbrev Truth := Option Bool

/-- Equality of columns; `none` is `NULL`. -/
def eq {α : Type*} [DecidableEq α] : Option α → Option α → Truth
  | some a, some b => some (decide (a = b))
  | _, _ => none

def and : Truth → Truth → Truth
  | some true, q => q
  | some false, _ => some false
  | none, some false => some false
  | none, _ => none

def or : Truth → Truth → Truth
  | some false, q => q
  | some true, _ => some true
  | none, some true => some true
  | none, _ => none

/-- `a IN (columns)`, which is a chain of comparisons. -/
def isIn {α : Type*} [DecidableEq α] (a : Option α) (columns : List (Option α)) : Truth :=
  columns.foldr (fun column rest ↦ or (eq a column) rest) (some false)

@[simp] theorem and_eq_true {p q : Truth} : and p q = some true ↔ p = some true ∧ q = some true := by
  cases p with
  | none => cases q with
    | none => simp [and]
    | some b => cases b <;> simp [and]
  | some b => cases b <;> simp [and]

@[simp] theorem or_eq_true {p q : Truth} : or p q = some true ↔ p = some true ∨ q = some true := by
  cases p with
  | none => cases q with
    | none => simp [or]
    | some b => cases b <;> simp [or]
  | some b => cases b <;> simp [or]

section

variable {α : Type*} [DecidableEq α]

@[simp] theorem eq_eq_true {a : α} {column : Option α} :
    eq (some a) column = some true ↔ column = some a := by
  cases column with
  | none => simp [eq]
  | some b => simp [eq, eq_comm]

/-- A column that is `NULL` does not hide the others. -/
@[simp] theorem isIn_eq_true {a : α} {columns : List (Option α)} :
    isIn (some a) columns = some true ↔ some a ∈ columns := by
  induction columns with
  | nil => simp [isIn]
  | cons column columns ih =>
    show or (eq (some a) column) (isIn (some a) columns) = some true ↔ _
    rw [or_eq_true, eq_eq_true, ih, List.mem_cons, eq_comm]

end

/-- The rows that a condition keeps. -/
def keep {α : Type*} (rows : List α) (condition : α → Truth) : List α :=
  rows.filter fun row ↦ condition row = some true

@[simp] theorem mem_keep {α : Type*} {rows : List α} {condition : α → Truth} {row : α} :
    row ∈ keep rows condition ↔ row ∈ rows ∧ condition row = some true := by
  rw [keep, List.mem_filter, decide_eq_true_eq]

end Sql
