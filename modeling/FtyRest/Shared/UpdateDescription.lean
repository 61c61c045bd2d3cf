import FtyRest.Lib.GreedyPattern

/-!
# The names in a description

`getJsonAlert::updateDescription` of `shared/utils_json.cc`, which puts the friendly name of the
asset into the description of an alert.  Texts are lists of characters.
-/

namespace FtyRest.Shared

open GreedyPattern

def ename : List Char := ['e', 'n', 'a', 'm', 'e']

def valueKey : List Char := ['v', 'a', 'l', 'u', 'e']

/-- `.` matches anything but a line end. -/
def isDot (c : Char) : Bool := c ≠ '\n' && c ≠ '\r'

def isEnameSeparator (c : Char) : Bool := c = ':' || c = '{' || c = ' '

/-- The class of the separators before a value, which has the quote of the value in it. -/
def isValueSeparator (c : Char) : Bool := c = ':' || c = '"' || c = ' '

/-- `(.*\ename\")([:{ ]*\"value\"[:\" ]*)([^\"]*)(\".*)` -/
def descriptionPattern : List (List (Item Char)) :=
  [.many isDot :: literal (ename ++ ['"']),
   .many isEnameSeparator :: literal ('"' :: valueKey ++ ['"']) ++ [.many isValueSeparator],
   [.many (· ≠ '"')],
   literal ['"'] ++ [.many isDot]]

/-! ## A match -/

/-- The text has no line ends. -/
def IsLine (text : List Char) : Prop := ∀ c ∈ text, isDot c = true

instance {text : List Char} : Decidable (IsLine text) :=
  decidable_of_iff (text.all isDot = true) List.all_eq_true

/-- What the pattern asks for: `ename"` behind `u`, separators, `"value"`, and a quote in the rest
of the text. -/
structure Anchor (text u separators rest : List Char) : Prop where
  text_eq : text = u ++ ename ++ '"' :: (separators ++ '"' :: (valueKey ++ '"' :: rest))
  isSeparator : ∀ c ∈ separators, isEnameSeparator c = true
  quote : '"' ∈ rest

section

variable {text : List Char}

theorem IsLine.of_append {x y : List Char} (h : IsLine (x ++ y)) : IsLine x ∧ IsLine y :=
  ⟨fun c hc ↦ h c (List.mem_append_left _ hc), fun c hc ↦ h c (List.mem_append_right _ hc)⟩

theorem accepts_dots : Accepts [.many isDot] text ↔ IsLine text := by
  rw [accepts_many]
  constructor
  · rintro ⟨u, v, rfl, hu, hv⟩
    rw [accepts_nil.mp hv, List.append_nil]
    exact hu
  · intro h
    exact ⟨text, [], (List.append_nil _).symm, h, accepts_nil.mpr rfl⟩

/-- Behind the quotes of `"value"` the pattern only needs another quote. -/
theorem accepts_value (h : IsLine text) :
    Accepts (.many (· ≠ '"') :: (literal ['"'] ++ [.many isDot])) text ↔ '"' ∈ text := by
  rw [accepts_many]
  constructor
  · rintro ⟨u, v, rfl, -, hv⟩
    obtain ⟨w, rfl, -⟩ := accepts_literal.mp hv
    exact List.mem_append_right _ List.mem_cons_self
  · intro hquote
    obtain ⟨u, w, rfl, hu⟩ := List.eq_append_cons_of_mem hquote
    refine ⟨u, '"' :: w, rfl, ?_, accepts_literal.mpr ⟨w, rfl, accepts_dots.mpr ?_⟩⟩
    · intro c hc
      exact decide_eq_true fun heq ↦ hu (heq ▸ hc)
    · exact fun c hc ↦ h.of_append.2 c (List.mem_cons_of_mem _ hc)

def afterValue : List (Item Char) :=
  .many isValueSeparator :: .many (· ≠ '"') :: (literal ['"'] ++ [.many isDot])

def afterEname : List (Item Char) :=
  .many isEnameSeparator :: (literal ('"' :: valueKey ++ ['"']) ++ afterValue)

theorem accepts_afterValue (h : IsLine text) : Accepts afterValue text ↔ '"' ∈ text := by
  unfold afterValue
  rw [accepts_many]
  constructor
  · rintro ⟨u, v, rfl, -, hv⟩
    exact List.mem_append_right _ ((accepts_value h.of_append.2).mp hv)
  · intro hquote
    exact ⟨[], text, rfl, fun c hc ↦ absurd hc List.not_mem_nil, (accepts_value h).mpr hquote⟩

theorem accepts_ename (h : IsLine text) :
    Accepts (literal (ename ++ ['"']) ++ afterEname) text ↔
      ∃ separators rest, Anchor text [] separators rest := by
  rw [accepts_literal]
  unfold afterEname
  constructor
  · rintro ⟨v, rfl, hv⟩
    obtain ⟨separators, w, rfl, hseparators, hw⟩ := accepts_many.mp hv
    obtain ⟨rest, rfl, hrest⟩ := accepts_literal.mp hw
    have hline : IsLine rest := h.of_append.2.of_append.2.of_append.2
    exact ⟨separators, rest, rfl, hseparators, (accepts_afterValue hline).mp hrest⟩
  · rintro ⟨separators, rest, rfl, hseparators, hquote⟩
    refine ⟨separators ++ '"' :: (valueKey ++ '"' :: rest), rfl, ?_⟩
    refine accepts_many.mpr ⟨separators, _, rfl, hseparators, accepts_literal.mpr ⟨rest, rfl, ?_⟩⟩
    have hline : IsLine rest := fun c hc ↦ h c (by simp [hc])
    exact (accepts_afterValue hline).mpr hquote

theorem descriptionPattern_flatten : descriptionPattern.flatten =
    .many isDot :: (literal (ename ++ ['"']) ++ afterEname) := rfl

/-- A match takes the last `ename"` that it can, and as many separators as leave a quote. -/
structure Match (text u separators run quoted rest : List Char) : Prop where
  text_eq : text = u ++ ename ++ '"' :: (separators ++ '"' :: (valueKey ++ '"' ::
    (run ++ (quoted ++ '"' :: rest))))
  isSeparator : ∀ c ∈ separators, isEnameSeparator c = true
  isRun : ∀ c ∈ run, isValueSeparator c = true
  noQuote : '"' ∉ quoted
  last : IsLine text → ∀ u' separators' rest', Anchor text u' separators' rest' →
    u'.length ≤ u.length
  greedy : IsLine text → ∀ run' rest', run ++ (quoted ++ '"' :: rest) = run' ++ rest' →
    (∀ c ∈ run', isValueSeparator c = true) → '"' ∈ rest' → run'.length ≤ run.length

/-- The groups of a match. -/
def matchParts (u separators run quoted rest : List Char) : List (List Char) :=
  [u ++ ename ++ ['"'], separators ++ '"' :: (valueKey ++ '"' :: run), quoted, '"' :: rest]

theorem Anchor.drop {u separators rest : List Char} (h : Anchor text u separators rest) :
    ∃ v, text = u ++ v ∧ Anchor v [] separators rest :=
  ⟨ename ++ '"' :: (separators ++ '"' :: (valueKey ++ '"' :: rest)),
    by rw [h.text_eq, List.append_assoc], rfl, h.isSeparator, h.quote⟩

theorem match_of_matchGroups {parts : List (List Char)}
    (h : matchGroups descriptionPattern text = some parts) :
    ∃ u separators run quoted rest, Match text u separators run quoted rest ∧
      parts = matchParts u separators run quoted rest := by
  unfold matchGroups at h
  rw [descriptionPattern_flatten] at h
  obtain ⟨captures, hall, rfl⟩ := Option.map_eq_some_iff.mp h
  -- item by item: what a greedy part leaves is matched by the rest of the pattern
  obtain ⟨u, v, captures₁, rfl, -, h₁, rfl, hlast⟩ := matchItems_many.mp hall
  obtain ⟨v, captures₂, rfl, h₂, rfl⟩ := matchItems_literal.mp h₁
  obtain ⟨separators, v, captures₃, rfl, hseparators, h₃, rfl, -⟩ := matchItems_many.mp h₂
  obtain ⟨v, captures₄, rfl, h₄, rfl⟩ := matchItems_literal.mp h₃
  obtain ⟨run, v, captures₅, rfl, hrun, h₅, rfl, hgreedy⟩ := matchItems_many.mp h₄
  obtain ⟨quoted, v, captures₆, rfl, hquoted, h₆, rfl, -⟩ := matchItems_many.mp h₅
  obtain ⟨v, captures₇, rfl, h₇, rfl⟩ := matchItems_literal.mp h₆
  obtain ⟨rest, v, captures₈, rfl, -, h₈, rfl, -⟩ := matchItems_many.mp h₇
  obtain ⟨rfl, rfl⟩ := matchItems_nil.mp h₈
  refine ⟨u, separators, run, quoted, rest, ⟨?_, hseparators, hrun, ?_, ?_, ?_⟩, ?_⟩
  · simp [ename, valueKey]
  · intro hmem
    exact absurd rfl (of_decide_eq_true (hquoted _ hmem))
  · -- a longer text in front was tried first, so the key does not occur behind it
    intro hline u' separators' rest' hanchor
    obtain ⟨v, heq, hanchor⟩ := hanchor.drop
    rw [heq] at hline
    rw [← Nat.not_lt]
    intro hlt
    have hnone := hlast u' v heq hline.of_append.1 hlt
    exact not_accepts_iff.mpr hnone
      ((accepts_ename hline.of_append.2).mpr ⟨separators', rest', hanchor⟩)
  · intro hline run' rest' heq hrun' hquote
    have hline' := hline.of_append.2.of_append.2.of_append.2.of_append.2
    change IsLine (run ++ (quoted ++ '"' :: (rest ++ []))) at hline'
    rw [List.append_nil, heq] at hline'
    rw [← Nat.not_lt]
    intro hlt
    have hnone := hgreedy run' rest' (by rw [← heq]; simp) hrun' hlt
    exact not_accepts_iff.mpr hnone ((accepts_value hline'.of_append.2).mpr hquote)
  · simp [matchParts, regroup, descriptionPattern, literal, ename, valueKey]

/-- A text with an anchor is matched. -/
theorem not_anchor_of_matchGroups (hline : IsLine text)
    (h : matchGroups descriptionPattern text = none) {u separators rest : List Char} :
    ¬ Anchor text u separators rest := by
  intro hanchor
  unfold matchGroups at h
  rw [descriptionPattern_flatten, Option.map_eq_none_iff, ← not_accepts_iff] at h
  obtain ⟨v, rfl, hanchor'⟩ := hanchor.drop
  exact h (accepts_many.mpr ⟨u, v, rfl, hline.of_append.1,
    (accepts_ename hline.of_append.2).mpr ⟨separators, rest, hanchor'⟩⟩)

end

/-! ## The loop -/

theorem length_lt_of_matchGroups {search matches₁ matches₂ matches₃ matches₄ : List Char}
    (h : matchGroups descriptionPattern search = some [matches₁, matches₂, matches₃, matches₄]) :
    matches₁.length < search.length := by
  obtain ⟨u, separators, run, quoted, rest, hmatch, hparts⟩ := match_of_matchGroups h
  obtain ⟨rfl, -⟩ := List.cons_eq_cons.mp hparts
  rw [hmatch.text_eq]
  simp only [List.length_append, List.length_cons, List.length_nil]
  omega

/-- The loop of `updateDescription`, which goes from the last match to the first. -/
def updateLoop (externalName search res : List Char) : List Char :=
  match _ : matchGroups descriptionPattern search with
  | some [matches₁, matches₂, _, matches₄] =>
      updateLoop externalName matches₁ (matches₂ ++ externalName ++ matches₄ ++ res)
  | _ => search ++ res
termination_by search.length
decreasing_by exact length_lt_of_matchGroups ‹_›

def updateDescription (externalName description : List Char) : List Char :=
  updateLoop externalName description []

theorem updateLoop_of_none {externalName search res : List Char}
    (h : matchGroups descriptionPattern search = none) :
    updateLoop externalName search res = search ++ res := by
  rw [updateLoop]
  split
  · rename_i hsome
    rw [h] at hsome
    cases hsome
  · rfl

theorem updateLoop_of_some {externalName search res : List Char}
    {u separators run quoted rest : List Char}
    (h : matchGroups descriptionPattern search =
      some (matchParts u separators run quoted rest)) :
    updateLoop externalName search res = updateLoop externalName (u ++ ename ++ ['"'])
      (separators ++ '"' :: (valueKey ++ '"' :: run) ++ externalName ++ '"' :: rest ++ res) := by
  rw [updateLoop]
  split
  · rename_i hsome
    rw [h] at hsome
    simp only [matchParts, Option.some.injEq, List.cons.injEq, and_true] at hsome
    obtain ⟨rfl, rfl, rfl, rfl⟩ := hsome
    rfl
  · rename_i hnot
    exact absurd h (hnot _ _ _ _)

/-- What is behind the search stays behind it. -/
theorem updateLoop_res (externalName search res : List Char) :
    updateLoop externalName search res = updateDescription externalName search ++ res := by
  unfold updateDescription
  cases h : matchGroups descriptionPattern search with
  | none => rw [updateLoop_of_none h, updateLoop_of_none h, List.append_nil]
  | some parts =>
    obtain ⟨u, separators, run, quoted, rest, hmatch, rfl⟩ := match_of_matchGroups h
    have hlt := length_lt_of_matchGroups h
    have ih := updateLoop_res externalName (u ++ ename ++ ['"'])
    rw [updateLoop_of_some h, updateLoop_of_some h, ih, ih, List.append_nil]
    simp only [List.append_assoc]
termination_by search.length
decreasing_by exact length_lt_of_matchGroups h

end FtyRest.Shared
