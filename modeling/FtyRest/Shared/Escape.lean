import Mathlib.Data.List.TakeWhile

/-!
# `utils::escape`

Backslashes in front of special characters, from `shared/utilspp.cc`.  A `Char` is one `char` of C,
a byte.
-/

namespace FtyRest.Shared.Utils

/-- `find_first_of`; `none` is `npos`. -/
def findFirstOf (text chars : List Char) : Option Nat := text.findIdx? (· ∈ chars)

/-- The loop of `escape`, from the character with index `i` on. -/
def escapeLoop (chars : List Char) : Nat → List Char → List Char
  | _, [] => []
  | i, c :: rest =>
      if c = '\\' then
        match rest with
        -- behind its end a string has a NUL
        | [] => ['\\', '\x00']
        | d :: rest => '\\' :: d :: escapeLoop chars (i + 2) rest
      else if findFirstOf ((c :: rest).take (i + 1)) chars = some 0 then
        '\\' :: c :: escapeLoop chars (i + 1) rest
      else c :: escapeLoop chars (i + 1) rest

def escape (inp chars : List Char) : List Char :=
  if inp = [] ∨ chars = [] then inp
  else if inp.length = 1 ∧ findFirstOf inp chars ≠ none then '\\' :: inp
  else if '\\' ∈ chars then inp
  else if findFirstOf inp chars = none then inp
  else escapeLoop chars 0 inp

/-- `sql_escape` -/
def sqlEscape (inp : List Char) : List Char := escape inp ['_', '%']

/-! ## The loop -/

theorem findFirstOf_eq_none {text chars : List Char} :
    findFirstOf text chars = none ↔ ∀ c ∈ text, c ∉ chars := by
  unfold findFirstOf
  rw [List.findIdx?_eq_none_iff]
  simp only [decide_eq_false_iff_not]

theorem findFirstOf_take {c : Char} {rest chars : List Char} (i : Nat) :
    findFirstOf ((c :: rest).take (i + 1)) chars = some 0 ↔ c ∈ chars := by
  unfold findFirstOf
  rw [List.take_succ_cons, List.findIdx?_cons]
  by_cases hc : c ∈ chars
  · simp [hc]
  · rw [if_neg (by simp [hc])]
    cases (rest.take i).findIdx? (· ∈ chars) with
    | none => simp [hc]
    | some j => simp [hc]

theorem escapeLoop_end (chars : List Char) (i : Nat) :
    escapeLoop chars i ['\\'] = ['\\', '\x00'] := rfl

theorem escapeLoop_pair (chars : List Char) (i : Nat) (d : Char) (rest : List Char) :
    escapeLoop chars i ('\\' :: d :: rest) = '\\' :: d :: escapeLoop chars (i + 2) rest := rfl

theorem escapeLoop_cons {chars : List Char} {c : Char} (hc : c ≠ '\\') (i : Nat)
    (rest : List Char) :
    escapeLoop chars i (c :: rest) =
      if c ∈ chars then '\\' :: c :: escapeLoop chars (i + 1) rest
      else c :: escapeLoop chars (i + 1) rest := by
  rw [escapeLoop.eq_def]
  dsimp only
  rw [if_neg hc]
  simp only [findFirstOf_take]

/-- The texts by which the loop goes: a backslash takes what is behind it. -/
inductive Pairs : List Char → Prop where
  | nil : Pairs []
  | lone : Pairs ['\\']
  | pair (d : Char) {rest : List Char} : Pairs rest → Pairs ('\\' :: d :: rest)
  | other {c : Char} {rest : List Char} : c ≠ '\\' → Pairs rest → Pairs (c :: rest)

theorem pairs (text : List Char) : Pairs text := by
  induction hn : text.length using Nat.strong_induction_on generalizing text with
  | _ n ih =>
    subst hn
    match text with
    | [] => exact .nil
    | c :: rest =>
      by_cases hc : c = '\\'
      · subst hc
        match rest with
        | [] => exact .lone
        | d :: rest =>
          have hlt : rest.length < ('\\' :: d :: rest).length := by
            rw [List.length_cons, List.length_cons]
            omega
          exact .pair d (ih rest.length hlt rest rfl)
      · exact .other hc (ih rest.length (by simp) rest rfl)

/-! ## What the output is -/

/-- Every special character has a backslash in front of it that is not itself behind a backslash. -/
inductive Escaped (chars : List Char) : List Char → Prop where
  | nil : Escaped chars []
  | lone : Escaped chars ['\\']
  | pair (d : Char) {rest : List Char} : Escaped chars rest → Escaped chars ('\\' :: d :: rest)
  | other {c : Char} {rest : List Char} : c ≠ '\\' → c ∉ chars → Escaped chars rest →
      Escaped chars (c :: rest)

/-- The second text is the first one with backslashes put in. -/
inductive Inserted : List Char → List Char → Prop where
  | nil : Inserted [] []
  | keep (c : Char) {inp out : List Char} : Inserted inp out → Inserted (c :: inp) (c :: out)
  | backslash {inp out : List Char} : Inserted inp out → Inserted inp ('\\' :: out)

/-- The last backslash of a text has nothing to escape. -/
inductive LoneBackslash : List Char → Prop where
  | lone : LoneBackslash ['\\']
  | pair (d : Char) {rest : List Char} : LoneBackslash rest → LoneBackslash ('\\' :: d :: rest)
  | other {c : Char} {rest : List Char} : c ≠ '\\' → LoneBackslash rest → LoneBackslash (c :: rest)

variable {chars : List Char}

theorem escapeLoop_escaped (i : Nat) (text : List Char) :
    Escaped chars (escapeLoop chars i text) := by
  induction pairs text generalizing i with
  | nil => exact .nil
  | lone => exact .pair _ .nil
  | pair d _ ih => exact .pair d (ih (i + 2))
  | other hc _ ih =>
    rw [escapeLoop_cons hc]
    split
    · exact .pair _ (ih (i + 1))
    · exact .other hc ‹_› (ih (i + 1))

theorem Inserted.refl (text : List Char) : Inserted text text := by
  induction text with
  | nil => exact .nil
  | cons c text ih => exact .keep c ih

theorem escapeLoop_inserted (i : Nat) {text : List Char} (hlone : ¬ LoneBackslash text) :
    Inserted text (escapeLoop chars i text) := by
  induction pairs text generalizing i with
  | nil => exact .nil
  | lone => exact absurd .lone hlone
  | pair d _ ih => exact .keep _ (.keep d (ih (i + 2) fun h ↦ hlone (.pair d h)))
  | other hc _ ih =>
    have hrest := ih (i + 1) fun h ↦ hlone (.other hc h)
    rw [escapeLoop_cons hc]
    split
    · exact .backslash (.keep _ hrest)
    · exact .keep _ hrest

/-- A text without its backslashes. -/
def bare (text : List Char) : List Char := text.filter (· ≠ '\\')

theorem bare_backslash (text : List Char) : bare ('\\' :: text) = bare text := rfl

theorem bare_cons {c : Char} (hc : c ≠ '\\') (text : List Char) : bare (c :: text) = c :: bare text :=
  List.filter_cons_of_pos (by simpa using hc)

theorem Inserted.bare {inp out : List Char} (h : Inserted inp out) : bare inp = bare out := by
  induction h with
  | nil => rfl
  | keep c _ ih =>
    by_cases hc : c = '\\'
    · rw [hc, bare_backslash, bare_backslash, ih]
    · rw [bare_cons hc, bare_cons hc, ih]
  | backslash _ ih => exact ih

/-- A backslash without anything behind it gets a NUL. -/
theorem escapeLoop_lone (i : Nat) {text : List Char} (h : LoneBackslash text) :
    bare (escapeLoop chars i text) = bare text ++ ['\x00'] := by
  induction h generalizing i with
  | lone => rfl
  | pair d _ ih =>
    rw [escapeLoop_pair, bare_backslash, bare_backslash]
    by_cases hd : d = '\\'
    · rw [hd, bare_backslash, bare_backslash, ih]
    · rw [bare_cons hd, bare_cons hd, ih, List.cons_append]
  | other hc _ ih =>
    rw [escapeLoop_cons hc, bare_cons hc, List.cons_append, ← ih (i + 1)]
    split
    · rw [bare_backslash, bare_cons hc]
    · rw [bare_cons hc]

/-- The loop leaves an escaped text as it is, if there is nothing that gets a NUL. -/
theorem escapeLoop_of_escaped (i : Nat) {text : List Char} (h : Escaped chars text)
    (hlone : ¬ LoneBackslash text) : escapeLoop chars i text = text := by
  induction h generalizing i with
  | nil => rfl
  | lone => exact absurd .lone hlone
  | pair d _ ih => rw [escapeLoop_pair, ih (i + 2) fun h ↦ hlone (.pair d h)]
  | other hc hmem _ ih =>
    rw [escapeLoop_cons hc, if_neg hmem, ih (i + 1) fun h ↦ hlone (.other hc h)]

theorem loneBackslash_pair {d : Char} {rest : List Char} :
    LoneBackslash ('\\' :: d :: rest) ↔ LoneBackslash rest := by
  constructor
  · intro h
    cases h with
    | pair _ hrest => exact hrest
    | other hc _ => exact absurd rfl hc
  · exact .pair d

theorem loneBackslash_other {c : Char} {rest : List Char} (hc : c ≠ '\\') :
    LoneBackslash (c :: rest) ↔ LoneBackslash rest := by
  constructor
  · intro h
    cases h with
    | lone => exact absurd rfl hc
    | pair => exact absurd rfl hc
    | other _ hrest => exact hrest
  · exact .other hc

theorem escapeLoop_not_lone (i : Nat) (text : List Char) :
    ¬ LoneBackslash (escapeLoop chars i text) := by
  induction pairs text generalizing i with
  | nil => exact nofun
  | lone =>
    rw [escapeLoop_end, loneBackslash_pair]
    exact nofun
  | pair d _ ih =>
    rw [escapeLoop_pair, loneBackslash_pair]
    exact ih (i + 2)
  | other hc _ ih =>
    rw [escapeLoop_cons hc]
    split
    · rw [loneBackslash_pair]
      exact ih (i + 1)
    · rw [loneBackslash_other hc]
      exact ih (i + 1)

/-! ## The function -/

/-- The early returns do what the loop does, or leave a text without a special character. -/
theorem escape_eq (hchars : '\\' ∉ chars) (inp : List Char) :
    escape inp chars =
      if findFirstOf inp chars = none then inp else escapeLoop chars 0 inp := by
  unfold escape
  by_cases hnone : findFirstOf inp chars = none
  · have hone : ¬ (inp.length = 1 ∧ findFirstOf inp chars ≠ none) := fun h ↦ h.2 hnone
    rw [if_neg hone, if_neg hchars, if_pos hnone, ite_self]
  · have hempty : ¬ (inp = [] ∨ chars = []) := by
      rintro (rfl | rfl)
      · exact hnone rfl
      · exact hnone (findFirstOf_eq_none.mpr fun _ _ ↦ List.not_mem_nil)
    rw [if_neg hempty, if_neg hchars]
    -- a text of one character is answered in a branch of its own
    by_cases hone : inp.length = 1
    · obtain ⟨c, rfl⟩ := List.length_eq_one_iff.mp hone
      have hc : c ∈ chars := by
        by_contra hc
        refine hnone (findFirstOf_eq_none.mpr fun d hd ↦ ?_)
        rw [List.mem_singleton.mp hd]
        exact hc
      have hbackslash : c ≠ '\\' := by
        rintro rfl
        exact hchars hc
      rw [if_pos ⟨hone, hnone⟩, if_neg hnone, escapeLoop_cons hbackslash, if_pos hc]
      rfl
    · have hlong : ¬ (inp.length = 1 ∧ findFirstOf inp chars ≠ none) := fun h ↦ hone h.1
      rw [if_neg hlong]

/-- The laws of escaping: special characters are escaped, only backslashes are put in, and what is
escaped stays as it is. -/
structure EscapeLaws (inp chars : List Char) : Prop where
  escaped : Escaped chars (escape inp chars)
  inserted : Inserted inp (escape inp chars)
  again : escape (escape inp chars) chars = escape inp chars

theorem escaped_of_none {inp : List Char} (h : findFirstOf inp chars = none) :
    Escaped chars inp := by
  rw [findFirstOf_eq_none] at h
  induction pairs inp with
  | nil => exact .nil
  | lone => exact .lone
  | pair d _ ih => exact .pair d (ih fun c hc ↦ h c (by simp [hc]))
  | other hc _ ih => exact .other hc (h _ (by simp)) (ih fun c hc ↦ h c (by simp [hc]))

/-- The number of backslashes at the end of a text. -/
def backslashesAtEnd (text : List Char) : Nat := (text.reverse.takeWhile (· = '\\')).length

/-- What stands in front counts only if all behind it is backslashes. -/
theorem backslashesAtEnd_append (front text : List Char) :
    backslashesAtEnd (front ++ text) = backslashesAtEnd text ∨
      backslashesAtEnd (front ++ text) = backslashesAtEnd text + backslashesAtEnd front := by
  unfold backslashesAtEnd
  rw [List.reverse_append, List.takeWhile_append]
  split
  · next hall =>
    right
    rw [List.length_append, hall]
  · exact .inl rfl

theorem backslashesAtEnd_pair (d : Char) (rest : List Char) :
    backslashesAtEnd ('\\' :: d :: rest) % 2 = backslashesAtEnd rest % 2 := by
  have hfront : backslashesAtEnd ['\\', d] % 2 = 0 := by
    unfold backslashesAtEnd
    by_cases hd : d = '\\'
    · rw [hd]
      rfl
    · simp [hd]
  have happend := backslashesAtEnd_append ['\\', d] rest
  rw [List.cons_append, List.cons_append, List.nil_append] at happend
  omega

theorem backslashesAtEnd_other {c : Char} (hc : c ≠ '\\') (rest : List Char) :
    backslashesAtEnd (c :: rest) = backslashesAtEnd rest := by
  have hfront : backslashesAtEnd [c] = 0 := by
    unfold backslashesAtEnd
    simp [hc]
  have happend := backslashesAtEnd_append [c] rest
  rw [List.cons_append, List.nil_append] at happend
  omega

theorem loneBackslash_iff_odd (text : List Char) :
    LoneBackslash text ↔ backslashesAtEnd text % 2 = 1 := by
  induction pairs text with
  | nil => exact ⟨nofun, nofun⟩
  | lone => exact ⟨fun _ ↦ rfl, fun _ ↦ .lone⟩
  | pair d _ ih => rw [loneBackslash_pair, backslashesAtEnd_pair, ih]
  | other hc _ ih => rw [loneBackslash_other hc, backslashesAtEnd_other hc, ih]

/-- A backslash at the end, with nothing to escape, gets a NUL from behind the end. -/
theorem escapeLaws_iff (hchars : '\\' ∉ chars) (inp : List Char) :
    EscapeLaws inp chars ↔
      (∀ c ∈ inp, c ∉ chars) ∨ backslashesAtEnd inp % 2 = 0 := by
  have heven : backslashesAtEnd inp % 2 = 0 ↔ ¬ LoneBackslash inp := by
    rw [loneBackslash_iff_odd]
    omega
  rw [heven, ← findFirstOf_eq_none]
  constructor
  · intro h
    by_contra hnot
    obtain ⟨hsome, hlone⟩ := not_or.mp hnot
    -- the loop adds a NUL, which is none of the backslashes
    have hinserted := h.inserted
    rw [escape_eq hchars, if_neg hsome] at hinserted
    have hbare := hinserted.bare
    rw [escapeLoop_lone 0 (not_not.mp hlone)] at hbare
    have hlength := congrArg List.length hbare
    rw [List.length_append] at hlength
    exact absurd hlength (by simp)
  · intro h
    by_cases hnone : findFirstOf inp chars = none
    · have hself : escape inp chars = inp := by
        rw [escape_eq hchars, if_pos hnone]
      refine ⟨?_, ?_, ?_⟩
      · rw [hself]
        exact escaped_of_none hnone
      · rw [hself]
        exact .refl inp
      · rw [hself, hself]
    · have hlone : ¬ LoneBackslash inp := h.resolve_left hnone
      have hself : escape inp chars = escapeLoop chars 0 inp := by
        rw [escape_eq hchars, if_neg hnone]
      refine ⟨?_, ?_, ?_⟩
      · rw [hself]
        exact escapeLoop_escaped 0 inp
      · rw [hself]
        exact escapeLoop_inserted 0 hlone
      · rw [hself, escape_eq hchars]
        split
        · rfl
        · exact escapeLoop_of_escaped 0 (escapeLoop_escaped 0 inp) (escapeLoop_not_lone 0 inp)

theorem escapeLaws_iff_joined : EscapeLaws ['b', 'a', '_', 'r'] ['_', '%'] ↔
    (∀ c ∈ ['b', 'a', '_', 'r'], c ∉ ['_', '%']) ∨
      backslashesAtEnd ['b', 'a', '_', 'r'] % 2 = 0 :=
  escapeLaws_iff (by simp) _

/-- The backslash at the end of `_\` is read together with the NUL behind the text. -/
theorem nul_appended : sqlEscape ['_', '\\'] = ['\\', '_', '\\', '\x00'] ∧
    ¬ EscapeLaws ['_', '\\'] ['_', '%'] := by
  refine ⟨by decide +kernel, fun h ↦ ?_⟩
  have hbare := h.inserted.bare
  revert hbare
  decide +kernel

end FtyRest.Shared.Utils
