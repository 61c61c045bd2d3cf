import Mathlib.Data.List.TakeWhile

/-!
# Greedy patterns

A pattern is a sequence of classes of letters, each of which is taken once, or as often as
possible.  A matcher that backtracks gives letters back only when the rest of the pattern does not
match the rest of the text, and the first match that it finds is the one that it reports.
-/

namespace GreedyPattern

inductive Item (α : Type*) where
  | one (p : α → Bool)
  | many (p : α → Bool)

section

variable {α β : Type*}

/-- The first of `f n`, …, `f 0` that is there. -/
def longest (f : Nat → Option β) : Nat → Option β
  | 0 => f 0
  | n + 1 => (f (n + 1)).or (longest f n)

/-- What the items take of a text that they match as a whole. -/
def matchItems : List (Item α) → List α → Option (List (List α))
  | [], [] => some []
  | [], _ :: _ => none
  | .one _ :: _, [] => none
  | .one p :: items, a :: text => if p a then (matchItems items text).map ([a] :: ·) else none
  | .many p :: items, text =>
      longest (fun n ↦ (matchItems items (text.drop n)).map (text.take n :: ·))
        (text.takeWhile p).length

/-- The parts of a text that the groups of a pattern take. -/
def regroup : List (List (Item α)) → List (List α) → List (List α)
  | [], _ => []
  | group :: groups, captures =>
      (captures.take group.length).flatten :: regroup groups (captures.drop group.length)

def matchGroups (groups : List (List (Item α))) (text : List α) : Option (List (List α)) :=
  (matchItems groups.flatten text).map (regroup groups)

def Accepts (items : List (Item α)) (text : List α) : Prop := (matchItems items text).isSome = true

/-- A text, letter by letter. -/
def literal [DecidableEq α] (word : List α) : List (Item α) := word.map fun a ↦ .one (· = a)

end

section

variable {α β : Type*}

theorem longest_eq_some_iff {f : Nat → Option β} {k : Nat} {b : β} : longest f k = some b ↔
    ∃ n ≤ k, f n = some b ∧ ∀ m, n < m → m ≤ k → f m = none := by
  induction k with
  | zero =>
    constructor
    · intro h
      exact ⟨0, Nat.le_refl 0, h, fun m hm hle ↦ absurd hm (Nat.not_lt_of_le hle)⟩
    · rintro ⟨n, hn, h, -⟩
      rwa [Nat.le_zero.mp hn] at h
  | succ k ih =>
    rw [longest]
    -- the longest try comes first
    cases hf : f (k + 1) with
    | some b' =>
      rw [Option.some_or]
      constructor
      · intro h
        exact ⟨k + 1, Nat.le_refl _, hf.trans h, fun m hm hle ↦ absurd hm (Nat.not_lt_of_le hle)⟩
      · rintro ⟨n, hn, h, hnone⟩
        rcases Nat.lt_or_eq_of_le hn with hlt | rfl
        · have hnot := hnone (k + 1) hlt (Nat.le_refl _)
          rw [hf] at hnot
          cases hnot
        · rw [← hf, h]
    | none =>
      rw [Option.none_or, ih]
      constructor
      · rintro ⟨n, hn, h, hnone⟩
        refine ⟨n, Nat.le_succ_of_le hn, h, fun m hm hle ↦ ?_⟩
        rcases Nat.lt_or_eq_of_le hle with hlt | rfl
        · exact hnone m hm (Nat.le_of_lt_succ hlt)
        · exact hf
      · rintro ⟨n, hn, h, hnone⟩
        rcases Nat.lt_or_eq_of_le hn with hlt | rfl
        · exact ⟨n, Nat.le_of_lt_succ hlt, h, fun m hm hle ↦ hnone m hm (Nat.le_succ_of_le hle)⟩
        · rw [hf] at h
          cases h

theorem isSome_longest {f : Nat → Option β} {k : Nat} :
    (longest f k).isSome = true ↔ ∃ n ≤ k, (f n).isSome = true := by
  induction k with
  | zero => simp [longest]
  | succ k ih =>
    rw [longest, Option.isSome_or, Bool.or_eq_true, ih]
    constructor
    · rintro (h | ⟨n, hn, h⟩)
      · exact ⟨k + 1, Nat.le_refl _, h⟩
      · exact ⟨n, Nat.le_succ_of_le hn, h⟩
    · rintro ⟨n, hn, h⟩
      rcases Nat.lt_or_eq_of_le hn with hlt | rfl
      · exact .inr ⟨n, Nat.le_of_lt_succ hlt, h⟩
      · exact .inl h

variable {p : α → Bool} {items : List (Item α)} {text : List α} {captures : List (List α)}

theorem matchItems_nil : matchItems ([] : List (Item α)) text = some captures ↔
    text = [] ∧ captures = [] := by
  cases text with
  | nil => simp [matchItems, eq_comm]
  | cons a text => simp [matchItems]

theorem length_le_takeWhile {u v : List α} (h : ∀ a ∈ u, p a = true) :
    u.length ≤ ((u ++ v).takeWhile p).length := by
  rw [List.takeWhile_append_of_pos h, List.length_append]
  exact Nat.le_add_right _ _

theorem of_mem_take {n : Nat} (hn : n ≤ (text.takeWhile p).length) :
    ∀ a ∈ text.take n, p a = true := by
  intro a ha
  rw [← List.takeWhile_append_dropWhile (p := p) (l := text), List.take_append_of_le_length hn] at ha
  exact List.mem_takeWhile_imp (List.mem_of_mem_take ha)

/-- A repetition takes the longest part that lets the rest match. -/
theorem matchItems_many : matchItems (.many p :: items) text = some captures ↔
    ∃ u v rest, text = u ++ v ∧ (∀ a ∈ u, p a = true) ∧ matchItems items v = some rest ∧
      captures = u :: rest ∧
      ∀ u' v', text = u' ++ v' → (∀ a ∈ u', p a = true) → u.length < u'.length →
        matchItems items v' = none := by
  rw [matchItems, longest_eq_some_iff]
  constructor
  · rintro ⟨n, hn, hmatch, hnone⟩
    obtain ⟨rest, hrest, rfl⟩ := Option.map_eq_some_iff.mp hmatch
    have hlength : (text.take n).length = n := by
      rw [List.length_take]
      have := (List.takeWhile_sublist p (l := text)).length_le
      omega
    refine ⟨text.take n, text.drop n, rest, (List.take_append_drop n text).symm, of_mem_take hn,
      hrest, rfl, ?_⟩
    -- a longer capture was tried before, and failed
    rintro u' v' rfl hu' hlt
    have hnot := hnone u'.length (by omega) (length_le_takeWhile hu')
    rw [List.drop_left] at hnot
    exact Option.map_eq_none_iff.mp hnot
  · rintro ⟨u, v, rest, rfl, hu, hrest, rfl, hnone⟩
    refine ⟨u.length, length_le_takeWhile hu, ?_, ?_⟩
    · rw [List.drop_left, List.take_left, hrest]
      rfl
    · intro m hm hle
      rw [Option.map_eq_none_iff]
      apply hnone _ _ (List.take_append_drop m (u ++ v)).symm (of_mem_take hle)
      rw [List.length_take]
      have := (List.takeWhile_sublist p (l := u ++ v)).length_le
      omega

theorem accepts_iff : Accepts items text ↔ ∃ captures, matchItems items text = some captures :=
  Option.isSome_iff_exists

theorem not_accepts_iff : ¬ Accepts items text ↔ matchItems items text = none := by
  rw [Accepts, Bool.not_eq_true, Option.isSome_eq_false_iff, Option.isNone_iff_eq_none]

theorem accepts_nil : Accepts ([] : List (Item α)) text ↔ text = [] := by
  rw [accepts_iff]
  simp only [matchItems_nil]
  simp

theorem accepts_many : Accepts (.many p :: items) text ↔
    ∃ u v, text = u ++ v ∧ (∀ a ∈ u, p a = true) ∧ Accepts items v := by
  constructor
  · intro h
    obtain ⟨captures, h⟩ := accepts_iff.mp h
    obtain ⟨u, v, rest, htext, hu, hrest, -, -⟩ := matchItems_many.mp h
    exact ⟨u, v, htext, hu, accepts_iff.mpr ⟨rest, hrest⟩⟩
  · rintro ⟨u, v, rfl, hu, hv⟩
    rw [Accepts, matchItems, isSome_longest]
    refine ⟨u.length, length_le_takeWhile hu, ?_⟩
    rw [List.drop_left, Option.isSome_map]
    exact hv

section

variable [DecidableEq α] {word : List α}

theorem matchItems_literal : matchItems (literal word ++ items) text = some captures ↔
    ∃ v rest, text = word ++ v ∧ matchItems items v = some rest ∧
      captures = word.map (fun a ↦ [a]) ++ rest := by
  induction word generalizing text captures with
  | nil => simp [literal]
  | cons a word ih =>
    cases text with
    | nil => simp [literal, matchItems]
    | cons b text =>
      show (if decide (b = a) then (matchItems (literal word ++ items) text).map ([b] :: ·)
        else none) = some captures ↔ _
      by_cases hab : b = a
      · rw [if_pos (decide_eq_true hab), Option.map_eq_some_iff]
        simp only [ih]
        constructor
        · rintro ⟨_, ⟨v, rest, rfl, hrest, rfl⟩, rfl⟩
          exact ⟨v, rest, by rw [hab]; rfl, hrest, by rw [hab]; rfl⟩
        · rintro ⟨v, rest, htext, hrest, rfl⟩
          obtain ⟨-, rfl⟩ := List.cons_eq_cons.mp htext
          exact ⟨_, ⟨v, rest, rfl, hrest, rfl⟩, by rw [hab]; rfl⟩
      · rw [if_neg (by simpa using hab)]
        constructor
        · intro h
          cases h
        · rintro ⟨v, rest, htext, -⟩
          exact absurd (List.cons_eq_cons.mp htext).1 hab

theorem accepts_literal : Accepts (literal word ++ items) text ↔
    ∃ v, text = word ++ v ∧ Accepts items v := by
  simp only [accepts_iff, matchItems_literal]
  constructor
  · rintro ⟨_, v, rest, htext, hrest, -⟩
    exact ⟨v, htext, rest, hrest⟩
  · rintro ⟨v, htext, rest, hrest⟩
    exact ⟨_, v, rest, htext, hrest, rfl⟩

end

end

end GreedyPattern
