import Mathlib.Data.List.Induction
import Mathlib.Data.List.Perm.Basic

/-!
# Histories

A machine that takes one input after the other, the last input of a kind, what holds at every
input of a history, and the inputs in another order.
-/

namespace History

variable {σ ι ο : Type}

/-- The state after the inputs. -/
def final (step : σ → ι → σ × ο) (s : σ) (inputs : List ι) : σ :=
  inputs.foldl (fun s x ↦ (step s x).1) s

section

variable {step : σ → ι → σ × ο} {s : σ} {inputs : List ι}

@[simp]
theorem final_nil : final step s [] = s := rfl

@[simp]
theorem final_cons {x : ι} : final step s (x :: inputs) = final step (step s x).1 inputs := rfl

theorem final_append {more : List ι} :
    final step s (inputs ++ more) = final step (final step s inputs) more :=
  List.foldl_append

theorem final_concat {x : ι} :
    final step s (inputs ++ [x]) = (step (final step s inputs) x).1 :=
  final_append

/-- What every input preserves, a history preserves. -/
theorem final_induction {I : σ → Prop} (hinit : I s)
    (hstep : ∀ s, ∀ x ∈ inputs, I s → I (step s x).1) : I (final step s inputs) := by
  induction inputs generalizing s with
  | nil => exact hinit
  | cons x inputs ih =>
    have hnext := hstep s x List.mem_cons_self hinit
    exact ih hnext fun s y hy ↦ hstep s y (List.mem_cons_of_mem x hy)

end

/-- What the machine answers to the inputs. -/
def answers (step : σ → ι → σ × ο) (s : σ) : List ι → List ο
  | [] => []
  | x :: inputs => (step s x).2 :: answers step (step s x).1 inputs

section

variable {step : σ → ι → σ × ο} {s : σ} {inputs : List ι}

@[simp]
theorem length_answers : (answers step s inputs).length = inputs.length := by
  induction inputs generalizing s with
  | nil => rfl
  | cons x inputs ih => exact congrArg (· + 1) ih

theorem answers_concat {x : ι} :
    answers step s (inputs ++ [x]) =
      answers step s inputs ++ [(step (final step s inputs) x).2] := by
  induction inputs generalizing s with
  | nil => rfl
  | cons y inputs ih =>
    show (step s y).2 :: answers step (step s y).1 (inputs ++ [x]) = _
    rw [ih]
    rfl

end

/-- `P` holds at every input of a history, of the inputs before it. -/
def EveryTime (P : List ι → ι → Prop) (inputs : List ι) : Prop :=
  ∀ before x after, inputs = before ++ x :: after → P before x

section

variable {P Q : List ι → ι → Prop} {inputs : List ι}

theorem everyTime_nil : EveryTime P [] := by
  intro before x after h
  exact absurd h.symm (by simp)

theorem everyTime_of_append {more : List ι} (h : EveryTime P (inputs ++ more)) :
    EveryTime P inputs := by
  intro before x after heq
  exact h before x (after ++ more) (by rw [heq, List.append_assoc, List.cons_append])

theorem everyTime_concat {x : ι} :
    EveryTime P (inputs ++ [x]) ↔ EveryTime P inputs ∧ P inputs x := by
  constructor
  · intro h
    constructor
    · intro before y after heq
      exact h before y (after ++ [x]) (by rw [heq, List.append_assoc, List.cons_append])
    · exact h inputs x [] rfl
  · intro ⟨hinputs, hx⟩ before y after heq
    rcases List.eq_nil_or_concat after with rfl | ⟨after, z, rfl⟩
    · obtain ⟨rfl, hxy⟩ := List.append_inj' heq rfl
      obtain rfl := List.singleton_inj.mp hxy
      exact hx
    · rw [List.concat_eq_append, ← List.cons_append, ← List.append_assoc] at heq
      obtain ⟨rfl, -⟩ := List.append_inj' heq rfl
      exact hinputs before y after rfl

/-- Two statements about every input are the same when they are so wherever an invariant holds,
and the first one brings the invariant to the next input. -/
theorem everyTime_congr {I : List ι → Prop} (hinit : I [])
    (hiff : ∀ before x, I before → (P before x ↔ Q before x))
    (hnext : ∀ before x, P before x → I (before ++ [x])) :
    EveryTime P inputs ↔ EveryTime Q inputs := by
  suffices h : (EveryTime P inputs ↔ EveryTime Q inputs) ∧ (EveryTime P inputs → I inputs) from
    h.1
  induction inputs using List.reverseRecOn with
  | nil => exact ⟨iff_of_true everyTime_nil everyTime_nil, fun _ ↦ hinit⟩
  | append_singleton inputs x ih =>
    rw [everyTime_concat, everyTime_concat]
    constructor
    · constructor
      · intro ⟨hP, hx⟩
        exact ⟨ih.1.mp hP, (hiff inputs x (ih.2 hP)).mp hx⟩
      · intro ⟨hQ, hx⟩
        have hP := ih.1.mpr hQ
        exact ⟨hP, (hiff inputs x (ih.2 hP)).mpr hx⟩
    · intro h
      exact hnext inputs x h.2

end

/-- The last input of a kind. -/
def lastWith (p : ι → Bool) (inputs : List ι) : Option ι := (inputs.filter p).getLast?

section

variable {p : ι → Bool} {inputs : List ι}

theorem lastWith_concat {x : ι} :
    lastWith p (inputs ++ [x]) = if p x then some x else lastWith p inputs := by
  unfold lastWith
  rw [List.filter_append]
  by_cases h : p x = true
  · rw [List.filter_cons_of_pos h, List.filter_nil, if_pos h, List.getLast?_concat]
  · rw [List.filter_cons_of_neg h, List.filter_nil, if_neg h, List.append_nil]

theorem lastWith_eq_some {x : ι} (h : lastWith p inputs = some x) : x ∈ inputs ∧ p x = true :=
  List.mem_filter.mp (List.mem_of_getLast? h)

/-- The last input of a kind is the last one of any part of the kind that it belongs to. -/
theorem lastWith_of_part {q : ι → Bool} (hpart : ∀ x, q x = true → p x = true) {x : ι}
    (h : lastWith p inputs = some x) (hx : q x = true) : lastWith q inputs = some x := by
  induction inputs using List.reverseRecOn with
  | nil => cases h
  | append_singleton inputs y ih =>
    rw [lastWith_concat] at h ⊢
    by_cases hp : p y = true
    · rw [if_pos hp] at h
      obtain rfl := Option.some.inj h
      rw [if_pos hx]
    · rw [if_neg hp] at h
      rw [if_neg fun hq ↦ hp (hpart y hq)]
      exact ih h

theorem lastWith_none_of_part {q : ι → Bool} (hpart : ∀ x, q x = true → p x = true)
    (h : lastWith p inputs = none) : lastWith q inputs = none := by
  cases hlast : lastWith q inputs with
  | none => rfl
  | some x =>
    have ⟨hmem, hx⟩ := lastWith_eq_some hlast
    have hempty := List.getLast?_eq_none_iff.mp h
    exact absurd (hempty ▸ List.mem_filter.mpr ⟨hmem, hpart x hx⟩) List.not_mem_nil

end

end History

/-! ## Inputs in another order

Each input may be refused.  When neighbours can change places, so can all inputs. -/

namespace Reorder

variable {σ ι : Type} (ok : σ → ι → Prop) (step : σ → ι → σ)

/-- Every input is accepted in the state that the ones in front of it leave. -/
def Accepts : σ → List ι → Prop
  | _, [] => True
  | s, x :: xs => ok s x ∧ Accepts (step s x) xs

/-- As long as `C` holds, which does not see the order, accepted neighbours can change places. -/
structure Exchange (C : σ → List ι → Prop) : Prop where
  perm : ∀ {s xs ys}, C s xs → xs.Perm ys → C s ys
  tail : ∀ {s x xs}, C s (x :: xs) → ok s x → C (step s x) xs
  swap : ∀ {s x y xs}, C s (x :: y :: xs) → ok s x → ok (step s x) y →
    ok s y ∧ ok (step s y) x ∧ step (step s y) x = step (step s x) y

variable {ok step} {C : σ → List ι → Prop}

theorem Exchange.accepts (h : Exchange ok step C) {s : σ} {xs ys : List ι} (hperm : xs.Perm ys)
    (hC : C s xs) (haccepts : Accepts ok step s xs) :
    Accepts ok step s ys ∧ ys.foldl step s = xs.foldl step s := by
  induction hperm generalizing s with
  | nil => exact ⟨haccepts, rfl⟩
  | cons x _ ih =>
    have ⟨hx, hrest⟩ := haccepts
    have ⟨hrest', heq⟩ := ih (h.tail hC hx) hrest
    exact ⟨⟨hx, hrest'⟩, heq⟩
  | swap x y xs =>
    have ⟨hy, hx, hrest⟩ := haccepts
    have ⟨hx', hy', heq⟩ := h.swap hC hy hx
    constructor
    · exact ⟨hx', hy', by rwa [heq]⟩
    · simp only [List.foldl_cons, heq]
  | trans hperm _ ih ih' =>
    have ⟨hmid, heq⟩ := ih hC haccepts
    have ⟨hend, heq'⟩ := ih' (h.perm hC hperm) hmid
    exact ⟨hend, heq'.trans heq⟩

theorem Exchange.accepts_iff (h : Exchange ok step C) {s : σ} {xs ys : List ι}
    (hperm : xs.Perm ys) (hC : C s xs) : Accepts ok step s xs ↔ Accepts ok step s ys := by
  constructor
  · intro haccepts
    exact (h.accepts hperm hC haccepts).1
  · intro haccepts
    exact (h.accepts hperm.symm (h.perm hC hperm) haccepts).1

end Reorder
