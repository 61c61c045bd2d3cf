import Mathlib.Data.List.Basic
import Mathlib.Data.List.Forall2

/-!
# Checks that throw

Rules for `Except` programs that go through a series of checks.
-/

namespace Checks

variable {ε α β : Type}

/-- Goes on when `p` holds, and throws `e` otherwise. -/
def require (p : Prop) [Decidable p] (e : ε) : Except ε Unit := if p then .ok () else .error e

@[simp]
theorem require_eq_ok {p : Prop} [Decidable p] {e : ε} {u : Unit} :
    require p e = .ok u ↔ p := by
  unfold require
  split <;> simp_all

@[simp]
theorem require_eq_error {p : Prop} [Decidable p] {e e' : ε} :
    require p e = .error e' ↔ ¬ p ∧ e = e' := by
  unfold require
  split <;> simp_all

/-- The value of an option, or an exception. -/
def orThrow : Option α → ε → Except ε α
  | some a, _ => .ok a
  | none, e => .error e

@[simp]
theorem orThrow_eq_ok {o : Option α} {e : ε} {a : α} : orThrow o e = .ok a ↔ o = some a := by
  cases o <;> simp [orThrow]

theorem ok_bind {a : α} {f : α → Except ε β} : (Except.ok a >>= f) = f a := rfl

@[simp]
theorem bind_eq_error {x : Except ε α} {f : α → Except ε β} {e : ε} :
    x >>= f = .error e ↔ x = .error e ∨ ∃ a, x = .ok a ∧ f a = .error e := by
  cases x with
  | error e => simp [bind, Except.bind]
  | ok a => simp [bind, Except.bind]

@[simp]
theorem bind_eq_ok {x : Except ε α} {f : α → Except ε β} {b : β} :
    x >>= f = .ok b ↔ ∃ a, x = .ok a ∧ f a = .ok b := by
  cases x with
  | error e => simp [bind, Except.bind]
  | ok a => simp [bind, Except.bind]

@[simp]
theorem pure_eq_ok {a b : α} : (pure a : Except ε α) = .ok b ↔ a = b := by
  show Except.ok a = Except.ok b ↔ a = b
  simp

@[simp]
theorem pure_ne_error {a : α} {e : ε} : (pure a : Except ε α) = .error e ↔ False := by
  show Except.ok a = Except.error e ↔ False
  simp

@[simp]
theorem map_eq_ok {x : Except ε α} {f : α → β} {b : β} :
    x.map f = .ok b ↔ ∃ a, x = .ok a ∧ f a = b := by
  cases x with
  | error e => simp [Except.map]
  | ok a => simp [Except.map]

@[simp]
theorem mapError_eq_ok {ε' : Type} {x : Except ε α} {f : ε → ε'} {a : α} :
    x.mapError f = .ok a ↔ x = .ok a := by
  cases x <;> simp [Except.mapError]

/-- Each step of a series of checks that went through is a check that holds. -/
theorem forM_ok_mem {f : α → Except ε Unit} {xs : List α} {u : Unit} (h : xs.forM f = .ok u)
    {x : α} (hx : x ∈ xs) : f x = .ok () := by
  induction xs with
  | nil => exact absurd hx List.not_mem_nil
  | cons x' xs ih =>
    obtain ⟨_, hfirst, hrest⟩ := bind_eq_ok.mp h
    rcases List.mem_cons.mp hx with rfl | hx
    · exact hfirst
    · exact ih hrest hx

/-- Each output of a loop that went through comes from an input. -/
theorem mapM_ok_mem {f : α → Except ε β} {xs : List α} {ys : List β} (h : xs.mapM f = .ok ys)
    {y : β} (hy : y ∈ ys) : ∃ x ∈ xs, f x = .ok y := by
  induction xs generalizing ys with
  | nil =>
    rw [List.mapM_nil, pure_eq_ok] at h
    exact absurd hy (h ▸ List.not_mem_nil)
  | cons x xs ih =>
    rw [List.mapM_cons] at h
    simp only [bind_eq_ok, pure_eq_ok] at h
    obtain ⟨z, hz, zs, hzs, rfl⟩ := h
    rcases List.mem_cons.mp hy with rfl | hy
    · exact ⟨x, List.mem_cons_self, hz⟩
    · obtain ⟨x', hx', heq⟩ := ih hzs hy
      exact ⟨x', List.mem_cons_of_mem x hx', heq⟩

/-- Each input of a loop that went through gives an output. -/
theorem mapM_ok_image {f : α → Except ε β} {xs : List α} {ys : List β} (h : xs.mapM f = .ok ys)
    {x : α} (hx : x ∈ xs) : ∃ y ∈ ys, f x = .ok y := by
  induction xs generalizing ys with
  | nil => exact absurd hx List.not_mem_nil
  | cons x' xs ih =>
    rw [List.mapM_cons] at h
    simp only [bind_eq_ok, pure_eq_ok] at h
    obtain ⟨z, hz, zs, hzs, rfl⟩ := h
    rcases List.mem_cons.mp hx with rfl | hx
    · exact ⟨z, List.mem_cons_self, hz⟩
    · have ⟨y, hy, heq⟩ := ih hzs hx
      exact ⟨y, List.mem_cons_of_mem z hy, heq⟩

/-- The outputs of a loop that went through are those of the inputs. -/
theorem mem_mapM {f : α → Except ε β} {xs : List α} {ys : List β} (h : xs.mapM f = .ok ys)
    {y : β} : y ∈ ys ↔ ∃ x ∈ xs, f x = .ok y := by
  constructor
  · exact mapM_ok_mem h
  · rintro ⟨x, hx, hy⟩
    obtain ⟨y', hy', heq⟩ := mapM_ok_image h hx
    rwa [← Except.ok.inj (heq.symm.trans hy)]

theorem mem_flatten_mapM {f : α → Except ε (List β)} {xs : List α} {ys : List (List β)}
    (h : xs.mapM f = .ok ys) {y : β} :
    y ∈ ys.flatten ↔ ∃ x ∈ xs, ∃ zs, f x = .ok zs ∧ y ∈ zs := by
  rw [List.mem_flatten]
  constructor
  · rintro ⟨zs, hzs, hy⟩
    obtain ⟨x, hx, heq⟩ := mapM_ok_mem h hzs
    exact ⟨x, hx, zs, heq, hy⟩
  · rintro ⟨x, hx, zs, heq, hy⟩
    exact ⟨zs, (mem_mapM h).mpr ⟨x, hx, heq⟩, hy⟩

theorem mapM_ok_iff {f : α → Except ε β} {xs : List α} {ys : List β} :
    xs.mapM f = .ok ys ↔ List.Forall₂ (fun x y ↦ f x = .ok y) xs ys := by
  induction xs generalizing ys with
  | nil =>
    rw [List.mapM_nil, pure_eq_ok, List.forall₂_nil_left_iff]
    exact eq_comm
  | cons x xs ih =>
    simp only [List.mapM_cons, bind_eq_ok, pure_eq_ok, List.forall₂_cons_left_iff]
    constructor
    · rintro ⟨y, hy, zs, hzs, rfl⟩
      exact ⟨y, zs, hy, ih.mp hzs, rfl⟩
    · rintro ⟨y, zs, hy, hzs, rfl⟩
      exact ⟨y, hy, zs, ih.mpr hzs, rfl⟩

/-- A loop over steps that all go through. -/
theorem mapM_eq_ok {f : α → Except ε β} {g : α → β} {xs : List α} (h : ∀ x ∈ xs, f x = .ok (g x)) :
    xs.mapM f = .ok (xs.map g) := by
  induction xs with
  | nil => rfl
  | cons x xs ih =>
    rw [List.mapM_cons, h x List.mem_cons_self, ih fun y hy ↦ h y (List.mem_cons_of_mem x hy)]
    rfl

/-- The same for a loop over what was made of other values. -/
theorem mapM_map_eq_ok {γ : Type} {h : γ → α} {f : α → Except ε β} {g : γ → β} {xs : List γ}
    (hf : ∀ x ∈ xs, f (h x) = .ok (g x)) : (xs.map h).mapM f = .ok (xs.map g) := by
  rw [List.mapM_map]
  exact mapM_eq_ok hf

/-- A loop that has given a value whose every step can only have given `g`. -/
theorem mapM_eq_some {f : α → Option β} {g : α → β} (h : ∀ x y, f x = some y → y = g x)
    {xs : List α} {ys : List β} (hxs : xs.mapM f = some ys) :
    ys = xs.map g ∧ ∀ x ∈ xs, f x = some (g x) := by
  induction xs generalizing ys with
  | nil =>
    rw [List.mapM_nil] at hxs
    obtain rfl : [] = ys := Option.some.inj hxs
    exact ⟨rfl, fun x hx ↦ absurd hx List.not_mem_nil⟩
  | cons x xs ih =>
    rw [List.mapM_cons] at hxs
    simp only [Option.bind_eq_bind, Option.bind_eq_some_iff, Option.pure_def,
      Option.some.injEq] at hxs
    obtain ⟨y, hy, ys', hys', rfl⟩ := hxs
    obtain ⟨rfl, hall⟩ := ih hys'
    obtain rfl := h x y hy
    refine ⟨rfl, fun z hz ↦ ?_⟩
    rcases List.mem_cons.mp hz with rfl | hz
    · exact hy
    · exact hall z hz

end Checks
