import Mathlib.Data.List.Basic

/-!
# Programs with a state that survives an exception

Rules for `ExceptT` over `StateM`: what such a program did before it throws stays done.
-/

namespace StateExcept

/-- A program over the state `σ` that may throw an `ε`. -/
abbrev Prog (σ ε α : Type) := ExceptT ε (StateM σ) α

variable {σ ε α β : Type}

/-- How the program ends from a state, and the state that it leaves. -/
def run (x : Prog σ ε α) (s : σ) : Except ε α × σ := StateT.run (ExceptT.run x) s

/-- A step that does not throw. -/
def change (f : σ → σ) : Prog σ ε Unit := fun s ↦ (.ok (), f s)

/-- A step that does not throw, with its result. -/
def call (f : σ → α × σ) : Prog σ ε α := fun s ↦ (.ok (f s).1, (f s).2)

/-- A computation from the state that leaves it as it is. -/
def look (f : σ → Except ε α) : Prog σ ε α := fun s ↦ (f s, s)

@[simp]
theorem run_pure {a : α} {s : σ} : run (pure a : Prog σ ε α) s = (.ok a, s) := rfl

@[simp]
theorem run_change {f : σ → σ} {s : σ} : run (change f : Prog σ ε Unit) s = (.ok (), f s) := rfl

@[simp]
theorem run_call {f : σ → α × σ} {s : σ} :
    run (call f : Prog σ ε α) s = (.ok (f s).1, (f s).2) := rfl

@[simp]
theorem run_throw {e : ε} {s : σ} : run (throw e : Prog σ ε α) s = (.error e, s) := rfl

@[simp]
theorem run_look {f : σ → Except ε α} {s : σ} : run (look f) s = (f s, s) := rfl

theorem run_bind {x : Prog σ ε α} {f : α → Prog σ ε β} {s : σ} :
    run (x >>= f) s = match run x s with
      | (.ok a, s') => run (f a) s'
      | (.error e, s') => (.error e, s') := by
  show StateT.run (ExceptT.run x >>= ExceptT.bindCont f) s = _
  rw [StateT.run_bind]
  unfold run
  show (fun p : Except ε α × σ ↦ StateT.run (ExceptT.bindCont f p.1) p.2) (StateT.run x.run s) = _
  rcases StateT.run x.run s with ⟨_ | _, s'⟩ <;> rfl

theorem run_bind_ok {x : Prog σ ε α} {f : α → Prog σ ε β} {s s' : σ} {a : α}
    (h : run x s = (.ok a, s')) : run (x >>= f) s = run (f a) s' := by
  rw [run_bind, h]

theorem run_bind_error {x : Prog σ ε α} {f : α → Prog σ ε β} {s s' : σ} {e : ε}
    (h : run x s = (.error e, s')) : run (x >>= f) s = (.error e, s') := by
  rw [run_bind, h]

theorem run_look_bind {f : σ → Except ε α} {g : α → Prog σ ε β} {s : σ} :
    run (look f >>= g) s = match f s with
      | .ok a => run (g a) s
      | .error e => (.error e, s) := by
  rw [run_bind, run_look]
  cases f s with
  | ok a => rfl
  | error e => rfl

/-- A program that goes through has gone through each of its parts. -/
theorem run_bind_eq_ok {x : Prog σ ε α} {f : α → Prog σ ε β} {s s' : σ} {b : β} :
    run (x >>= f) s = (.ok b, s') ↔
      ∃ a s₁, run x s = (.ok a, s₁) ∧ run (f a) s₁ = (.ok b, s') := by
  rw [run_bind]
  rcases run x s with ⟨e | a, s₁⟩
  · simp
  · simp

/-- The program does not throw. -/
def GoesThrough (x : Prog σ ε α) (s : σ) : Prop := ∃ a s', run x s = (.ok a, s')

theorem goesThrough_bind {x : Prog σ ε α} {f : α → Prog σ ε β} {s : σ} :
    GoesThrough (x >>= f) s ↔ ∃ a s₁, run x s = (.ok a, s₁) ∧ GoesThrough (f a) s₁ := by
  constructor
  · intro ⟨b, s', h⟩
    have ⟨a, s₁, hx, hf⟩ := run_bind_eq_ok.mp h
    exact ⟨a, s₁, hx, b, s', hf⟩
  · intro ⟨a, s₁, hx, b, s', hf⟩
    exact ⟨b, s', run_bind_eq_ok.mpr ⟨a, s₁, hx, hf⟩⟩

theorem goesThrough_look {f : σ → Except ε α} {s : σ} :
    GoesThrough (look f) s ↔ ∃ a, f s = .ok a := by
  simp [GoesThrough]

theorem goesThrough_look_bind {f : σ → Except ε α} {g : α → Prog σ ε β} {s : σ} :
    GoesThrough (look f >>= g) s ↔ ∃ a, f s = .ok a ∧ GoesThrough (g a) s := by
  rw [goesThrough_bind]
  simp

theorem goesThrough_change_bind {f : σ → σ} {x : Prog σ ε β} {s : σ} :
    GoesThrough (change f >>= fun _ ↦ x) s ↔ GoesThrough x (f s) := by
  rw [goesThrough_bind]
  simp

theorem goesThrough_iff_isOk {x : Prog σ ε α} {s : σ} :
    GoesThrough x s ↔ (run x s).1.isOk = true := by
  unfold GoesThrough
  rcases run x s with ⟨e | a, s'⟩
  · simp [Except.isOk, Except.toBool]
  · simp [Except.isOk, Except.toBool]

instance {x : Prog σ ε α} {s : σ} : Decidable (GoesThrough x s) :=
  decidable_of_iff _ goesThrough_iff_isOk.symm

/-! ## What a program keeps -/

/-- However the program ends, it keeps `I`. -/
def Keeps (I : σ → Prop) (x : Prog σ ε α) : Prop := ∀ s, I s → I (run x s).2

variable {I : σ → Prop}

theorem keeps_pure {a : α} : Keeps I (pure a : Prog σ ε α) := fun _ h ↦ h

theorem keeps_look {f : σ → Except ε α} : Keeps I (look f) := fun _ h ↦ h

theorem keeps_change {f : σ → σ} (h : ∀ s, I s → I (f s)) :
    Keeps I (change f : Prog σ ε Unit) := h

theorem keeps_bind {x : Prog σ ε α} {f : α → Prog σ ε β} (hx : Keeps I x)
    (hf : ∀ a, Keeps I (f a)) : Keeps I (x >>= f) := by
  intro s hs
  have hmid := hx s hs
  rw [run_bind]
  rcases hrun : run x s with ⟨e | a, s'⟩
  · rw [hrun] at hmid
    exact hmid
  · rw [hrun] at hmid
    exact hf a s' hmid

theorem keeps_ite {p : Prop} [Decidable p] {x y : Prog σ ε α} (hx : Keeps I x)
    (hy : Keeps I y) : Keeps I (if p then x else y) := by
  split
  · exact hx
  · exact hy

theorem keeps_look_bind {f : σ → Except ε α} {g : α → Prog σ ε β}
    (h : ∀ s a, f s = .ok a → Keeps I (g a)) : Keeps I (look f >>= g) := by
  intro s hs
  rw [run_look_bind]
  cases hlook : f s with
  | ok a => exact h s a hlook s hs
  | error e => exact hs

theorem keeps_forM_mem {f : α → Prog σ ε PUnit} {xs : List α} (hf : ∀ a ∈ xs, Keeps I (f a)) :
    Keeps I (xs.forM f) := by
  induction xs with
  | nil => exact keeps_pure
  | cons x xs ih =>
    obtain ⟨hx, hxs⟩ := List.forall_mem_cons.mp hf
    exact keeps_bind hx fun _ ↦ ih hxs

theorem keeps_forM {f : α → Prog σ ε PUnit} {xs : List α} (hf : ∀ a, Keeps I (f a)) :
    Keeps I (xs.forM f) :=
  keeps_forM_mem fun a _ ↦ hf a

theorem keeps_foldlM {f : β → α → Prog σ ε β} {b : β} {xs : List α}
    (hf : ∀ b a, Keeps I (f b a)) : Keeps I (xs.foldlM f b) := by
  induction xs generalizing b with
  | nil => exact keeps_pure
  | cons x xs ih =>
    rw [List.foldlM_cons]
    exact keeps_bind (hf b x) fun _ ↦ ih

/-! ## Assertions -/

/-- From a state with `P` the program ends in one with `Q` of its result, or with `E` where it
throws. -/
def Triple (P : σ → Prop) (x : Prog σ ε α) (Q : α → σ → Prop) (E : ε → σ → Prop) : Prop :=
  ∀ s, P s → (∀ a s', run x s = (.ok a, s') → Q a s') ∧ ∀ e s', run x s = (.error e, s') → E e s'

section

variable {P P' : σ → Prop} {Q Q' : α → σ → Prop} {R : β → σ → Prop} {E : ε → σ → Prop}

theorem triple_imp {x : Prog σ ε α} (h : Triple P x Q E) (hpre : ∀ s, P' s → P s)
    (hpost : ∀ a s, Q a s → Q' a s) : Triple P' x Q' E := by
  intro s hs
  obtain ⟨hok, herror⟩ := h s (hpre s hs)
  exact ⟨fun a s' hrun ↦ hpost a s' (hok a s' hrun), herror⟩

/-- A fact that is not about the state. -/
theorem triple_of_and {x : Prog σ ε α} {p : Prop} (h : p → Triple P x Q E) :
    Triple (fun s ↦ P s ∧ p) x Q E := fun s hs ↦ h hs.2 s hs.1

theorem triple_pure {a : α} (h : ∀ s, P s → Q a s) : Triple P (pure a : Prog σ ε α) Q E := by
  intro s hs
  constructor
  · intro b s' hrun
    rw [run_pure, Prod.mk.injEq, Except.ok.injEq] at hrun
    obtain ⟨rfl, rfl⟩ := hrun
    exact h s hs
  · intro e s' hrun
    rw [run_pure, Prod.mk.injEq] at hrun
    exact absurd hrun.1 (by simp)

theorem triple_throw {e : ε} (h : ∀ s, P s → E e s) : Triple P (throw e : Prog σ ε α) Q E := by
  intro s hs
  constructor
  · intro b s' hrun
    rw [run_throw, Prod.mk.injEq] at hrun
    exact absurd hrun.1 (by simp)
  · intro e' s' hrun
    rw [run_throw, Prod.mk.injEq, Except.error.injEq] at hrun
    obtain ⟨rfl, rfl⟩ := hrun
    exact h s hs

theorem triple_call {f : σ → α × σ} (h : ∀ s, P s → Q (f s).1 (f s).2) :
    Triple P (call f : Prog σ ε α) Q E := by
  intro s hs
  constructor
  · intro b s' hrun
    rw [run_call, Prod.mk.injEq, Except.ok.injEq] at hrun
    obtain ⟨rfl, rfl⟩ := hrun
    exact h s hs
  · intro e s' hrun
    rw [run_call, Prod.mk.injEq] at hrun
    exact absurd hrun.1 (by simp)

theorem triple_change {f : σ → σ} {Q : Unit → σ → Prop} (h : ∀ s, P s → Q () (f s)) :
    Triple P (change f : Prog σ ε Unit) Q E :=
  triple_call (f := fun s ↦ ((), f s)) h

theorem triple_look {f : σ → Except ε α} (hok : ∀ s a, P s → f s = .ok a → Q a s)
    (herror : ∀ s e, P s → f s = .error e → E e s) : Triple P (look f) Q E := by
  intro s hs
  constructor
  · intro a s' hrun
    rw [run_look, Prod.mk.injEq] at hrun
    obtain ⟨hf, rfl⟩ := hrun
    exact hok s a hs hf
  · intro e s' hrun
    rw [run_look, Prod.mk.injEq] at hrun
    obtain ⟨hf, rfl⟩ := hrun
    exact herror s e hs hf

theorem triple_read {f : σ → α} (h : ∀ s, P s → Q (f s) s) :
    Triple P (look fun s ↦ .ok (f s) : Prog σ ε α) Q E :=
  triple_call (f := fun s ↦ (f s, s)) h

theorem triple_bind {x : Prog σ ε α} {f : α → Prog σ ε β} (hx : Triple P x Q E)
    (hf : ∀ a, Triple (Q a) (f a) R E) : Triple P (x >>= f) R E := by
  intro s hs
  obtain ⟨hok, herror⟩ := hx s hs
  rw [run_bind]
  -- where the first part throws, the second one is not run
  rcases hrun : run x s with ⟨e | a, s₁⟩
  · constructor
    · intro b s' h
      exact absurd (congrArg Prod.fst h) (by simp)
    · intro e' s' h
      simp only [Prod.mk.injEq, Except.error.injEq] at h
      obtain ⟨rfl, rfl⟩ := h
      exact herror e s₁ hrun
  · exact hf a s₁ (hok a s₁ hrun)

theorem triple_ite {p : Prop} [Decidable p] {x y : Prog σ ε α} (hx : p → Triple P x Q E)
    (hy : ¬ p → Triple P y Q E) : Triple P (if p then x else y) Q E := by
  split
  · exact hx ‹_›
  · exact hy ‹_›

/-- What a step of a loop preserves, of what the loop has made so far. -/
theorem triple_foldlM {f : β → α → Prog σ ε β} {I : β → σ → Prop} {xs : List α} (b : β)
    (hf : ∀ b, ∀ a ∈ xs, Triple (I b) (f b a) I E) : Triple (I b) (xs.foldlM f b) I E := by
  -- the value that the loop carries is general, as each round changes it
  induction xs generalizing b with
  | nil => exact triple_pure fun _ h ↦ h
  | cons x xs ih =>
    rw [List.foldlM_cons]
    apply triple_bind (hf b x List.mem_cons_self)
    intro b'
    exact ih b' fun b a ha ↦ hf b a (List.mem_cons_of_mem x ha)

end

/-- The program ends in the state that it starts from. -/
def Leaves (x : Prog σ ε α) (s : σ) : Prop := (run x s).2 = s

theorem leaves_pure {a : α} {s : σ} : Leaves (pure a : Prog σ ε α) s := rfl

theorem leaves_look {f : σ → Except ε α} {s : σ} : Leaves (look f) s := rfl

theorem leaves_bind {x : Prog σ ε α} {f : α → Prog σ ε β} {s : σ} (hx : Leaves x s)
    (hf : ∀ a, run x s = (.ok a, s) → Leaves (f a) s) : Leaves (x >>= f) s := by
  unfold Leaves at *
  rw [run_bind]
  rcases hrun : run x s with ⟨e | a, s'⟩
  · rw [hrun] at hx
    exact hx
  · rw [hrun] at hx
    -- the second part starts where the first one has started
    obtain rfl : s' = s := hx
    exact hf a hrun

/-- A loop of steps that do not throw. -/
theorem run_forM_change {f : α → σ → σ} {xs : List α} {s : σ} :
    run (xs.forM fun x ↦ (change (f x) : Prog σ ε PUnit)) s =
      (.ok (), xs.foldl (fun s x ↦ f x s) s) := by
  induction xs generalizing s with
  | nil => rfl
  | cons x xs ih =>
    show run (change (f x) >>= fun _ ↦ xs.forM fun x ↦ change (f x)) s = _
    rw [run_bind_ok run_change, ih]
    rfl

end StateExcept
