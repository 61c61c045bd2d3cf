import Mathlib.Data.List.Basic
import Mathlib.Logic.Relation
import Mathlib.Order.WellFounded

/-!
# Do-while loops

A loop body answers whether to go round again, together with the state it leaves.  The loop may
not end, so `run` carries fuel and `Exits` says that some fuel is enough.  `Drains` is the usual
caller of such a loop: it enters the loop again from the state the loop was left in, for as long
as that state says there is more.
-/

namespace DoWhile

variable {σ : Type*}

/-- `do { body } while (again)`, given up after `fuel` rounds. -/
def run (body : σ → Bool × σ) : Nat → σ → Option σ
  | 0, _ => none
  | fuel + 1, s =>
      match body s with
      | (true, s') => run body fuel s'
      | (false, s') => some s'

/-- The loop entered in `s` ends, and is left in `t`. -/
def Exits (body : σ → Bool × σ) (s t : σ) : Prop := ∃ fuel, run body fuel s = some t

/-- Entering the loop again and again, from `s` until it is left in a state without `more`,
leaves it in the states `ts` on the way. -/
inductive Drains (body : σ → Bool × σ) (more : σ → Bool) : σ → List σ → Prop
  | done {s t} : Exits body s t → more t = false → Drains body more s []
  | more {s t ts} : Exits body s t → more t = true → Drains body more t ts →
      Drains body more s (t :: ts)

/-- What `Drains` leaves behind, given up after `fuel` rounds in all. -/
def drain (body : σ → Bool × σ) (more : σ → Bool) : Nat → σ → Option (List σ)
  | 0, _ => none
  | fuel + 1, s =>
      match body s with
      | (true, t) => drain body more fuel t
      | (false, t) => if more t then (drain body more fuel t).map (t :: ·) else some []

/-! ## One round at a time -/

theorem exits_of_again {body : σ → Bool × σ} {s s' t : σ} (hs : body s = (true, s')) :
    Exits body s t ↔ Exits body s' t := by
  constructor
  · rintro ⟨fuel, h⟩
    cases fuel with
    | zero => simp [run] at h
    | succ fuel => exact ⟨fuel, by simpa [run, hs] using h⟩
  · rintro ⟨fuel, h⟩
    exact ⟨fuel + 1, by simpa [run, hs] using h⟩

theorem exits_of_stop {body : σ → Bool × σ} {s s' t : σ} (hs : body s = (false, s')) :
    Exits body s t ↔ t = s' := by
  constructor
  · rintro ⟨fuel, h⟩
    cases fuel with
    | zero => simp [run] at h
    | succ fuel =>
      simp only [run, hs, Option.some.injEq] at h
      exact h.symm
  · rintro rfl
    exact ⟨1, by simp [run, hs]⟩

/-- The induction over the rounds of a loop that ends. -/
theorem Exits.rounds {body : σ → Bool × σ} {motive : σ → σ → Prop}
    (stop : ∀ s t, body s = (false, t) → motive s t)
    (again : ∀ s s' t, body s = (true, s') → Exits body s' t → motive s' t → motive s t)
    {s t : σ} (h : Exits body s t) : motive s t := by
  obtain ⟨fuel, h⟩ := h
  induction fuel generalizing s with
  | zero => simp [run] at h
  | succ fuel ih =>
    cases hs : body s with
    | mk go s' =>
      cases go with
      | true =>
        have h' : run body fuel s' = some t := by simpa [run, hs] using h
        exact again s s' t hs ⟨fuel, h'⟩ (ih h')
      | false =>
        have h' : s' = t := by simpa [run, hs] using h
        exact stop s t (h' ▸ hs)

/-- A loop whose rounds decrease a measure, under an invariant they keep, ends. -/
theorem exits_of_variant {body : σ → Bool × σ} (I : σ → Prop) (μ : σ → Nat)
    (step : ∀ s t, I s → body s = (true, t) → I t ∧ μ t < μ s)
    {s : σ} (hI : I s) : ∃ t, Exits body s t := by
  induction hn : μ s using Nat.strong_induction_on generalizing s with
  | h n ih =>
    cases hs : body s with
    | mk go t =>
      cases go with
      | true =>
        obtain ⟨hIt, hlt⟩ := step s t hI hs
        obtain ⟨u, hu⟩ := ih (μ t) (hn ▸ hlt) hIt rfl
        exact ⟨u, (exits_of_again hs).mpr hu⟩
      | false => exact ⟨t, (exits_of_stop hs).mpr rfl⟩

theorem Exits.unique {body : σ → Bool × σ} {s t t' : σ} (h : Exits body s t)
    (h' : Exits body s t') : t = t' := by
  refine Exits.rounds (motive := fun s t ↦ Exits body s t' → t = t') ?_ ?_ h h'
  · intro s t hs h'
    exact ((exits_of_stop hs).mp h').symm
  · intro s s' t hs _ ih h'
    exact ih ((exits_of_again hs).mp h')

theorem Drains.unique {body : σ → Bool × σ} {more : σ → Bool} {s : σ} {ts ts' : List σ}
    (h : Drains body more s ts) (h' : Drains body more s ts') : ts = ts' := by
  induction h generalizing ts' with
  | done hx hm =>
    cases h' with
    | done => rfl
    | more hx' hm' _ => rw [← hx.unique hx', hm] at hm'; simp at hm'
  | more hx hm _ ih =>
    cases h' with
    | done hx' hm' => rw [← hx.unique hx', hm] at hm'; simp at hm'
    | more hx' _ hd' =>
      obtain rfl := hx.unique hx'
      rw [ih hd']

/-! ## The rounds of a drained loop as one sequence

`resume` forgets the border between two calls: it is the state the next round starts from, and
`none` once a round has left the loop with nothing more. -/

/-- The state from which the round after the one entered in `s` starts. -/
def resume (body : σ → Bool × σ) (more : σ → Bool) (s : σ) : Option σ :=
  match body s with
  | (true, t) => some t
  | (false, t) => if more t then some t else none

/-- `t` is the start of some round after (or of) the one that starts in `s`. -/
def Reaches (body : σ → Bool × σ) (more : σ → Bool) : σ → σ → Prop :=
  Relation.ReflTransGen (fun s t ↦ resume body more s = some t)

variable {body : σ → Bool × σ} {more : σ → Bool}

theorem resume_of_again {s t : σ} (h : body s = (true, t)) : resume body more s = some t := by
  simp [resume, h]

theorem resume_of_more {s t : σ} (h : body s = (false, t)) (hm : more t = true) :
    resume body more s = some t := by
  simp [resume, h, hm]

theorem resume_of_done {s t : σ} (h : body s = (false, t)) (hm : more t = false) :
    resume body more s = none := by
  simp [resume, h, hm]

theorem Reaches.head {s t u : σ} (h : resume body more s = some t)
    (ht : Reaches body more t u) : Reaches body more s u :=
  Relation.ReflTransGen.head h ht

/-- The induction over the rounds of a loop that is drained. -/
theorem Drains.rounds {motive : σ → List σ → Prop}
    (done : ∀ s t, body s = (false, t) → more t = false → motive s [])
    (emit : ∀ s t ts, body s = (false, t) → more t = true → motive t ts → motive s (t :: ts))
    (again : ∀ s s' ts, body s = (true, s') → motive s' ts → motive s ts)
    {s : σ} {ts : List σ} (h : Drains body more s ts) : motive s ts := by
  -- the outer induction is on the calls, the inner one on the rounds of a call
  induction h with
  | done hx hm =>
    refine Exits.rounds (motive := fun s t ↦ more t = false → motive s []) ?_ ?_ hx hm
    · exact fun s t hs hm ↦ done s t hs hm
    · exact fun s s' t hs _ ih hm ↦ again s s' [] hs (ih hm)
  | @more s t ts hx hm _ ih =>
    refine Exits.rounds (motive := fun s t ↦ more t = true → motive t ts → motive s (t :: ts))
      ?_ ?_ hx hm ih
    · exact fun s t hs hm ih ↦ emit s t ts hs hm ih
    · exact fun s s' t hs _ hr hm ih ↦ again s s' (t :: ts) hs (hr hm ih)

theorem Drains.of_again {s s' : σ} {ts : List σ} (hs : body s = (true, s'))
    (h : Drains body more s' ts) : Drains body more s ts := by
  cases h with
  | done hx hm => exact .done ((exits_of_again hs).mpr hx) hm
  | more hx hm hd => exact .more ((exits_of_again hs).mpr hx) hm hd

theorem drains_of_drain {fuel : Nat} {s : σ} {ts : List σ}
    (h : drain body more fuel s = some ts) : Drains body more s ts := by
  induction fuel generalizing s ts with
  | zero => simp [drain] at h
  | succ fuel ih =>
    unfold drain at h
    cases hs : body s with
    | mk go t =>
      rw [hs] at h
      cases go with
      | true => exact (ih h).of_again hs
      | false =>
        have hx : Exits body s t := (exits_of_stop hs).mpr rfl
        cases hm : more t with
        | false =>
          simp only [hm, Bool.false_eq_true, if_false, Option.some.injEq] at h
          exact h ▸ .done hx hm
        | true =>
          simp only [hm, if_true, Option.map_eq_some_iff] at h
          obtain ⟨us, hus, rfl⟩ := h
          exact .more hx hm (ih hus)

/-- A loop whose rounds decrease a measure, under an invariant they keep, is drained. -/
theorem drains_of_variant (I : σ → Prop) (μ : σ → Nat)
    (step : ∀ s t, I s → resume body more s = some t → I t ∧ μ t < μ s)
    {s : σ} (hI : I s) : ∃ ts, Drains body more s ts := by
  induction hn : μ s using Nat.strong_induction_on generalizing s with
  | h n ih =>
    cases hs : body s with
    | mk go t =>
      cases go with
      | true =>
        obtain ⟨hIt, hlt⟩ := step s t hI (resume_of_again hs)
        obtain ⟨ts, hd⟩ := ih (μ t) (hn ▸ hlt) hIt rfl
        exact ⟨ts, hd.of_again hs⟩
      | false =>
        have hx : Exits body s t := (exits_of_stop hs).mpr rfl
        cases hm : more t with
        | false => exact ⟨[], .done hx hm⟩
        | true =>
          obtain ⟨hIt, hlt⟩ := step s t hI (resume_of_more hs hm)
          obtain ⟨ts, hd⟩ := ih (μ t) (hn ▸ hlt) hIt rfl
          exact ⟨t :: ts, .more hx hm hd⟩

/-- The rounds of a drained loop run out, whichever of them one starts from. -/
theorem Drains.acc {s : σ} {ts : List σ} (h : Drains body more s ts) :
    Acc (fun t s ↦ resume body more s = some t) s := by
  refine Drains.rounds (motive := fun s _ ↦ Acc (fun t s ↦ resume body more s = some t) s)
    ?_ ?_ ?_ h
  · intro s t hs hm
    exact ⟨s, fun u hu ↦ by simp [resume_of_done hs hm] at hu⟩
  · intro s t ts hs hm ih
    refine ⟨s, fun u hu ↦ ?_⟩
    rw [resume_of_more hs hm, Option.some.injEq] at hu
    exact hu ▸ ih
  · intro s s' ts hs ih
    refine ⟨s, fun u hu ↦ ?_⟩
    rw [resume_of_again hs, Option.some.injEq] at hu
    exact hu ▸ ih

/-- A drained loop never comes back to the start of a round. -/
theorem Drains.not_returns {s u : σ} {ts : List σ} (h : Drains body more s ts)
    (hr : Reaches body more s u) :
    ¬ Relation.TransGen (fun s t ↦ resume body more s = some t) u u := by
  intro hcycle
  have hacc : Acc (fun t s ↦ resume body more s = some t) u := by
    refine Relation.ReflTransGen.head_induction_on hr id ?_ h.acc
    intro a c hac _ ih ha
    exact ih (ha.inv hac)
  have hswap : Relation.TransGen (fun t s ↦ resume body more s = some t) u u :=
    Relation.transGen_swap.mp hcycle
  -- a cycle would go down for ever
  have htrans := hacc.transGen
  clear h hr hacc hcycle
  induction htrans with
  | intro u _ ih => exact ih u hswap hswap

/-- The rounds come one after the other: of two of them, one is reached from the other. -/
theorem Reaches.total {s t u : σ} (ht : Reaches body more s t) (hu : Reaches body more s u) :
    Reaches body more t u ∨ Reaches body more u t := by
  refine Relation.ReflTransGen.total_of_right_unique ?_ ht hu
  intro a b c hb hc
  exact Option.some.inj (hb.symm.trans hc)

/-- What a drained loop leaves behind is what some round of it leaves behind. -/
theorem Drains.mem_iff {s : σ} {ts : List σ} (h : Drains body more s ts) (t : σ) :
    t ∈ ts ↔ ∃ s', Reaches body more s s' ∧ body s' = (false, t) ∧ more t = true := by
  refine Drains.rounds (motive := fun s ts ↦ t ∈ ts ↔
    ∃ s', Reaches body more s s' ∧ body s' = (false, t) ∧ more t = true) ?_ ?_ ?_ h
  · intro s u hs hm
    -- the last call leaves nothing behind, and no round comes after it
    constructor
    · simp
    · rintro ⟨s', hr, hb, ht⟩
      rcases Relation.ReflTransGen.cases_head hr with rfl | ⟨v, hv, _⟩
      · rw [hs, Prod.mk.injEq] at hb
        rw [hb.2, ht] at hm
        simp at hm
      · simp [resume_of_done hs hm] at hv
  · intro s u us hs hm ih
    constructor
    · rintro (_ | ⟨_, hmem⟩)
      · exact ⟨s, Relation.ReflTransGen.refl, hs, hm⟩
      · obtain ⟨s', hr, hb⟩ := ih.mp hmem
        exact ⟨s', hr.head (resume_of_more hs hm), hb⟩
    · rintro ⟨s', hr, hb, ht⟩
      rcases Relation.ReflTransGen.cases_head hr with rfl | ⟨v, hv, hr'⟩
      · rw [hs, Prod.mk.injEq] at hb
        exact hb.2 ▸ List.mem_cons_self
      · rw [resume_of_more hs hm, Option.some.injEq] at hv
        subst hv
        exact List.mem_cons_of_mem _ (ih.mpr ⟨s', hr', hb, ht⟩)
  · intro s s' ts hs ih
    rw [ih]
    constructor
    · rintro ⟨u, hr, hb⟩
      exact ⟨u, hr.head (resume_of_again hs), hb⟩
    · rintro ⟨u, hr, hb, ht⟩
      rcases Relation.ReflTransGen.cases_head hr with rfl | ⟨v, hv, hr'⟩
      · rw [hs] at hb
        simp at hb
      · rw [resume_of_again hs, Option.some.injEq] at hv
        exact ⟨u, hv ▸ hr', hb, ht⟩

/-- Every round of the loop keeps the invariant, so every round starts with it. -/
theorem Reaches.invariant {I : σ → Prop}
    (step : ∀ s t, I s → resume body more s = some t → I t) {s t : σ}
    (h : Reaches body more s t) (hI : I s) : I t := by
  induction h with
  | refl => exact hI
  | tail _ hs ih => exact step _ _ ih hs

/-- When every round raises a key, the states left behind come in the order of their keys. -/
theorem Drains.pairwise_lt (I : σ → Prop) (κ : σ → Nat)
    (step : ∀ s t, I s → resume body more s = some t → I t ∧ κ s < κ t)
    {s : σ} {ts : List σ} (h : Drains body more s ts) (hI : I s) :
    (∀ t ∈ ts, κ s < κ t) ∧ ts.Pairwise (fun t u ↦ κ t < κ u) := by
  refine Drains.rounds (motive := fun s ts ↦ I s →
    (∀ t ∈ ts, κ s < κ t) ∧ ts.Pairwise (fun t u ↦ κ t < κ u)) ?_ ?_ ?_ h hI
  · intro s t _ _ _
    exact ⟨by simp, List.Pairwise.nil⟩
  · intro s t ts hs hm ih hI
    obtain ⟨hIt, hlt⟩ := step s t hI (resume_of_more hs hm)
    obtain ⟨hall, hpw⟩ := ih hIt
    refine ⟨?_, List.Pairwise.cons hall hpw⟩
    intro u hu
    rcases List.mem_cons.mp hu with rfl | hu
    · exact hlt
    · exact hlt.trans (hall u hu)
  · intro s s' ts hs ih hI
    obtain ⟨hIt, hlt⟩ := step s s' hI (resume_of_again hs)
    obtain ⟨hall, hpw⟩ := ih hIt
    exact ⟨fun u hu ↦ hlt.trans (hall u hu), hpw⟩

end DoWhile
