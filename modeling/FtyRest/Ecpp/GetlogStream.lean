import FtyRest.Lib.Chunks

/-!
# The stream buffer of the logs

`_clonedcode_cstreambuf` and `_clonedcode_ocstream` of `getlog_GET.ecpp`: a stream that keeps what
is written in chunks of one size, and that can be rolled back.
-/

namespace FtyRest.Ecpp

/-- `_clonedcode_cstreambuf`: the cells of the chunks, and how far the last one is filled.  There
is no place to put anything before the first chunk. -/
structure Cstreambuf (chunksize : Nat) where
  chunks : List (Vector UInt8 chunksize) := []
  /-- `pptr()`, counted from the last chunk -/
  pptr : Nat := 0
  pptr_le : pptr ≤ chunksize := by omega
  pptr_null : chunks = [] → pptr = 0 := by simp
deriving Repr

namespace Cstreambuf

section

variable {chunksize : Nat} [NeZero chunksize]

/-- `epptr()`, counted from the last chunk. -/
def epptr (b : Cstreambuf chunksize) : Nat := if b.chunks = [] then 0 else chunksize

def chunkcount (b : Cstreambuf chunksize) : Nat := b.chunks.length

def size (b : Cstreambuf chunksize) : Nat :=
  if b.chunks.length = 0 then 0 else (b.chunks.length - 1) * chunksize + b.pptr

/-- `chunksize`: how much of a chunk is filled. -/
def chunkSize (b : Cstreambuf chunksize) (n : Nat) : Nat :=
  if b.chunks.length = 0 then 0
  else if n + 1 < b.chunks.length then chunksize
  else if n + 1 = b.chunks.length then b.pptr
  else 0

/-- `chunk(n)`, with everything that is in its cells. -/
def chunk (b : Cstreambuf chunksize) (n : Nat) : List UInt8 :=
  match b.chunks[n]? with
  | some cells => cells.toList
  | none => []

def makeEmpty (b : Cstreambuf chunksize) : Cstreambuf chunksize :=
  match b.chunks with
  | [] => b
  | first :: _ =>
      { chunks := [first], pptr := 0, pptr_le := Nat.zero_le _, pptr_null := fun _ ↦ rfl }

/-- A new chunk, which holds `raw` before anything is put there. -/
def overflow (raw : Vector UInt8 chunksize) (b : Cstreambuf chunksize) (ch : UInt8) :
    Cstreambuf chunksize where
  chunks := b.chunks ++ [raw.set 0 ch (Nat.pos_of_neZero chunksize)]
  pptr := 1
  pptr_le := Nat.pos_of_neZero chunksize
  pptr_null := by simp

/-- `sputc`: the chunk that is being filled takes the character, or a new one does. -/
def sputc (raw : Nat → Vector UInt8 chunksize) (b : Cstreambuf chunksize) (ch : UInt8) :
    Cstreambuf chunksize :=
  if h : b.pptr < b.epptr then
    { chunks := b.chunks.modify (b.chunks.length - 1) fun cells ↦ cells.setIfInBounds b.pptr ch
      pptr := b.pptr + 1
      pptr_le := by
        unfold epptr at h
        split at h <;> omega
      pptr_null := by
        intro hnil
        have hempty : b.chunks = [] := by simpa using congrArg List.length hnil
        rw [epptr, if_pos hempty] at h
        omega }
  else
    b.overflow (raw b.chunks.length) ch

/-- `write`: one character after the other. -/
def write (raw : Nat → Vector UInt8 chunksize) (b : Cstreambuf chunksize) (s : List UInt8) :
    Cstreambuf chunksize :=
  s.foldl (sputc raw) b

/-- `rollback`; a chunk that is not there would be a null pointer afterwards, and `pbump` takes an
`int`, so that it would leave the chunk where the place in it is none. -/
def rollback (b : Cstreambuf chunksize) (n : Nat) : Option (Cstreambuf chunksize) :=
  if n = 0 then some b.makeEmpty
  else
    let c := (n - 1) / chunksize
    if h : c < b.chunks.length ∧ n % chunksize < 2 ^ 31 then
      some
        { chunks := b.chunks.take (c + 1)
          pptr := n % chunksize
          pptr_le := Nat.le_of_lt (Nat.mod_lt n (Nat.pos_of_neZero chunksize))
          pptr_null := by
            intro hnil
            rcases List.take_eq_nil_iff.mp hnil with hc | hempty
            · exact absurd hc (Nat.succ_ne_zero _)
            · rw [hempty] at h
              exact absurd h.1 (Nat.not_lt_zero _) }
    else none

def str (b : Cstreambuf chunksize) : List UInt8 :=
  (List.range b.chunkcount).foldl (fun ret n ↦ ret ++ (b.chunk n).take (b.chunkSize n)) []

/-- `output`: what is in `out` behind it. -/
def output (b : Cstreambuf chunksize) (out : List UInt8) : List UInt8 :=
  (List.range b.chunkcount).foldl (fun out n ↦ out ++ (b.chunk n).take (b.chunkSize n)) out

end

/-! ## What the stream holds -/

section

variable {chunksize : Nat}

/-- What was written and not rolled back: the cells, as far as they are filled. -/
def contents (b : Cstreambuf chunksize) : List UInt8 := (Chunks.cells b.chunks).take b.size

/-- What is left after a rollback: where `n` ends a chunk, that chunk is lost. -/
def kept (chunksize n : Nat) : Nat := if n % chunksize = 0 then n - chunksize else n

section

variable (b : Cstreambuf chunksize)

theorem size_of_nil (h : b.chunks = []) : b.size = 0 := by
  rw [size, h]
  rfl

theorem size_of_ne_nil (h : b.chunks ≠ []) :
    b.size = (b.chunks.length - 1) * chunksize + b.pptr := by
  rw [size, if_neg fun hzero ↦ h (List.length_eq_zero_iff.mp hzero)]

theorem size_le : b.size ≤ b.chunks.length * chunksize := by
  have hle := b.pptr_le
  by_cases h : b.chunks = []
  · rw [b.size_of_nil h]
    exact Nat.zero_le _
  · -- the last chunk is filled up to `pptr`
    have hlen : b.chunks.length = b.chunks.length - 1 + 1 := by
      have hpos := List.length_pos_iff.mpr h
      omega
    rw [b.size_of_ne_nil h]
    calc (b.chunks.length - 1) * chunksize + b.pptr
        ≤ (b.chunks.length - 1) * chunksize + chunksize := Nat.add_le_add_left hle _
      _ = b.chunks.length * chunksize := by rw [← Nat.succ_mul, Nat.succ_eq_add_one, ← hlen]

@[simp]
theorem length_contents : b.contents.length = b.size := by
  rw [contents, List.length_take, Chunks.length_cells]
  exact Nat.min_eq_left b.size_le

/-- What is read of the first chunks, in their order. -/
theorem foldl_chunks (out : List UInt8) {k : Nat} (hk : k ≤ b.chunks.length) :
    (List.range k).foldl (fun out n ↦ out ++ (b.chunk n).take (b.chunkSize n)) out =
      out ++ (Chunks.cells b.chunks).take (min (k * chunksize) b.size) := by
  induction k with
  | zero => simp
  | succ k ih =>
    have hlt : k < b.chunks.length := hk
    have hne : b.chunks ≠ [] := List.ne_nil_of_length_pos (Nat.zero_lt_of_lt hlt)
    have hsize := b.size_of_ne_nil hne
    have hle := b.pptr_le
    have hbefore : k * chunksize ≤ (b.chunks.length - 1) * chunksize :=
      Nat.mul_le_mul_right _ (by omega)
    have hcell : b.chunk k = ((Chunks.cells b.chunks).drop (k * chunksize)).take chunksize := by
      have hget : b.chunks[k]? = some b.chunks[k] := List.getElem?_eq_getElem hlt
      rw [chunk, hget, Chunks.take_drop_cells hget]
    -- a chunk is filled up to where the next one begins, or up to the end
    have hfill : b.chunkSize k = min ((k + 1) * chunksize) b.size - k * chunksize ∧
        b.chunkSize k ≤ chunksize := by
      rw [chunkSize, if_neg (by omega), Nat.succ_mul]
      by_cases hlast : k + 1 = b.chunks.length
      · have hk' : b.chunks.length - 1 = k := by omega
        rw [hk'] at hsize
        rw [if_neg (by omega), if_pos hlast]
        omega
      · have hnext : (k + 1) * chunksize ≤ (b.chunks.length - 1) * chunksize :=
          Nat.mul_le_mul_right _ (by omega)
        rw [Nat.succ_mul] at hnext
        rw [if_pos (by omega)]
        omega
    have hsum : min ((k + 1) * chunksize) b.size = k * chunksize + b.chunkSize k := by
      rw [hfill.1, Nat.succ_mul]
      omega
    rw [List.range_succ, List.foldl_append, ih (Nat.le_of_lt hlt),
      Nat.min_eq_left (by omega : k * chunksize ≤ b.size), hsum, List.take_add]
    show (out ++ _) ++ _ = _
    rw [hcell, List.take_take, Nat.min_eq_left hfill.2, List.append_assoc]

theorem output_eq (out : List UInt8) : b.output out = out ++ b.contents := by
  rw [output, chunkcount, b.foldl_chunks out (Nat.le_refl _), Nat.min_eq_right b.size_le, contents]

theorem str_eq : b.str = b.contents := b.output_eq []

@[simp]
theorem contents_new : ({} : Cstreambuf chunksize).contents = [] := rfl

theorem contents_makeEmpty : b.makeEmpty.contents = [] := by
  apply List.eq_nil_of_length_eq_zero
  rw [length_contents, makeEmpty]
  split
  · rename_i h
    exact b.size_of_nil h
  · simp [size]

variable [NeZero chunksize]

/-- The next cell is filled, and the ones behind it are not looked at. -/
theorem take_set {l : List UInt8} {k : Nat} (h : k < l.length) (ch : UInt8) :
    (l.set k ch).take (k + 1) = l.take k ++ [ch] := by
  rw [List.take_add_one, List.take_set_of_le (Nat.le_refl k), List.getElem?_set_self h]
  rfl

theorem contents_sputc (raw : Nat → Vector UInt8 chunksize) (ch : UInt8) :
    (b.sputc raw ch).contents = b.contents ++ [ch] := by
  have hle := b.pptr_le
  unfold sputc
  split
  · -- there is room in the last chunk
    rename_i hroom
    have hne : b.chunks ≠ [] := by
      intro hnil
      rw [epptr, if_pos hnil] at hroom
      exact Nat.not_lt_zero _ hroom
    rw [epptr, if_neg hne] at hroom
    have hpos := List.length_pos_iff.mpr hne
    have hsize := b.size_of_ne_nil hne
    have hfull : b.size < (Chunks.cells b.chunks).length := by
      have hlast : (b.chunks.length - 1 + 1) * chunksize = b.chunks.length * chunksize := by
        rw [Nat.sub_add_cancel hpos]
      rw [Chunks.length_cells, ← hlast, hsize, Nat.succ_mul]
      omega
    have hnew : (b.chunks.length - 1) * chunksize + (b.pptr + 1) = b.size + 1 := by omega
    rw [contents, size, List.length_modify, if_neg (Nat.ne_of_gt hpos)]
    show (Chunks.cells (b.chunks.modify _ _)).take _ = _
    rw [Chunks.cells_modify (Nat.sub_lt hpos Nat.one_pos) hroom, ← hsize, hnew]
    exact take_set hfull ch
  · -- every chunk is full, and one more begins with the character
    rename_i hfull
    have hsize : b.size = b.chunks.length * chunksize := by
      by_cases hnil : b.chunks = []
      · rw [b.size_of_nil hnil, hnil, List.length_nil, Nat.zero_mul]
      · have hpos := List.length_pos_iff.mpr hnil
        rw [epptr, if_neg hnil] at hfull
        rw [b.size_of_ne_nil hnil, Nat.le_antisymm hle (Nat.not_lt.mp hfull), ← Nat.succ_mul,
          Nat.succ_eq_add_one, Nat.sub_add_cancel hpos]
    have hcells : b.contents = Chunks.cells b.chunks := by
      rw [contents, List.take_of_length_le]
      rw [Chunks.length_cells, hsize]
    have hnew : (b.overflow (raw b.chunks.length) ch).size =
        (Chunks.cells b.chunks).length + 1 := by
      rw [size, overflow, Chunks.length_cells]
      simp
    rw [contents, hnew, hcells, overflow, Chunks.cells_append, List.take_append,
      List.take_of_length_le (Nat.le_succ _), Nat.add_sub_cancel_left]
    congr 1
    -- the first cell of the new chunk
    have hlen : 0 < (raw b.chunks.length).toList.length := by
      rw [Vector.length_toList]
      exact Nat.pos_of_neZero chunksize
    rw [Chunks.cells_cons, Chunks.cells_nil, List.append_nil, Vector.toList_set]
    exact take_set hlen ch

theorem contents_write (raw : Nat → Vector UInt8 chunksize) (s : List UInt8) :
    (b.write raw s).contents = b.contents ++ s := by
  induction s generalizing b with
  | nil => exact (List.append_nil _).symm
  | cons ch s ih =>
    show (write raw (b.sputc raw ch) s).contents = _
    rw [ih, contents_sputc, List.append_assoc]
    rfl

/-- How full the chunks are where a rollback to `n` leaves them. -/
theorem filled_eq_kept {c n : Nat} (hc : 0 < c) (hn : 0 < n) :
    (n - 1) / c * c + n % c = kept c n := by
  have hdiv : n / c * c + n % c = n := by rw [Nat.mul_comm]; exact Nat.div_add_mod n c
  have hmod := Nat.mod_lt n hc
  rw [kept]
  by_cases hend : n % c = 0
  · -- `n` ends a chunk, and the chunk before it is the last one
    have hquot : 0 < n / c := by
      by_contra hzero
      rw [Nat.eq_zero_of_not_pos hzero, Nat.zero_mul] at hdiv
      omega
    have hprev : (n / c - 1) * c + c = n / c * c := by
      rw [← Nat.succ_mul, Nat.succ_eq_add_one, Nat.sub_add_cancel hquot]
    have hchunk : (n - 1) / c = n / c - 1 := by
      apply Nat.div_eq_of_lt_le
      · omega
      · rw [Nat.succ_mul]
        omega
    rw [if_pos hend, hchunk]
    omega
  · have hchunk : (n - 1) / c = n / c := by
      apply Nat.div_eq_of_lt_le
      · omega
      · rw [Nat.succ_mul]
        omega
    rw [if_neg hend, hchunk]
    exact hdiv

/-- A rollback to a size that the stream has or had. -/
theorem rollback_of_le {n : Nat} (h : n ≤ b.size) (hint : n % chunksize < 2 ^ 31) :
    ∃ b', b.rollback n = some b' ∧ b'.contents = b.contents.take (kept chunksize n) := by
  have hpos : 0 < chunksize := Nat.pos_of_neZero chunksize
  unfold rollback
  by_cases hzero : n = 0
  · rw [if_pos hzero]
    refine ⟨b.makeEmpty, rfl, ?_⟩
    rw [contents_makeEmpty, hzero]
    simp [kept]
  · rw [if_neg hzero]
    have hchunk : (n - 1) / chunksize < b.chunks.length := by
      rw [Nat.div_lt_iff_lt_mul hpos]
      have hle := b.size_le
      omega
    rw [dif_pos ⟨hchunk, hint⟩]
    refine ⟨_, rfl, ?_⟩
    have hlen : (b.chunks.take ((n - 1) / chunksize + 1)).length = (n - 1) / chunksize + 1 := by
      rw [List.length_take]
      exact Nat.min_eq_left hchunk
    -- the last chunk that stays is filled up to the rest of the division
    have hfill := filled_eq_kept hpos (Nat.pos_of_ne_zero hzero)
    have hkept : kept chunksize n ≤ n := by
      rw [kept]
      split <;> omega
    have hcells : kept chunksize n ≤ ((n - 1) / chunksize + 1) * chunksize := by
      have hmod := Nat.mod_lt n hpos
      rw [← hfill, Nat.succ_mul]
      omega
    rw [contents, size, hlen, if_neg (Nat.succ_ne_zero _), Nat.add_sub_cancel, hfill,
      Chunks.cells_take, List.take_take, Nat.min_eq_left hcells, contents, List.take_take,
      Nat.min_eq_left (Nat.le_trans hkept h)]

end

/-! ## Runs -/

/-- What is done with a stream. -/
inductive Op where
  | put (ch : UInt8)
  | write (s : List UInt8)
  | makeEmpty
  | rollback (n : Nat)
deriving DecidableEq, Repr

def step [NeZero chunksize] (raw : Nat → Vector UInt8 chunksize) (b : Cstreambuf chunksize) :
    Op → Option (Cstreambuf chunksize)
  | .put ch => some (b.sputc raw ch)
  | .write s => some (b.write raw s)
  | .makeEmpty => some b.makeEmpty
  | .rollback n => b.rollback n

/-- A stream as the list of what is in it; it is rolled back to a size that it has or had, at a
place that is an `int`. -/
def listStep (chunksize : Nat) (l : List UInt8) : Op → Option (List UInt8)
  | .put ch => some (l ++ [ch])
  | .write s => some (l ++ s)
  | .makeEmpty => some []
  | .rollback n =>
      if n ≤ l.length ∧ n % chunksize < 2 ^ 31 then some (l.take (kept chunksize n)) else none

theorem step_refines [NeZero chunksize] (raw : Nat → Vector UInt8 chunksize)
    (b : Cstreambuf chunksize) {op : Op} {l : List UInt8}
    (h : listStep chunksize b.contents op = some l) :
    ∃ b', b.step raw op = some b' ∧ b'.contents = l := by
  cases op with
  | put ch => exact ⟨_, rfl, (b.contents_sputc raw ch).trans (Option.some.inj h)⟩
  | write s => exact ⟨_, rfl, (b.contents_write raw s).trans (Option.some.inj h)⟩
  | makeEmpty => exact ⟨_, rfl, b.contents_makeEmpty.trans (Option.some.inj h)⟩
  | rollback n =>
    rw [listStep] at h
    split at h
    · rename_i hle
      rw [length_contents] at hle
      obtain ⟨b', hb', hcontents⟩ := b.rollback_of_le hle.1 hle.2
      exact ⟨b', hb', hcontents.trans (Option.some.inj h)⟩
    · cases h

theorem foldlM_refines [NeZero chunksize] (raw : Nat → Vector UInt8 chunksize) {ops : List Op}
    (b : Cstreambuf chunksize) {l : List UInt8}
    (h : ops.foldlM (listStep chunksize) b.contents = some l) :
    ∃ b', ops.foldlM (step raw) b = some b' ∧ b'.contents = l := by
  induction ops generalizing b with
  | nil => exact ⟨b, rfl, Option.some.inj h⟩
  | cons op ops ih =>
    rw [List.foldlM_cons, Option.bind_eq_bind, Option.bind_eq_some_iff] at h
    obtain ⟨l', hstep, hrest⟩ := h
    obtain ⟨b', hb', rfl⟩ := b.step_refines raw hstep
    obtain ⟨b'', hb'', hcontents⟩ := ih b' hrest
    refine ⟨b'', ?_, hcontents⟩
    rw [List.foldlM_cons, hb']
    exact hb''

/-- Whatever is written and rolled back, the text, its size and what is put out are those of the
list of the characters. -/
theorem run_refines_list [NeZero chunksize] (raw : Nat → Vector UInt8 chunksize) {ops : List Op}
    {l : List UInt8} (h : ops.foldlM (listStep chunksize) [] = some l) :
    ∃ b : Cstreambuf chunksize, ops.foldlM (step raw) {} = some b ∧
      b.str = l ∧ b.size = l.length ∧ ∀ out, b.output out = out ++ l := by
  obtain ⟨b, hb, rfl⟩ := foldlM_refines raw {} h
  exact ⟨b, hb, b.str_eq, b.length_contents.symm, b.output_eq⟩

/-- The chunks take over in the middle of the second text, and a rollback goes back into the first
one. -/
theorem run_refines_list_rolledBack :
    ∃ b : Cstreambuf 4,
      [Op.write [1, 2, 3], .write [4, 5, 6], .rollback 3, .put 7].foldlM
        (step fun _ ↦ Vector.replicate 4 0) {} = some b ∧
      b.str = [1, 2, 3, 7] ∧ b.size = 4 ∧ ∀ out, b.output out = out ++ [1, 2, 3, 7] :=
  run_refines_list (fun _ ↦ Vector.replicate 4 0) (by decide)

/-- To roll back to the size before something was written brings the text before back if and only
if that size does not end a chunk, and its place in the chunk is an `int`. -/
theorem rollback_size_iff [NeZero chunksize] (raw : Nat → Vector UInt8 chunksize)
    (b : Cstreambuf chunksize) (s : List UInt8) :
    ((b.write raw s).rollback b.size).map str = some b.str ↔
      b.size = 0 ∨ b.size % chunksize ≠ 0 ∧ b.size % chunksize < 2 ^ 31 := by
  by_cases hint : b.size % chunksize < 2 ^ 31
  -- the cast to int makes `pbump` go back
  swap
  · have hsize : b.size ≠ 0 := fun hzero ↦ hint (by rw [hzero, Nat.zero_mod]; decide)
    rw [rollback, if_neg hsize, dif_neg fun h ↦ hint h.2]
    exact iff_of_false (fun h ↦ by cases h) (not_or.mpr ⟨hsize, fun h ↦ hint h.2⟩)
  rw [and_iff_left hint]
  have hwrite := b.contents_write raw s
  have hle : b.size ≤ (b.write raw s).size := by
    rw [← length_contents, ← length_contents, hwrite, List.length_append]
    exact Nat.le_add_right _ _
  obtain ⟨b', hb', hcontents⟩ := (b.write raw s).rollback_of_le hle hint
  have hkept : kept chunksize b.size ≤ b.contents.length := by
    rw [length_contents, kept]
    split <;> omega
  rw [hwrite, List.take_append_of_le_length hkept] at hcontents
  rw [hb', Option.map_some, Option.some.injEq, str_eq, str_eq, hcontents]
  have hpos : 0 < chunksize := Nat.pos_of_neZero chunksize
  -- a size that ends a chunk is kept without it
  constructor
  · intro heq
    have hlen := congrArg List.length heq
    rw [List.length_take, Nat.min_eq_left hkept, length_contents, kept] at hlen
    split at hlen <;> omega
  · intro hsize
    have hall : kept chunksize b.size = b.contents.length := by
      rw [length_contents, kept]
      rcases hsize with hzero | hin
      · rw [hzero]
        split <;> omega
      · rw [if_neg hin]
    rw [hall, List.take_length]

/-- Four characters end a chunk of four. -/
def fullChunk : Cstreambuf 4 :=
  ({} : Cstreambuf 4).write (fun _ ↦ Vector.replicate 4 0) [1, 2, 3, 4]

theorem rollback_size_lost :
    ¬ ((fullChunk.write (fun _ ↦ Vector.replicate 4 0) [5]).rollback fullChunk.size).map str =
      some fullChunk.str := by
  rw [rollback_size_iff]
  decide

end

end Cstreambuf

end FtyRest.Ecpp
