import FtyRest.Lib.DoWhile
import Mathlib.Algebra.Ring.Nat

/-!
# Joining texts

The three functions of `shared/utilspp.h` that join texts with a separator.  An array of C strings
is the list of its items, where `none` is a null pointer; what is read behind its end, or goes
back from the end of an empty map, is not defined.
-/

namespace FtyRest.Shared

open DoWhile

/-! ## The functions -/

/-- The loop of `join (str_arr, length, separator)`, with the number of items that are left. -/
def joinFrom (separator result : String) : Nat → List (Option String) → Option String
  | 0, _ => some result
  | _ + 1, [] => none
  | _ + 1, none :: _ => some result
  | n + 1, some item :: items => joinFrom separator (result ++ separator ++ item) n items

/-- `join (str_arr, length, separator)`; `none` when the result is not defined. -/
def join (strArr : Option (List (Option String))) (length : Nat) (separator : Option String) :
    Option String :=
  match strArr, separator with
  | none, _ => some ""
  | some [], _ => none
  | some (none :: _), _ => some ""
  | some (some _ :: _), none => some ""
  | some (some first :: items), some separator => joinFrom separator first (length - 1) items

/-- The body of `while (true)` in `join (str_arr, separator)`, with the index and the result. -/
def joinBody (strArr : List (Option String)) (separator : String) :
    Option (Nat × String) → Bool × Option (Nat × String)
  | none => (false, none)
  | some (i, result) =>
      match strArr[i]? with
      | none => (false, none)
      | some none => (false, some (i, result))
      -- the index is a uint32_t
      | some (some item) => (true, some ((i + 1) % 2 ^ 32, result ++ separator ++ item))

/-- `join (str_arr, separator)` returns `ret`. -/
def JoinReturns (strArr : Option (List (Option String))) (separator : Option String)
    (ret : String) : Prop :=
  match strArr, separator with
  | none, _ => ret = ""
  | some [], _ => False
  | some (none :: _), _ => ret = ""
  | some (some _ :: _), none => ret = ""
  | some (some first :: items), some separator =>
      ∃ i, Exits (joinBody (some first :: items) separator) (some (1, first)) (some (i, ret))

/-- The loop of `join_keys_map` and what is behind it. -/
def joinKeys (separator : String) : String → List String → String
  | key, [] => key
  | key, next :: keys => key ++ separator ++ joinKeys separator next keys

/-- `join_keys_map` of the entries of a map, in their order; `print` is `operator<<`. -/
def joinKeysMap {K V : Type} (print : K → String) (t : List (K × V)) (separator : String) :
    Option String :=
  match t.map (print ·.1) with
  | [] => none
  | key :: keys => some (joinKeys separator key keys)

/-! ## What they join -/

/-- The position of the first null pointer, or the length of the array. -/
def firstNull (strArr : List (Option String)) : Nat := strArr.findIdx Option.isNone

/-- The first `n` items, joined. -/
def joined (separator : String) (strArr : List (Option String)) (n : Nat) : String :=
  separator.intercalate ((strArr.take n).filterMap id)

section

variable {separator result first : String} {items strArr : List (Option String)} {length n : Nat}

theorem firstNull_none : firstNull (none :: items) = 0 := by
  unfold firstNull
  rw [List.findIdx_cons]
  rfl

theorem firstNull_some {item : String} : firstNull (some item :: items) = firstNull items + 1 := by
  unfold firstNull
  rw [List.findIdx_cons]
  rfl

theorem joined_zero : joined separator items 0 = "" := String.intercalate_nil

theorem joined_some_succ {item : String} : joined separator (some item :: items) (n + 1) =
    separator.intercalate (item :: (items.take n).filterMap id) := rfl

theorem joined_some_one {item : String} : joined separator (some item :: items) (0 + 1) = item := by
  rw [joined_some_succ, List.take_zero, List.filterMap_nil, String.intercalate_singleton]

/-- An item joined onto the first one. -/
theorem joined_append_item {item : String} :
    joined separator (some (result ++ separator ++ item) :: items) (n + 1) =
      joined separator (some result :: some item :: items) (n + 1 + 1) := by
  rw [joined_some_succ, joined_some_succ, List.take_succ_cons, String.append_assoc,
    String.intercalate_cons_append, String.intercalate_cons_append]
  show _ = separator.intercalate (result :: item :: _)
  rw [String.intercalate_cons_cons, String.append_assoc]

theorem none_mem_of_cons {item : String} (h : none ∈ some item :: items) : none ∈ items := by
  rcases List.mem_cons.mp h with h | h
  · cases h
  · exact h

/-- The length does not get behind the rest of the array, or a null pointer is in it. -/
theorem within_of_cons {item : String}
    (h : n + 1 ≤ (some item :: items).length ∨ none ∈ some item :: items) :
    n ≤ items.length ∨ none ∈ items :=
  h.imp Nat.le_of_succ_le_succ none_mem_of_cons

/-- Joining the rest onto a text puts it in front of the rest. -/
theorem joinFrom_eq (h : n ≤ items.length ∨ none ∈ items) : joinFrom separator result n items =
    some (joined separator (some result :: items) (min n (firstNull items) + 1)) := by
  -- the result so far counts as the first item, so that it may be any text
  induction n generalizing result items with
  | zero =>
    rw [Nat.zero_min, joined_some_one]
    rfl
  | succ n ih =>
    match items, h with
    | [], h =>
      rcases h with h | h
      · exact absurd h (Nat.not_succ_le_zero _)
      · exact absurd h List.not_mem_nil
    | none :: items, _ =>
      rw [firstNull_none, Nat.min_zero, joined_some_one]
      rfl
    | some item :: items, h =>
      show joinFrom separator (result ++ separator ++ item) n items = _
      rw [ih (within_of_cons h), joined_append_item, firstNull_some, Nat.succ_min_succ]

/-- With a length of `0` the first item is returned all the same. -/
theorem join_eq_iff (h : length ≤ strArr.length ∨ none ∈ strArr) :
    join (some strArr) length (some separator) =
      some (joined separator strArr (min length (firstNull strArr))) ↔
    0 < length ∨ strArr.head? = some none ∨ strArr.head? = some (some "") := by
  match strArr, h with
  | [], h =>
    have hzero : length = 0 := by
      rcases h with h | h
      · exact Nat.le_zero.mp h
      · exact absurd h List.not_mem_nil
    simp [join, hzero]
  | none :: items, _ =>
    simp [join, firstNull_none, joined_zero]
  | some first :: items, h =>
    show joinFrom separator first (length - 1) items = _ ↔ _
    cases length with
    | zero =>
      -- the first item is there before the loop looks at the length
      rw [Nat.zero_min, joined_zero, Nat.zero_sub, joinFrom]
      simp
    | succ n =>
      rw [Nat.add_sub_cancel, joinFrom_eq (within_of_cons h), firstNull_some, Nat.succ_min_succ]
      exact iff_of_true rfl (.inl (Nat.succ_pos n))

/-- From the `i`-th item on the loop ends at the first null pointer, if the index gets there. -/
theorem exits_joinBody (front : List (Option String)) (result : String) (hpos : 0 < front.length)
    (hnone : none ∈ items) (hlt : front.length + firstNull items < 2 ^ 32) :
    Exits (joinBody (front ++ items) separator) (some (front.length, result))
      (some (front.length + firstNull items,
        joined separator (some result :: items) (firstNull items + 1))) := by
  induction items generalizing front result with
  | nil => exact absurd hnone List.not_mem_nil
  | cons item items ih =>
    have hget : (front ++ item :: items)[front.length]? = some item := by
      rw [List.getElem?_append_right (Nat.le_refl _), Nat.sub_self, List.getElem?_cons_zero]
    cases item with
    -- the loop is left at the first NULL
    | none =>
      have hbody : joinBody (front ++ none :: items) separator (some (front.length, result)) =
          (false, some (front.length, result)) := by
        simp only [joinBody, hget]
      rw [exits_of_stop hbody, firstNull_none, joined_some_one]
      rfl
    | some item =>
      rw [firstNull_some] at hlt ⊢
      have hbody : joinBody (front ++ some item :: items) separator (some (front.length, result)) =
          (true, some (front.length + 1, result ++ separator ++ item)) := by
        simp only [joinBody, hget]
        rw [Nat.mod_eq_of_lt (by omega)]
      have hlength : (front ++ [some item]).length = front.length + 1 := List.length_append
      have hnext := ih (front ++ [some item]) (result ++ separator ++ item) (by omega)
        (none_mem_of_cons hnone) (by omega)
      rw [hlength, List.append_assoc, List.singleton_append] at hnext
      rw [exits_of_again hbody]
      rw [← joined_append_item, show front.length + (firstNull items + 1) = front.length + 1 +
        firstNull items by omega]
      exact hnext

/-- An index that comes round before a null pointer never stops. -/
theorem not_exits_joinBody (hbig : 2 ^ 32 ≤ firstNull strArr) {i : Nat} (hi : i < 2 ^ 32)
    {t : Option (Nat × String)} : ¬ Exits (joinBody strArr separator) (some (i, result)) t := by
  rintro ⟨fuel, h⟩
  -- an index below `2 ^ 32` is below the null pointer, and stays below `2 ^ 32`
  induction fuel generalizing i result with
  | zero => cases h
  | succ fuel ih =>
    have hlt : i < firstNull strArr := Nat.lt_of_lt_of_le hi hbig
    have hlength : i < strArr.length := Nat.lt_of_lt_of_le hlt List.findIdx_le_length
    have hitem : (strArr[i]).isNone = false := List.not_of_lt_findIdx hlt
    obtain ⟨item, hsome⟩ := Option.isSome_iff_exists.mp (Option.isNone_eq_false_iff.mp hitem)
    have hget : strArr[i]? = some (some item) := by
      rw [List.getElem?_eq_getElem hlength, hsome]
    have hbody : joinBody strArr separator (some (i, result)) =
        (true, some ((i + 1) % 2 ^ 32, result ++ separator ++ item)) := by
      simp only [joinBody, hget]
    rw [run, hbody] at h
    exact ih (Nat.mod_lt _ (Nat.two_pow_pos 32)) h

theorem joinReturns_iff (hnone : none ∈ strArr) :
    JoinReturns (some strArr) (some separator) (joined separator strArr (firstNull strArr)) ↔
      firstNull strArr < 2 ^ 32 := by
  match strArr, hnone with
  | none :: items, _ =>
    rw [firstNull_none, joined_zero]
    exact iff_of_true rfl (by decide)
  | some first :: items, hnone =>
    constructor
    · rintro ⟨i, h⟩
      by_contra hbig
      exact not_exits_joinBody (Nat.le_of_not_lt hbig) (by decide) h
    · intro hlt
      rw [firstNull_some] at hlt ⊢
      exact ⟨_, exits_joinBody [some first] first Nat.one_pos
        (none_mem_of_cons hnone) (by rw [List.length_singleton]; omega)⟩

theorem joinKeys_eq {key : String} {keys : List String} :
    joinKeys separator key keys = separator.intercalate (key :: keys) := by
  induction keys generalizing key with
  | nil => exact String.intercalate_singleton.symm
  | cons next keys ih => rw [joinKeys, ih, String.intercalate_cons_cons]

theorem joinKeysMap_iff {K V : Type} {print : K → String} {t : List (K × V)} :
    joinKeysMap print t separator = some (separator.intercalate (t.map (print ·.1))) ↔ t ≠ [] := by
  cases t with
  | nil =>
    constructor
    · intro h
      cases h
    · intro h
      exact absurd rfl h
  | cons entry t => exact iff_of_true (congrArg some joinKeys_eq) (List.cons_ne_nil _ _)

/-- Each join gives the joined text of the items in front of the length and of the first null
pointer: the first one unless the length is `0` and the first item a text, the second one when the
null pointer is where a uint32_t gets, the third one for a map that is not empty. -/
theorem joins_agree_iff {K V : Type} (print : K → String) (t : List (K × V)) (separator : String)
    (h : length ≤ strArr.length ∨ none ∈ strArr) :
    (join (some strArr) length (some separator) =
        some (joined separator strArr (min length (firstNull strArr))) ↔
      0 < length ∨ strArr.head? = some none ∨ strArr.head? = some (some "")) ∧
    (none ∈ strArr →
      (JoinReturns (some strArr) (some separator) (joined separator strArr (firstNull strArr)) ↔
        firstNull strArr < 2 ^ 32)) ∧
    (joinKeysMap print t separator = some (separator.intercalate (t.map (print ·.1))) ↔ t ≠ []) :=
  ⟨join_eq_iff h, joinReturns_iff, joinKeysMap_iff⟩

theorem joins_agree_iff_mean :
    (join (some [some "mean", some "min", none]) 2 (some ",") =
        some (joined "," [some "mean", some "min", none]
          (min 2 (firstNull [some "mean", some "min", none]))) ↔
      0 < 2 ∨ [some "mean", some "min", none].head? = some none ∨
        [some "mean", some "min", none].head? = some (some "")) ∧
    (none ∈ [some "mean", some "min", none] →
      (JoinReturns (some [some "mean", some "min", none]) (some ",")
          (joined "," [some "mean", some "min", none]
            (firstNull [some "mean", some "min", none])) ↔
        firstNull [some "mean", some "min", none] < 2 ^ 32)) ∧
    (joinKeysMap id [("rack", 5), ("room", 3)] "," =
      some (",".intercalate ([("rack", 5), ("room", 3)].map (id ·.1))) ↔
        [("rack", 5), ("room", 3)] ≠ []) :=
  joins_agree_iff id [("rack", 5), ("room", 3)] "," (.inl (by decide))

/-- The first item is there for a length of `0` too, and an empty map has no last key. -/
theorem no_items_joined :
    join (some [some "mean", none]) 0 (some ",") = some "mean" ∧
    joined "," [some "mean", none] (min 0 (firstNull [some "mean", none])) = "" ∧
    joinKeysMap id ([] : List (String × Nat)) "," ≠ some (",".intercalate []) := by
  refine ⟨rfl, rfl, ?_⟩
  intro h
  cases h

end

end FtyRest.Shared
