import FtyRest.Lib.AssocList
import FtyRest.Lib.History

/-!
# `TopicCache`

The cache of topic ids in `shared/topic_cache.cc`, over whole runs of calls.
-/

namespace FtyRest.Shared

open History

structure TopicCache where
  -- std::map<std::string, int>
  cache : List (String × Int) := []
  max : Nat := 8 * 1024
deriving DecidableEq, Repr

namespace TopicCache

def has (c : TopicCache) (topicName : String) : Bool := (c.cache.lookup topicName).isSome

/-- `std::map::insert`, which leaves an entry of the name as it is. -/
def insert (cache : List (String × Int)) (topicName : String) (topicId : Int) :
    List (String × Int) :=
  if (cache.lookup topicName).isSome then cache else cache ++ [(topicName, topicId)]

def add (c : TopicCache) (topicName : String) (topicId : Int) : TopicCache :=
  -- a full cache is cleared as a whole
  let cache := if c.max ≤ c.cache.length then [] else c.cache
  { c with cache := insert cache topicName topicId }

/-- `0` for a name that is not there. -/
def get (c : TopicCache) (topicName : String) : Int :=
  if c.has topicName then (c.cache.lookup topicName).getD 0 else 0

end TopicCache

inductive CacheCall where
  | has (topicName : String)
  | add (topicName : String) (topicId : Int)
  | get (topicName : String)
deriving DecidableEq, Repr

inductive CacheAnswer where
  | none
  | found (found : Bool)
  | id (topicId : Int)
deriving DecidableEq, Repr

def cacheStep (c : TopicCache) : CacheCall → TopicCache × CacheAnswer
  | .has topicName => (c, .found (c.has topicName))
  | .add topicName topicId => (c.add topicName topicId, .none)
  | .get topicName => (c, .id (c.get topicName))

/-- The cache after a run. -/
def cacheAfter (max : Nat) (calls : List CacheCall) : TopicCache := final cacheStep { max } calls

def CacheCall.adds (topicName : String) : CacheCall → Bool
  | .add other _ => other = topicName
  | _ => false

def CacheCall.topicId? : CacheCall → Option Int
  | .add _ topicId => some topicId
  | _ => none

/-- The id of the latest `add` of a name. -/
def latest (calls : List CacheCall) (topicName : String) : Option Int :=
  (lastWith (CacheCall.adds topicName) calls).bind CacheCall.topicId?

/-- The call clears the cache. -/
def Evicts (max : Nat) (before : List CacheCall) (call : CacheCall) : Prop :=
  ∃ topicName topicId, call = .add topicName topicId ∧ max ≤ (cacheAfter max before).cache.length

/-- Behind an `add` of the name there is neither another one nor an eviction. -/
def Undisturbed (max : Nat) (before : List CacheCall) (topicName : String) (topicId : Int) :
    List CacheCall → Prop :=
  EveryTime fun between call ↦ call.adds topicName = false ∧
    ¬ Evicts max (before ++ .add topicName topicId :: between) call

/-- What the cache promises after a run. -/
structure UpToDate (max : Nat) (calls : List CacheCall) : Prop where
  size : (cacheAfter max calls).cache.length ≤ max
  kept : ∀ before topicName topicId after, calls = before ++ .add topicName topicId :: after →
    Undisturbed max before topicName topicId after →
      (cacheAfter max calls).get topicName = topicId
  zero_or_latest : ∀ topicName, (cacheAfter max calls).get topicName = 0 ∨
    latest calls topicName = some ((cacheAfter max calls).get topicName)

/-- At every moment of the run. -/
def NeverOutdated (max : Nat) (calls : List CacheCall) : Prop :=
  ∀ now later, calls = now ++ later → UpToDate max now

/-- A name that is in a cache with room is added with the id that it has there. -/
def Agrees (max : Nat) (before : List CacheCall) (call : CacheCall) : Prop :=
  ∀ topicName topicId cached, call = .add topicName topicId →
    (cacheAfter max before).cache.length < max →
    (cacheAfter max before).cache.lookup topicName = some cached → cached = topicId

/-! ## One call -/

section

variable {max : Nat} {calls before after : List CacheCall} {call : CacheCall}
  {topicName other : String} {topicId cached : Int} {c : TopicCache}
  {cache : List (String × Int)}

theorem cacheAfter_concat : cacheAfter max (calls ++ [call]) =
    (cacheStep (cacheAfter max calls) call).1 := final_concat

theorem cacheAfter_max : (cacheAfter max calls).max = max := by
  induction calls using List.reverseRecOn with
  | nil => rfl
  | append_singleton calls call ih =>
    rw [cacheAfter_concat]
    cases call <;> exact ih

theorem lookup_insert : (TopicCache.insert cache topicName topicId).lookup other =
    (cache.lookup other).or (if other = topicName then some topicId else none) := by
  unfold TopicCache.insert
  by_cases hsome : (cache.lookup topicName).isSome = true
  · rw [if_pos hsome]
    by_cases heq : other = topicName
    · obtain ⟨id, hid⟩ := Option.isSome_iff_exists.mp hsome
      rw [heq, hid, Option.some_or]
    · rw [if_neg heq, Option.or_none]
  · rw [if_neg hsome, List.lookup_append]
    by_cases heq : other = topicName
    · rw [if_pos heq, heq]
      simp
    · have hne : (other == topicName) = false := beq_eq_false_iff_ne.mpr heq
      rw [if_neg heq, List.lookup_cons, hne]
      rfl

theorem length_insert_le :
    (TopicCache.insert cache topicName topicId).length ≤ cache.length + 1 := by
  unfold TopicCache.insert
  split
  · exact Nat.le_succ _
  · rw [List.length_append]
    exact Nat.le_refl _

/-- An `add` to a full cache leaves that entry only. -/
theorem lookup_add_of_full (h : c.max ≤ c.cache.length) :
    (c.add topicName topicId).cache.lookup other =
      if other = topicName then some topicId else none := by
  show (TopicCache.insert (if c.max ≤ c.cache.length then [] else c.cache) _ _).lookup _ = _
  rw [if_pos h, lookup_insert]
  rfl

theorem lookup_add_of_room (h : c.cache.length < c.max) :
    (c.add topicName topicId).cache.lookup other =
      (c.cache.lookup other).or (if other = topicName then some topicId else none) := by
  show (TopicCache.insert (if c.max ≤ c.cache.length then [] else c.cache) _ _).lookup _ = _
  rw [if_neg (Nat.not_le_of_lt h), lookup_insert]

theorem length_add_le (hmax : 1 ≤ c.max) : (c.add topicName topicId).cache.length ≤ c.max := by
  show (TopicCache.insert (if c.max ≤ c.cache.length then [] else c.cache) _ _).length ≤ _
  apply Nat.le_trans length_insert_le
  split
  · exact hmax
  · omega

theorem get_eq : c.get topicName = (c.cache.lookup topicName).getD 0 := by
  unfold TopicCache.get TopicCache.has
  cases c.cache.lookup topicName <;> rfl

theorem latest_concat : latest (calls ++ [call]) topicName =
    if call.adds topicName then call.topicId? else latest calls topicName := by
  unfold latest
  rw [lastWith_concat]
  split <;> rfl

/-! ## Runs -/

theorem size_le (hmax : 1 ≤ max) : (cacheAfter max calls).cache.length ≤ max := by
  induction calls using List.reverseRecOn with
  | nil => exact Nat.zero_le _
  | append_singleton calls call ih =>
    rw [cacheAfter_concat]
    cases call with
    | has => exact ih
    | get => exact ih
    | add name topicId =>
      apply Nat.le_trans (length_add_le (by rw [cacheAfter_max]; exact hmax))
      rw [cacheAfter_max]

/-- Behind an `add` the id stays for as long as nothing disturbs it. -/
theorem lookup_of_undisturbed
    (h : (cacheAfter max (before ++ [.add topicName topicId])).cache.lookup topicName =
      some topicId)
    (hafter : Undisturbed max before topicName topicId after) :
    (cacheAfter max (before ++ .add topicName topicId :: after)).cache.lookup topicName =
      some topicId := by
  induction after using List.reverseRecOn with
  | nil => exact h
  | append_singleton after call ih =>
    -- only an `add` writes, and this one is of another name and finds room
    obtain ⟨hbetween, hadds, hevicts⟩ := everyTime_concat.mp hafter
    have hlookup := ih hbetween
    rw [← List.cons_append, ← List.append_assoc, cacheAfter_concat]
    cases call with
    | has => exact hlookup
    | get => exact hlookup
    | add name id =>
      have hroom : (cacheAfter max (before ++ .add topicName topicId :: after)).cache.length <
          (cacheAfter max (before ++ .add topicName topicId :: after)).max := by
        rw [cacheAfter_max]
        by_contra hfull
        exact hevicts ⟨name, id, rfl, Nat.le_of_not_lt hfull⟩
      show ((cacheAfter max _).add name id).cache.lookup topicName = _
      rw [lookup_add_of_room hroom, hlookup, Option.some_or]

/-- An `add` that agrees with the cache leaves its id there. -/
theorem lookup_added (h : Agrees max before (.add topicName topicId)) :
    (cacheAfter max (before ++ [.add topicName topicId])).cache.lookup topicName =
      some topicId := by
  rw [cacheAfter_concat]
  show ((cacheAfter max before).add topicName topicId).cache.lookup topicName = _
  rcases Nat.lt_or_ge (cacheAfter max before).cache.length max with hroom | hfull
  · rw [lookup_add_of_room (by rw [cacheAfter_max]; exact hroom), if_pos rfl]
    cases hcached : (cacheAfter max before).cache.lookup topicName with
    | none => rfl
    | some cached => rw [h topicName topicId cached rfl hroom hcached, Option.some_or]
  · rw [lookup_add_of_full (by rw [cacheAfter_max]; exact hfull), if_pos rfl]

theorem latest_of_cached (hall : EveryTime (Agrees max) calls)
    (h : (cacheAfter max calls).cache.lookup topicName = some cached) :
    latest calls topicName = some cached := by
  -- on the run from its end: the last call is the latest `add` of the name, or an earlier one is
  induction calls using List.reverseRecOn generalizing cached with
  | nil => cases h
  | append_singleton calls call ih =>
    obtain ⟨hcalls, hagrees⟩ := everyTime_concat.mp hall
    rw [latest_concat]
    cases call with
    | has =>
      rw [cacheAfter_concat] at h
      exact ih hcalls h
    | get =>
      rw [cacheAfter_concat] at h
      exact ih hcalls h
    | add name id =>
      by_cases hname : name = topicName
      · subst hname
        have hadds : (CacheCall.add name id).adds name = true := decide_eq_true rfl
        rw [lookup_added hagrees] at h
        rw [if_pos hadds]
        exact h
      · -- the other names are kept, or lost
        rw [if_neg (by simpa [CacheCall.adds] using hname)]
        apply ih hcalls
        rw [cacheAfter_concat] at h
        change ((cacheAfter max calls).add name id).cache.lookup topicName = _ at h
        rcases Nat.lt_or_ge (cacheAfter max calls).cache.length (cacheAfter max calls).max with
          hroom | hfull
        · rwa [lookup_add_of_room hroom, if_neg (Ne.symm hname), Option.or_none] at h
        · rw [lookup_add_of_full hfull, if_neg (Ne.symm hname)] at h
          cases h

theorem upToDate_of_agrees (hmax : 1 ≤ max) (hall : EveryTime (Agrees max) calls) :
    UpToDate max calls where
  size := size_le hmax
  kept := by
    rintro before topicName topicId after rfl hafter
    rw [get_eq, lookup_of_undisturbed (lookup_added (hall before _ after rfl)) hafter]
    rfl
  zero_or_latest := by
    intro topicName
    rw [get_eq]
    cases hcached : (cacheAfter max calls).cache.lookup topicName with
    | none => exact .inl rfl
    | some cached => exact .inr (latest_of_cached hall hcached)

/-- The answers are up to date at every moment, exactly when no cached name is added with another
id while the cache has room. -/
theorem neverOutdated_iff (hmax : 1 ≤ max) :
    NeverOutdated max calls ↔ EveryTime (Agrees max) calls := by
  constructor
  · -- behind the `add` alone nothing disturbs, so that its id is what `get` gives
    rintro h before call after rfl topicName topicId cached rfl hroom hcached
    have hkept := (h (before ++ [.add topicName topicId]) after (by simp)).kept before topicName
      topicId [] rfl everyTime_nil
    rw [get_eq, cacheAfter_concat] at hkept
    change (((cacheAfter max before).add topicName topicId).cache.lookup topicName).getD 0 = _
      at hkept
    rw [lookup_add_of_room (by rw [cacheAfter_max]; exact hroom), hcached] at hkept
    exact hkept
  · rintro hall now later rfl
    exact upToDate_of_agrees hmax (everyTime_of_append hall)

theorem neverOutdated_iff_two :
    NeverOutdated 2 [.add "a" 1, .add "b" 2, .get "a", .add "c" 3, .get "a"] ↔
      EveryTime (Agrees 2) [.add "a" 1, .add "b" 2, .get "a", .add "c" 3, .get "a"] :=
  neverOutdated_iff (by decide)

/-- The second id of a topic does not come in. -/
theorem second_id_is_lost :
    (cacheAfter 8192 [.add "a" 1, .add "a" 2]).get "a" = 1 ∧
      ¬ NeverOutdated 8192 [.add "a" 1, .add "a" 2] := by
  refine ⟨by decide, ?_⟩
  intro h
  have hkept := (h _ [] (List.append_nil _).symm).kept [.add "a" 1] "a" 2 [] rfl everyTime_nil
  revert hkept
  decide

end

end FtyRest.Shared
