import Mathlib.Data.List.Infix
import Mathlib.Data.List.Nodup
import Mathlib.Data.List.TakeWhile

/-!
# UPS status

The texts for the status bits of a UPS, from `shared/upsstatus.cc`.  Texts of C are lists of
`char`s, bytes each, without the NUL at their end.
-/

/-! ## Flags

Words of bits that are put together by a bitwise or. -/

namespace Flags

variable {α : Type} {w : Nat}

/-- The bits that one of the words has. -/
def orAll (words : List (BitVec w)) : BitVec w := words.foldr (· ||| ·) 0

theorem getLsbD_orAll {words : List (BitVec w)} {i : Nat} :
    (orAll words).getLsbD i = true ↔ ∃ word ∈ words, word.getLsbD i = true := by
  induction words with
  | nil => simp [orAll]
  | cons word words ih =>
    show (word ||| orAll words).getLsbD i = true ↔ _
    rw [BitVec.getLsbD_or, Bool.or_eq_true, ih, List.exists_mem_cons_iff]

theorem ext {x y : BitVec w} (h : ∀ i, x.getLsbD i = true ↔ y.getLsbD i = true) : x = y := by
  apply BitVec.eq_of_getLsbD_eq
  intro i _
  exact Bool.eq_iff_iff.mpr (h i)

/-- A reading that finds more flags than another one gives the same as this if what it finds more
in one word is found in some other word. -/
theorem orAll_map_eq_iff {f g : α → BitVec w} {words : List α}
    (hle : ∀ word i, (g word).getLsbD i = true → (f word).getLsbD i = true) :
    orAll (words.map f) = orAll (words.map g) ↔
      ∀ word ∈ words, ∀ i, (f word).getLsbD i = true →
        ∃ other ∈ words, (g other).getLsbD i = true := by
  have hbit (h : α → BitVec w) (i : Nat) : (orAll (words.map h)).getLsbD i = true ↔
      ∃ word ∈ words, (h word).getLsbD i = true := by
    rw [getLsbD_orAll]
    simp only [List.mem_map, exists_exists_and_eq_and]
  constructor
  · intro heq word hmem i hi
    rw [← hbit g, ← heq, hbit f]
    exact ⟨word, hmem, hi⟩
  · intro h
    apply ext
    intro i
    rw [hbit f, hbit g]
    constructor
    · rintro ⟨word, hmem, hi⟩
      exact h word hmem i hi
    · rintro ⟨word, hmem, hi⟩
      exact ⟨word, hmem, hle word i hi⟩

end Flags

namespace FtyRest.Shared

structure StatusLkp where
  statusStr : String
  statusValue : BitVec 32
deriving DecidableEq, Repr

/-- Status lookup table -/
def statusInfo : List StatusLkp :=
  [⟨"CAL", 1 <<< 0⟩, ⟨"TRIM", 1 <<< 1⟩, ⟨"BOOST", 1 <<< 2⟩, ⟨"OL", 1 <<< 3⟩, ⟨"OB", 1 <<< 4⟩,
   ⟨"OVER", 1 <<< 5⟩, ⟨"LB", 1 <<< 6⟩, ⟨"RB", 1 <<< 7⟩, ⟨"BYPASS", 1 <<< 8⟩, ⟨"OFF", 1 <<< 9⟩,
   ⟨"CHRG", 1 <<< 10⟩, ⟨"DISCHRG", 1 <<< 11⟩, ⟨"HB", 1 <<< 12⟩, ⟨"FSD", 1 <<< 13⟩, ⟨"NULL", 0⟩]

/-- Whether `strncasecmp` gives zero. -/
def strncasecmp (a b : List Char) (n : Nat) : Bool :=
  (a.take n).map Char.toLower = (b.take n).map Char.toLower

/-- The loop over the table, from an entry on. -/
def singleStatusLoop (status : List Char) : List StatusLkp → BitVec 16
  | [] => 0
  | entry :: table =>
      -- end of array, not found
      if entry.statusValue = 0 then 0
      else if strncasecmp entry.statusStr.toList status entry.statusStr.length then
        entry.statusValue.setWidth 16
      else singleStatusLoop status table

/-- `none` is a null pointer. -/
def upsstatusSingleStatusToInt : Option (List Char) → BitVec 16
  | none => 0
  | some status => singleStatusLoop status statusInfo

/-- The loop of `upsstatus_to_int`: `b` is cut at the next blank. -/
def upsstatusLoop (result : BitVec 32) (b : List Char) : BitVec 32 :=
  let e := b.dropWhile (· ≠ ' ')
  let result :=
    result ||| (upsstatusSingleStatusToInt (some (b.takeWhile (· ≠ ' ')))).setWidth 32
  if e = [] then result else upsstatusLoop result e.tail
termination_by b.length
decreasing_by
  have hlength : (b.dropWhile (· ≠ ' ')).length ≤ b.length := (List.dropWhile_suffix _).length_le
  have hpos : 0 < (b.dropWhile (· ≠ ' ')).length := List.length_pos_of_ne_nil ‹_›
  show (b.dropWhile (· ≠ ' ')).tail.length < b.length
  rw [List.length_tail]
  omega

/-- `upsstatus_to_int` of a `char *` -/
def upsstatusToInt (status : List Char) : BitVec 16 := (upsstatusLoop 0 status).setWidth 16

/-- `upsstatus_to_int` of a `std::string`, which is read up to its first NUL. -/
def upsstatusToIntString (status : List Char) : BitVec 16 :=
  upsstatusToInt (status.takeWhile (· ≠ '\x00'))

def upsstatusPrint (status : BitVec 16) :
    List StatusLkp → BitVec 32 → List Char → List Char
  | [], _, result => result
  | entry :: table, bit, result =>
      let result :=
        if status.setWidth 32 &&& bit ≠ 0 then
          (if result.length ≠ 0 then result ++ [' '] else result) ++ entry.statusStr.toList
        else result
      upsstatusPrint status table (bit <<< 1) result

/-- `upsstatus_to_string`; the last entry of the table is left out. -/
def upsstatusToString (status : BitVec 16) : List Char :=
  upsstatusPrint status statusInfo.dropLast 1 []

/-! ## The table -/

/-- The entries before the end of the table. -/
def statusFlags : List StatusLkp := statusInfo.dropLast

/-- A text without its case. -/
def caseless (text : List Char) : List Char := text.map Char.toLower

def StatusLkp.name (entry : StatusLkp) : List Char := caseless entry.statusStr.toList

theorem strncasecmp_iff_prefix (name status : List Char) :
    strncasecmp name status name.length = true ↔ caseless name <+: caseless status := by
  unfold strncasecmp caseless
  rw [decide_eq_true_iff, List.take_length, List.prefix_iff_eq_take, List.length_map,
    List.map_take]

theorem statusInfo_names : statusInfo.map StatusLkp.name =
    [['c', 'a', 'l'], ['t', 'r', 'i', 'm'], ['b', 'o', 'o', 's', 't'], ['o', 'l'], ['o', 'b'],
     ['o', 'v', 'e', 'r'], ['l', 'b'], ['r', 'b'], ['b', 'y', 'p', 'a', 's', 's'],
     ['o', 'f', 'f'], ['c', 'h', 'r', 'g'], ['d', 'i', 's', 'c', 'h', 'r', 'g'], ['h', 'b'],
     ['f', 's', 'd'], ['n', 'u', 'l', 'l']] := by
  simp only [statusInfo, List.map_cons, List.map_nil, StatusLkp.name]
  iterate 15 rw [String.toList_ofList]
  rfl

theorem statusInfo_name : ∀ entry ∈ statusInfo, ∀ other ∈ statusInfo,
    entry.name = other.name → entry = other := by
  have hnodup : (statusInfo.map StatusLkp.name).Nodup := by
    rw [statusInfo_names]
    decide
  intro entry hentry other hother h
  exact List.inj_on_of_nodup_map hnodup hentry hother h

/-- No name is the beginning of another one. -/
theorem statusFlags_begins : ∀ entry ∈ statusFlags, ∀ other ∈ statusFlags,
    entry.name <+: other.name → entry = other := by
  have hbegins : ∀ name ∈ (statusInfo.map StatusLkp.name).dropLast,
      ∀ other ∈ (statusInfo.map StatusLkp.name).dropLast, name <+: other → name = other := by
    rw [statusInfo_names]
    decide
  have hmem : ∀ entry ∈ statusFlags,
      entry.name ∈ (statusInfo.map StatusLkp.name).dropLast := by
    intro entry hentry
    rw [← List.map_dropLast]
    exact List.mem_map_of_mem hentry
  intro entry hentry other hother h
  apply statusInfo_name entry (List.dropLast_subset _ hentry) other
    (List.dropLast_subset _ hother)
  exact hbegins _ (hmem entry hentry) _ (hmem other hother) h

theorem statusFlags_values : statusFlags.map StatusLkp.statusValue =
    (List.range 14).map (BitVec.twoPow 32) := by
  decide

/-- Every flag has a bit of its own. -/
theorem statusFlags_twoPow : ∀ entry ∈ statusFlags, ∃ k < 14,
    entry.statusValue = BitVec.twoPow 32 k := by
  intro entry hentry
  have hmem : entry.statusValue ∈ (List.range 14).map (BitVec.twoPow 32) := by
    rw [← statusFlags_values]
    exact List.mem_map_of_mem hentry
  obtain ⟨k, hk, hvalue⟩ := List.mem_map.mp hmem
  exact ⟨k, List.mem_range.mp hk, hvalue.symm⟩

theorem twoPow_statusFlags : ∀ k < 14, ∃ entry ∈ statusFlags,
    entry.statusValue = BitVec.twoPow 32 k := by
  intro k hk
  apply List.mem_map.mp
  rw [statusFlags_values]
  exact List.mem_map_of_mem (List.mem_range.mpr hk)

theorem statusInfo_value : ∀ entry ∈ statusInfo, ∀ other ∈ statusInfo,
    entry.statusValue = other.statusValue → entry = other := by
  have hnodup : (statusInfo.map StatusLkp.statusValue).Nodup := by
    decide
  intro entry hentry other hother h
  exact List.inj_on_of_nodup_map hnodup hentry hother h

theorem statusInfo_eq : statusInfo = statusFlags ++ [⟨"NULL", 0⟩] := rfl

theorem mem_statusInfo {entry : StatusLkp} (h : entry ∈ statusFlags) : entry ∈ statusInfo := by
  rw [statusInfo_eq]
  exact List.mem_append_left _ h

/-- The bits of a flag, as `upsstatus_single_status_to_int` returns it. -/
theorem getLsbD_statusValue {entry : StatusLkp} {k : Nat} (hk : k < 14)
    (hvalue : entry.statusValue = BitVec.twoPow 32 k) (i : Nat) :
    (entry.statusValue.setWidth 16).getLsbD i = true ↔ i = k := by
  rw [hvalue, BitVec.getLsbD_setWidth, BitVec.getLsbD_twoPow]
  simp only [Bool.and_eq_true, decide_eq_true_iff]
  omega

theorem mem_statusFlags_of_bit {entry : StatusLkp} (h : entry ∈ statusInfo) {i : Nat}
    (hi : (entry.statusValue.setWidth 16).getLsbD i = true) : entry ∈ statusFlags := by
  rw [statusInfo_eq] at h
  rcases List.mem_append.mp h with h | h
  · exact h
  · rw [List.mem_singleton.mp h] at hi
    simp at hi

/-- An entry is known by a bit of its flag. -/
theorem statusInfo_bit {entry other : StatusLkp} (hentry : entry ∈ statusInfo)
    (hother : other ∈ statusInfo) {i : Nat}
    (hi : (entry.statusValue.setWidth 16).getLsbD i = true)
    (hj : (other.statusValue.setWidth 16).getLsbD i = true) : entry = other := by
  obtain ⟨k, hk, hvalue⟩ := statusFlags_twoPow entry (mem_statusFlags_of_bit hentry hi)
  obtain ⟨l, hl, hother'⟩ := statusFlags_twoPow other (mem_statusFlags_of_bit hother hj)
  rw [getLsbD_statusValue hk hvalue] at hi
  rw [getLsbD_statusValue hl hother'] at hj
  apply statusInfo_value entry hentry other hother
  rw [hvalue, hother', ← hi, ← hj]

/-! ## One word -/

/-- The flag of an entry that is found. -/
def flagOf : Option StatusLkp → BitVec 16
  | some entry => entry.statusValue.setWidth 16
  | none => 0

/-- The flag of the name that a word is, without its case. -/
def exactStatus (word : List Char) : BitVec 16 :=
  flagOf (statusInfo.find? (·.name = caseless word))

theorem getLsbD_flagOf_find {table : List StatusLkp} {p : StatusLkp → Bool}
    (hunique : ∀ entry ∈ table, ∀ other ∈ table, p entry = true → p other = true → entry = other)
    (i : Nat) : (flagOf (table.find? p)).getLsbD i = true ↔
      ∃ entry ∈ table, p entry = true ∧ (entry.statusValue.setWidth 16).getLsbD i = true := by
  cases hfind : table.find? p with
  | none =>
    rw [List.find?_eq_none] at hfind
    constructor
    · intro h
      simp [flagOf] at h
    · rintro ⟨entry, hmem, hp, -⟩
      exact absurd hp (hfind entry hmem)
  | some found =>
    have hmem := List.mem_of_find?_eq_some hfind
    have hp := List.find?_some hfind
    constructor
    · exact fun h ↦ ⟨found, hmem, hp, h⟩
    · rintro ⟨entry, hentry, hpentry, hi⟩
      rw [hunique entry hentry found hmem hpentry hp] at hi
      exact hi

theorem singleStatusLoop_eq (status : List Char) (table : List StatusLkp)
    (hne : ∀ entry ∈ table, entry.statusValue ≠ 0) :
    singleStatusLoop status (table ++ [⟨"NULL", 0⟩]) =
      flagOf (table.find? fun entry ↦
        strncasecmp entry.statusStr.toList status entry.statusStr.length) := by
  induction table with
  | nil => rfl
  | cons entry table ih =>
    rw [List.cons_append, singleStatusLoop, if_neg (hne entry List.mem_cons_self), List.find?_cons]
    split
    · next h => rw [h, flagOf]
    · next h => rw [Bool.eq_false_iff.mpr h, ih fun e he ↦ hne e (List.mem_cons_of_mem _ he)]

theorem getLsbD_single (word : List Char) (i : Nat) :
    (upsstatusSingleStatusToInt (some word)).getLsbD i = true ↔
      ∃ entry ∈ statusFlags, entry.name <+: caseless word ∧
        (entry.statusValue.setWidth 16).getLsbD i = true := by
  have hne : ∀ entry ∈ statusFlags, entry.statusValue ≠ 0 := by decide +kernel
  have hbegins (entry : StatusLkp) :
      strncasecmp entry.statusStr.toList word entry.statusStr.length = true ↔
        entry.name <+: caseless word := strncasecmp_iff_prefix entry.statusStr.toList word
  show (singleStatusLoop word (statusFlags ++ [⟨"NULL", 0⟩])).getLsbD i = true ↔ _
  rw [singleStatusLoop_eq word statusFlags hne, getLsbD_flagOf_find]
  · simp only [hbegins]
  · intro entry hentry other hother h h'
    rw [hbegins] at h h'
    -- two names that begin a word are the beginning of each other
    rcases List.prefix_or_prefix_of_prefix h h' with h | h
    · exact statusFlags_begins entry hentry other hother h
    · exact (statusFlags_begins other hother entry hentry h).symm

theorem getLsbD_exact (word : List Char) (i : Nat) : (exactStatus word).getLsbD i = true ↔
    ∃ entry ∈ statusInfo, entry.name = caseless word ∧
      (entry.statusValue.setWidth 16).getLsbD i = true := by
  unfold exactStatus
  rw [getLsbD_flagOf_find]
  · simp only [decide_eq_true_iff]
  · intro entry hentry other hother h h'
    simp only [decide_eq_true_iff] at h h'
    exact statusInfo_name entry hentry other hother (h.trans h'.symm)

/-! ## A list of words -/

/-- Words with a blank between every two. -/
def joinWords (words : List (List Char)) : List Char := [' '].intercalate words

theorem joinWords_cons_cons (word next : List Char) (words : List (List Char)) :
    joinWords (word :: next :: words) = word ++ ' ' :: joinWords (next :: words) := by
  unfold joinWords
  rw [List.intercalate_cons_cons, List.append_assoc]
  rfl

theorem ne_blank {word : List Char} (h : ' ' ∉ word) :
    ∀ c ∈ word, decide (c ≠ ' ') = true := by
  intro c hc
  rw [decide_eq_true_iff]
  exact fun heq ↦ h (heq ▸ hc)

theorem upsstatusLoop_last (result : BitVec 32) {word : List Char} (h : ' ' ∉ word) :
    upsstatusLoop result word =
      result ||| (upsstatusSingleStatusToInt (some word)).setWidth 32 := by
  have htake : word.takeWhile (· ≠ ' ') = word := List.takeWhile_eq_self_iff.mpr (ne_blank h)
  have hdrop : word.dropWhile (· ≠ ' ') = [] := List.dropWhile_eq_nil_iff.mpr (ne_blank h)
  rw [upsstatusLoop, htake, hdrop, if_pos rfl]

theorem upsstatusLoop_next (result : BitVec 32) {word : List Char} (h : ' ' ∉ word)
    (rest : List Char) : upsstatusLoop result (word ++ ' ' :: rest) =
      upsstatusLoop (result ||| (upsstatusSingleStatusToInt (some word)).setWidth 32) rest := by
  have htake : (word ++ ' ' :: rest).takeWhile (· ≠ ' ') = word := by
    rw [List.takeWhile_append_of_pos (ne_blank h), List.takeWhile_cons_of_neg (by decide),
      List.append_nil]
  have hdrop : (word ++ ' ' :: rest).dropWhile (· ≠ ' ') = ' ' :: rest := by
    rw [List.dropWhile_append_of_pos (ne_blank h), List.dropWhile_cons_of_neg (by decide)]
  rw [upsstatusLoop, htake, hdrop, if_neg (List.cons_ne_nil _ _), List.tail_cons]

/-- The loop collects the bits of all words. -/
theorem getLsbD_loop {words : List (List Char)} (hwords : ∀ word ∈ words, ' ' ∉ word)
    (result : BitVec 32) (i : Nat) (hne : words ≠ []) :
    (upsstatusLoop result (joinWords words)).getLsbD i = true ↔
      result.getLsbD i = true ∨
        ∃ word ∈ words, (upsstatusSingleStatusToInt (some word)).getLsbD i = true := by
  have hsingle (word : List Char) :
      ((upsstatusSingleStatusToInt (some word)).setWidth 32).getLsbD i = true ↔
        (upsstatusSingleStatusToInt (some word)).getLsbD i = true := by
    rw [BitVec.getLsbD_setWidth, Bool.and_eq_true, decide_eq_true_iff]
    constructor
    · exact And.right
    · intro h
      have hlt := BitVec.lt_of_getLsbD h
      exact ⟨by omega, h⟩
  induction words generalizing result with
  | nil => exact absurd rfl hne
  | cons word words ih =>
    have hword := hwords word List.mem_cons_self
    rw [List.exists_mem_cons_iff]
    -- the last word has no blank behind it, and the loop is left after it
    cases words with
    | nil =>
      rw [joinWords, List.intercalate_singleton, upsstatusLoop_last result hword,
        BitVec.getLsbD_or, Bool.or_eq_true, hsingle]
      simp
    | cons next words =>
      have hrest := ih (fun w hw ↦ hwords w (List.mem_cons_of_mem _ hw))
        (result ||| (upsstatusSingleStatusToInt (some word)).setWidth 32) (List.cons_ne_nil _ _)
      rw [joinWords_cons_cons, upsstatusLoop_next result hword]
      apply hrest.trans
      rw [BitVec.getLsbD_or, Bool.or_eq_true, hsingle, or_assoc]

theorem upsstatusToInt_join {words : List (List Char)} (hwords : ∀ word ∈ words, ' ' ∉ word) :
    upsstatusToInt (joinWords words) =
      Flags.orAll (words.map fun word ↦ upsstatusSingleStatusToInt (some word)) := by
  unfold upsstatusToInt
  by_cases hne : words = []
  · rw [hne]
    rw [show joinWords [] = [] from rfl, upsstatusLoop_last 0 List.not_mem_nil]
    decide +kernel
  · apply Flags.ext
    intro i
    rw [BitVec.getLsbD_setWidth, Bool.and_eq_true, getLsbD_loop hwords 0 i hne,
      Flags.getLsbD_orAll]
    simp only [List.mem_map, exists_exists_and_eq_and, decide_eq_true_iff, BitVec.ofNat_eq_ofNat,
      BitVec.getLsbD_zero, Bool.false_eq_true, false_or]
    constructor
    · exact And.right
    · rintro ⟨word, hmem, hi⟩
      exact ⟨BitVec.lt_of_getLsbD hi, word, hmem, hi⟩

/-! ## The printer -/

/-- What the printer has after more words. -/
def appendWords : List Char → List (List Char) → List Char
  | result, [] => result
  | result, word :: words =>
      appendWords ((if result.length ≠ 0 then result ++ [' '] else result) ++ word) words

theorem appendWords_cons {result : List Char} (h : result ≠ []) (words : List (List Char)) :
    appendWords result words = joinWords (result :: words) := by
  induction words generalizing result with
  | nil =>
    rw [joinWords, List.intercalate_singleton]
    rfl
  | cons word words ih =>
    have hlength : result.length ≠ 0 := fun hzero ↦ h (List.length_eq_zero_iff.mp hzero)
    have hne : result ++ [' '] ++ word ≠ [] := by simp
    rw [appendWords, if_pos hlength, ih hne, joinWords_cons_cons]
    cases words with
    | nil =>
      rw [joinWords, joinWords, List.intercalate_singleton, List.intercalate_singleton]
      simp
    | cons next words =>
      rw [joinWords_cons_cons, joinWords_cons_cons]
      simp

theorem appendWords_nil {words : List (List Char)} (h : ∀ word ∈ words, word ≠ []) :
    appendWords [] words = joinWords words := by
  cases words with
  | nil => rfl
  | cons word words =>
    rw [appendWords, if_neg (by simp), List.nil_append,
      appendWords_cons (h word List.mem_cons_self)]

/-- The flags of a table are the bits from a given one on, in their order. -/
def InBitOrder : List StatusLkp → BitVec 32 → Prop
  | [], _ => True
  | entry :: table, bit => entry.statusValue = bit ∧ InBitOrder table (bit <<< 1)

/-- The entries whose flags a status has. -/
def flagsOf (status : BitVec 16) (table : List StatusLkp) : List StatusLkp :=
  table.filter fun entry ↦ status.setWidth 32 &&& entry.statusValue ≠ 0

theorem upsstatusPrint_eq (status : BitVec 16) {table : List StatusLkp} {bit : BitVec 32}
    (h : InBitOrder table bit) (result : List Char) : upsstatusPrint status table bit result =
      appendWords result ((flagsOf status table).map (·.statusStr.toList)) := by
  induction table generalizing bit result with
  | nil => rfl
  | cons entry table ih =>
    obtain ⟨hbit, htable⟩ := h
    rw [upsstatusPrint, ih htable, ← hbit]
    unfold flagsOf
    by_cases hflag : status.setWidth 32 &&& entry.statusValue ≠ 0
    · rw [if_pos hflag, List.filter_cons_of_pos (by simpa using hflag), List.map_cons,
        appendWords]
    · rw [if_neg hflag, List.filter_cons_of_neg (by simpa using hflag)]

theorem upsstatusToString_eq (status : BitVec 16) : upsstatusToString status =
    joinWords ((flagsOf status statusFlags).map (·.statusStr.toList)) := by
  have horder : InBitOrder statusFlags 1 := by
    unfold statusFlags statusInfo
    simp only [List.dropLast_cons_cons, List.dropLast_singleton, InBitOrder]
    decide
  have hne : ∀ entry ∈ statusFlags, entry.statusStr.toList ≠ [] := by decide +kernel
  have hwords : ∀ word ∈ (flagsOf status statusFlags).map (·.statusStr.toList), word ≠ [] := by
    intro word hword
    obtain ⟨entry, hentry, rfl⟩ := List.mem_map.mp hword
    exact hne entry (List.mem_filter.mp hentry).1
  rw [← appendWords_nil hwords, ← upsstatusPrint_eq status horder]
  rfl

/-- The bit of a flag in a status. -/
theorem and_twoPow_ne_zero (status : BitVec 16) {k : Nat} (hk : k < 14) :
    status.setWidth 32 &&& BitVec.twoPow 32 k ≠ 0 ↔ status.getLsbD k = true := by
  rw [BitVec.and_twoPow, BitVec.getLsbD_setWidth]
  have hlt : decide (k < 32) = true := by
    rw [decide_eq_true_iff]
    omega
  rw [hlt, Bool.true_and]
  cases status.getLsbD k with
  | false => simp
  | true =>
    have hbit : (BitVec.twoPow 32 k).getLsbD k = true := by
      rw [BitVec.getLsbD_twoPow, hlt]
      simp
    have hne : BitVec.twoPow 32 k ≠ 0 := by
      intro hzero
      rw [hzero] at hbit
      simp at hbit
    simpa using hne

/-! ## The laws -/

theorem no_blank : ∀ entry ∈ statusFlags, ' ' ∉ entry.statusStr.toList := by
  decide +kernel

theorem no_nul : ∀ entry ∈ statusFlags, '\x00' ∉ entry.statusStr.toList := by
  decide +kernel

theorem upsstatusToIntString_of_noNul {status : List Char} (h : '\x00' ∉ status) :
    upsstatusToIntString status = upsstatusToInt status := by
  have htake : status.takeWhile (· ≠ '\x00') = status := by
    apply List.takeWhile_eq_self_iff.mpr
    intro c hc
    rw [decide_eq_true_iff]
    exact fun heq ↦ h (heq ▸ hc)
  rw [upsstatusToIntString, htake]

theorem joinWords_noNul {words : List (List Char)} (h : ∀ word ∈ words, '\x00' ∉ word) :
    '\x00' ∉ joinWords words := by
  induction words with
  | nil => exact List.not_mem_nil
  | cons word words ih =>
    have hword := h word List.mem_cons_self
    cases words with
    | nil =>
      rw [joinWords, List.intercalate_singleton]
      exact hword
    | cons next words =>
      rw [joinWords_cons_cons, List.mem_append, List.mem_cons, not_or, not_or]
      exact ⟨hword, by decide, ih fun w hw ↦ h w (List.mem_cons_of_mem _ hw)⟩

/-- A name is read as its own flag. -/
theorem getLsbD_single_name {entry : StatusLkp} (h : entry ∈ statusFlags) (i : Nat) :
    (upsstatusSingleStatusToInt (some entry.statusStr.toList)).getLsbD i = true ↔
      (entry.statusValue.setWidth 16).getLsbD i = true := by
  rw [getLsbD_single]
  constructor
  · rintro ⟨other, hother, hbegins, hi⟩
    rw [statusFlags_begins other hother entry h hbegins] at hi
    exact hi
  · intro hi
    exact ⟨entry, h, List.prefix_refl _, hi⟩

theorem mem_flagsOf {status : BitVec 16} {entry : StatusLkp} {k : Nat} (hk : k < 14)
    (hvalue : entry.statusValue = BitVec.twoPow 32 k) :
    entry ∈ flagsOf status statusFlags ↔ entry ∈ statusFlags ∧ status.getLsbD k = true := by
  unfold flagsOf
  rw [List.mem_filter, decide_eq_true_iff, hvalue, and_twoPow_ne_zero status hk]

/-- What is printed is read as the known flags. -/
theorem upsstatusToString_back (status : BitVec 16) :
    upsstatusToIntString (upsstatusToString status) = status &&& 0x3FFF := by
  have hmem {word : List Char}
      (h : word ∈ (flagsOf status statusFlags).map (·.statusStr.toList)) :
      ∃ entry ∈ statusFlags, word = entry.statusStr.toList := by
    obtain ⟨entry, hentry, rfl⟩ := List.mem_map.mp h
    exact ⟨entry, (List.mem_filter.mp hentry).1, rfl⟩
  rw [upsstatusToString_eq, upsstatusToIntString_of_noNul, upsstatusToInt_join]
  · apply Flags.ext
    intro i
    rw [Flags.getLsbD_orAll, BitVec.getLsbD_and, Bool.and_eq_true]
    -- the table of names covers the lowest 14 bits
    have hmask : (0x3FFF : BitVec 16).getLsbD i = true ↔ i < 14 := by
      by_cases hi : i < 16
      · revert i
        decide
      · rw [BitVec.getLsbD_of_ge _ _ (by omega)]
        simp only [Bool.false_eq_true, false_iff]
        omega
    rw [hmask]
    simp only [List.mem_map, exists_exists_and_eq_and]
    constructor
    · rintro ⟨entry, hentry, hi⟩
      have hflag := (List.mem_filter.mp hentry).1
      obtain ⟨k, hk, hvalue⟩ := statusFlags_twoPow entry hflag
      rw [getLsbD_single_name hflag, getLsbD_statusValue hk hvalue] at hi
      subst hi
      exact ⟨((mem_flagsOf hk hvalue).mp hentry).2, hk⟩
    · rintro ⟨hi, hlt⟩
      obtain ⟨entry, hflag, hvalue⟩ := twoPow_statusFlags i hlt
      refine ⟨entry, (mem_flagsOf hlt hvalue).mpr ⟨hflag, hi⟩, ?_⟩
      rw [getLsbD_single_name hflag, getLsbD_statusValue hlt hvalue]
  · intro word hword
    obtain ⟨entry, hentry, rfl⟩ := hmem hword
    exact no_blank entry hentry
  · apply joinWords_noNul
    intro word hword
    obtain ⟨entry, hentry, rfl⟩ := hmem hword
    exact no_nul entry hentry

/-- Every name that begins a word is itself a word of the list. -/
def NamesAreWords (words : List (List Char)) : Prop :=
  ∀ word ∈ words, ∀ entry ∈ statusFlags, entry.name <+: caseless word →
    ∃ other ∈ words, caseless other = entry.name

/-- The flags of the words that are names, and the printer's round trip. -/
theorem upsstatus_exact_iff {words : List (List Char)}
    (hwords : ∀ word ∈ words, ' ' ∉ word ∧ '\x00' ∉ word) :
    (upsstatusToInt (joinWords words) = Flags.orAll (words.map exactStatus) ↔
        NamesAreWords words) ∧
      upsstatusToIntString (joinWords words) = upsstatusToInt (joinWords words) ∧
      ∀ status : BitVec 16,
        upsstatusToIntString (upsstatusToString status) = status &&& 0x3FFF := by
  have hnoNul := joinWords_noNul fun word hmem ↦ (hwords word hmem).2
  refine ⟨?_, upsstatusToIntString_of_noNul hnoNul, upsstatusToString_back⟩
  rw [upsstatusToInt_join fun word hmem ↦ (hwords word hmem).1, Flags.orAll_map_eq_iff]
  · constructor
    · intro h word hmem entry hentry hbegins
      obtain ⟨k, hk, hvalue⟩ := statusFlags_twoPow entry hentry
      have hbit := (getLsbD_statusValue hk hvalue k).mpr rfl
      obtain ⟨other, hother, hexact⟩ :=
        h word hmem k ((getLsbD_single word k).mpr ⟨entry, hentry, hbegins, hbit⟩)
      obtain ⟨found, hfound, hname, hfoundBit⟩ := (getLsbD_exact other k).mp hexact
      rw [statusInfo_bit hfound (mem_statusInfo hentry) hfoundBit hbit] at hname
      exact ⟨other, hother, hname.symm⟩
    · intro h word hmem i hi
      obtain ⟨entry, hentry, hbegins, hbit⟩ := (getLsbD_single word i).mp hi
      obtain ⟨other, hother, hname⟩ := h word hmem entry hentry hbegins
      exact ⟨other, hother,
        (getLsbD_exact other i).mpr ⟨entry, mem_statusInfo hentry, hname.symm, hbit⟩⟩
  · -- a word that is a name begins with itself, so nothing is missed
    intro word i hi
    obtain ⟨entry, hentry, hname, hbit⟩ := (getLsbD_exact word i).mp hi
    refine (getLsbD_single word i).mpr ⟨entry, mem_statusFlags_of_bit hentry hbit, ?_, hbit⟩
    rw [hname]

theorem upsstatus_exact_iff_charging :
    (upsstatusToInt (joinWords ["OL".toList, "chrg".toList]) =
          Flags.orAll (["OL".toList, "chrg".toList].map exactStatus) ↔
        NamesAreWords ["OL".toList, "chrg".toList]) ∧
      upsstatusToIntString (joinWords ["OL".toList, "chrg".toList]) =
        upsstatusToInt (joinWords ["OL".toList, "chrg".toList]) ∧
      ∀ status : BitVec 16,
        upsstatusToIntString (upsstatusToString status) = status &&& 0x3FFF :=
  upsstatus_exact_iff (by simp)

/-- A word that only begins with a name has its flag. -/
theorem offline_is_off : upsstatusToInt (joinWords ["OFFLINE".toList]) = 1 <<< 9 ∧
    Flags.orAll (["OFFLINE".toList].map exactStatus) ≠ 1 <<< 9 := by
  rw [upsstatusToInt_join (by simp)]
  decide +kernel

end FtyRest.Shared
