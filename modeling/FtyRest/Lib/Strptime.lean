import FtyRest.Lib.Strtol

/-!
# `strptime` and `strftime`

Reading and writing dates in the C locale, for the conversions of days, months and years.  As in
glibc, blanks are skipped before a number, a number ends where it cannot grow any more, and `%Y` is
written without zeros in front.
-/

namespace Strptime

open Stoi

/-- `struct tm`: the year and the month as they are written. -/
structure Tm where
  year : Nat
  month : Nat
  day : Nat
deriving DecidableEq, Repr

/-! ## Numbers -/

/-- The digits behind the first one, for as long as the number can stay in its range. -/
def moreDigits (high : Nat) : Nat → Nat → List Char → Nat × List Char
  | 0, n, text => (n, text)
  | _ + 1, n, [] => (n, [])
  | k + 1, n, c :: text =>
      if 10 * n ≤ high ∧ c.isDigit then
        moreDigits high k (10 * n + (c.toNat - '0'.toNat)) text
      else (n, c :: text)

/-- `get_number(from, to, n)` -/
def getNumber (low high digits : Nat) (text : List Char) : Option (Nat × List Char) :=
  match text.dropWhile isSpace with
  | [] => none
  | c :: text =>
      if c.isDigit then
        let (n, rest) := moreDigits high (digits - 1) (c.toNat - '0'.toNat) text
        if low ≤ n ∧ n ≤ high then some (n, rest) else none
      else none

theorem moreDigits_spec {high k n m : Nat} {text rest : List Char}
    (h : moreDigits high k n text = (m, rest)) :
    ∃ digits, text = digits ++ rest ∧ (∀ c ∈ digits, c.isDigit = true) ∧ digits.length ≤ k ∧
      m = Nat.ofDigitChars 10 digits n := by
  induction k generalizing n text with
  | zero =>
    obtain ⟨rfl, rfl⟩ := Prod.mk.inj h
    exact ⟨[], rfl, fun _ hc ↦ absurd hc List.not_mem_nil, Nat.le_refl 0, rfl⟩
  | succ k ih =>
    cases text with
    | nil =>
      obtain ⟨rfl, rfl⟩ := Prod.mk.inj h
      exact ⟨[], rfl, fun _ hc ↦ absurd hc List.not_mem_nil, Nat.zero_le _, rfl⟩
    | cons c text =>
      -- another digit is taken only while the value has room for one more place
      rw [moreDigits] at h
      split at h
      · rename_i hc
        obtain ⟨digits, rfl, hdigits, hlength, rfl⟩ := ih h
        refine ⟨c :: digits, rfl, ?_, Nat.succ_le_succ hlength, ?_⟩
        · intro d hd
          rcases List.mem_cons.mp hd with rfl | hd
          · exact hc.2
          · exact hdigits d hd
        · rw [Nat.ofDigitChars_cons]
      · obtain ⟨rfl, rfl⟩ := Prod.mk.inj h
        exact ⟨[], rfl, fun _ hc ↦ absurd hc List.not_mem_nil, Nat.zero_le _, rfl⟩

/-- A number is read from digits that stand behind blanks. -/
theorem getNumber_spec {low high k n : Nat} {text rest : List Char} (hk : 0 < k)
    (h : getNumber low high k text = some (n, rest)) :
    ∃ digits, text.dropWhile isSpace = digits ++ rest ∧ digits ≠ [] ∧
      (∀ c ∈ digits, c.isDigit = true) ∧ digits.length ≤ k ∧
      n = Nat.ofDigitChars 10 digits 0 ∧ low ≤ n ∧ n ≤ high := by
  unfold getNumber at h
  split at h
  · exact absurd h (by simp)
  · rename_i c text heq
    split at h
    · rename_i hc
      dsimp only at h
      split at h
      · rename_i hrange
        obtain ⟨rfl, rfl⟩ := Prod.mk.inj (Option.some.inj h)
        -- the first digit is read without a look at the limit, the others by `moreDigits`
        obtain ⟨digits, htext, hdigits, hlength, hn⟩ := moreDigits_spec
          (show moreDigits high (k - 1) (c.toNat - '0'.toNat) text = (_, _) from rfl)
        refine ⟨c :: digits, ?_, List.cons_ne_nil _ _, ?_, ?_, ?_, hrange.1, hrange.2⟩
        · rw [heq, List.cons_append, ← htext]
        · intro d hd
          rcases List.mem_cons.mp hd with rfl | hd
          · exact hc
          · exact hdigits d hd
        · rw [List.length_cons]
          omega
        · rw [hn, Nat.ofDigitChars_cons, Nat.mul_zero, Nat.zero_add]
      · exact absurd h (by simp)
    · exact absurd h (by simp)

theorem moreDigits_reads {high : Nat} {rest : List Char} (hrest : rest.takeWhile Char.isDigit = [])
    {digits : List Char} (hdigits : ∀ c ∈ digits, c.isDigit = true) {k n : Nat}
    (hk : digits.length ≤ k)
    (hgrow : ∀ before c after, digits = before ++ c :: after →
      10 * Nat.ofDigitChars 10 before n ≤ high) :
    moreDigits high k n (digits ++ rest) = (Nat.ofDigitChars 10 digits n, rest) := by
  induction digits generalizing k n with
  | nil =>
    rw [List.nil_append, Nat.ofDigitChars_nil]
    cases k with
    | zero => rfl
    | succ k =>
      cases rest with
      | nil => rfl
      | cons c rest =>
        -- the digits end here, since none is behind them
        have hc : ¬ c.isDigit = true := by
          intro hc
          rw [List.takeWhile_cons_of_pos hc] at hrest
          exact absurd hrest (List.cons_ne_nil _ _)
        rw [moreDigits, if_neg (fun h ↦ hc h.2)]
  | cons c digits ih =>
    cases k with
    | zero => exact absurd hk (by simp)
    | succ k =>
      have hn := hgrow [] c digits rfl
      rw [List.cons_append, moreDigits, if_pos ⟨hn, hdigits c List.mem_cons_self⟩,
        Nat.ofDigitChars_cons]
      apply ih
      · intro d hd
        exact hdigits d (List.mem_cons_of_mem _ hd)
      · exact Nat.le_of_succ_le_succ hk
      · intro before d after heq
        have hbefore := hgrow (c :: before) d after (by rw [heq]; rfl)
        rwa [Nat.ofDigitChars_cons] at hbefore

/-- Digits are read as a whole when every number on the way can still grow. -/
theorem getNumber_reads {low high k : Nat} {digits rest : List Char}
    (hne : digits ≠ []) (hdigits : ∀ c ∈ digits, c.isDigit = true) (hk : digits.length ≤ k)
    (hrest : rest.takeWhile Char.isDigit = [])
    (hgrow : ∀ before c after, digits = before ++ c :: after →
      10 * Nat.ofDigitChars 10 before 0 ≤ high)
    (hrange : low ≤ Nat.ofDigitChars 10 digits 0 ∧ Nat.ofDigitChars 10 digits 0 ≤ high) :
    getNumber low high k (digits ++ rest) = some (Nat.ofDigitChars 10 digits 0, rest) := by
  cases digits with
  | nil => exact absurd rfl hne
  | cons c digits =>
    have hc : c.isDigit = true := hdigits c List.mem_cons_self
    -- `hgrow` keeps the value small enough in front of each digit, so all of them are taken
    have hmore : moreDigits high (k - 1) (c.toNat - '0'.toNat) (digits ++ rest) =
        (Nat.ofDigitChars 10 (c :: digits) 0, rest) := by
      rw [Nat.ofDigitChars_cons, Nat.mul_zero, Nat.zero_add]
      apply moreDigits_reads hrest
      · intro d hd
        exact hdigits d (List.mem_cons_of_mem _ hd)
      · rw [List.length_cons] at hk
        omega
      · intro before d after heq
        have hbefore := hgrow (c :: before) d after (by rw [heq]; rfl)
        rwa [Nat.ofDigitChars_cons, Nat.mul_zero, Nat.zero_add] at hbefore
    unfold getNumber
    rw [List.cons_append, dropWhile_isSpace (not_isSpace_of_isDigit hc)]
    dsimp only
    rw [if_pos hc, hmore]
    exact if_pos hrange

/-! ## Numbers that are read from one text -/

theorem value_append (a b : List Char) : Nat.ofDigitChars 10 (a ++ b) 0 =
    10 ^ b.length * Nat.ofDigitChars 10 a 0 + Nat.ofDigitChars 10 b 0 := by
  rw [Nat.ofDigitChars_append, Nat.ofDigitChars_eq_ofDigitChars_zero]

/-- Digits in front make a number larger. -/
theorem value_lt_append {a b : List Char} (ha : 1 ≤ Nat.ofDigitChars 10 a 0) :
    Nat.ofDigitChars 10 b 0 < Nat.ofDigitChars 10 (a ++ b) 0 := by
  rw [value_append]
  have hpos : 0 < 10 ^ b.length * Nat.ofDigitChars 10 a 0 := Nat.mul_pos (Nat.pow_pos (by decide)) ha
  omega

theorem value_le_append (a b : List Char) :
    Nat.ofDigitChars 10 b 0 ≤ Nat.ofDigitChars 10 (a ++ b) 0 := by
  rw [value_append]
  exact Nat.le_add_left _ _

/-- Digits behind it make a number larger. -/
theorem lt_value_append {a b : List Char} (ha : 1 ≤ Nat.ofDigitChars 10 a 0) (hb : b ≠ []) :
    Nat.ofDigitChars 10 a 0 < Nat.ofDigitChars 10 (a ++ b) 0 := by
  rw [value_append]
  have hlength : 1 ≤ b.length := List.length_pos_iff.mpr hb
  have hten : 10 ≤ 10 ^ b.length := by
    calc 10 = 10 ^ 1 := rfl
      _ ≤ 10 ^ b.length := Nat.pow_le_pow_right (by decide) hlength
  have hmul := Nat.mul_le_mul_right (Nat.ofDigitChars 10 a 0) hten
  omega

/-- Two conversions that get one number from a text, of which one gets to the end of it. -/
theorem getNumber_end {low high k low' high' k' n : Nat} {text rest : List Char} (hk : 0 < k)
    (hk' : 0 < k') (h : getNumber low high k text = some (n, rest))
    (h' : getNumber low' high' k' text = some (n, [])) (hn : 1 ≤ n) : rest = [] := by
  obtain ⟨digits, htext, -, -, -, hvalue, -⟩ := getNumber_spec hk h
  obtain ⟨digits', htext', -, -, -, hvalue', -⟩ := getNumber_spec hk' h'
  rw [List.append_nil] at htext'
  -- more digits would make a larger number
  by_contra hrest
  rw [hvalue] at hn
  have hlt := lt_value_append hn hrest
  rw [← htext, htext', ← hvalue, ← hvalue'] at hlt
  exact absurd hlt (Nat.lt_irrefl n)

/-- The digits at the beginning of a text, behind blanks. -/
def run (text : List Char) : List Char := (text.dropWhile isSpace).takeWhile Char.isDigit

/-- What comes behind the digits. -/
def behind (text : List Char) : List Char := (text.dropWhile isSpace).dropWhile Char.isDigit

/-- A number that is followed by something else is all of the digits. -/
theorem getNumber_run {low high k n : Nat} {text rest : List Char} {c : Char} (hk : 0 < k)
    (h : getNumber low high k text = some (n, c :: rest)) (hc : c.isDigit = false) :
    n = Nat.ofDigitChars 10 (run text) 0 ∧ behind text = c :: rest ∧ (run text).length ≤ k := by
  obtain ⟨digits, htext, -, hdigits, hlength, hvalue, -⟩ := getNumber_spec hk h
  have hrun : run text = digits := by
    unfold run
    rw [htext, List.takeWhile_append_of_pos hdigits, List.takeWhile_cons_of_neg (by simp [hc]),
      List.append_nil]
  have hbehind : behind text = c :: rest := by
    unfold behind
    rw [← Strtol.drop_takeWhile_length]
    show (text.dropWhile isSpace).drop (run text).length = c :: rest
    rw [hrun, htext, List.drop_left]
  rw [hrun]
  exact ⟨hvalue, hbehind, hlength⟩

/-- A number that is read from digits, with something else behind them, leaves some of the digits. -/
theorem getNumber_split {low high k n : Nat} {text digits tail rest : List Char} {c : Char}
    (hk : 0 < k) (hdrop : text.dropWhile isSpace = digits ++ c :: tail) (hc : c.isDigit = false)
    (h : getNumber low high k text = some (n, rest)) :
    ∃ read left, digits = read ++ left ∧ read ≠ [] ∧ rest = left ++ c :: tail ∧
      n = Nat.ofDigitChars 10 read 0 ∧ low ≤ n := by
  obtain ⟨read, htext, hread, hreadDigits, -, hvalue, hlow, -⟩ := getNumber_spec hk h
  rw [hdrop] at htext
  rcases List.append_eq_append_iff.mp htext with ⟨left, hleft, htail⟩ | ⟨left, hleft, hrest⟩
  · cases left with
    | nil =>
      rw [List.append_nil] at hleft
      exact ⟨read, [], by rw [List.append_nil, hleft], hread, htail.symm, hvalue, hlow⟩
    | cons d left =>
      -- the number does not go on with what is no digit
      have hd : d = c := (List.cons.inj htail).1.symm
      have hmem : c ∈ read := by
        rw [hleft, hd]
        simp
      exact absurd (hreadDigits c hmem) (by simp [hc])
  · exact ⟨read, left, hleft, hread, hrest, hvalue, hlow⟩

/-! ## Formats -/

def months : List String :=
  ["january", "february", "march", "april", "may", "june", "july", "august", "september",
    "october", "november", "december"]

/-- Whether a text begins with a name, whatever the case of its letters is. -/
def beginsWith (name text : List Char) : Bool := name.isPrefixOf (text.map Char.toLower)

/-- The name of a month, in full or by its first three letters. -/
def getMonth (text : List Char) : Option (Nat × List Char) :=
  (months.zipIdx 1).findSome? fun (name, month) ↦
    if beginsWith name.toList text then some (month, text.drop name.length)
    else if beginsWith (name.toList.take 3) text then some (month, text.drop 3)
    else none

/-- A conversion, by the letter that stands for it. -/
def convert (conversion : Char) (text : List Char) (tm : Tm) : Option (Tm × List Char) :=
  match conversion with
  | 'd' => (getNumber 1 31 2 text).map fun (day, rest) ↦ ({ tm with day }, rest)
  | 'm' => (getNumber 1 12 2 text).map fun (month, rest) ↦ ({ tm with month }, rest)
  | 'b' => (getMonth text).map fun (month, rest) ↦ ({ tm with month }, rest)
  | 'Y' => (getNumber 0 9999 4 text).map fun (year, rest) ↦ ({ tm with year }, rest)
  | 'y' => (getNumber 0 99 2 text).map fun (year, rest) ↦
      ({ tm with year := if year < 69 then 2000 + year else 1900 + year }, rest)
  | _ => none

/-- The date at the beginning of a text, and what is left of the text behind it.  Only the fields
that the format names are set. -/
def strptime : List Char → List Char → Tm → Option (Tm × List Char)
  | text, [], tm => some (tm, text)
  | text, '%' :: conversion :: format, tm => do
      let (tm, text) ← convert conversion text tm
      strptime text format tm
  | text, c :: format, tm =>
      if isSpace c then strptime (text.dropWhile isSpace) format tm
      else
        match text with
        | [] => none
        | d :: text => if d = c then strptime text format tm else none

/-- A number of two digits. -/
def twoDigits (n : Nat) : List Char := [Nat.digitChar (n / 10), Nat.digitChar (n % 10)]

def printed : List Char → Tm → List Char
  | [], _ => []
  | '%' :: 'd' :: format, tm => twoDigits tm.day ++ printed format tm
  | '%' :: 'm' :: format, tm => twoDigits tm.month ++ printed format tm
  | '%' :: 'Y' :: format, tm => Nat.toDigits 10 tm.year ++ printed format tm
  | c :: format, tm => c :: printed format tm

/-- What is written into a buffer of `max` bytes; nothing is said of the buffer when the text and
the NUL behind it do not fit. -/
def strftime (max : Nat) (format : List Char) (tm : Tm) : Option (List Char) :=
  if (printed format tm).length < max then some (printed format tm) else none

/-! ## The calendar -/

def leapYear (year : Nat) : Bool := 4 ∣ year ∧ (¬ 100 ∣ year ∨ 400 ∣ year)

def daysIn (year month : Nat) : Nat :=
  if month = 2 then if leapYear year then 29 else 28
  else if month = 4 ∨ month = 6 ∨ month = 9 ∨ month = 11 then 30
  else 31

/-- A day of the calendar. -/
structure Tm.Real (tm : Tm) : Prop where
  month : 1 ≤ tm.month ∧ tm.month ≤ 12
  day : 1 ≤ tm.day ∧ tm.day ≤ daysIn tm.year tm.month

/-- The day as `YYYY-MM-DD`. -/
def Tm.iso (tm : Tm) : List Char :=
  twoDigits (tm.year / 100) ++ twoDigits (tm.year % 100) ++ '-' :: twoDigits tm.month ++
    '-' :: twoDigits tm.day

/-! ## What a conversion reads -/

/-- A number that is read sets the field that its conversion names. -/
theorem map_field_eq_some {read : Option (Nat × List Char)} {rest : List Char} {tm' : Tm}
    (set : Nat → Tm) : read.map (fun number ↦ (set number.1, number.2)) = some (tm', rest) ↔
      ∃ n, read = some (n, rest) ∧ tm' = set n := by
  simp only [Option.map_eq_some_iff, Prod.mk.injEq, Prod.exists]
  constructor
  · rintro ⟨n, rest', h, rfl, rfl⟩
    exact ⟨n, h, rfl⟩
  · rintro ⟨n, h, rfl⟩
    exact ⟨n, rest, h, rfl, rfl⟩

theorem convert_day {text rest : List Char} {tm tm' : Tm} :
    convert 'd' text tm = some (tm', rest) ↔
      ∃ n, getNumber 1 31 2 text = some (n, rest) ∧ tm' = { tm with day := n } := by
  simp only [convert]
  exact map_field_eq_some fun n ↦ { tm with day := n }

theorem convert_month {text rest : List Char} {tm tm' : Tm} :
    convert 'm' text tm = some (tm', rest) ↔
      ∃ n, getNumber 1 12 2 text = some (n, rest) ∧ tm' = { tm with month := n } := by
  simp only [convert]
  exact map_field_eq_some fun n ↦ { tm with month := n }

theorem convert_year {text rest : List Char} {tm tm' : Tm} :
    convert 'Y' text tm = some (tm', rest) ↔
      ∃ n, getNumber 0 9999 4 text = some (n, rest) ∧ tm' = { tm with year := n } := by
  simp only [convert]
  exact map_field_eq_some fun n ↦ { tm with year := n }

theorem convert_shortYear {text rest : List Char} {tm tm' : Tm}
    (h : convert 'y' text tm = some (tm', rest)) :
    ∃ year, 1969 ≤ year ∧ year ≤ 2068 ∧ tm' = { tm with year } := by
  simp only [convert, Option.map_eq_some_iff, Prod.mk.injEq, Prod.exists] at h
  obtain ⟨n, rest', hn, rfl, rfl⟩ := h
  obtain ⟨-, -, -, -, -, -, -, hhigh⟩ := getNumber_spec (by decide) hn
  refine ⟨_, ?_, ?_, rfl⟩
  · split
    · omega
    · omega
  · split
    · omega
    · omega

theorem getMonth_range {text rest : List Char} {n : Nat} (h : getMonth text = some (n, rest)) :
    1 ≤ n ∧ n ≤ 12 := by
  obtain ⟨p, hp, hmonth⟩ := List.exists_of_findSome?_eq_some h
  have hrange : ∀ p ∈ months.zipIdx 1, 1 ≤ p.2 ∧ p.2 ≤ 12 := by decide
  have hn : n = p.2 := by
    dsimp only at hmonth
    split at hmonth
    · exact (Prod.mk.inj (Option.some.inj hmonth)).1.symm
    · split at hmonth
      · exact (Prod.mk.inj (Option.some.inj hmonth)).1.symm
      · exact absurd hmonth (by simp)
  rw [hn]
  exact hrange p hp

theorem letter_of_toLower {c l : Char} (h : c.toLower = l) (hl : 97 ≤ l.toNat) :
    isSpace c = false ∧ c.isDigit = false := by
  have hc : 65 ≤ c.toNat := by
    by_contra hlt
    rw [toLower_of_lt (by omega)] at h
    rw [h] at hlt
    omega
  constructor
  · exact not_isSpace_of_lt (by omega)
  · rw [Bool.eq_false_iff]
    intro hdigit
    have hnine := (Char.isDigit_iff_toNat.mp hdigit).2
    have hcode : '9'.toNat = 57 := rfl
    omega

theorem beginsWith_cons {l : Char} {name text : List Char} (h : beginsWith (l :: name) text = true) :
    ∃ c rest, text = c :: rest ∧ c.toLower = l := by
  cases text with
  | nil => exact absurd h (by simp [beginsWith])
  | cons c rest =>
    unfold beginsWith at h
    rw [List.map_cons, List.isPrefixOf_cons_cons, Bool.and_eq_true, beq_iff_eq] at h
    exact ⟨c, rest, rfl, h.1.symm⟩

/-- The name of a month begins with a letter. -/
theorem getMonth_head {text rest : List Char} {n : Nat} (h : getMonth text = some (n, rest)) :
    ∃ c tail, text = c :: tail ∧ isSpace c = false ∧ c.isDigit = false := by
  obtain ⟨⟨name, month⟩, hp, hmonth⟩ := List.exists_of_findSome?_eq_some h
  -- every name begins with a small letter, and each letter of the text is compared as one
  have hletters : ∀ p ∈ months.zipIdx 1, ∃ l tail, p.1.toList = l :: tail ∧ 97 ≤ l.toNat := by
    simp only [months, List.zipIdx_cons, List.zipIdx_nil, List.forall_mem_cons]
    exact ⟨⟨'j', _, rfl, by decide⟩, ⟨'f', _, rfl, by decide⟩, ⟨'m', _, rfl, by decide⟩,
      ⟨'a', _, rfl, by decide⟩, ⟨'m', _, rfl, by decide⟩, ⟨'j', _, rfl, by decide⟩,
      ⟨'j', _, rfl, by decide⟩, ⟨'a', _, rfl, by decide⟩, ⟨'s', _, rfl, by decide⟩,
      ⟨'o', _, rfl, by decide⟩, ⟨'n', _, rfl, by decide⟩, ⟨'d', _, rfl, by decide⟩,
      fun _ hp ↦ absurd hp List.not_mem_nil⟩
  obtain ⟨l, tail, hname, hl⟩ := hletters _ hp
  dsimp only at hname hmonth
  rw [hname] at hmonth
  have hbegins : ∃ name, beginsWith (l :: name) text = true := by
    split at hmonth
    · exact ⟨_, ‹_›⟩
    · split at hmonth
      · exact ⟨_, ‹_›⟩
      · exact absurd hmonth (by simp)
  obtain ⟨_, hbegins⟩ := hbegins
  obtain ⟨c, tail, rfl, hc⟩ := beginsWith_cons hbegins
  exact ⟨c, tail, rfl, letter_of_toLower hc hl⟩

/-- A number is not the name of a month. -/
theorem convert_monthName_month {text rest rest' : List Char} {tm tm' tm₁ tm₁' : Tm}
    (h : convert 'b' text tm = some (tm', rest)) : convert 'm' text tm₁ ≠ some (tm₁', rest') := by
  intro h'
  simp only [convert, Option.map_eq_some_iff, Prod.mk.injEq, Prod.exists] at h
  obtain ⟨_, _, hname, -⟩ := h
  obtain ⟨n, hn, -⟩ := convert_month.mp h'
  -- a month begins with a letter where a number has a digit
  obtain ⟨c, tail, rfl, hspace, hdigit⟩ := getMonth_head hname
  obtain ⟨digits, htext, hne, hdigits, -⟩ := getNumber_spec (by decide) hn
  rw [dropWhile_isSpace hspace] at htext
  cases digits with
  | nil => exact hne rfl
  | cons d digits =>
    have hc := hdigits d List.mem_cons_self
    rw [← (List.cons.inj htext).1, hdigit] at hc
    exact absurd hc Bool.false_ne_true

theorem convert_monthName {text rest : List Char} {tm tm' : Tm}
    (h : convert 'b' text tm = some (tm', rest)) :
    ∃ month, 1 ≤ month ∧ month ≤ 12 ∧ tm' = { tm with month } := by
  simp only [convert, Option.map_eq_some_iff, Prod.mk.injEq, Prod.exists] at h
  obtain ⟨n, rest', hn, rfl, rfl⟩ := h
  exact ⟨n, (getMonth_range hn).1, (getMonth_range hn).2, rfl⟩

/-! ## Formats of three conversions -/

variable {x y z sep : Char} {text rest : List Char} {tm tm' : Tm}

theorem strptime_conversion {format : List Char} :
    strptime text ('%' :: x :: format) tm = some (tm', rest) ↔
      ∃ tm₁ rest₁, convert x text tm = some (tm₁, rest₁) ∧
        strptime rest₁ format tm₁ = some (tm', rest) := by
  rw [strptime]
  simp only [Option.bind_eq_bind, Option.bind_eq_some_iff, Prod.exists]

theorem strptime_end : strptime text ['%', x] tm = some (tm', rest) ↔
    convert x text tm = some (tm', rest) := by
  rw [strptime_conversion]
  constructor
  · rintro ⟨tm₁, rest₁, h, hend⟩
    obtain ⟨rfl, rfl⟩ := Prod.mk.inj (Option.some.inj hend)
    exact h
  · intro h
    exact ⟨tm', rest, h, rfl⟩

theorem strptime_char {format : List Char} (hpercent : sep ≠ '%') (hspace : isSpace sep = false) :
    strptime text (sep :: format) tm = some (tm', rest) ↔
      ∃ rest₁, text = sep :: rest₁ ∧ strptime rest₁ format tm = some (tm', rest) := by
  have hstep : strptime text (sep :: format) tm =
      match text with
      | [] => none
      | d :: text => if d = sep then strptime text format tm else none := by
    -- a format character that is neither a percent sign nor a blank stands for itself
    rw [strptime.eq_def]
    split
    · rename_i heq
      exact absurd heq (by simp)
    · rename_i heq
      exact absurd (List.cons.inj heq).1 hpercent
    · rename_i heq
      obtain ⟨rfl, rfl⟩ := List.cons.inj heq
      rw [hspace, if_neg Bool.false_ne_true]
  rw [hstep]
  cases text with
  | nil => simp
  | cons d text =>
    dsimp only
    rw [Option.ite_none_right_eq_some]
    constructor
    · rintro ⟨rfl, h⟩
      exact ⟨text, rfl, h⟩
    · rintro ⟨rest₁, heq, h⟩
      obtain ⟨rfl, rfl⟩ := List.cons.inj heq
      exact ⟨rfl, h⟩

/-- Three conversions with a character in between that stands for itself. -/
theorem strptime_literal (hpercent : sep ≠ '%') (hspace : isSpace sep = false) :
    strptime text ['%', x, sep, '%', y, sep, '%', z] tm = some (tm', rest) ↔
      ∃ tm₁ rest₁ tm₂ rest₂, convert x text tm = some (tm₁, sep :: rest₁) ∧
        convert y rest₁ tm₁ = some (tm₂, sep :: rest₂) ∧ convert z rest₂ tm₂ = some (tm', rest) := by
  constructor
  · intro h
    obtain ⟨tm₁, _, hx, hsep⟩ := strptime_conversion.mp h
    obtain ⟨rest₁, rfl, h₁⟩ := (strptime_char hpercent hspace).mp hsep
    obtain ⟨tm₂, _, hy, hsep'⟩ := strptime_conversion.mp h₁
    obtain ⟨rest₂, rfl, h₂⟩ := (strptime_char hpercent hspace).mp hsep'
    exact ⟨tm₁, rest₁, tm₂, rest₂, hx, hy, strptime_end.mp h₂⟩
  · rintro ⟨tm₁, rest₁, tm₂, rest₂, hx, hy, hz⟩
    refine strptime_conversion.mpr ⟨tm₁, _, hx, ?_⟩
    refine (strptime_char hpercent hspace).mpr ⟨rest₁, rfl, ?_⟩
    refine strptime_conversion.mpr ⟨tm₂, _, hy, ?_⟩
    exact (strptime_char hpercent hspace).mpr ⟨rest₂, rfl, strptime_end.mpr hz⟩

/-- Three conversions with blanks in between. -/
theorem strptime_blanks :
    strptime text ['%', x, ' ', '%', y, ' ', '%', z] tm = some (tm', rest) ↔
      ∃ tm₁ rest₁ tm₂ rest₂, convert x text tm = some (tm₁, rest₁) ∧
        convert y (rest₁.dropWhile isSpace) tm₁ = some (tm₂, rest₂) ∧
          convert z (rest₂.dropWhile isSpace) tm₂ = some (tm', rest) := by
  have hblank (text format : List Char) (tm : Tm) :
      strptime text (' ' :: format) tm = strptime (text.dropWhile isSpace) format tm := rfl
  rw [strptime_conversion]
  simp only [hblank]
  constructor
  · rintro ⟨tm₁, rest₁, hx, h⟩
    obtain ⟨tm₂, rest₂, hy, h⟩ := strptime_conversion.mp h
    exact ⟨tm₁, rest₁, tm₂, rest₂, hx, hy, strptime_end.mp h⟩
  · rintro ⟨tm₁, rest₁, tm₂, rest₂, hx, hy, hz⟩
    exact ⟨tm₁, rest₁, hx, strptime_conversion.mpr ⟨tm₂, rest₂, hy, strptime_end.mpr hz⟩⟩

/-! ## What is printed is read back -/

theorem isDigit_digitChar {n : Nat} (h : n < 10) : (Nat.digitChar n).isDigit = true := by
  have hall : ∀ n < 10, (Nat.digitChar n).isDigit = true := by decide
  exact hall n h

theorem value_twoDigits {n : Nat} (h : n < 100) : Nat.ofDigitChars 10 (twoDigits n) 0 = n := by
  unfold twoDigits
  rw [Nat.ofDigitChars_cons_digitChar_of_lt_ten (by omega),
    Nat.ofDigitChars_cons_digitChar_of_lt_ten (by omega), Nat.ofDigitChars_nil]
  omega

/-- The digits of a number in the range are read as that number. -/
theorem getNumber_value {low high k n : Nat} {digits rest : List Char} (hne : digits ≠ [])
    (hdigits : ∀ c ∈ digits, c.isDigit = true) (hk : digits.length ≤ k)
    (hrest : rest.takeWhile Char.isDigit = []) (hvalue : Nat.ofDigitChars 10 digits 0 = n)
    (hlow : low ≤ n) (hhigh : n ≤ high) :
    getNumber low high k (digits ++ rest) = some (n, rest) := by
  subst hvalue
  apply getNumber_reads hne hdigits hk hrest
  · intro before c after heq
    -- a part of the digits, with one more behind it, is not above the number
    have hle : 10 * Nat.ofDigitChars 10 before 0 ≤ Nat.ofDigitChars 10 digits 0 := by
      rw [heq, value_append, List.length_cons, Nat.pow_succ, Nat.mul_assoc]
      have hpos : 1 ≤ 10 ^ after.length := Nat.one_le_pow _ _ (by decide)
      have hmul := Nat.mul_le_mul_right (10 * Nat.ofDigitChars 10 before 0) hpos
      omega
    exact Nat.le_trans hle hhigh
  · exact ⟨hlow, hhigh⟩

theorem getNumber_twoDigits {low high n : Nat} {rest : List Char} (hlow : low ≤ n) (hhigh : n ≤ high)
    (hhundred : n < 100) (hrest : rest.takeWhile Char.isDigit = []) :
    getNumber low high 2 (twoDigits n ++ rest) = some (n, rest) := by
  apply getNumber_value
  · exact List.cons_ne_nil _ _
  · intro c hc
    rcases List.mem_cons.mp hc with rfl | hc
    · exact isDigit_digitChar (by omega)
    · rw [List.mem_singleton.mp hc]
      exact isDigit_digitChar (by omega)
  · exact Nat.le_refl 2
  · exact hrest
  · exact value_twoDigits hhundred
  · exact hlow
  · exact hhigh

theorem getNumber_year {year : Nat} {rest : List Char} (hyear : year ≤ 9999)
    (hrest : rest.takeWhile Char.isDigit = []) :
    getNumber 0 9999 4 (Nat.toDigits 10 year ++ rest) = some (year, rest) := by
  apply getNumber_value
  · exact Nat.toDigits_ne_nil
  · exact fun _ hc ↦ isDigit_of_mem_toDigits hc
  · rw [Nat.length_toDigits_le_iff (by decide) (by decide)]
    exact Nat.lt_succ_of_le hyear
  · exact hrest
  · exact Nat.ofDigitChars_ten_toDigits
  · exact Nat.zero_le _
  · exact hyear

theorem toDigits_four {n : Nat} (hlow : 1000 ≤ n) (hhigh : n ≤ 9999) :
    Nat.toDigits 10 n = twoDigits (n / 100) ++ twoDigits (n % 100) := by
  have hstep (m : Nat) (h : 10 ≤ m) :
      Nat.toDigits 10 m = Nat.toDigits 10 (m / 10) ++ [Nat.digitChar (m % 10)] :=
    Nat.toDigits_of_base_le (by decide) h
  have hone : Nat.toDigits 10 (n / 10 / 10 / 10) = [Nat.digitChar (n / 10 / 10 / 10)] :=
    Nat.toDigits_of_lt_base (by omega)
  rw [hstep n (by omega), hstep (n / 10) (by omega), hstep (n / 10 / 10) (by omega), hone]
  have h₁ : n / 10 / 10 / 10 = n / 100 / 10 := by omega
  have h₂ : n / 10 / 10 % 10 = n / 100 % 10 := by omega
  have h₃ : n / 10 % 10 = n % 100 / 10 := by omega
  have h₄ : n % 10 = n % 100 % 10 := by omega
  rw [h₁, h₂, h₃, h₄]
  rfl

example : strptime "15-Feb-10".toList "%d-%b-%y".toList ⟨0, 0, 0⟩ = some (⟨2010, 2, 15⟩, []) := by
  decide
example : strptime "2010-2-15xyz".toList "%Y-%m-%d".toList ⟨0, 0, 0⟩ =
    some (⟨2010, 2, 15⟩, ['x', 'y', 'z']) := by
  decide
example : strftime 11 "%Y-%m-%d".toList ⟨2010, 2, 15⟩ = some "2010-02-15".toList := by decide

end Strptime
