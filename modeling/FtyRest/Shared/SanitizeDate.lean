import FtyRest.Lib.Strptime

/-!
# `sanitize_date`

The guess of a format from the dashes of a text, and the reading of the date, from
`shared/utils.cc`.  A text is the list of its `char`s, bytes each, without the NUL at its end.
-/

namespace FtyRest.Shared

open Strptime

def startIdx : Int := 0

def isoIdx : Int := 1

def excellIdx : Int := 2

def noDashIdx : Int := 3

def formats : List String :=
  ["%d-%m-%Y", "%Y-%m-%d", "%d-%b-%y", "%d.%m.%Y", "%d %m %Y", "%m/%d/%Y"]

/-- `strchr`: the text from the character on; `none` is `NULL`. -/
def strchr (text : List Char) (c : Char) : Option (List Char) :=
  match text.dropWhile (· ≠ c) with
  | [] => none
  | found => some found

/-- `starting_idx`; `none` is the use of what `strchr` did not find. -/
def startingIdx (inp : List Char) : Option Int :=
  match strchr inp '-' with
  | none => some noDashIdx
  | some dash =>
      if inp.length - dash.length = 4 then some isoIdx
      else
        let inp := dash.tail
        if ¬ (inp.headD '\x00').isDigit then some excellIdx
        else
          match strchr inp '-' with
          -- NULL + 1 is not NULL, and it is given to strlen
          | none => none
          | some dash => if dash.tail.length = 4 then some startIdx else some (-1)

/-- What `sanitize_date` returns: `NULL`, or a buffer of eleven bytes.  `wild` is a read through a
pointer into nothing. -/
inductive Sanitized where
  | wild
  | null
  | buffer (contents : Option (List Char))
deriving DecidableEq, Repr

/-- The first format that takes the text.  `tm` is what stands in the variable for the date, which
is not initialised. -/
def firstFormat (tm : Tm) (inp : List Char) (candidates : List String) : Option (Tm × List Char) :=
  candidates.findSome? fun format ↦ strptime inp format.toList tm

def sanitizeDate (tm : Tm) (inp : List Char) : Sanitized :=
  match startingIdx inp with
  | none => .wild
  | some start =>
      if start ≤ -1 then .null
      else
        match firstFormat tm inp (formats.drop start.toNat) with
        | none => .null
        | some (tm, _) => .buffer (strftime 11 "%Y-%m-%d".toList tm)

/-! ## Where the dashes are -/

theorem dropWhile_ne {before : List Char} {c : Char} (h : c ∉ before) (rest : List Char) :
    (before ++ c :: rest).dropWhile (· ≠ c) = c :: rest := by
  rw [List.dropWhile_append_of_pos, List.dropWhile_cons_of_neg (by simp)]
  intro d hd
  rw [decide_eq_true_eq]
  rintro rfl
  exact h hd

theorem strchr_found {before : List Char} {c : Char} (h : c ∉ before) (after : List Char) :
    strchr (before ++ c :: after) c = some (c :: after) := by
  unfold strchr
  rw [dropWhile_ne h]

theorem strchr_eq_none {text : List Char} {c : Char} : strchr text c = none ↔ c ∉ text := by
  constructor
  · intro h hc
    obtain ⟨before, after, rfl, hbefore⟩ := List.eq_append_cons_of_mem hc
    rw [strchr_found hbefore] at h
    exact absurd h (by simp)
  · intro h
    have hdrop : text.dropWhile (· ≠ c) = [] := by
      rw [List.dropWhile_eq_nil_iff]
      intro d hd
      rw [decide_eq_true_eq]
      rintro rfl
      exact h hd
    unfold strchr
    rw [hdrop]

/-- What is decided by the first dash, and by what is behind it. -/
theorem startingIdx_dash {before : List Char} (h : '-' ∉ before) (after : List Char) :
    startingIdx (before ++ '-' :: after) =
      if before.length = 4 then some isoIdx
      else if ¬ (after.headD '\x00').isDigit then some excellIdx
      else
        match strchr after '-' with
        | none => none
        | some dash => if dash.tail.length = 4 then some startIdx else some (-1) := by
  have hlength : (before ++ '-' :: after).length - ('-' :: after).length = before.length := by
    rw [List.length_append]
    omega
  unfold startingIdx
  rw [strchr_found h]
  dsimp only
  rw [hlength]
  rfl

/-- One dash, which is not the fifth character, and a digit behind it. -/
def OneDashThenDigit (inp : List Char) : Prop :=
  ∃ before c after, inp = before ++ '-' :: c :: after ∧ '-' ∉ before ∧ before.length ≠ 4 ∧
    c.isDigit = true ∧ '-' ∉ after

theorem startingIdx_eq_none {inp : List Char} : startingIdx inp = none ↔ OneDashThenDigit inp := by
  by_cases hdash : '-' ∈ inp
  · obtain ⟨before, after, rfl, hbefore⟩ := List.eq_append_cons_of_mem hdash
    rw [startingIdx_dash hbefore]
    constructor
    · intro h
      split at h
      · exact absurd h (by simp)
      · rename_i hlength
        split at h
        · exact absurd h (by simp)
        · rename_i hdigit
          cases after with
          | nil => exact absurd hdigit (by decide)
          | cons c after =>
            have hc : c.isDigit = true := not_not.mp hdigit
            cases hfound : strchr (c :: after) '-' with
            | none =>
              have hafter := strchr_eq_none.mp hfound
              exact ⟨before, c, after, rfl, hbefore, hlength, hc,
                fun hmem ↦ hafter (List.mem_cons_of_mem _ hmem)⟩
            | some dash =>
              rw [hfound] at h
              dsimp only at h
              split at h
              · exact absurd h (by simp)
              · exact absurd h (by simp)
    · rintro ⟨before', c, after', heq, hbefore', hlength, hc, hafter⟩
      -- both are cut at the first dash
      have hsplit : before = before' ∧ after = c :: after' := by
        have hdrop := congrArg (List.dropWhile (· ≠ '-')) heq
        rw [dropWhile_ne hbefore, dropWhile_ne hbefore'] at hdrop
        have htail := (List.cons.inj hdrop).2
        rw [htail] at heq
        exact ⟨List.append_cancel_right heq, htail⟩
      obtain ⟨rfl, rfl⟩ := hsplit
      have hnone : strchr (c :: after') '-' = none := by
        rw [strchr_eq_none, List.mem_cons, not_or]
        refine ⟨?_, hafter⟩
        rintro rfl
        exact absurd hc (by decide)
      have hhead : ((c :: after').headD '\x00').isDigit = true := hc
      rw [if_neg hlength, if_neg (not_not.mpr hhead), hnone]
  · have hnone : startingIdx inp = some noDashIdx := by
      unfold startingIdx
      rw [strchr_eq_none.mpr hdash]
    rw [hnone]
    constructor
    · intro h
      exact absurd h (by simp)
    · rintro ⟨before, c, after, rfl, -⟩
      exact absurd (by simp) hdash

/-! ## The fields that a format sets -/

/-- The three conversions of a format, and the character in between. -/
def layouts : List (Char × Char × Char × Char) :=
  [('d', 'm', 'Y', '-'), ('Y', 'm', 'd', '-'), ('d', 'b', 'y', '-'), ('d', 'm', 'Y', '.'),
    ('d', 'm', 'Y', ' '), ('m', 'd', 'Y', '/')]

theorem formats_eq_layouts : formats.map String.toList =
    layouts.map fun (x, y, z, sep) ↦ ['%', x, sep, '%', y, sep, '%', z] := by
  decide

theorem mem_formats {format : String} (h : format ∈ formats) : ∃ x y z sep,
    (x, y, z, sep) ∈ layouts ∧ format.toList = ['%', x, sep, '%', y, sep, '%', z] := by
  have hmem := List.mem_map_of_mem (f := String.toList) h
  rw [formats_eq_layouts] at hmem
  obtain ⟨⟨x, y, z, sep⟩, hlayout, heq⟩ := List.mem_map.mp hmem
  exact ⟨x, y, z, sep, hlayout, heq.symm⟩

/-- What can be printed as `YYYY-MM-DD`, a day of the calendar or not. -/
structure PrintableTm (d : Tm) : Prop where
  year : d.year ≤ 9999
  month : 1 ≤ d.month ∧ d.month ≤ 12
  day : 1 ≤ d.day ∧ d.day ≤ 31

theorem getNumber_range {low high k n : Nat} {text rest : List Char} (hk : 0 < k)
    (h : getNumber low high k text = some (n, rest)) : low ≤ n ∧ n ≤ high := by
  obtain ⟨-, -, -, -, -, -, hrange⟩ := getNumber_spec hk h
  exact hrange

/-- Three numbers, each read in the range of its conversion. -/
theorem PrintableTm.of_numbers {year month day : Nat}
    {text text' text'' rest rest' rest'' : List Char}
    (hyear : getNumber 0 9999 4 text = some (year, rest))
    (hmonth : getNumber 1 12 2 text' = some (month, rest'))
    (hday : getNumber 1 31 2 text'' = some (day, rest'')) : PrintableTm ⟨year, month, day⟩ :=
  ⟨(getNumber_range (by decide) hyear).2, getNumber_range (by decide) hmonth,
    getNumber_range (by decide) hday⟩

theorem printable_of_format {format : String} (hformat : format ∈ formats) {tm d : Tm}
    {inp rest : List Char} (h : strptime inp format.toList tm = some (d, rest)) : PrintableTm d := by
  obtain ⟨x, y, z, sep, hlayout, heq⟩ := mem_formats hformat
  rw [heq] at h
  simp only [layouts, List.mem_cons, Prod.mk.injEq, List.not_mem_nil, or_false] at hlayout
  -- the six formats of the source, in its order
  rcases hlayout with ⟨rfl, rfl, rfl, rfl⟩ | ⟨rfl, rfl, rfl, rfl⟩ | ⟨rfl, rfl, rfl, rfl⟩ |
    ⟨rfl, rfl, rfl, rfl⟩ | ⟨rfl, rfl, rfl, rfl⟩ | ⟨rfl, rfl, rfl, rfl⟩
  · obtain ⟨_, _, _, _, hx, hy, hz⟩ := (strptime_literal (by decide) (by decide)).mp h
    obtain ⟨_, hday, rfl⟩ := convert_day.mp hx
    obtain ⟨_, hmonth, rfl⟩ := convert_month.mp hy
    obtain ⟨_, hyear, rfl⟩ := convert_year.mp hz
    exact .of_numbers hyear hmonth hday
  · obtain ⟨_, _, _, _, hx, hy, hz⟩ := (strptime_literal (by decide) (by decide)).mp h
    obtain ⟨_, hyear, rfl⟩ := convert_year.mp hx
    obtain ⟨_, hmonth, rfl⟩ := convert_month.mp hy
    obtain ⟨_, hday, rfl⟩ := convert_day.mp hz
    exact .of_numbers hyear hmonth hday
  · obtain ⟨_, _, _, _, hx, hy, hz⟩ := (strptime_literal (by decide) (by decide)).mp h
    obtain ⟨_, hday, rfl⟩ := convert_day.mp hx
    obtain ⟨_, hlow, hhigh, rfl⟩ := convert_monthName hy
    obtain ⟨_, -, hyear, rfl⟩ := convert_shortYear hz
    exact ⟨Nat.le_trans hyear (by decide), ⟨hlow, hhigh⟩, getNumber_range (by decide) hday⟩
  · obtain ⟨_, _, _, _, hx, hy, hz⟩ := (strptime_literal (by decide) (by decide)).mp h
    obtain ⟨_, hday, rfl⟩ := convert_day.mp hx
    obtain ⟨_, hmonth, rfl⟩ := convert_month.mp hy
    obtain ⟨_, hyear, rfl⟩ := convert_year.mp hz
    exact .of_numbers hyear hmonth hday
  · obtain ⟨_, _, _, _, hx, hy, hz⟩ := strptime_blanks.mp h
    obtain ⟨_, hday, rfl⟩ := convert_day.mp hx
    obtain ⟨_, hmonth, rfl⟩ := convert_month.mp hy
    obtain ⟨_, hyear, rfl⟩ := convert_year.mp hz
    exact .of_numbers hyear hmonth hday
  · obtain ⟨_, _, _, _, hx, hy, hz⟩ := (strptime_literal (by decide) (by decide)).mp h
    obtain ⟨_, hmonth, rfl⟩ := convert_month.mp hx
    obtain ⟨_, hday, rfl⟩ := convert_day.mp hy
    obtain ⟨_, hyear, rfl⟩ := convert_year.mp hz
    exact .of_numbers hyear hmonth hday

theorem firstFormat_format {tm d : Tm} {inp rest : List Char} {candidates : List String}
    (hcandidates : candidates ⊆ formats) (h : firstFormat tm inp candidates = some (d, rest)) :
    ∃ format ∈ formats, strptime inp format.toList tm = some (d, rest) := by
  obtain ⟨format, hformat, heq⟩ := List.exists_of_findSome?_eq_some h
  exact ⟨format, hcandidates hformat, heq⟩

/-! ## What is printed -/

theorem printed_iso (d : Tm) : printed "%Y-%m-%d".toList d =
    Nat.toDigits 10 d.year ++ '-' :: (twoDigits d.month ++ '-' :: twoDigits d.day) := by
  show Nat.toDigits 10 d.year ++ '-' :: (twoDigits d.month ++ '-' :: (twoDigits d.day ++ [])) = _
  rw [List.append_nil]

theorem length_printed (d : Tm) :
    (printed "%Y-%m-%d".toList d).length = (Nat.toDigits 10 d.year).length + 6 := by
  rw [printed_iso, List.length_append]
  rfl

theorem PrintableTm.length_lt {d : Tm} (h : PrintableTm d) :
    (printed "%Y-%m-%d".toList d).length < 11 := by
  have hyear : (Nat.toDigits 10 d.year).length ≤ 4 := by
    rw [Nat.length_toDigits_le_iff (by decide) (by decide)]
    exact Nat.lt_succ_of_le h.year
  rw [length_printed]
  omega

theorem PrintableTm.strftime {d : Tm} (h : PrintableTm d) :
    strftime 11 "%Y-%m-%d".toList d = some (printed "%Y-%m-%d".toList d) :=
  if_pos h.length_lt

/-! ## Safety -/

/-- `NULL`, or a text that fits into the buffer of eleven bytes, with the NUL behind it. -/
def Sanitized.Safe (result : Sanitized) : Prop :=
  result = .null ∨ ∃ text, result = .buffer (some text) ∧ text.length + 1 ≤ 11

theorem sanitizeDate_buffer {tm : Tm} {inp : List Char} {start : Int}
    (hstart : startingIdx inp = some start) :
    sanitizeDate tm inp = .null ∨ ∃ d rest, -1 < start ∧
      firstFormat tm inp (formats.drop start.toNat) = some (d, rest) ∧ PrintableTm d ∧
        sanitizeDate tm inp = .buffer (some (printed "%Y-%m-%d".toList d)) := by
  unfold sanitizeDate
  rw [hstart]
  dsimp only
  split
  · exact Or.inl rfl
  · rename_i hnonneg
    cases hfirst : firstFormat tm inp (formats.drop start.toNat) with
    | none => exact Or.inl rfl
    | some p =>
      obtain ⟨d, rest⟩ := p
      obtain ⟨format, hformat, heq⟩ := firstFormat_format (List.drop_subset _ _) hfirst
      have hprintable := printable_of_format hformat heq
      refine Or.inr ⟨d, rest, by omega, rfl, hprintable, ?_⟩
      dsimp only
      rw [hprintable.strftime]

/-- Only a second dash that is not there is read through. -/
theorem sanitizeDate_safe_iff (tm : Tm) (inp : List Char) :
    (sanitizeDate tm inp).Safe ↔ ¬ OneDashThenDigit inp := by
  rw [← startingIdx_eq_none]
  cases hstart : startingIdx inp with
  | none =>
    have hwild : sanitizeDate tm inp = .wild := by
      unfold sanitizeDate
      rw [hstart]
    rw [hwild]
    simp [Sanitized.Safe]
  | some start =>
    simp only [reduceCtorEq, not_false_eq_true, iff_true]
    rcases sanitizeDate_buffer hstart with hnull | ⟨d, rest, -, -, hprintable, hbuffer⟩
    · exact Or.inl hnull
    · exact Or.inr ⟨_, hbuffer, hprintable.length_lt⟩

/-- The second dash of `12-3` is looked for and not found. -/
theorem second_dash_missing : ¬ (sanitizeDate ⟨0, 0, 0⟩ "12-3".toList).Safe := by
  have hwild : sanitizeDate ⟨0, 0, 0⟩ "12-3".toList = .wild := by decide
  rw [hwild]
  simp [Sanitized.Safe]

/-! ## One text, two formats -/

theorem layout_cases {x y z sep : Char} (h : (x, y, z, sep) ∈ layouts) :
    (x = 'd' ∧ y = 'm' ∧ z = 'Y' ∧ sep = ' ') ∨
      sep ≠ '%' ∧ Stoi.isSpace sep = false ∧ sep.isDigit = false ∧
        ((x = 'd' ∨ x = 'm') ∨ x = 'Y' ∧ y = 'm' ∧ z = 'd') := by
  simp only [layouts, List.mem_cons, Prod.mk.injEq, List.not_mem_nil, or_false] at h
  rcases h with ⟨rfl, rfl, rfl, rfl⟩ | ⟨rfl, rfl, rfl, rfl⟩ | ⟨rfl, rfl, rfl, rfl⟩ |
    ⟨rfl, rfl, rfl, rfl⟩ | ⟨rfl, rfl, rfl, rfl⟩ | ⟨rfl, rfl, rfl, rfl⟩ <;> decide

theorem layout_dash {x y z : Char} (h : (x, y, z, '-') ∈ layouts) :
    (x = 'd' ∧ y = 'm' ∧ z = 'Y') ∨ (x = 'Y' ∧ y = 'm' ∧ z = 'd') ∨
      (x = 'd' ∧ y = 'b' ∧ z = 'y') := by
  simp only [layouts, List.mem_cons, Prod.mk.injEq, List.not_mem_nil, or_false] at h
  rcases h with ⟨rfl, rfl, rfl, -⟩ | ⟨rfl, rfl, rfl, -⟩ | ⟨rfl, rfl, rfl, -⟩ | ⟨-, -, -, hsep⟩ |
    ⟨-, -, -, hsep⟩ | ⟨-, -, -, hsep⟩
  · exact Or.inl ⟨rfl, rfl, rfl⟩
  · exact Or.inr (Or.inl ⟨rfl, rfl, rfl⟩)
  · exact Or.inr (Or.inr ⟨rfl, rfl, rfl⟩)
  · exact absurd hsep (by decide)
  · exact absurd hsep (by decide)
  · exact absurd hsep (by decide)

/-- Another character than the dash belongs to one format. -/
theorem layout_other {x y z sep : Char} (h : (x, y, z, sep) ∈ layouts) (hdash : sep ≠ '-') :
    (x, y, z) = if sep = '/' then ('m', 'd', 'Y') else ('d', 'm', 'Y') := by
  simp only [layouts, List.mem_cons, Prod.mk.injEq, List.not_mem_nil, or_false] at h
  rcases h with ⟨rfl, rfl, rfl, rfl⟩ | ⟨rfl, rfl, rfl, rfl⟩ | ⟨rfl, rfl, rfl, rfl⟩ |
    ⟨rfl, rfl, rfl, rfl⟩ | ⟨rfl, rfl, rfl, rfl⟩ | ⟨rfl, rfl, rfl, rfl⟩
  · exact absurd rfl hdash
  · exact absurd rfl hdash
  · exact absurd rfl hdash
  · decide
  · decide
  · decide

/-- What the first conversion of a format reads, with another character behind it. -/
theorem first_field {x y z sep : Char} {tm tm₁ : Tm} {inp rest₁ : List Char}
    (hx : (x = 'd' ∨ x = 'm') ∨ x = 'Y' ∧ y = 'm' ∧ z = 'd') (hsep : sep.isDigit = false)
    (h : convert x inp tm = some (tm₁, sep :: rest₁)) :
    behind inp = sep :: rest₁ ∧
      ((run inp).length ≤ 2 ∨
        y = 'm' ∧ z = 'd' ∧ tm₁.year = Nat.ofDigitChars 10 (run inp) 0) := by
  rcases hx with (rfl | rfl) | ⟨rfl, rfl, rfl⟩
  · obtain ⟨n, hn, rfl⟩ := convert_day.mp h
    obtain ⟨-, hbehind, hlength⟩ := getNumber_run (by decide) hn hsep
    exact ⟨hbehind, Or.inl hlength⟩
  · obtain ⟨n, hn, rfl⟩ := convert_month.mp h
    obtain ⟨-, hbehind, hlength⟩ := getNumber_run (by decide) hn hsep
    exact ⟨hbehind, Or.inl hlength⟩
  · obtain ⟨n, hn, rfl⟩ := convert_year.mp h
    obtain ⟨hvalue, hbehind, -⟩ := getNumber_run (by decide) hn hsep
    exact ⟨hbehind, Or.inr ⟨rfl, rfl, hvalue⟩⟩

/-- The format with blanks takes three numbers out of the digits at the beginning, when there is
something else behind them. -/
theorem blanks_in_run {tm d : Tm} {inp rest tail : List Char} {sep : Char}
    (hsep : sep.isDigit = false) (hspace : Stoi.isSpace sep = false)
    (hbehind : behind inp = sep :: tail)
    (h : strptime inp ['%', 'd', ' ', '%', 'm', ' ', '%', 'Y'] tm = some (d, rest)) :
    3 ≤ (run inp).length ∧ d.year < Nat.ofDigitChars 10 (run inp) 0 := by
  have hinp : inp.dropWhile Stoi.isSpace = run inp ++ sep :: tail := by
    rw [← hbehind]
    exact List.takeWhile_append_dropWhile.symm
  have hrun : ∀ c ∈ run inp, c.isDigit = true := List.all_eq_true.mp List.all_takeWhile
  have hblanks (left : List Char) (hleft : ∀ c ∈ left, c.isDigit = true) :
      (left ++ sep :: tail).dropWhile Stoi.isSpace = left ++ sep :: tail := by
    cases left with
    | nil => exact Stoi.dropWhile_isSpace hspace
    | cons c left =>
      exact Stoi.dropWhile_isSpace (Stoi.not_isSpace_of_isDigit (hleft c List.mem_cons_self))
  -- no number gets beyond the separator, so the three of them share the digits in front of it
  obtain ⟨_, _, _, _, hx, hy, hz⟩ := strptime_blanks.mp h
  obtain ⟨day, hday, rfl⟩ := convert_day.mp hx
  obtain ⟨month, hmonth, rfl⟩ := convert_month.mp hy
  obtain ⟨year, hyear, rfl⟩ := convert_year.mp hz
  obtain ⟨read, left, hread, hne, rfl, hvalue, hlow⟩ := getNumber_split (by decide) hinp hsep hday
  rw [hread] at hrun
  have hleft : ∀ c ∈ left, c.isDigit = true := fun c hc ↦ hrun c (List.mem_append_right _ hc)
  rw [hblanks left hleft] at hmonth
  obtain ⟨read', left', rfl, hne', rfl, -⟩ :=
    getNumber_split (by decide) (hblanks left hleft) hsep hmonth
  have hleft' : ∀ c ∈ left', c.isDigit = true := fun c hc ↦ hleft c (List.mem_append_right _ hc)
  rw [hblanks left' hleft'] at hyear
  obtain ⟨read'', left'', rfl, hne'', -, hvalue'', -⟩ :=
    getNumber_split (by decide) (hblanks left' hleft') hsep hyear
  constructor
  · have hlength := List.length_pos_iff.mpr hne
    have hlength' := List.length_pos_iff.mpr hne'
    have hlength'' := List.length_pos_iff.mpr hne''
    rw [hread, List.length_append, List.length_append, List.length_append]
    omega
  · rw [hvalue] at hlow
    calc year = Nat.ofDigitChars 10 read'' 0 := hvalue''
      _ ≤ Nat.ofDigitChars 10 (read'' ++ left'') 0 := by
        rw [value_append]
        have hpos : 1 ≤ 10 ^ left''.length := Nat.one_le_pow _ _ (by decide)
        have hmul := Nat.mul_le_mul_right (Nat.ofDigitChars 10 read'' 0) hpos
        omega
      _ ≤ Nat.ofDigitChars 10 (read' ++ (read'' ++ left'')) 0 := value_le_append _ _
      _ < Nat.ofDigitChars 10 (read ++ (read' ++ (read'' ++ left''))) 0 := value_lt_append hlow
      _ = Nat.ofDigitChars 10 (run inp) 0 := by rw [hread]

/-- The format with blanks gets to the end of digits and blanks only. -/
theorem blanks_whole {tm d : Tm} {inp : List Char}
    (h : strptime inp ['%', 'd', ' ', '%', 'm', ' ', '%', 'Y'] tm = some (d, [])) :
    ∀ c ∈ inp, c.isDigit = true ∨ Stoi.isSpace c = true := by
  -- a number is blanks and digits, and so is what comes behind it
  have hnumber {low high k n : Nat} (hk : 0 < k) {text rest : List Char}
      (h : getNumber low high k text = some (n, rest))
      (hrest : ∀ c ∈ rest, c.isDigit = true ∨ Stoi.isSpace c = true) :
      ∀ c ∈ text, c.isDigit = true ∨ Stoi.isSpace c = true := by
    obtain ⟨digits, htext, -, hdigits, -⟩ := getNumber_spec hk h
    intro c hc
    rw [← List.takeWhile_append_dropWhile (p := Stoi.isSpace) (l := text), htext,
      List.mem_append, List.mem_append] at hc
    rcases hc with hc | hc | hc
    · exact Or.inr (List.all_eq_true.mp List.all_takeWhile c hc)
    · exact Or.inl (hdigits c hc)
    · exact hrest c hc
  have hdrop {text : List Char}
      (h : ∀ c ∈ text.dropWhile Stoi.isSpace, c.isDigit = true ∨ Stoi.isSpace c = true) :
      ∀ c ∈ text, c.isDigit = true ∨ Stoi.isSpace c = true := by
    intro c hc
    rw [← List.takeWhile_append_dropWhile (p := Stoi.isSpace) (l := text), List.mem_append] at hc
    rcases hc with hc | hc
    · exact Or.inr (List.all_eq_true.mp List.all_takeWhile c hc)
    · exact h c hc
  obtain ⟨_, _, _, _, hx, hy, hz⟩ := strptime_blanks.mp h
  obtain ⟨day, hday, -⟩ := convert_day.mp hx
  obtain ⟨month, hmonth, -⟩ := convert_month.mp hy
  obtain ⟨year, hyear, -⟩ := convert_year.mp hz
  apply hnumber (by decide) hday
  apply hdrop
  apply hnumber (by decide) hmonth
  apply hdrop
  apply hnumber (by decide) hyear
  exact fun _ hc ↦ absurd hc List.not_mem_nil

/-- The formats `%d-%m-%Y` and `%Y-%m-%d` take the first and the last number of a text for each
other.  If they get one date, then both of its numbers are the same. -/
theorem day_year_end {low high k low' high' k' first first' last month month' : Nat}
    {inp rest₁ rest₂ rest₂' rest : List Char} (hk : 0 < k) (hk' : 0 < k')
    (hfirst : getNumber low high k inp = some (first, '-' :: rest₁))
    (hfirst' : getNumber low' high' k' inp = some (first', '-' :: rest₁))
    (hmonth : getNumber 1 12 2 rest₁ = some (month, '-' :: rest₂))
    (hmonth' : getNumber 1 12 2 rest₁ = some (month', '-' :: rest₂'))
    (hlast : getNumber low' high' k' rest₂ = some (first', rest))
    (hlast' : getNumber low high k rest₂' = some (last, [])) (hsame : last = first)
    (hpos : 1 ≤ first) : rest = [] := by
  obtain ⟨-, hrest⟩ := Prod.mk.inj (Option.some.inj (hmonth.symm.trans hmonth'))
  obtain rfl : rest₂ = rest₂' := (List.cons.inj hrest).2
  obtain ⟨hvalue, -⟩ := getNumber_run hk hfirst (by decide)
  obtain ⟨hvalue', -⟩ := getNumber_run hk' hfirst' (by decide)
  rw [hvalue', ← hvalue] at hlast
  rw [hsame] at hlast'
  exact getNumber_end hk' hk hlast hlast' hpos

/-- Two formats with dashes that get one date from a text, the second one to its end. -/
theorem dashes_end {x y z x' y' z' : Char} (hlayout : (x, y, z, '-') ∈ layouts)
    (hlayout' : (x', y', z', '-') ∈ layouts) {tm d : Tm} {inp rest : List Char}
    (h : strptime inp ['%', x, '-', '%', y, '-', '%', z] tm = some (d, rest))
    (h' : strptime inp ['%', x', '-', '%', y', '-', '%', z'] tm = some (d, [])) : rest = [] := by
  by_cases hsame : (x, y, z) = (x', y', z')
  · obtain ⟨rfl, rfl, rfl⟩ := hsame
    exact (Prod.mk.inj (Option.some.inj (h.symm.trans h'))).2
  · obtain ⟨tm₁, rest₁, tm₂, rest₂, hx, hy, hz⟩ :=
      (strptime_literal (by decide) (by decide)).mp h
    obtain ⟨tm₁', rest₁', tm₂', rest₂', hx', hy', hz'⟩ :=
      (strptime_literal (by decide) (by decide)).mp h'
    have hbehind : behind inp = '-' :: rest₁ := by
      rcases layout_cases hlayout with ⟨-, -, -, hsep⟩ | ⟨-, -, -, hfirst⟩
      · exact absurd hsep (by decide)
      · exact (first_field hfirst (by decide) hx).1
    have hbehind' : behind inp = '-' :: rest₁' := by
      rcases layout_cases hlayout' with ⟨-, -, -, hsep⟩ | ⟨-, -, -, hfirst⟩
      · exact absurd hsep (by decide)
      · exact (first_field hfirst (by decide) hx').1
    obtain rfl : rest₁ = rest₁' := (List.cons.inj (hbehind.symm.trans hbehind')).2
    rcases layout_dash hlayout with ⟨rfl, rfl, rfl⟩ | ⟨rfl, rfl, rfl⟩ | ⟨rfl, rfl, rfl⟩ <;>
      rcases layout_dash hlayout' with ⟨rfl, rfl, rfl⟩ | ⟨rfl, rfl, rfl⟩ | ⟨rfl, rfl, rfl⟩
    · exact absurd rfl hsame
    · obtain ⟨first, hfirst, rfl⟩ := convert_day.mp hx
      obtain ⟨month, hmonth, rfl⟩ := convert_month.mp hy
      obtain ⟨last, hlast, rfl⟩ := convert_year.mp hz
      obtain ⟨first', hfirst', rfl⟩ := convert_year.mp hx'
      obtain ⟨month', hmonth', rfl⟩ := convert_month.mp hy'
      obtain ⟨last', hlast', heq⟩ := convert_day.mp hz'
      obtain ⟨rfl, -, hday⟩ := Tm.mk.inj heq
      exact day_year_end (by decide) (by decide) hfirst hfirst' hmonth hmonth' hlast hlast' hday.symm
        (getNumber_range (by decide) hfirst).1
    · exact absurd hy (convert_monthName_month hy')
    · obtain ⟨first, hfirst, rfl⟩ := convert_year.mp hx
      obtain ⟨month, hmonth, rfl⟩ := convert_month.mp hy
      obtain ⟨last, hlast, rfl⟩ := convert_day.mp hz
      obtain ⟨first', hfirst', rfl⟩ := convert_day.mp hx'
      obtain ⟨month', hmonth', rfl⟩ := convert_month.mp hy'
      obtain ⟨last', hlast', heq⟩ := convert_year.mp hz'
      obtain ⟨hyear, -, rfl⟩ := Tm.mk.inj heq
      refine day_year_end (by decide) (by decide) hfirst hfirst' hmonth hmonth' hlast hlast'
        hyear.symm ?_
      -- the first number is a day for the other format
      obtain ⟨hvalue, -⟩ := getNumber_run (by decide) hfirst (by decide)
      obtain ⟨hvalue', -⟩ := getNumber_run (by decide) hfirst' (by decide)
      rw [hvalue, ← hvalue']
      exact (getNumber_range (by decide) hfirst').1
    · exact absurd rfl hsame
    · exact absurd hy (convert_monthName_month hy')
    · exact absurd hy' (convert_monthName_month hy)
    · exact absurd hy' (convert_monthName_month hy)
    · exact absurd rfl hsame

/-- Two formats that get one date from a text, the second one to its end, both get to the end. -/
theorem formats_end {format format' : String} (hformat : format ∈ formats)
    (hformat' : format' ∈ formats) {tm d : Tm} {inp rest : List Char}
    (h : strptime inp format.toList tm = some (d, rest))
    (h' : strptime inp format'.toList tm = some (d, [])) : rest = [] := by
  obtain ⟨x, y, z, sep, hlayout, heq⟩ := mem_formats hformat
  obtain ⟨x', y', z', sep', hlayout', heq'⟩ := mem_formats hformat'
  rw [heq] at h
  rw [heq'] at h'
  rcases layout_cases hlayout with ⟨rfl, rfl, rfl, rfl⟩ | ⟨hpercent, hspace, hdigit, hfirst⟩ <;>
    rcases layout_cases hlayout' with ⟨rfl, rfl, rfl, rfl⟩ | ⟨hpercent', hspace', hdigit', hfirst'⟩
  · -- blanks, blanks
    exact (Prod.mk.inj (Option.some.inj (h.symm.trans h'))).2
  · -- blanks, and a character
    obtain ⟨tm₁, rest₁, tm₂, rest₂, hx, hy, hz⟩ := (strptime_literal hpercent' hspace').mp h'
    obtain ⟨hbehind, hrun⟩ := first_field hfirst' hdigit' hx
    obtain ⟨hlength, hyear⟩ := blanks_in_run hdigit' hspace' hbehind h
    rcases hrun with hrun | ⟨rfl, rfl, hrun⟩
    · omega
    · obtain ⟨_, -, rfl⟩ := convert_month.mp hy
      obtain ⟨_, -, rfl⟩ := convert_day.mp hz
      exact absurd hrun (Nat.ne_of_lt hyear)
  · -- a character, and blanks
    obtain ⟨tm₁, rest₁, tm₂, rest₂, hx, -⟩ := (strptime_literal hpercent hspace).mp h
    obtain ⟨hbehind, -⟩ := first_field hfirst hdigit hx
    have hmem : sep ∈ inp := by
      apply (List.dropWhile_suffix Stoi.isSpace).subset
      apply (List.dropWhile_suffix Char.isDigit).subset
      show sep ∈ behind inp
      rw [hbehind]
      exact List.mem_cons_self
    rcases blanks_whole h' sep hmem with hsep | hsep
    · exact absurd hsep (by simp [hdigit])
    · exact absurd hsep (by simp [hspace])
  · -- two characters
    obtain ⟨tm₁, rest₁, tm₂, rest₂, hx, -⟩ := (strptime_literal hpercent hspace).mp h
    obtain ⟨tm₁', rest₁', tm₂', rest₂', hx', -⟩ := (strptime_literal hpercent' hspace').mp h'
    have hbehind := (first_field hfirst hdigit hx).1
    have hbehind' := (first_field hfirst' hdigit' hx').1
    obtain rfl : sep = sep' := (List.cons.inj (hbehind.symm.trans hbehind')).1
    by_cases hdash : sep = '-'
    · subst hdash
      exact dashes_end hlayout hlayout' h h'
    · obtain ⟨rfl, rfl, rfl⟩ :=
        Prod.mk.injEq _ _ _ _ ▸ (layout_other hlayout hdash).trans (layout_other hlayout' hdash).symm
      exact (Prod.mk.inj (Option.some.inj (h.symm.trans h'))).2

/-! ## The date that was written -/

theorem PrintableTm.strptime {d : Tm} (h : PrintableTm d) (tm : Tm) :
    strptime (printed "%Y-%m-%d".toList d) "%Y-%m-%d".toList tm = some (d, []) := by
  rw [printed_iso]
  show Strptime.strptime _ ['%', 'Y', '-', '%', 'm', '-', '%', 'd'] tm = _
  rw [strptime_literal (by decide) (by decide)]
  have hmonth : d.month ≤ 12 := h.month.2
  have hday : d.day ≤ 31 := h.day.2
  refine ⟨_, _, _, _, convert_year.mpr ⟨d.year, getNumber_year h.year rfl, rfl⟩,
    convert_month.mpr ⟨d.month, getNumber_twoDigits h.month.1 hmonth (by omega) rfl, rfl⟩,
    convert_day.mpr ⟨d.day, ?_, rfl⟩⟩
  rw [← List.append_nil (twoDigits d.day)]
  exact getNumber_twoDigits h.day.1 hday (by omega) rfl

theorem PrintableTm.printed_inj {d d' : Tm} (h : PrintableTm d) (h' : PrintableTm d')
    (heq : printed "%Y-%m-%d".toList d = printed "%Y-%m-%d".toList d') : d = d' := by
  have hread := h.strptime d
  rw [heq, h'.strptime d] at hread
  exact (Prod.mk.inj (Option.some.inj hread)).1.symm

/-- A year of four digits makes what is printed a date `YYYY-MM-DD`. -/
theorem PrintableTm.printed_eq_iso {d : Tm} (h : PrintableTm d) (hyear : 1000 ≤ d.year) :
    printed "%Y-%m-%d".toList d = d.iso := by
  rw [printed_iso, toDigits_four hyear h.year, Tm.iso]
  simp only [List.append_assoc, List.cons_append]

/-- The first four characters are the year. -/
theorem iso_year {d : Tm} (hyear : d.year ≤ 9999) :
    Nat.ofDigitChars 10 (d.iso.take 4) 0 = d.year := by
  show Nat.ofDigitChars 10 (twoDigits (d.year / 100) ++ twoDigits (d.year % 100)) 0 = d.year
  rw [value_append, value_twoDigits (by omega), value_twoDigits (by omega)]
  show 10 ^ 2 * (d.year / 100) + d.year % 100 = d.year
  omega

theorem PrintableTm.year_of_length {d : Tm}
    (hlength : (printed "%Y-%m-%d".toList d).length = 10) : 1000 ≤ d.year := by
  by_contra hlt
  have hle : (Nat.toDigits 10 d.year).length ≤ 3 := by
    rw [Nat.length_toDigits_le_iff (by decide) (by decide)]
    omega
  rw [length_printed] at hlength
  omega

/-- What is printed is taken in its own format, which is the first one that is tried. -/
theorem sanitizeDate_printed {d : Tm} (h : PrintableTm d) (hyear : 1000 ≤ d.year) (tm : Tm) :
    sanitizeDate tm (printed "%Y-%m-%d".toList d) =
      .buffer (some (printed "%Y-%m-%d".toList d)) := by
  have hdash : '-' ∉ Nat.toDigits 10 d.year := by
    intro hmem
    exact absurd (Stoi.isDigit_of_mem_toDigits hmem) (by decide)
  have hfour : (Nat.toDigits 10 d.year).length = 4 := by
    rw [toDigits_four hyear h.year]
    rfl
  have hstart : startingIdx (printed "%Y-%m-%d".toList d) = some isoIdx := by
    rw [printed_iso, startingIdx_dash hdash, if_pos hfour]
  have hfirst : firstFormat tm (printed "%Y-%m-%d".toList d) (formats.drop isoIdx.toNat) =
      some (d, []) := by
    show firstFormat tm _ ("%Y-%m-%d" :: formats.drop 2) = _
    rw [firstFormat, List.findSome?_cons, h.strptime]
  unfold sanitizeDate
  rw [hstart]
  dsimp only
  rw [if_neg (by decide), hfirst]
  dsimp only
  rw [h.strftime]

/-- The text `text` is the day of the calendar that `inp` is, as a whole, in one of the formats, and
it is left as it is. -/
structure DateReturned (tm : Tm) (inp text : List Char) (d : Tm) : Prop where
  real : d.Real
  year : d.year ≤ 9999
  iso : text = d.iso
  written : ∃ format ∈ formats, strptime inp format.toList tm = some (d, [])
  again : sanitizeDate tm text = .buffer (some text)

/-- The first format from the start on that takes the text decides; it has to get to the end of the
text, and the date has to be a day of the calendar in a year of four digits. -/
def FirstFormatFits (tm : Tm) (inp : List Char) : Prop :=
  ∀ start, startingIdx inp = some start → -1 < start → ∀ d rest,
    firstFormat tm inp (formats.drop start.toNat) = some (d, rest) →
      rest = [] ∧ d.Real ∧ 1000 ≤ d.year

theorem sanitizeDate_returned_iff (tm : Tm) (inp : List Char) :
    (∀ text, sanitizeDate tm inp = .buffer (some text) → ∃ d, DateReturned tm inp text d) ↔
      FirstFormatFits tm inp := by
  constructor
  · intro h start hstart hnonneg d rest hfirst
    obtain ⟨format, hformat, hread⟩ := firstFormat_format (List.drop_subset _ _) hfirst
    have hprintable := printable_of_format hformat hread
    have hbuffer : sanitizeDate tm inp = .buffer (some (printed "%Y-%m-%d".toList d)) := by
      unfold sanitizeDate
      rw [hstart]
      dsimp only
      rw [if_neg (by omega), hfirst]
      dsimp only
      rw [hprintable.strftime]
    obtain ⟨d', hd'⟩ := h _ hbuffer
    -- a text of ten characters has a year of four digits
    have hyear : 1000 ≤ d.year := by
      apply PrintableTm.year_of_length
      rw [hd'.iso]
      rfl
    obtain ⟨format', hformat', hwritten⟩ := hd'.written
    have hprintable' := printable_of_format hformat' hwritten
    have hyear' : 1000 ≤ d'.year := by
      rw [← iso_year hprintable'.year, ← hd'.iso, hprintable.printed_eq_iso hyear,
        iso_year hprintable.year]
      exact hyear
    obtain rfl : d = d' := by
      apply hprintable.printed_inj hprintable'
      rw [hd'.iso, hprintable'.printed_eq_iso hyear']
    exact ⟨formats_end hformat hformat' hread hwritten, hd'.real, hyear⟩
  · intro h text htext
    cases hstart : startingIdx inp with
    | none =>
      unfold sanitizeDate at htext
      rw [hstart] at htext
      exact absurd htext (by simp)
    | some start =>
      rcases sanitizeDate_buffer hstart with hnull | ⟨d, rest, hnonneg, hfirst, hprintable, hbuffer⟩
      · rw [hnull] at htext
        exact absurd htext (by simp)
      · obtain ⟨rfl, hreal, hyear⟩ := h start hstart hnonneg d rest hfirst
        obtain ⟨format, hformat, hread⟩ := firstFormat_format (List.drop_subset _ _) hfirst
        rw [hbuffer] at htext
        have htext : printed "%Y-%m-%d".toList d = text :=
          Option.some.inj (Sanitized.buffer.inj htext)
        rw [← htext]
        exact ⟨d, hreal, hprintable.year, hprintable.printed_eq_iso hyear,
          ⟨format, hformat, hread⟩, sanitizeDate_printed hprintable hyear tm⟩

/-- There is no 31st of February, and what is left of a text is not looked at. -/
theorem date_not_returned :
    ¬ (∀ text, sanitizeDate ⟨0, 0, 0⟩ "31-02-2010".toList = .buffer (some text) →
        ∃ d, DateReturned ⟨0, 0, 0⟩ "31-02-2010".toList text d) ∧
      ¬ (∀ text, sanitizeDate ⟨0, 0, 0⟩ "15-Feb-2010".toList = .buffer (some text) →
        ∃ d, DateReturned ⟨0, 0, 0⟩ "15-Feb-2010".toList text d) := by
  constructor
  · intro h
    have hbuffer : sanitizeDate ⟨0, 0, 0⟩ "31-02-2010".toList =
        .buffer (some "2010-02-31".toList) := by
      decide
    -- one format reads the text, as the 31st of February
    have honly : ∀ format ∈ formats,
        strptime "31-02-2010".toList format.toList ⟨0, 0, 0⟩ = some (⟨2010, 2, 31⟩, []) ∨
          (strptime "31-02-2010".toList format.toList ⟨0, 0, 0⟩).map Prod.snd ≠ some [] := by
      decide
    obtain ⟨d, hd⟩ := h _ hbuffer
    obtain ⟨format, hformat, hread⟩ := hd.written
    rcases honly format hformat with heq | heq
    · rw [heq] at hread
      obtain ⟨rfl, -⟩ := Prod.mk.inj (Option.some.inj hread)
      exact absurd hd.real.day.2 (by decide)
    · exact heq (by rw [hread]; rfl)
  · intro h
    have hbuffer : sanitizeDate ⟨0, 0, 0⟩ "15-Feb-2010".toList =
        .buffer (some "2020-02-15".toList) := by
      decide
    -- no format reads the whole text: `%y` takes two digits of the year
    have hnone : ∀ format ∈ formats,
        (strptime "15-Feb-2010".toList format.toList ⟨0, 0, 0⟩).map Prod.snd ≠ some [] := by
      decide
    obtain ⟨d, hd⟩ := h _ hbuffer
    obtain ⟨format, hformat, hread⟩ := hd.written
    apply hnone format hformat
    rw [hread]
    rfl

end FtyRest.Shared
