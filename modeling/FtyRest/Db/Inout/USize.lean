import FtyRest.Db.Inout.RowSound
import FtyRest.Db.Inout.RowTrace
import FtyRest.Lib.Strtol

/-!
# The `u_size` of a row

A cell of the column goes through two checks: `std::stoul` with a range, and the regular expression
of `check_u_size`.  Which texts each of them takes, and what becomes of a cell in between.
-/

namespace FtyRest.Db

open Shared Checks

/-! ## `std::stoul` -/

theorem isSpace_iff (c : Char) :
    Stoi.isSpace c = true ↔ c.toNat = 32 ∨ (9 ≤ c.toNat ∧ c.toNat ≤ 13) := by
  have hblank : c = ' ' ↔ c.toNat = 32 := by
    constructor
    · intro h
      rw [h]
      rfl
    · intro h
      apply Char.ext
      exact UInt32.toNat_inj.mp h
  simp only [Stoi.isSpace, Bool.or_eq_true, Bool.and_eq_true, decide_eq_true_eq, hblank]

theorem stoul_eq_scan (text : List Char) : stoul text =
    match Strtol.scan text with
    | none => none
    | some (n, rest) => if n.natAbs < 2 ^ 64 then some ((n % 2 ^ 64).toNat, rest) else none := by
  have hspace : (fun c : Char ↦ decide (c.toNat = 32 ∨ (9 ≤ c.toNat ∧ c.toNat ≤ 13))) =
      Stoi.isSpace := by
    funext c
    rw [Bool.eq_iff_iff, decide_eq_true_eq, isSpace_iff]
  have hsign : stoul text =
      let sign := Stoi.readSign (text.dropWhile Stoi.isSpace)
      let digits := sign.2.takeWhile Char.isDigit
      let value : Nat := digits.foldl (fun v c ↦ 10 * v + (c.toNat - 48)) 0
      if digits = [] ∨ 2 ^ 64 ≤ value then none
      else
        some (if sign.1 then (2 ^ 64 - value) % 2 ^ 64 else value, sign.2.drop digits.length) := by
    unfold stoul
    rw [hspace]
    rfl
  have hvalue (digits : List Char) :
      digits.foldl (fun v c ↦ 10 * v + (c.toNat - 48)) 0 = Nat.ofDigitChars 10 digits 0 :=
    Nat.ofDigitChars_eq_foldl.symm
  rw [hsign, Strtol.scan]
  generalize Stoi.readSign (text.dropWhile Stoi.isSpace) = sign
  obtain ⟨negative, rest⟩ := sign
  simp only [hvalue]
  generalize hdigits : rest.takeWhile Char.isDigit = digits
  -- without digits or past 64 bits there is none, and a minus negates the unsigned value
  by_cases hnil : digits = []
  · rw [if_pos (Or.inl hnil), if_pos hnil]
  · rw [if_neg hnil]
    dsimp only [Strtol.signed]
    generalize Nat.ofDigitChars 10 digits 0 = value
    have habs : (if negative then -(value : Int) else value).natAbs = value := by
      split
      · omega
      · omega
    rw [habs]
    by_cases hlarge : 2 ^ 64 ≤ value
    · rw [if_pos (Or.inr hlarge), if_neg (Nat.not_lt.mpr hlarge)]
    · have hsmall : value < 2 ^ 64 := Nat.lt_of_not_le hlarge
      have hresult : (if negative then (2 ^ 64 - value) % 2 ^ 64 else value) =
          ((if negative then -(value : Int) else value) % 2 ^ 64).toNat := by
        split
        · omega
        · omega
      rw [if_neg (not_or.mpr ⟨hnil, hlarge⟩), if_pos hsmall, hresult]

/-! ## The regular expression -/

/-- One or two digits, and a `u` or a `U` or nothing behind them. -/
structure UnitText (digits unit : List Char) : Prop where
  length : digits.length = 1 ∨ digits.length = 2
  digit : ∀ c ∈ digits, c.isDigit = true
  unit : unit = [] ∨ unit = ['u'] ∨ unit = ['U']

theorem UnitText.takeWhile {digits unit : List Char} (h : UnitText digits unit) :
    (digits ++ unit).takeWhile Char.isDigit = digits := by
  rw [List.takeWhile_append_of_pos h.digit]
  rcases h.unit with rfl | rfl | rfl
  · exact List.append_nil _
  · exact List.append_nil _
  · exact List.append_nil _

theorem UnitText.dropWhile {digits unit : List Char} (h : UnitText digits unit) :
    (digits ++ unit).dropWhile Char.isDigit = unit := by
  rw [← Strtol.drop_takeWhile_length, h.takeWhile, List.drop_left]

/-- The digits without a zero in front. -/
def dropZero : List Char → List Char
  | '0' :: d :: _ => [d]
  | digits => digits

theorem ofList_dropZero (digits : List Char) : some (String.ofList (dropZero digits)) =
    match digits with
    | '0' :: d :: _ => some (String.ofList [d])
    | _ => some (String.ofList digits) := by
  unfold dropZero
  split
  · rfl
  · rfl

theorem checkUSize_eq (s : String) : checkUSize s =
    let digits := s.toList.takeWhile Char.isDigit
    let rest := s.toList.dropWhile Char.isDigit
    if (digits.length = 1 ∨ digits.length = 2) ∧ (rest = [] ∨ rest = ['u'] ∨ rest = ['U']) then
      some (String.ofList (dropZero digits))
    else none := by
  dsimp only
  rw [ofList_dropZero, ← Strtol.drop_takeWhile_length]
  rfl

theorem checkUSize_eq_some {s text : String} : checkUSize s = some text ↔
    ∃ digits unit, s.toList = digits ++ unit ∧ UnitText digits unit ∧
      text = String.ofList (dropZero digits) := by
  rw [checkUSize_eq]
  constructor
  · intro h
    rw [Option.ite_none_right_eq_some] at h
    obtain ⟨hform, htext⟩ := h
    refine ⟨_, _, List.takeWhile_append_dropWhile.symm, ⟨hform.1, ?_, hform.2⟩,
      (Option.some.inj htext).symm⟩
    exact List.all_eq_true.mp List.all_takeWhile
  · rintro ⟨digits, unit, hs, hunit, rfl⟩
    rw [hs, hunit.takeWhile, hunit.dropWhile]
    exact if_pos ⟨hunit.length, hunit.unit⟩

/-! ## Numbers of one or two digits -/

theorem isDigit_iff_digitChar {c : Char} :
    c.isDigit = true ↔ ∃ k < 10, c = Nat.digitChar k := by
  constructor
  · intro h
    obtain ⟨hlow, hhigh⟩ := Char.isDigit_iff_toNat.mp h
    have hzero : '0'.toNat = 48 := rfl
    have hnine : '9'.toNat = 57 := rfl
    refine ⟨c.toNat - 48, by omega, ?_⟩
    apply Char.ext
    apply UInt32.toNat_inj.mp
    have hcode : ∀ k < 10, (Nat.digitChar k).toNat = 48 + k := by decide
    have hk := hcode (c.toNat - 48) (by omega)
    show c.toNat = (Nat.digitChar (c.toNat - 48)).toNat
    omega
  · rintro ⟨k, hk, rfl⟩
    have hdigit : ∀ k < 10, (Nat.digitChar k).isDigit = true := by decide
    exact hdigit k hk

/-- A number of one or two digits is printed as its digits without the zero in front. -/
theorem ofList_dropZero_eq {digits : List Char} (hlength : digits.length = 1 ∨ digits.length = 2)
    (hdigit : ∀ c ∈ digits, c.isDigit = true) :
    String.ofList (dropZero digits) = toString (Nat.ofDigitChars 10 digits 0) := by
  have hone : ∀ k < 10, String.ofList (dropZero [Nat.digitChar k]) =
      toString (Nat.ofDigitChars 10 [Nat.digitChar k] 0) := by
    decide
  -- there are only a hundred of them
  have htwo : ∀ j < 10, ∀ k < 10,
      String.ofList (dropZero [Nat.digitChar j, Nat.digitChar k]) =
        toString (Nat.ofDigitChars 10 [Nat.digitChar j, Nat.digitChar k] 0) := by
    decide
  match digits, hlength with
  | [c], _ =>
    obtain ⟨k, hk, rfl⟩ := isDigit_iff_digitChar.mp (hdigit c List.mem_cons_self)
    exact hone k hk
  | [c, d], _ =>
    obtain ⟨j, hj, rfl⟩ := isDigit_iff_digitChar.mp (hdigit c List.mem_cons_self)
    obtain ⟨k, hk, rfl⟩ := isDigit_iff_digitChar.mp (hdigit d (by simp))
    exact htwo j hj k hk

/-! ## The two checks in sequence -/

/-- A size in rack units: the text `v` means `n`. -/
def Units (v : String) (n : Nat) : Prop :=
  ∃ digits unit, v.toList = digits ++ unit ∧ UnitText digits unit ∧
    Nat.ofDigitChars 10 digits 0 = n ∧ 1 ≤ n ∧ n ≤ 52

/-- A number of one or two digits, without a letter. -/
def PlainUnits (v : String) (n : Nat) : Prop := Units v n ∧ ∀ c ∈ v.toList, c.isDigit = true

/-- `std::stoul` reads all of the text, as a number that is in the range. -/
def ReadAsUnits (v : String) : Prop := ∃ n, stoul v.toList = some (n, []) ∧ 1 ≤ n ∧ n ≤ 52

theorem UnitText.unit_takeWhile {digits unit : List Char} (h : UnitText digits unit) :
    unit.takeWhile Char.isDigit = [] := by
  rcases h.unit with rfl | rfl | rfl
  · rfl
  · rfl
  · rfl

theorem UnitText.stoul {digits unit : List Char} (h : UnitText digits unit)
    (hsmall : Nat.ofDigitChars 10 digits 0 ≤ 52) :
    stoul (digits ++ unit) = some (Nat.ofDigitChars 10 digits 0, unit) := by
  have hne : digits ≠ [] := by
    intro hnil
    have hlength := h.length
    rw [hnil] at hlength
    exact absurd hlength (by decide)
  rw [stoul_eq_scan, Strtol.scan_digits hne h.digit h.unit_takeWhile]
  dsimp only [Strtol.signed]
  generalize Nat.ofDigitChars 10 digits 0 = n at hsmall
  simp only [Bool.false_eq_true, if_false]
  -- the number is small, so it is neither refused nor wrapped
  rw [if_pos (by omega)]
  have hn : ((n : Int) % 2 ^ 64).toNat = n := by omega
  rw [hn]

theorem Units.unique {v : String} {m n : Nat} (hm : Units v m) (hn : Units v n) : m = n := by
  obtain ⟨digits, unit, hv, hunit, rfl, -⟩ := hm
  obtain ⟨digits', unit', hv', hunit', rfl, -⟩ := hn
  rw [← hunit.takeWhile, ← hunit'.takeWhile, ← hv, ← hv']

/-- `std::stoul` does not read a letter. -/
theorem Units.readAs_iff {v : String} {n : Nat} (h : Units v n) :
    ReadAsUnits v ↔ ∀ c ∈ v.toList, c.isDigit = true := by
  obtain ⟨digits, unit, hv, hunit, rfl, hlow, hhigh⟩ := h
  have hread := hunit.stoul hhigh
  rw [ReadAsUnits, hv]
  constructor
  · rintro ⟨n, hn, -⟩ c hc
    obtain ⟨-, rfl⟩ := Prod.mk.inj (Option.some.inj (hread.symm.trans hn))
    rw [List.append_nil] at hc
    exact hunit.digit c hc
  · intro hall
    have hnil : unit = [] := by
      rw [← hunit.dropWhile, List.dropWhile_eq_nil_iff]
      exact hall
    exact ⟨_, hnil ▸ hread, hlow, hhigh⟩

theorem Units.checkUSize {v : String} {n : Nat} (h : Units v n) :
    checkUSize v = some (toString n) := by
  obtain ⟨digits, unit, hv, hunit, rfl, -⟩ := h
  rw [checkUSize_eq_some]
  exact ⟨digits, unit, hv, hunit, (ofList_dropZero_eq hunit.length hunit.digit).symm⟩

section

variable {σ : Type} {db : AssetsDb σ} {tools : Tools} {s : σ} {i : RowInput}
  {names : List (String × String)}

theorem checkUnits_eq_ok {key v : String} : checkUnits key v = .ok () ↔ ReadAsUnits v := by
  simp only [checkUnits, bind_eq_ok, orThrow_eq_ok, require_eq_ok, Prod.exists, ReadAsUnits]
  constructor
  · rintro ⟨n, rest, hread, -, rfl, hrange⟩
    exact ⟨n, hread, by omega, by omega⟩
  · rintro ⟨n, hread, hlow, hhigh⟩
    exact ⟨n, [], hread, (), rfl, by omega⟩

theorem checkUnits_error {key v : String} (h : ¬ ReadAsUnits v) :
    ∃ expected, checkUnits key v = .error (requestParamBad key ("'" ++ v ++ "'") expected) := by
  have hok : checkUnits key v ≠ .ok () := fun hok ↦ h (checkUnits_eq_ok.mp hok)
  unfold checkUnits at hok ⊢
  cases hread : stoul v.toList with
  | none => exact ⟨_, rfl⟩
  | some p =>
    obtain ⟨n, rest⟩ := p
    rw [hread] at hok
    simp only [orThrow, ok_bind, require] at hok ⊢
    by_cases hrest : rest = []
    · rw [if_pos hrest] at hok ⊢
      rw [ok_bind] at hok ⊢
      by_cases hrange : ¬ (n = 0 ∨ n > 52)
      · exact absurd (if_pos hrange) hok
      · exact ⟨_, if_neg hrange⟩
    · rw [if_neg hrest]
      exact ⟨_, rfl⟩

/-- A cell of the column, in the loop over the attributes. -/
theorem extAttribute_uSize {v : String} (hcell : i.cell "u_size" = .ok v) (hv : v ≠ "") :
    extAttribute db tools s i names "u_size" = (do
      checkUnits "u_size" v
      return (checkUSize v).map fun value ↦ ("u_size", value)) := by
  have hdate : ¬ (isDate "u_size" = true ∧ v ≠ "") := fun h ↦ absurd h.1 (by decide)
  have hchecked : checkedValue db tools s names "u_size" v = .ok v := by
    unfold checkedValue
    rw [if_neg (fun h ↦ absurd h.1 (by decide)), if_neg (fun h ↦ absurd h.1 (by decide)),
      if_neg (fun h ↦ absurd h.1 (by decide))]
  have hpos : ¬ ("u_size" = "location_u_pos" ∧ v ≠ "") := fun h ↦ absurd h.1 (by decide)
  simp only [extAttribute, hcell, ok_bind, if_neg hdate, pure_bind, hchecked, if_neg hpos,
    matchExtAttr, if_true]
  exact if_pos ⟨trivial, hv⟩

/-- A cell that is a size is stored as the number, and any other cell is refused. -/
structure StoredOrRefused (v : String) (round : Except Thrown (Option (String × String))) :
    Prop where
  stored : ∀ n, Units v n → round = .ok (some ("u_size", toString n))
  refused : (¬ ∃ n, Units v n) → ∃ received expected,
    round = .error (requestParamBad "u_size" received expected)

theorem storedOrRefused_round {v : String} (hcell : i.cell "u_size" = .ok v) (hv : v ≠ "") :
    StoredOrRefused v (extAttribute db tools s i names "u_size") ↔
      (∃ n, PlainUnits v n) ∨ (¬ ReadAsUnits v ∧ ¬ ∃ n, Units v n) := by
  rw [extAttribute_uSize hcell hv]
  constructor
  · intro h
    -- a cell that is a size has to pass both checks, and one that is none has to fail the first
    by_cases hunits : ∃ n, Units v n
    · obtain ⟨n, hn⟩ := hunits
      have hround := h.stored n hn
      obtain ⟨_, hok, -⟩ := bind_eq_ok.mp hround
      exact Or.inl ⟨n, hn, hn.readAs_iff.mp (checkUnits_eq_ok.mp hok)⟩
    · refine Or.inr ⟨fun hread ↦ ?_, hunits⟩
      obtain ⟨_, _, hround⟩ := h.refused hunits
      rw [checkUnits_eq_ok.mpr hread] at hround
      exact absurd hround (by simp)
  · rintro (⟨n, hn, hplain⟩ | ⟨hread, hunits⟩)
    · constructor
      · intro m hm
        rw [checkUnits_eq_ok.mpr (hn.readAs_iff.mpr hplain), ok_bind, hm.checkUSize]
        rfl
      · intro hnone
        exact absurd ⟨n, hn⟩ hnone
    · constructor
      · intro n hn
        exact absurd ⟨n, hn⟩ hunits
      · intro _
        obtain ⟨expected, herror⟩ := checkUnits_error hread
        exact ⟨_, expected, by rw [herror]; rfl⟩

/-- What the loop over the attributes makes of a round for the column: it stores what the round
stores, and throws when the round does. -/
structure LoopFollows (round : Except Thrown (Option (String × String)))
    (loop : Except Thrown (List (String × String))) : Prop where
  stored : ∀ ext, loop = .ok ext →
    ∀ text, ("u_size", text) ∈ ext ↔ round = .ok (some ("u_size", text))
  refused : ∀ e, round = .error e → ∃ e', loop = .error e'

theorem rowExtAttributes_uSize {idStr ename type subtype : String}
    (hcolumn : "u_size" ∈ unusedColumns i idStr) :
    LoopFollows (extAttribute db tools s i names "u_size")
      (rowExtAttributes db tools s i names idStr ename type subtype) := by
  have hreturns : ∀ ext, rowExtAttributes db tools s i names idStr ename type subtype = .ok ext →
      ∃ round, extAttribute db tools s i names "u_size" = .ok round ∧
        ∀ attr, round = some attr → attr ∈ ext := by
    intro ext h
    simp only [rowExtAttributes, bind_eq_ok, pure_eq_ok] at h
    obtain ⟨rounds, hrounds, rfl⟩ := h
    obtain ⟨round, hround, heq⟩ := mapM_ok_image hrounds hcolumn
    refine ⟨round, heq, fun attr hattr ↦ ?_⟩
    rw [List.mem_append, List.mem_cons, List.mem_filterMap]
    exact Or.inl (Or.inr ⟨round, hround, hattr⟩)
  constructor
  · intro ext h text
    constructor
    · intro hmem
      -- no other column and neither of the two fixed attributes has this key
      rcases mem_rowExtAttributes h hmem with hname | ⟨htype, -⟩ | ⟨key, -, hround⟩
      · exact absurd hname (show "u_size" ≠ "name" by decide)
      · exact absurd (congrArg Prod.fst htype) (show "u_size" ≠ "type" by decide)
      · obtain ⟨_, _, -, -, rfl⟩ := extAttribute_some hround
        exact hround
    · intro hround
      obtain ⟨round, heq, hall⟩ := hreturns ext h
      exact hall _ (Except.ok.inj (heq.symm.trans hround))
  · intro e he
    cases hloop : rowExtAttributes db tools s i names idStr ename type subtype with
    | error e' => exact ⟨e', rfl⟩
    | ok ext =>
      obtain ⟨round, heq, -⟩ := hreturns ext hloop
      exact absurd (he.symm.trans heq) (by simp)

/-- The first check refuses the letter, and takes blanks, signs and zeros that the second one
drops; the loop does what its round for the column does. -/
theorem storedOrRefused_iff {v : String} (hcell : i.cell "u_size" = .ok v) (hv : v ≠ "") :
    (StoredOrRefused v (extAttribute db tools s i names "u_size") ↔
      (∃ n, PlainUnits v n) ∨ (¬ ReadAsUnits v ∧ ¬ ∃ n, Units v n)) ∧
    ∀ idStr ename type subtype, "u_size" ∈ unusedColumns i idStr →
      LoopFollows (extAttribute db tools s i names "u_size")
        (rowExtAttributes db tools s i names idStr ename type subtype) :=
  ⟨storedOrRefused_round hcell hv, fun _ _ _ _ hcolumn ↦ rowExtAttributes_uSize hcolumn⟩

end

/-! ## A rack of ten units -/

/-- A row for a rack, with the cell `v` for its size. -/
def rackOfSize (v : String) : RowInput where
  cm := {
    data := [["name", "type", "sub_type", "location", "status", "priority", "u_size"],
      ["Rack", "rack", "N_A", "", "active", "P1", v]]
    titleToIndex := ["name", "type", "sub_type", "location", "status", "priority", "u_size"].zipIdx }
  row := 1
  types := [("rack", AssetType.rack)]
  subtypes := [("n_a", 11), ("patch panel", 3), ("rack controller", 2)]
  ids := []
  sanitize := true
  rc0 := 2 ^ 64 - 1
  limitations := { globalConfigurability := 1 }

theorem storedOrRefused_iff_rack :
    (StoredOrRefused "10U"
        (extAttribute (oneUps {}) plainTools "" (rackOfSize "10U") [] "u_size") ↔
      (∃ n, PlainUnits "10U" n) ∨ (¬ ReadAsUnits "10U" ∧ ¬ ∃ n, Units "10U" n)) ∧
    LoopFollows (extAttribute (oneUps {}) plainTools "" (rackOfSize "10U") [] "u_size")
      (rowExtAttributes (oneUps {}) plainTools "" (rackOfSize "10U") [] "" "Rack" "rack" "N_A") :=
  have h := storedOrRefused_iff rfl (by decide)
  ⟨h.1, h.2 "" "Rack" "rack" "N_A" (by decide)⟩

/-- `10U` is refused, and what is behind a blank is dropped. -/
theorem size_refused_or_dropped :
    ¬ StoredOrRefused "10U"
        (extAttribute (oneUps {}) plainTools "" (rackOfSize "10U") [] "u_size") ∧
      ¬ StoredOrRefused " 7"
        (extAttribute (oneUps {}) plainTools "" (rackOfSize " 7") [] "u_size") := by
  constructor
  · intro h
    have hunits : Units "10U" 10 :=
      ⟨['1', '0'], ['U'], by decide, ⟨by decide, by simp, by decide⟩, by decide, by decide, by decide⟩
    have hround : extAttribute (oneUps {}) plainTools "" (rackOfSize "10U") [] "u_size" ≠
        .ok (some ("u_size", toString 10)) := by
      decide +kernel
    exact hround (h.stored 10 hunits)
  · intro h
    have hround : extAttribute (oneUps {}) plainTools "" (rackOfSize " 7") [] "u_size" = .ok none := by
      decide +kernel
    have hunits : ¬ ∃ n, Units " 7" n := by
      rintro ⟨n, hn⟩
      have hnone : checkUSize " 7" = none := by decide
      exact absurd (hnone.symm.trans hn.checkUSize) (by simp)
    obtain ⟨_, _, herror⟩ := h.refused hunits
    rw [hround] at herror
    exact absurd herror (by simp)

end FtyRest.Db
