import FtyRest.Ecpp.Json
import FtyRest.Lib.Checks
import FtyRest.Lib.Strtol

/-!
# The license

`license_POST.ecpp` writes down which license was accepted, when and by whom.  `license.ecpp` looks
at the first word of that before it leaves a request to the pages behind it, and
`license_status.ecpp` shows all of it.
-/

namespace FtyRest.Ecpp

open Checks Stoi Strtol

/-- The version and the name of the user are texts of C, without a `'\0'`. -/
structure Acceptance where
  version : List Char
  time : Nat
  user : List Char
deriving DecidableEq, Repr

/-- `"%s\n%" PRIu64 "\n%s\n"` -/
def Acceptance.text (a : Acceptance) : List Char :=
  a.version ++ '\n' :: (Nat.toDigits 10 a.time ++ '\n' :: (a.user ++ ['\n']))

/-- A file after a text is written at its beginning. -/
def overwrite (text old : List Char) : List Char := text ++ old.drop text.length

/-! ## Reading -/

/-- `>>` into a `std::string`: the word, and what is behind it. -/
def readWord (text : List Char) : List Char × List Char :=
  let rest := text.dropWhile isSpace
  (rest.takeWhile (!isSpace ·), rest.dropWhile (!isSpace ·))

/-- `>>` into an `uint64_t`; behind a number that is not there, or too large, nothing more is
read. -/
def readUInt64 (text : List Char) : Nat × Option (List Char) :=
  match scan text with
  | none => (0, none)
  | some (n, rest) =>
      if n.natAbs < 2 ^ 64 then ((n % 2 ^ 64).toNat, some rest) else (2 ^ 64 - 1, none)

/-- `file >> accepted_license_version >> accepted_license_time >> accepted_license_user` -/
def readAccepted (text : List Char) : Acceptance :=
  let (version, rest) := readWord text
  if version = [] then ⟨[], 0, []⟩
  else
    match readUInt64 rest with
    | (time, none) => ⟨version, time, []⟩
    | (time, some rest) => ⟨version, time, (readWord rest).1⟩

/-! ## The pages -/

/-- `c_str ()` -/
def cText (text : List Char) : List Char := text.takeWhile (· ≠ '\x00')

/-- What `license.ecpp` reads; the file may not be there. -/
def acceptedLicenseVersion (file : Option (List Char)) : List Char :=
  match file with
  | none => []
  | some text => (readWord text).1

/-- `license.ecpp` once it knows the version of the current license. -/
def checkLicense (current : List Char) (file : Option (List Char)) : Except HttpDie Unit := do
  let accepted := acceptedLicenseVersion file
  require (accepted ≠ []) ⟨"action-forbidden", ["REST API call", "Please accept license first."]⟩
  require (cText accepted = current) ⟨"action-forbidden", ["REST API call",
    "License version changed (new is " ++ String.ofList current ++ ", accepted is " ++
      String.ofList (cText accepted) ++ "). Please accept new license first"]⟩

/-- The members of the answer of `license_status.ecpp`.  Without a current license a version that
was accepted is compared with `NULL`. -/
def licenseStatus (basename2 : List Char → List Char) (current file : Option (List Char)) :
    Option (List (String × List Char)) := do
  let accepted := (file.map readAccepted).getD ⟨[], 0, []⟩
  let yes ← if accepted.version = [] then pure false
    else current.map fun version ↦ decide (cText accepted.version = version)
  pure (("accepted", if yes then ['y', 'e', 's'] else ['n', 'o']) ::
    ((current.map fun version ↦ ("version", basename2 version)).toList ++
      (if accepted.version = [] then []
        else [("accepted_version", basename2 (cText accepted.version))]) ++
      (if accepted.time = 0 then [] else [("accepted_at", Nat.toDigits 10 accepted.time)]) ++
      (if accepted.user = [] then [] else [("accepted_by", accepted.user)])))

/-! ## Words -/

section

variable {text word rest : List Char} {c : Char}

theorem not_isSpace_of_mem_readWord (h : c ∈ (readWord text).1) : isSpace c = false := by
  have hnot := List.mem_takeWhile_imp h
  simpa using hnot

theorem readWord_cons (h : isSpace c = true) : readWord (c :: text) = readWord text := by
  unfold readWord
  rw [List.dropWhile_cons_of_pos h]

/-- A word ends with the first blank behind it. -/
theorem readWord_append (hne : word ≠ []) (hword : ∀ c ∈ word, isSpace c = false)
    (hc : isSpace c = true) : readWord (word ++ c :: rest) = (word, c :: rest) := by
  have hall : ∀ c ∈ word, (!isSpace c) = true := fun c h ↦ by rw [hword c h]; rfl
  have hdrop : (word ++ c :: rest).dropWhile isSpace = word ++ c :: rest := by
    cases word with
    | nil => exact absurd rfl hne
    | cons d word => exact dropWhile_isSpace (hword d List.mem_cons_self)
  unfold readWord
  rw [hdrop]
  dsimp only
  rw [List.takeWhile_append_of_pos hall, List.dropWhile_append_of_pos hall,
    List.takeWhile_cons_of_neg (by simp [hc]), List.dropWhile_cons_of_neg (by simp [hc]),
    List.append_nil]

theorem exists_dropWhile_isSpace (hc : isSpace c = false) (before : List Char) :
    ∃ x, ∀ rest, (before ++ c :: rest).dropWhile isSpace = x ++ c :: rest := by
  induction before with
  | nil => exact ⟨[], fun rest ↦ dropWhile_isSpace hc⟩
  | cons d before ih =>
    cases hd : isSpace d with
    | true =>
      obtain ⟨x, hx⟩ := ih
      refine ⟨x, fun rest ↦ ?_⟩
      rw [List.cons_append, List.dropWhile_cons_of_pos hd, hx]
    | false => exact ⟨d :: before, fun rest ↦ dropWhile_isSpace hd⟩

theorem takeWhile_append_cons {p : Char → Bool} (hc : p c = false) (before : List Char) :
    (before ++ c :: rest).takeWhile p = before.takeWhile p := by
  induction before with
  | nil => exact List.takeWhile_cons_of_neg (by simp [hc])
  | cons d before ih =>
    rw [List.cons_append, List.takeWhile_cons, List.takeWhile_cons, ih]

/-- A word that has its end is read without what follows. -/
theorem readWord_fst_append {c' : Char} (hc : isSpace c = false) (hc' : isSpace c' = true)
    (before behind : List Char) :
    (readWord (before ++ c :: c' :: (behind ++ rest))).1 =
      (readWord (before ++ c :: c' :: behind)).1 := by
  obtain ⟨x, hx⟩ := exists_dropWhile_isSpace hc before
  have hp : (!isSpace c') = false := by rw [hc']; rfl
  unfold readWord
  dsimp only
  rw [hx, hx, List.append_cons x c (c' :: (behind ++ rest)), List.append_cons x c (c' :: behind),
    takeWhile_append_cons (p := (!isSpace ·)) hp, takeWhile_append_cons (p := (!isSpace ·)) hp]

end

/-! ## What was written is read back -/

section

variable {a : Acceptance} {tail : List Char}

theorem newline_isSpace : isSpace '\n' = true := by decide

theorem digits_not_isSpace (n : Nat) : ∀ c ∈ Nat.toDigits 10 n, isSpace c = false :=
  fun _ hc ↦ not_isSpace_of_isDigit (isDigit_of_mem_toDigits hc)

/-- What follows in the file does not reach the first word. -/
theorem readWord_text_append (a : Acceptance) (tail : List Char) :
    (readWord (a.text ++ tail)).1 = (readWord a.text).1 := by
  obtain ⟨digits, d, hdigits⟩ : ∃ digits d, Nat.toDigits 10 a.time = digits ++ [d] :=
    ⟨_, _, (List.dropLast_append_getLast Nat.toDigits_ne_nil).symm⟩
  have hd : isSpace d = false :=
    digits_not_isSpace a.time d (hdigits ▸ List.mem_append_right digits List.mem_cons_self)
  have htext : ∀ rest, a.text ++ rest =
      (a.version ++ '\n' :: digits) ++ d :: '\n' :: ((a.user ++ ['\n']) ++ rest) := by
    intro rest
    simp [Acceptance.text, hdigits]
  have hwhole : a.text = (a.version ++ '\n' :: digits) ++ d :: '\n' :: (a.user ++ ['\n']) := by
    simpa using htext []
  rw [htext, readWord_fst_append hd newline_isSpace, ← hwhole]

theorem readUInt64_time (ht : a.time < 2 ^ 64) (rest : List Char) :
    readUInt64 ('\n' :: (Nat.toDigits 10 a.time ++ '\n' :: rest)) =
      (a.time, some ('\n' :: rest)) := by
  have hscan : scan ('\n' :: (Nat.toDigits 10 a.time ++ '\n' :: rest)) =
      some ((a.time : Int), '\n' :: rest) := by
    have hblank : scan ('\n' :: (Nat.toDigits 10 a.time ++ '\n' :: rest)) =
        scan (Nat.toDigits 10 a.time ++ '\n' :: rest) := rfl
    have hdigits : ∀ c ∈ Nat.toDigits 10 a.time, c.isDigit = true :=
      fun c hc ↦ isDigit_of_mem_toDigits hc
    rw [hblank, scan_digits Nat.toDigits_ne_nil hdigits rfl]
    simp [signed, Nat.ofDigitChars_ten_toDigits]
  unfold readUInt64
  rw [hscan]
  dsimp only
  rw [if_pos (by simpa using ht)]
  congr 1
  omega

/-- With a version that is a word the whole is read back, up to blanks in the name. -/
theorem readAccepted_text (ht : a.time < 2 ^ 64) (hne : a.version ≠ [])
    (hversion : ∀ c ∈ a.version, isSpace c = false) :
    readAccepted (a.text ++ tail) =
      { a with user := (readWord (a.user ++ '\n' :: tail)).1 } := by
  have htext : a.text ++ tail =
      a.version ++ '\n' :: (Nat.toDigits 10 a.time ++ '\n' :: (a.user ++ '\n' :: tail)) := by
    simp [Acceptance.text]
  unfold readAccepted
  rw [htext, readWord_append hne hversion newline_isSpace]
  dsimp only
  rw [if_neg hne, readUInt64_time ht]
  dsimp only
  rw [readWord_cons newline_isSpace]

theorem readAccepted_version (text : List Char) :
    (readAccepted text).version = (readWord text).1 := by
  unfold readAccepted
  dsimp only
  split
  · rename_i hnil
    exact hnil.symm
  · split <;> rfl

theorem readWord_fst_of_nil (h : a.version = []) :
    (readWord (a.text ++ tail)).1 = Nat.toDigits 10 a.time := by
  have htext : a.text ++ tail =
      '\n' :: (Nat.toDigits 10 a.time ++ '\n' :: (a.user ++ '\n' :: tail)) := by
    simp [Acceptance.text, h]
  rw [htext, readWord_cons newline_isSpace,
    readWord_append Nat.toDigits_ne_nil (digits_not_isSpace a.time) newline_isSpace]

theorem readAccepted_eq_iff (a : Acceptance) (ht : a.time < 2 ^ 64) (tail : List Char) :
    readAccepted (a.text ++ tail) = a ↔
      (a.version ≠ [] ∧ ∀ c ∈ a.version, isSpace c = false) ∧
        (∀ c ∈ a.user, isSpace c = false) ∧ (a.user = [] → (readWord tail).1 = []) := by
  constructor
  · intro h
    have hword : a.version = (readWord (a.text ++ tail)).1 := by
      rw [← readAccepted_version, h]
    -- without a version the time is read in its place, which is never empty
    have hne : a.version ≠ [] := by
      intro hnil
      rw [readWord_fst_of_nil hnil, hnil] at hword
      exact Nat.toDigits_ne_nil hword.symm
    have hversion : ∀ c ∈ a.version, isSpace c = false := by
      intro c hc
      rw [hword] at hc
      exact not_isSpace_of_mem_readWord hc
    rw [readAccepted_text ht hne hversion] at h
    have huser : (readWord (a.user ++ '\n' :: tail)).1 = a.user := congrArg Acceptance.user h
    refine ⟨⟨hne, hversion⟩, fun c hc ↦ ?_, fun hnil ↦ ?_⟩
    · rw [← huser] at hc
      exact not_isSpace_of_mem_readWord hc
    · rw [hnil, List.nil_append, readWord_cons newline_isSpace] at huser
      exact huser
  · rintro ⟨⟨hne, hversion⟩, huser, hnil⟩
    rw [readAccepted_text ht hne hversion]
    have hword : (readWord (a.user ++ '\n' :: tail)).1 = a.user := by
      -- for an empty name the reader goes on to the next word
      by_cases hempty : a.user = []
      · rw [hempty, List.nil_append, readWord_cons newline_isSpace, hnil hempty]
      · rw [readWord_append hempty huser newline_isSpace]
    rw [hword]

/-- `license_status.ecpp` calls the license accepted exactly when `license.ecpp` lets a request
through: both go by the first word of the file. -/
theorem licenseStatus_yes_iff (basename2 : List Char → List Char) (current : List Char)
    (file : Option (List Char)) :
    (∃ members, licenseStatus basename2 (some current) file =
        some (("accepted", ['y', 'e', 's']) :: members)) ↔
      checkLicense current file = .ok () := by
  have hversion : ((file.map readAccepted).getD ⟨[], 0, []⟩).version =
      acceptedLicenseVersion file := by
    cases file with
    | none => rfl
    | some text => exact readAccepted_version text
  have hok : checkLicense current file = .ok () ↔
      acceptedLicenseVersion file ≠ [] ∧ cText (acceptedLicenseVersion file) = current := by
    simp only [checkLicense, bind_eq_ok, require_eq_ok, exists_and_left, exists_const]
  have hno : ['n', 'o'] ≠ ['y', 'e', 's'] := by decide
  rw [hok]
  unfold licenseStatus
  dsimp only
  rw [hversion]
  by_cases hnone : acceptedLicenseVersion file = []
  · simp [hnone, hno]
  · by_cases hsame : cText (acceptedLicenseVersion file) = current
    · simp [hnone, hsame]
    · simp [hnone, hsame, hno]

/-- What was accepted is read back from a file that may go on with the end of a longer text,
exactly when the version is a word, and the name is one, too, or nothing follows.  With the file as
it is, `license_status.ecpp` says what `license.ecpp` goes by. -/
theorem readAccepted_text_iff (a : Acceptance) (ht : a.time < 2 ^ 64) (tail : List Char) :
    (readAccepted (a.text ++ tail) = a ↔
      (a.version ≠ [] ∧ ∀ c ∈ a.version, isSpace c = false) ∧
        (∀ c ∈ a.user, isSpace c = false) ∧ (a.user = [] → (readWord tail).1 = [])) ∧
    ∀ basename2 current,
      (∃ members, licenseStatus basename2 (some current) (some (a.text ++ tail)) =
        some (("accepted", ['y', 'e', 's']) :: members)) ↔
      checkLicense current (some (a.text ++ tail)) = .ok () :=
  ⟨readAccepted_eq_iff a ht tail, fun basename2 current ↦ licenseStatus_yes_iff basename2 current _⟩

theorem readAccepted_text_iff_admin :
    (12 : Nat) < 2 ^ 64 ∧
      readAccepted ((⟨['1'], 12, ['a']⟩ : Acceptance).text ++ ['\n', 'b']) =
        ⟨['1'], 12, ['a']⟩ := by
  have ht : (12 : Nat) < 2 ^ 64 := by decide
  refine ⟨ht, (readAccepted_text_iff ⟨['1'], 12, ['a']⟩ ht ['\n', 'b']).1.mpr ⟨⟨?_, ?_⟩, ?_, ?_⟩⟩
  · exact List.cons_ne_nil _ _
  · intro c hc
    rw [List.mem_singleton.mp hc]
    decide +kernel
  · intro c hc
    rw [List.mem_singleton.mp hc]
    decide +kernel
  · intro h
    cases h

end

end FtyRest.Ecpp
