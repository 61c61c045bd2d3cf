import FtyRest.Lib.CString

/-!
# `shared/ic.cc`

Names in plain ASCII.  `iconv` is not part of the repository: it is a function of the two
encodings, which gives no descriptor, or one that tells of an input what it is written as and
whether the conversion comes to its end.
-/

namespace FtyRest.Shared

abbrev Iconv := String → String → Option (List UInt8 → List UInt8 × Bool)

inductive Converted where
  | done (out : List UInt8)
  | e2big
  -- any other errno
  | failed

/-- `s_convert`, with `capacity` bytes for the output. -/
def sConvert (id : List UInt8 → List UInt8 × Bool) (inbuf : List UInt8) (capacity : Nat) :
    Converted :=
  let (out, complete) := id inbuf
  if capacity < out.length then .e2big
  else if complete then .done out
  else .failed

theorem sConvert_of_lt {id : List UInt8 → List UInt8 × Bool} {inbuf : List UInt8} {capacity : Nat}
    (h : capacity < (id inbuf).1.length) : sConvert id inbuf capacity = .e2big := if_pos h

theorem sConvert_of_le {id : List UInt8 → List UInt8 × Bool} {inbuf : List UInt8} {capacity : Nat}
    (h : (id inbuf).1.length ≤ capacity) :
    sConvert id inbuf capacity = if (id inbuf).2 then .done (id inbuf).1 else .failed :=
  if_neg (Nat.not_lt.mpr h)

/-- The loop of `ic_convert`; the output buffer grows by the size of the input. -/
def icConvertLoop (id : List UInt8 → List UInt8 × Bool) (buf : List UInt8) (hbuf : buf ≠ [])
    (allocated : Nat) : Option (List UInt8) :=
  match _hconvert : sConvert id buf allocated with
  | .done out => some out
  | .e2big => icConvertLoop id buf hbuf (allocated + buf.length)
  | .failed => none
termination_by (id buf).1.length - allocated
decreasing_by
  -- only an output that is still too long goes round again
  have hpos := List.length_pos_iff.mpr hbuf
  have hshort : allocated < (id buf).1.length := by
    by_contra hlong
    rw [sConvert_of_le (Nat.not_lt.mp hlong)] at _hconvert
    split at _hconvert <;> cases _hconvert
  omega

section

variable (iconvOpen : Iconv)

def icConvert (buf : List UInt8) (source target : String) : Option (List UInt8) :=
  if h : buf = [] then none
  else
    match iconvOpen target source with
    | none => none
    | some id => icConvertLoop id buf h buf.length

def icUtf8ToAscii (string : CString) : Option (List UInt8) :=
  icConvert iconvOpen string.stored "UTF-8" "ASCII//TRANSLIT"

end

/-- Letters and digits. -/
def isAllowed (b : UInt8) : Bool :=
  (97 ≤ b ∧ b ≤ 122) ∨ (65 ≤ b ∧ b ≤ 90) ∨ (48 ≤ b ∧ b ≤ 57)

def tolower (b : UInt8) : UInt8 := if 65 ≤ b ∧ b ≤ 90 then b + 32 else b

def isReplaced (b : UInt8) : Bool := b ∈ (CString.ofAscii "_- /\\.").bytes

/-- The first loop of `ic_utf8_to_name`; `j` is the length of the name. -/
def nameLoop (bound : Nat) (name : List UInt8) : List UInt8 → List UInt8
  | [] => name
  | b :: ascii =>
    if name.length < bound then
      -- allowed characters, replaced characters, and others that are dropped
      if isAllowed b then nameLoop bound (name ++ [tolower b]) ascii
      else if isReplaced b then nameLoop bound (name ++ [46]) ascii
      else nameLoop bound name ascii
    else name

/-- The letters and digits of the asset type. -/
def typeLetters (assettype : CString) : List UInt8 :=
  (assettype.bytes.filter isAllowed).map tolower

/-- The bytes written to the name. -/
def writeName (ascii assettype : CString) : List UInt8 :=
  -- 40 - strlen (assettype) is unsigned
  nameLoop (40 - assettype.strlen.toUInt64).toNat [] ascii.bytes ++ [45] ++
    typeLetters assettype ++ [0]

/-- The bytes allocated for the name. -/
def nameSize (ascii assettype : CString) : Nat := ascii.strlen + assettype.strlen + 2

def typeOrUnknown (assettype : Option CString) : CString :=
  match assettype with
  | some text => if text.strlen = 0 then .ofAscii "unknown" else text
  | none => .ofAscii "unknown"

def icUtf8ToName (iconvOpen : Iconv) (string assettype : Option CString) : Option CString :=
  match string with
  | none => none
  | some string =>
    let assettype := typeOrUnknown assettype
    match icUtf8ToAscii iconvOpen string with
    | none => some assettype
    | some ascii =>
      let name := CString.ofMemory (writeName (.ofMemory ascii) assettype)
      -- the hyphen at least is there
      if name.strlen = 0 then some assettype else some name

/-! ## The conversion -/

/-- The buffer grows until the output has room in it. -/
theorem icConvertLoop_eq {id : List UInt8 → List UInt8 × Bool} {buf : List UInt8} {hbuf : buf ≠ []}
    {allocated : Nat} : icConvertLoop id buf hbuf allocated =
      if (id buf).2 then some (id buf).1 else none := by
  fun_induction icConvertLoop id buf hbuf allocated with
  | case1 allocated out h =>
    rcases Nat.lt_or_ge allocated (id buf).1.length with hshort | hlong
    · rw [sConvert_of_lt hshort] at h
      cases h
    · rw [sConvert_of_le hlong] at h
      split at h
      · rename_i hcomplete
        rw [if_pos hcomplete, Converted.done.inj h]
      · cases h
  | case2 allocated h ih => exact ih
  | case3 allocated h =>
    rcases Nat.lt_or_ge allocated (id buf).1.length with hshort | hlong
    · rw [sConvert_of_lt hshort] at h
      cases h
    · rw [sConvert_of_le hlong] at h
      split at h
      · cases h
      · rename_i hfailed
        rw [if_neg hfailed]

theorem icUtf8ToAscii_eq {iconvOpen : Iconv} {string : CString} :
    icUtf8ToAscii iconvOpen string =
      (iconvOpen "ASCII//TRANSLIT" "UTF-8").bind fun id ↦
        if (id string.stored).2 then some (id string.stored).1 else none := by
  have hne : string.stored ≠ [] := List.append_ne_nil_of_right_ne_nil _ (List.cons_ne_nil 0 [])
  unfold icUtf8ToAscii icConvert
  rw [dif_neg hne]
  cases iconvOpen "ASCII//TRANSLIT" "UTF-8" with
  | none => rfl
  | some id => exact icConvertLoop_eq

/-! ## The name -/

/-- What becomes of a character of the text. -/
def keep (b : UInt8) : Option UInt8 :=
  if isAllowed b then some (tolower b) else if isReplaced b then some 46 else none

/-- The places that a text takes. -/
def places (ascii : CString) : Nat := (ascii.bytes.filterMap keep).length

theorem nameLoop_eq {bound : Nat} {name ascii : List UInt8} (h : name.length ≤ bound) :
    nameLoop bound name ascii = name ++ (ascii.filterMap keep).take (bound - name.length) := by
  -- a character that is kept takes one place of the bound, and one of the text that is left
  induction ascii generalizing name with
  | nil => simp [nameLoop]
  | cons b ascii ih =>
    unfold nameLoop
    by_cases hroom : name.length < bound
    · have hone : ∀ c, bound - name.length = bound - (name ++ [c]).length + 1 := by
        intro c
        rw [List.length_append, List.length_singleton]
        omega
      have hlonger : ∀ c, (name ++ [c]).length ≤ bound := by
        intro c
        rw [List.length_append, List.length_singleton]
        omega
      rw [if_pos hroom, List.filterMap_cons]
      by_cases hallowed : isAllowed b = true
      · have hkeep : keep b = some (tolower b) := if_pos hallowed
        rw [if_pos hallowed, hkeep, ih (hlonger _), hone (tolower b), List.take_succ_cons,
          List.append_assoc, List.singleton_append]
      · by_cases hreplaced : isReplaced b = true
        · have hkeep : keep b = some 46 := by
            rw [keep, if_neg hallowed, if_pos hreplaced]
          rw [if_neg hallowed, if_pos hreplaced, hkeep, ih (hlonger _), hone 46,
            List.take_succ_cons, List.append_assoc, List.singleton_append]
        · have hkeep : keep b = none := by
            rw [keep, if_neg hallowed, if_neg hreplaced]
          rw [if_neg hallowed, if_neg hreplaced, hkeep, ih h]
    · have hfull : bound - name.length = 0 := by omega
      rw [if_neg hroom, hfull, List.take_zero, List.append_nil]

/-- A character of a name: `a`-`z`, `0`-`9`, `.` and `-`. -/
def isNameByte (b : UInt8) : Prop :=
  (97 ≤ b ∧ b ≤ 122) ∨ (48 ≤ b ∧ b ≤ 57) ∨ b = 46 ∨ b = 45

section

variable {b c : UInt8} {ascii assettype : CString}

theorem isNameByte_tolower (h : isAllowed b = true) : isNameByte (tolower b) := by
  rw [isAllowed, decide_eq_true_eq] at h
  unfold tolower
  by_cases hupper : 65 ≤ b ∧ b ≤ 90
  · rw [if_pos hupper]
    left
    have hlow : 65 ≤ b.toNat := UInt8.le_iff_toNat_le.mp hupper.1
    have hhigh : b.toNat ≤ 90 := UInt8.le_iff_toNat_le.mp hupper.2
    -- an upper letter is moved by 32, within a byte
    have hsum : (b + 32).toNat = b.toNat + 32 := by
      rw [UInt8.toNat_add]
      exact Nat.mod_eq_of_lt (show b.toNat + 32 < 256 by omega)
    constructor
    · apply UInt8.le_iff_toNat_le.mpr
      rw [hsum]
      show 97 ≤ b.toNat + 32
      omega
    · apply UInt8.le_iff_toNat_le.mpr
      rw [hsum]
      show b.toNat + 32 ≤ 122
      omega
  · rw [if_neg hupper]
    rcases h with hlower | hupper' | hdigit
    · exact Or.inl hlower
    · exact absurd hupper' hupper
    · exact Or.inr (Or.inl hdigit)

theorem isNameByte_keep (h : keep b = some c) : isNameByte c := by
  unfold keep at h
  split at h
  · rename_i hallowed
    exact Option.some.inj h ▸ isNameByte_tolower hallowed
  · split at h
    · exact Option.some.inj h ▸ Or.inr (Or.inr (Or.inl rfl))
    · cases h

theorem isNameByte_typeLetters (h : b ∈ typeLetters assettype) : isNameByte b := by
  obtain ⟨a, ha, rfl⟩ := List.mem_map.mp h
  exact isNameByte_tolower (List.mem_filter.mp ha).2

theorem not_isNameByte_zero : ¬ isNameByte 0 := by
  unfold isNameByte
  decide

/-- The text in front of the hyphen. -/
def front (ascii assettype : CString) : List UInt8 :=
  (ascii.bytes.filterMap keep).take (40 - assettype.strlen)

theorem writeName_eq (h : assettype.strlen ≤ 40) :
    writeName ascii assettype =
      (front ascii assettype ++ ([45] ++ typeLetters assettype)) ++ [0] := by
  have hlength : assettype.strlen.toUInt64.toNat = assettype.strlen := by
    rw [Nat.toUInt64_eq, UInt64.toNat_ofNat']
    exact Nat.mod_eq_of_lt (show assettype.strlen < 2 ^ 64 by omega)
  have hle : assettype.strlen.toUInt64 ≤ 40 := by
    apply UInt64.le_iff_toNat_le.mpr
    rw [hlength]
    exact h
  have hbound : (40 - assettype.strlen.toUInt64).toNat = 40 - assettype.strlen := by
    rw [UInt64.toNat_sub_of_le _ _ hle, hlength]
    rfl
  rw [writeName, hbound, nameLoop_eq (Nat.zero_le _), front]
  simp only [List.nil_append, List.length_nil, Nat.sub_zero, List.append_assoc]

theorem isNameByte_of_mem (h : b ∈ front ascii assettype ++ ([45] ++ typeLetters assettype)) :
    isNameByte b := by
  rcases List.mem_append.mp h with hfront | hsuffix
  · obtain ⟨a, _, ha⟩ := List.mem_filterMap.mp (List.mem_of_mem_take hfront)
    exact isNameByte_keep ha
  · rcases List.mem_append.mp hsuffix with hhyphen | hletters
    · exact Or.inr (Or.inr (Or.inr (List.mem_singleton.mp hhyphen)))
    · exact isNameByte_typeLetters hletters

def nameOf (ascii assettype : CString) : CString where
  bytes := front ascii assettype ++ ([45] ++ typeLetters assettype)
  noNul := fun h ↦ not_isNameByte_zero (isNameByte_of_mem h)

theorem strlen_nameOf : (nameOf ascii assettype).strlen =
    min (40 - assettype.strlen) (places ascii) + ((typeLetters assettype).length + 1) := by
  show (front ascii assettype ++ ([45] ++ typeLetters assettype)).length = _
  rw [List.length_append, List.length_append, List.length_singleton, Nat.add_comm 1, front,
    List.length_take, places]

theorem places_le : places ascii ≤ ascii.strlen := List.length_filterMap_le keep ascii.bytes

theorem length_typeLetters_le : (typeLetters assettype).length ≤ assettype.strlen := by
  rw [typeLetters, List.length_map]
  exact List.length_filter_le isAllowed assettype.bytes

/-- A type with other characters has fewer letters and digits. -/
theorem length_typeLetters_lt (h : ∃ b ∈ assettype.bytes, ¬ isAllowed b = true) :
    (typeLetters assettype).length < assettype.strlen := by
  rw [typeLetters, List.length_map]
  exact List.length_filter_lt_length_iff_exists.mpr h

/-- The loop leaves no room for the hyphen, which matters where it comes to its bound and the type
is written whole. -/
theorem strlen_nameOf_le (h : assettype.strlen ≤ 40)
    (hroom : places ascii < 40 - assettype.strlen ∨
      ∃ b ∈ assettype.bytes, ¬ isAllowed b = true) :
    (nameOf ascii assettype).strlen ≤ 40 := by
  have hletters : (typeLetters assettype).length ≤ assettype.strlen := length_typeLetters_le
  rw [strlen_nameOf]
  rcases hroom with hshort | hother
  · omega
  · have hfewer := length_typeLetters_lt hother
    omega

end

section

variable {iconvOpen : Iconv} {string : CString} {assettype : Option CString}

theorem icUtf8ToName_of_failed (h : icUtf8ToAscii iconvOpen string = none) :
    icUtf8ToName iconvOpen (some string) assettype = some (typeOrUnknown assettype) := by
  simp only [icUtf8ToName, h]

theorem icUtf8ToName_of_ascii {ascii : List UInt8}
    (h : icUtf8ToAscii iconvOpen string = some ascii)
    (hshort : (typeOrUnknown assettype).strlen ≤ 40) :
    icUtf8ToName iconvOpen (some string) assettype =
      some (nameOf (.ofMemory ascii) (typeOrUnknown assettype)) := by
  have hname : CString.ofMemory (writeName (.ofMemory ascii) (typeOrUnknown assettype)) =
      nameOf (.ofMemory ascii) (typeOrUnknown assettype) := by
    rw [writeName_eq hshort]
    exact CString.ofMemory_stored (s := nameOf _ _)
  have hne : (nameOf (.ofMemory ascii) (typeOrUnknown assettype)).strlen ≠ 0 := by
    rw [strlen_nameOf]
    omega
  simp only [icUtf8ToName, h, hname, if_neg hne]

theorem strlen_typeOrUnknown (h : ∀ text ∈ assettype, text.strlen ≤ 40) :
    (typeOrUnknown assettype).strlen ≤ 40 := by
  unfold typeOrUnknown
  cases assettype with
  | none => decide
  | some text =>
    show (if text.strlen = 0 then CString.ofAscii "unknown" else text).strlen ≤ 40
    split
    · decide
    · exact h text rfl

end

/-- The name of a text that is converted, and the type itself where the conversion fails. -/
theorem icUtf8ToName_limits (iconvOpen : Iconv) (string : CString) (assettype : Option CString)
    (h : ∀ text ∈ assettype, text.strlen ≤ 40) :
    (icUtf8ToAscii iconvOpen string = none →
      icUtf8ToName iconvOpen (some string) assettype = some (typeOrUnknown assettype)) ∧
    ∀ ascii, icUtf8ToAscii iconvOpen string = some ascii →
      ∃ name, icUtf8ToName iconvOpen (some string) assettype = some name ∧
        (∀ b ∈ name.bytes, isNameByte b) ∧
        [45] ++ typeLetters (typeOrUnknown assettype) <:+ name.bytes ∧
        (writeName (.ofMemory ascii) (typeOrUnknown assettype)).length ≤
          nameSize (.ofMemory ascii) (typeOrUnknown assettype) ∧
        ((places (.ofMemory ascii) < 40 - (typeOrUnknown assettype).strlen ∨
            ∃ b ∈ (typeOrUnknown assettype).bytes, ¬ isAllowed b = true) →
          name.strlen ≤ 40) := by
  have hshort := strlen_typeOrUnknown h
  refine ⟨icUtf8ToName_of_failed, ?_⟩
  intro ascii hascii
  refine ⟨nameOf (.ofMemory ascii) (typeOrUnknown assettype),
    icUtf8ToName_of_ascii hascii hshort, fun b hb ↦ isNameByte_of_mem hb,
    List.suffix_append _ _, ?_, strlen_nameOf_le hshort⟩
  have hplaces : places (.ofMemory ascii) ≤ (CString.ofMemory ascii).strlen := places_le
  have hletters : (typeLetters (typeOrUnknown assettype)).length ≤
      (typeOrUnknown assettype).strlen := length_typeLetters_le
  -- the name ends with its NUL
  have hwritten : (writeName (.ofMemory ascii) (typeOrUnknown assettype)).length =
      (nameOf (.ofMemory ascii) (typeOrUnknown assettype)).strlen + 1 := by
    rw [writeName_eq hshort]
    exact List.length_append
  rw [hwritten, strlen_nameOf, nameSize]
  omega

/-- A conversion that knows the characters of ASCII only. -/
def asciiOnly : Iconv := fun _ _ ↦
  some fun buf ↦ (buf.takeWhile fun b ↦ b < 128, buf.all fun b ↦ b < 128)

theorem icUtf8ToName_limits_ups :
    (icUtf8ToAscii asciiOnly (.ofAscii "Main UPS_1") = none →
      icUtf8ToName asciiOnly (some (.ofAscii "Main UPS_1")) (some (.ofAscii "ups")) =
        some (typeOrUnknown (some (.ofAscii "ups")))) ∧
    ∀ ascii, icUtf8ToAscii asciiOnly (.ofAscii "Main UPS_1") = some ascii →
      ∃ name, icUtf8ToName asciiOnly (some (.ofAscii "Main UPS_1")) (some (.ofAscii "ups")) =
          some name ∧
        (∀ b ∈ name.bytes, isNameByte b) ∧
        [45] ++ typeLetters (typeOrUnknown (some (.ofAscii "ups"))) <:+ name.bytes ∧
        (writeName (.ofMemory ascii) (typeOrUnknown (some (.ofAscii "ups")))).length ≤
          nameSize (.ofMemory ascii) (typeOrUnknown (some (.ofAscii "ups"))) ∧
        ((places (.ofMemory ascii) < 40 - (typeOrUnknown (some (.ofAscii "ups"))).strlen ∨
            ∃ b ∈ (typeOrUnknown (some (.ofAscii "ups"))).bytes, ¬ isAllowed b = true) →
          name.strlen ≤ 40) := by
  apply icUtf8ToName_limits
  intro text htext
  obtain rfl := Option.some.inj htext
  decide

/-- The type stands alone where the conversion fails; a long text leaves no room for the hyphen. -/
theorem name_limits_missed :
    (¬ ∀ (iconvOpen : Iconv) (string assettype name : CString), assettype.strlen ≤ 40 →
      icUtf8ToName iconvOpen (some string) (some assettype) = some name →
        [45] ++ typeLetters assettype <:+ name.bytes) ∧
    ¬ ∀ (iconvOpen : Iconv) (string assettype name : CString), assettype.strlen ≤ 40 →
      icUtf8ToName iconvOpen (some string) (some assettype) = some name → name.strlen ≤ 40 := by
  constructor
  · intro hsuffix
    have hups := hsuffix (fun _ _ ↦ none) (.ofAscii "Main") (.ofAscii "ups") (.ofAscii "ups")
      (by decide) (icUtf8ToName_of_failed icUtf8ToAscii_eq)
    exact absurd hups (by decide)
  · intro hlength
    let long : CString := .ofMemory (List.replicate 40 97)
    have hascii : icUtf8ToAscii asciiOnly long = some long.stored := icUtf8ToAscii_eq
    have hups := hlength asciiOnly long (.ofAscii "ups") _ (by decide)
      (icUtf8ToName_of_ascii hascii (by decide))
    rw [strlen_nameOf] at hups
    exact absurd hups (by decide)

end FtyRest.Shared
