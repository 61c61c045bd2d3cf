import Mathlib.Data.List.TakeWhile

/-!
# JSON texts

The grammar of JSON, over texts that are put together piece by piece.
-/

namespace JsonText

/-! ## Characters -/

def isBlank (c : Char) : Bool := c = ' ' || c = '\t' || c = '\n' || c = '\r'

def isHex (c : Char) : Bool :=
  c.isDigit || ('a' ≤ c && c ≤ 'f') || ('A' ≤ c && c ≤ 'F')

/-- What may stand between two quotes. -/
def isStringBody : List Char → Bool
  | [] => true
  | '"' :: _ => false
  | '\\' :: 'u' :: a :: b :: c :: d :: rest =>
      isHex a && isHex b && isHex c && isHex d && isStringBody rest
  | '\\' :: c :: rest =>
      ['"', '\\', '/', 'b', 'f', 'n', 'r', 't'].contains c && isStringBody rest
  | '\\' :: [] => false
  | c :: rest => 32 ≤ c.toNat && isStringBody rest

/-- Digits without a leading zero. -/
def isNatural (digits : List Char) : Bool :=
  digits = ['0'] || (digits ≠ [] && digits.all Char.isDigit && digits.head? ≠ some '0')

def isDigits (digits : List Char) : Bool := digits ≠ [] && digits.all Char.isDigit

/-- The part of a number from its exponent on. -/
def isExponent : List Char → Bool
  | [] => true
  | e :: '+' :: digits => (e = 'e' || e = 'E') && isDigits digits
  | e :: '-' :: digits => (e = 'e' || e = 'E') && isDigits digits
  | e :: digits => (e = 'e' || e = 'E') && isDigits digits

/-- A number without its sign. -/
def isUnsigned (text : List Char) : Bool :=
  isNatural (text.takeWhile Char.isDigit) &&
    match text.dropWhile Char.isDigit with
    | '.' :: rest =>
        isDigits (rest.takeWhile Char.isDigit) && isExponent (rest.dropWhile Char.isDigit)
    | rest => isExponent rest

def isNumber : List Char → Bool
  | '-' :: text => isUnsigned text
  | text => isUnsigned text

def Blank (text : String) : Prop := text.toList.all isBlank = true

instance (text : String) : Decidable (Blank text) := inferInstanceAs (Decidable (_ = _))

def StringBody (text : String) : Prop := isStringBody text.toList = true

instance (text : String) : Decidable (StringBody text) := inferInstanceAs (Decidable (_ = _))

def Number (text : String) : Prop := isNumber text.toList = true

instance (text : String) : Decidable (Number text) := inferInstanceAs (Decidable (_ = _))

/-! ## Texts -/

mutual

/-- The text of a value. -/
inductive Value : String → Prop where
  | null : Value "null"
  | true : Value "true"
  | false : Value "false"
  | number {text : String} : Number text → Value text
  | string {body : String} : StringBody body → Value ("\"" ++ body ++ "\"")
  | noItems {blank : String} : Blank blank → Value ("[" ++ blank ++ "]")
  | array {items : String} : Items items → Value ("[" ++ items ++ "]")
  | noMembers {blank : String} : Blank blank → Value ("\x7b" ++ blank ++ "\x7d")
  | object {members : String} : Members members → Value ("\x7b" ++ members ++ "\x7d")

/-- The text of one item or more, with commas between them. -/
inductive Items : String → Prop where
  | item {before value after : String} : Blank before → Value value → Blank after →
      Items (before ++ value ++ after)
  | append {items items' : String} : Items items → Items items' → Items (items ++ "," ++ items')

/-- The text of one member or more. -/
inductive Members : String → Prop where
  | member {before key afterKey beforeValue value after : String} : Blank before →
      StringBody key → Blank afterKey → Blank beforeValue → Value value → Blank after →
      Members (before ++ "\"" ++ key ++ "\"" ++ afterKey ++ ":" ++ beforeValue ++ value ++ after)
  | append {members members' : String} : Members members → Members members' →
      Members (members ++ "," ++ members')

end

/-- The text of an object. -/
def Object (text : String) : Prop :=
  ∃ members, text = "\x7b" ++ members ++ "\x7d" ∧ (Members members ∨ Blank members)

theorem Object.value {text : String} (h : Object text) : Value text := by
  obtain ⟨members, rfl, hmembers | hblank⟩ := h
  · exact .object hmembers
  · exact .noMembers hblank

/-! ## Pieces -/

section

variable {text blank items members : String}

theorem blank_append {a b : String} (ha : Blank a) (hb : Blank b) : Blank (a ++ b) := by
  unfold Blank at ha hb ⊢
  rw [String.toList_append, List.all_append, ha, hb]
  rfl

theorem Items.withBlank (hblank : Blank blank) : ∀ {items : String}, Items items →
    Items (items ++ blank)
  | _, .item hbefore hvalue hafter => by
    rw [String.append_assoc]
    exact .item hbefore hvalue (blank_append hafter hblank)
  | _, .append h h' => by
    rw [String.append_assoc]
    exact h.append (Items.withBlank hblank h')

theorem Items.afterBlank (hblank : Blank blank) : ∀ {items : String}, Items items →
    Items (blank ++ items)
  | _, .item hbefore hvalue hafter => by
    rw [String.append_assoc, ← String.append_assoc, ← String.append_assoc]
    exact .item (blank_append hblank hbefore) hvalue hafter
  | _, .append h h' => by
    rw [String.append_assoc, ← String.append_assoc, ← String.append_assoc]
    exact (Items.afterBlank hblank h).append h'

theorem Items.of_value (h : Value text) : Items text := by
  have hitem := Items.item (show Blank "" by decide) h (show Blank "" by decide)
  rwa [String.empty_append, String.append_empty] at hitem

theorem Members.withBlank (hblank : Blank blank) : ∀ {members : String}, Members members →
    Members (members ++ blank)
  | _, .member hbefore hkey hafterKey hbeforeValue hvalue hafter => by
    rw [String.append_assoc]
    exact .member hbefore hkey hafterKey hbeforeValue hvalue (blank_append hafter hblank)
  | _, .append h h' => by
    rw [String.append_assoc]
    exact h.append (Members.withBlank hblank h')

/-- What may stand behind the members of an object: more members, with the comma before them. -/
def Tail (text : String) : Prop :=
  text = "" ∨ ∃ blank members, Blank blank ∧ Members members ∧ text = blank ++ "," ++ members

theorem Members.tail (h : Members members) (htail : Tail text) : Members (members ++ text) := by
  rcases htail with rfl | ⟨blank, more, hblank, hmore, rfl⟩
  · rwa [String.append_empty]
  · rw [← String.append_assoc, ← String.append_assoc]
    exact (h.withBlank hblank).append hmore

theorem Tail.append {a b : String} (ha : Tail a) (hb : Tail b) : Tail (a ++ b) := by
  rcases ha with rfl | ⟨blank, members, hblank, hmembers, rfl⟩
  · rwa [String.empty_append]
  · refine Or.inr ⟨blank, members ++ b, hblank, hmembers.tail hb, ?_⟩
    rw [String.append_assoc]

theorem Tail.of_members (h : Members members) : Tail ("," ++ members) :=
  Or.inr ⟨"", members, by decide, h, by rw [String.empty_append]⟩

/-- Texts with commas between them. -/
def commaText : List String → String
  | [] => ""
  | [text] => text
  | text :: rest => text ++ "," ++ commaText rest

theorem commaText_cons {rest : List String} (h : rest ≠ []) :
    commaText (text :: rest) = text ++ "," ++ commaText rest := by
  cases rest with
  | nil => exact absurd rfl h
  | cons next rest => rfl

theorem commaText_concat {texts : List String} (h : texts ≠ []) :
    commaText (texts ++ [text]) = commaText texts ++ "," ++ text := by
  induction texts with
  | nil => exact absurd rfl h
  | cons first rest ih =>
    by_cases hrest : rest = []
    · subst hrest
      rfl
    · rw [List.cons_append, commaText_cons (by simp), ih hrest, commaText_cons hrest]
      simp only [String.append_assoc]

/-- A text with an item behind it; the flag tells whether the next item needs a comma. -/
def appendItem (json : String × Bool) (item : String) : String × Bool :=
  (json.1 ++ (if json.2 then "," else "") ++ item, true)

/-- The text and the flag after these items. -/
def itemsText (texts : List String) : String × Bool := (commaText texts, texts ≠ [])

theorem appendItem_itemsText (texts : List String) :
    appendItem (itemsText texts) text = itemsText (texts ++ [text]) := by
  unfold appendItem itemsText
  by_cases h : texts = []
  · subst h
    simp [commaText]
  · simp [h, commaText_concat h]

/-- The items with a comma behind each but the one whose number is the number of all; `count` is
what a counter holds of a number. -/
def countedText (count : Nat → Nat) (last : String) (items : List String) : String :=
  (items.zipIdx 1).foldl (fun json (item, i) ↦
    json ++ item ++ if count i = count items.length then last else ",") ""

theorem foldl_countedText {count : Nat → Nat} {last : String} {n : Nat}
    (hcount : ∀ i < n, 0 < i → count i ≠ count n) {items : List String} {k : Nat} {json : String}
    (hn : k + items.length = n) :
    (items.zipIdx (k + 1)).foldl (fun json (item, i) ↦
        json ++ item ++ if count i = count n then last else ",") json =
      json ++ (if items = [] then "" else commaText items ++ last) := by
  induction items generalizing k json with
  | nil => exact String.append_empty.symm
  | cons item rest ih =>
    rw [List.length_cons] at hn
    rw [List.zipIdx_cons, List.foldl_cons, ih (by omega), if_neg (List.cons_ne_nil item rest)]
    by_cases hrest : rest = []
    · subst hrest
      obtain rfl : k + 1 = n := hn
      dsimp only
      rw [if_pos rfl, if_pos rfl, String.append_empty, String.append_assoc]
      rfl
    · have hpos := List.length_pos_iff.mpr hrest
      dsimp only
      rw [if_neg hrest, if_neg (hcount (k + 1) (by omega) (by omega)), commaText_cons hrest]
      simp only [String.append_assoc]

/-- Whatever the counter holds, each item is there. -/
theorem mem_countedText {count : Nat → Nat} {last item : String} {items : List String}
    (hitem : item ∈ items) {c : Char} (hc : c ∈ item.toList) :
    c ∈ (countedText count last items).toList := by
  unfold countedText
  generalize items.length = n
  suffices hall : ∀ (json : String) (k : Nat), c ∈ json.toList ∨ item ∈ items →
      c ∈ ((items.zipIdx k).foldl (fun json (item, i) ↦
        json ++ item ++ if count i = count n then last else ",") json).toList from
    hall "" 1 (Or.inr hitem)
  clear hitem
  induction items with
  | nil => exact fun _ _ h ↦ h.elim id fun h ↦ absurd h List.not_mem_nil
  | cons first rest ih =>
    intro json k h
    rw [List.zipIdx_cons, List.foldl_cons]
    apply ih
    rcases h with h | h
    · exact Or.inl (by simp [h])
    · rcases List.mem_cons.mp h with rfl | h
      · exact Or.inl (by simp [hc])
      · exact Or.inr h

theorem countedText_eq {count : Nat → Nat} {last : String} {items : List String}
    (hcount : ∀ i < items.length, 0 < i → count i ≠ count items.length) :
    countedText count last items = if items = [] then "" else commaText items ++ last := by
  unfold countedText
  rw [foldl_countedText hcount (Nat.zero_add _), String.empty_append]

theorem items_commaText {values : List String} (hne : values ≠ [])
    (h : ∀ value ∈ values, Value value) : Items (commaText values) := by
  induction values with
  | nil => exact absurd rfl hne
  | cons value rest ih =>
    have hvalue := Items.of_value (h value List.mem_cons_self)
    by_cases hrest : rest = []
    · subst hrest
      exact hvalue
    · rw [commaText_cons hrest]
      exact hvalue.append (ih hrest fun v hv ↦ h v (List.mem_cons_of_mem value hv))

theorem members_commaText {texts : List String} (hne : texts ≠ [])
    (h : ∀ text ∈ texts, Members text) : Members (commaText texts) := by
  induction texts with
  | nil => exact absurd rfl hne
  | cons text rest ih =>
    have htext := h text List.mem_cons_self
    by_cases hrest : rest = []
    · subst hrest
      exact htext
    · rw [commaText_cons hrest]
      exact htext.append (ih hrest fun v hv ↦ h v (List.mem_cons_of_mem text hv))

/-- An array of values, which may have blanks behind the last one. -/
theorem value_countedText {count : Nat → Nat} {values : List String}
    (hcount : ∀ i < values.length, 0 < i → count i ≠ count values.length)
    (h : ∀ value ∈ values, Value value) (hblank : Blank blank) :
    Value ("[" ++ countedText count blank values ++ "]") := by
  rw [countedText_eq hcount]
  by_cases hne : values = []
  · rw [if_pos hne]
    exact .noItems (by decide)
  · rw [if_neg hne]
    exact .array ((items_commaText hne h).withBlank hblank)

theorem value_commaText {values : List String} (h : ∀ value ∈ values, Value value) :
    Value ("[" ++ commaText values ++ "]") := by
  by_cases hne : values = []
  · subst hne
    exact .noItems (by decide)
  · exact .array (items_commaText hne h)

theorem object_countedText {count : Nat → Nat} {texts : List String}
    (hcount : ∀ i < texts.length, 0 < i → count i ≠ count texts.length)
    (h : ∀ text ∈ texts, Members text) : Value ("\x7b" ++ countedText count "" texts ++ "\x7d") := by
  rw [countedText_eq hcount]
  by_cases hne : texts = []
  · rw [if_pos hne]
    exact .noMembers (by decide)
  · rw [if_neg hne, String.append_empty]
    exact .object (members_commaText hne h)

/-- A text that members may stand behind. -/
def Lead (text : String) : Prop := ∀ members, Members members → Members (text ++ members)

theorem Lead.append {a b : String} (ha : Lead a) (hb : Lead b) : Lead (a ++ b) := by
  intro members h
  rw [String.append_assoc]
  exact ha _ (hb _ h)

theorem Members.cons {member : String} (h : Members member) (hmore : Members members) :
    Members (member ++ ("," ++ members)) := by
  rw [← String.append_assoc]
  exact h.append hmore

theorem Members.lead (h : Members members) : Lead (members ++ ",") := fun _ hmore ↦ h.append hmore

theorem Value.empty_append (h : Value text) : Value ("" ++ text) := by
  rwa [String.empty_append]

/-- A member by the text that it begins with, up to the first character of the value. -/
theorem members_of_prefix {start first rest : String} (before key afterKey beforeValue : String)
    (hstart : start = before ++ "\"" ++ key ++ "\"" ++ afterKey ++ ":" ++ beforeValue ++ first)
    (hbefore : Blank before) (hkey : StringBody key) (hafterKey : Blank afterKey)
    (hbeforeValue : Blank beforeValue) (hvalue : Value (first ++ rest)) :
    Members (start ++ rest) := by
  have hmember := Members.member hbefore hkey hafterKey hbeforeValue hvalue
    (show Blank "" by decide)
  rw [String.append_empty, ← String.append_assoc, ← hstart] at hmember
  exact hmember

/-- The same for a key that is not part of the text. -/
theorem members_of_key {key start first rest : String} (afterKey beforeValue : String)
    (hstart : start = afterKey ++ ":" ++ beforeValue ++ first) (hkey : StringBody key)
    (hafterKey : Blank afterKey) (hbeforeValue : Blank beforeValue)
    (hvalue : Value (first ++ rest)) : Members ("\"" ++ key ++ "\"" ++ (start ++ rest)) := by
  have hmember := Members.member (show Blank "" by decide) hkey hafterKey hbeforeValue hvalue
    (show Blank "" by decide)
  rw [hstart]
  simpa only [String.append_assoc, String.empty_append, String.append_empty] using hmember

/-- The same for a member that comes after another one. -/
theorem tail_of_prefix {start first rest : String} (blank before key afterKey beforeValue : String)
    (hstart : start = blank ++ "," ++
      (before ++ "\"" ++ key ++ "\"" ++ afterKey ++ ":" ++ beforeValue ++ first))
    (hblank : Blank blank) (hbefore : Blank before) (hkey : StringBody key)
    (hafterKey : Blank afterKey) (hbeforeValue : Blank beforeValue)
    (hvalue : Value (first ++ rest)) : Tail (start ++ rest) := by
  have hmembers := members_of_prefix before key afterKey beforeValue rfl hbefore hkey hafterKey
    hbeforeValue hvalue
  refine Or.inr ⟨blank, _, hblank, hmembers, ?_⟩
  rw [hstart, String.append_assoc]

end

/-! ## Strings and numbers -/

section

variable {text : String}

/-- A character that stands for itself in a string. -/
def PlainChar (c : Char) : Prop := c ≠ '"' ∧ c ≠ '\\' ∧ 32 ≤ c.toNat

instance (c : Char) : Decidable (PlainChar c) := inferInstanceAs (Decidable (_ ∧ _))

theorem isStringBody_cons {c : Char} {rest : List Char} (hquote : c ≠ '"') (hslash : c ≠ '\\') :
    isStringBody (c :: rest) = (decide (32 ≤ c.toNat) && isStringBody rest) := by
  rw [isStringBody]
  · exact hquote
  · rintro a b c d rest' rfl
    exact absurd rfl hslash
  · rintro c rest' rfl
    exact absurd rfl hslash
  · rintro rfl
    exact absurd rfl hslash

theorem isStringBody_escape {c : Char} {rest : List Char}
    (hc : c ∈ ['"', '\\', '/', 'b', 'f', 'n', 'r', 't']) :
    isStringBody ('\\' :: c :: rest) = isStringBody rest := by
  rw [isStringBody, List.contains_iff_mem.mpr hc, Bool.true_and]
  rintro a b c d rest' rfl
  exact absurd hc (by decide)

/-- A body is empty, or there is a body behind its first character or escape. -/
theorem isStringBody_induction {P : List Char → Prop} (nil : P [])
    (unicode : ∀ c₁ c₂ c₃ c₄ rest, isHex c₁ = true → isHex c₂ = true → isHex c₃ = true →
      isHex c₄ = true → isStringBody rest = true → P rest →
        P ('\\' :: 'u' :: c₁ :: c₂ :: c₃ :: c₄ :: rest))
    (escape : ∀ c rest, c ∈ ['"', '\\', '/', 'b', 'f', 'n', 'r', 't'] → P rest →
      P ('\\' :: c :: rest))
    (plain : ∀ c rest, PlainChar c → P rest → P (c :: rest))
    {body : List Char} (h : isStringBody body = true) : P body := by
  induction body using isStringBody.induct with
  | case1 => exact nil
  | case2 rest => simp [isStringBody] at h
  | case3 c₁ c₂ c₃ c₄ rest ih =>
    simp only [isStringBody, Bool.and_eq_true] at h
    obtain ⟨⟨⟨⟨h₁, h₂⟩, h₃⟩, h₄⟩, hrest⟩ := h
    exact unicode c₁ c₂ c₃ c₄ rest h₁ h₂ h₃ h₄ hrest (ih hrest)
  | case4 c rest hunicode ih =>
    -- a `u` without four digits behind it is no escape
    have hc : c ≠ 'u' := by
      rintro rfl
      rw [isStringBody] at h
      · simp at h
      · exact hunicode
    rw [isStringBody, Bool.and_eq_true_iff] at h
    · exact escape c rest (List.contains_iff_mem.mp h.1) (ih h.2)
    · rintro a b c d rest' rfl
      exact absurd rfl hc
  | case5 => simp [isStringBody] at h
  | case6 c rest hquote _ hescape hslash ih =>
    have hc : c ≠ '\\' := by
      rintro rfl
      cases rest with
      | nil => exact hslash rfl rfl
      | cons d rest => exact hescape d rest rfl rfl
    rw [isStringBody_cons hquote hc, Bool.and_eq_true_iff] at h
    exact plain c rest ⟨hquote, hc, of_decide_eq_true h.1⟩ (ih h.2)

theorem isStringBody_append {a b : List Char} (ha : isStringBody a = true)
    (hb : isStringBody b = true) : isStringBody (a ++ b) = true := by
  refine isStringBody_induction (P := fun a ↦ isStringBody (a ++ b) = true) hb ?_ ?_ ?_ ha
  · intro c₁ c₂ c₃ c₄ rest h₁ h₂ h₃ h₄ _ ih
    simp only [List.cons_append, isStringBody, h₁, h₂, h₃, h₄, ih, Bool.and_true]
  · intro c rest hc ih
    rw [List.cons_append, List.cons_append, isStringBody_escape hc]
    exact ih
  · rintro c rest ⟨hquote, hslash, hcode⟩ ih
    rw [List.cons_append, isStringBody_cons hquote hslash, decide_eq_true hcode, ih]
    rfl

theorem StringBody.append {a b : String} (ha : StringBody a) (hb : StringBody b) :
    StringBody (a ++ b) := by
  unfold StringBody at ha hb ⊢
  rw [String.toList_append]
  exact isStringBody_append ha hb

/-- A string that is put together from a text and what is printed around it. -/
theorem value_string_around {first a b last : String} (hfirst : first = "\"" ++ a)
    (hlast : last = b ++ "\"") (h : StringBody (a ++ text ++ b)) :
    Value (first ++ (text ++ last)) := by
  have hvalue := Value.string h
  rw [hfirst, hlast]
  simpa only [String.append_assoc] using hvalue

theorem stringBody_plain (h : ∀ c ∈ text.toList, PlainChar c) :
    StringBody text := by
  unfold StringBody
  generalize text.toList = chars at h ⊢
  induction chars with
  | nil => rfl
  | cons c rest ih =>
    have ⟨hquote, hslash, hcode⟩ := h c List.mem_cons_self
    rw [isStringBody_cons hquote hslash, decide_eq_true hcode,
      ih fun c' hc' ↦ h c' (List.mem_cons_of_mem c hc')]
    rfl

theorem toDigits_head {n : Nat} (h : 0 < n) : (Nat.toDigits 10 n).head? ≠ some '0' := by
  induction n using Nat.strong_induction_on with
  | h n ih =>
    by_cases hlt : n < 10
    · rw [Nat.toDigits_of_lt_base hlt]
      have hdigits : ∀ d < 10, 0 < d → [Nat.digitChar d].head? ≠ some '0' := by decide
      exact hdigits n hlt h
    · have hge := Nat.not_lt.mp hlt
      have hhead := ih (n / 10) (by omega) (Nat.div_pos hge (by decide))
      rw [Nat.toDigits_of_base_le (by decide) hge]
      cases hdigits : Nat.toDigits 10 (n / 10) with
      | nil => exact absurd hdigits Nat.toDigits_ne_nil
      | cons digit digits =>
        rw [hdigits] at hhead
        exact hhead

theorem isNatural_toDigits (n : Nat) : isNatural (Nat.toDigits 10 n) = true := by
  unfold isNatural
  rcases Nat.eq_zero_or_pos n with rfl | hpos
  · rfl
  · have hdigits : (Nat.toDigits 10 n).all Char.isDigit = true :=
      List.all_eq_true.mpr fun c hc ↦ Nat.isDigit_of_mem_toDigits (by decide) (by decide) hc
    simp [Nat.toDigits_ne_nil, hdigits, toDigits_head hpos]

theorem isNumber_of_isUnsigned {text : List Char} (h : isUnsigned text = true) :
    isNumber text = true := by
  unfold isNumber
  split
  · -- a sign is no digit
    unfold isUnsigned at h
    rw [List.takeWhile_cons_of_neg (by decide)] at h
    cases h
  · exact h

theorem isNumber_of_isNatural {digits : List Char} (hall : digits.all Char.isDigit = true)
    (h : isNatural digits = true) : isNumber digits = true := by
  have hwhole : digits.takeWhile Char.isDigit = digits :=
    List.takeWhile_eq_self_iff.mpr (List.all_eq_true.mp hall)
  apply isNumber_of_isUnsigned
  unfold isUnsigned
  rw [hwhole, h, List.dropWhile_eq_nil_iff.mpr (List.all_eq_true.mp hall)]
  rfl

/-- A number with a fraction. -/
theorem isUnsigned_point {whole fraction : List Char} (hall : whole.all Char.isDigit = true)
    (hwhole : isNatural whole = true) (hfraction : isDigits fraction = true) :
    isUnsigned (whole ++ '.' :: fraction) = true := by
  have hdigits : ∀ c ∈ fraction, c.isDigit = true := by
    unfold isDigits at hfraction
    exact List.all_eq_true.mp ((Bool.and_eq_true _ _).mp hfraction).2
  unfold isUnsigned
  rw [List.takeWhile_append_of_pos (List.all_eq_true.mp hall),
    List.takeWhile_cons_of_neg (by decide), List.append_nil,
    List.dropWhile_append_of_pos (List.all_eq_true.mp hall),
    List.dropWhile_cons_of_neg (by decide), hwhole]
  show (true && (isDigits (fraction.takeWhile Char.isDigit) &&
    isExponent (fraction.dropWhile Char.isDigit))) = true
  rw [List.takeWhile_eq_self_iff.mpr hdigits, List.dropWhile_eq_nil_iff.mpr hdigits, hfraction]
  rfl

theorem number_toString (n : Nat) : Number (toString n) := by
  show isNumber (String.toList (Nat.repr n)) = true
  rw [Nat.repr, String.toList_ofList]
  apply isNumber_of_isNatural _ (isNatural_toDigits n)
  exact List.all_eq_true.mpr fun c hc ↦ Nat.isDigit_of_mem_toDigits (by decide) (by decide) hc

theorem plain_of_isDigit {c : Char} (h : c.isDigit = true) : PlainChar c := by
  have hcode : 48 ≤ c.toNat ∧ c.toNat ≤ 57 := by
    simpa [Char.isDigit, UInt32.le_iff_toNat_le] using h
  refine ⟨?_, ?_, by omega⟩
  · rintro rfl
    exact absurd hcode (by decide)
  · rintro rfl
    exact absurd hcode (by decide)

/-- A character as it is written in a string. -/
def escapeChar (c : Char) : String :=
  if c = '"' then "\\\""
  else if c = '\\' then "\\\\"
  else if 32 ≤ c.toNat then String.singleton c
  else "\\u00" ++ String.ofList [Nat.digitChar (c.toNat / 16), Nat.digitChar (c.toNat % 16)]

def escape (text : String) : String := text.toList.foldr (fun c rest ↦ escapeChar c ++ rest) ""

theorem stringBody_escapeChar (c : Char) : StringBody (escapeChar c) := by
  unfold escapeChar
  split_ifs with hquote hslash hcode
  · decide
  · decide
  · apply stringBody_plain
    intro c' hc'
    rw [String.toList_singleton, List.mem_singleton] at hc'
    subst hc'
    exact ⟨hquote, hslash, hcode⟩
  · have hcontrol : ∀ n < 32, StringBody
        ("\\u00" ++ String.ofList [Nat.digitChar (n / 16), Nat.digitChar (n % 16)]) := by decide
    exact hcontrol c.toNat (Nat.not_le.mp hcode)

theorem stringBody_escape (text : String) : StringBody (escape text) := by
  unfold escape
  induction text.toList with
  | nil => decide
  | cons c rest ih => exact (stringBody_escapeChar c).append ih

end

/-! ## Controls -/

/-- A character that may occur in a well-formed text. -/
def Printed (c : Char) : Prop := 32 ≤ c.toNat ∨ isBlank c = true

instance (c : Char) : Decidable (Printed c) := inferInstanceAs (Decidable (_ ∨ _))

def AllPrinted (text : List Char) : Prop := ∀ c ∈ text, Printed c

instance (text : List Char) : Decidable (AllPrinted text) :=
  List.decidableBAll (fun c ↦ Printed c) text

theorem allPrinted_nil : AllPrinted [] := fun _ h ↦ absurd h List.not_mem_nil

theorem AllPrinted.cons {c : Char} {text : List Char} (hc : Printed c) (h : AllPrinted text) :
    AllPrinted (c :: text) := by
  intro c' hc'
  rcases List.mem_cons.mp hc' with rfl | hc'
  · exact hc
  · exact h c' hc'

theorem AllPrinted.append {a b : List Char} (ha : AllPrinted a) (hb : AllPrinted b) :
    AllPrinted (a ++ b) := by
  intro c hc
  rcases List.mem_append.mp hc with hc | hc
  · exact ha c hc
  · exact hb c hc

theorem printed_of_isDigit {c : Char} (h : c.isDigit = true) : Printed c :=
  Or.inl (plain_of_isDigit h).2.2

theorem printed_of_isHex {c : Char} (h : isHex c = true) : Printed c := by
  unfold isHex at h
  rcases Bool.or_eq_true_iff.mp h with h | h
  · rcases Bool.or_eq_true_iff.mp h with h | h
    · exact printed_of_isDigit h
    · have hcode : 'a'.toNat ≤ c.toNat := of_decide_eq_true (Bool.and_eq_true_iff.mp h).1
      exact Or.inl (Nat.le_trans (by decide) hcode)
  · have hcode : 'A'.toNat ≤ c.toNat := of_decide_eq_true (Bool.and_eq_true_iff.mp h).1
    exact Or.inl (Nat.le_trans (by decide) hcode)

theorem allPrinted_of_blank {text : List Char} (h : text.all isBlank = true) : AllPrinted text :=
  fun c hc ↦ Or.inr (List.all_eq_true.mp h c hc)

theorem allPrinted_of_isStringBody {body : List Char} (h : isStringBody body = true) :
    AllPrinted body := by
  refine isStringBody_induction (P := AllPrinted) allPrinted_nil ?_ ?_ ?_ h
  · intro c₁ c₂ c₃ c₄ rest h₁ h₂ h₃ h₄ _ ih
    exact .cons (by decide) (.cons (by decide) (.cons (printed_of_isHex h₁)
      (.cons (printed_of_isHex h₂) (.cons (printed_of_isHex h₃)
        (.cons (printed_of_isHex h₄) ih)))))
  · intro c rest hc ih
    have hescapes : AllPrinted ['"', '\\', '/', 'b', 'f', 'n', 'r', 't'] := by decide
    exact .cons (by decide) (.cons (hescapes c hc) ih)
  · intro c rest hc ih
    exact .cons (Or.inl hc.2.2) ih

/-- A character that may occur in a number. -/
def NumberChar (c : Char) : Prop := c.isDigit = true ∨ c ∈ ['-', '+', '.', 'e', 'E']

instance (c : Char) : Decidable (NumberChar c) := inferInstanceAs (Decidable (_ ∨ _))

theorem numberChars_cons {c : Char} {text : List Char} (hc : NumberChar c)
    (h : ∀ c ∈ text, NumberChar c) : ∀ c' ∈ c :: text, NumberChar c' :=
  List.forall_mem_cons.mpr ⟨hc, h⟩

theorem numberChars_of_isDigits {digits : List Char} (h : isDigits digits = true) :
    ∀ c ∈ digits, NumberChar c :=
  fun c hc ↦ Or.inl (List.all_eq_true.mp (Bool.and_eq_true_iff.mp h).2 c hc)

theorem numberChars_of_isExponent {text : List Char} (h : isExponent text = true) :
    ∀ c ∈ text, NumberChar c := by
  have hmark : ∀ c, (decide (c = 'e') || decide (c = 'E')) = true → NumberChar c := by
    intro c hc
    rcases Bool.or_eq_true_iff.mp hc with hc | hc
    · rw [of_decide_eq_true hc]
      decide
    · rw [of_decide_eq_true hc]
      decide
  unfold isExponent at h
  split at h
  · exact fun _ hc ↦ absurd hc List.not_mem_nil
  · have ⟨he, hdigits⟩ := Bool.and_eq_true_iff.mp h
    exact numberChars_cons (hmark _ he)
      (numberChars_cons (by decide) (numberChars_of_isDigits hdigits))
  · have ⟨he, hdigits⟩ := Bool.and_eq_true_iff.mp h
    exact numberChars_cons (hmark _ he)
      (numberChars_cons (by decide) (numberChars_of_isDigits hdigits))
  · have ⟨he, hdigits⟩ := Bool.and_eq_true_iff.mp h
    exact numberChars_cons (hmark _ he) (numberChars_of_isDigits hdigits)

theorem numberChars_of_dropWhile {text : List Char}
    (h : ∀ c ∈ text.dropWhile Char.isDigit, NumberChar c) : ∀ c ∈ text, NumberChar c := by
  intro c hc
  rw [← text.takeWhile_append_dropWhile (p := Char.isDigit), List.mem_append] at hc
  rcases hc with hc | hc
  · exact Or.inl (List.mem_takeWhile_imp hc)
  · exact h c hc

theorem numberChars_of_isUnsigned {text : List Char} (h : isUnsigned text = true) :
    ∀ c ∈ text, NumberChar c := by
  have hrest := (Bool.and_eq_true_iff.mp h).2
  apply numberChars_of_dropWhile
  cases hdrop : text.dropWhile Char.isDigit with
  | nil => exact fun _ hc ↦ absurd hc List.not_mem_nil
  | cons c rest =>
    rw [hdrop] at hrest
    split at hrest
    · rename_i rest' heq
      obtain ⟨rfl, rfl⟩ := List.cons.inj heq
      have hexponent := (Bool.and_eq_true_iff.mp hrest).2
      exact numberChars_cons (by decide)
        (numberChars_of_dropWhile (numberChars_of_isExponent hexponent))
    · exact numberChars_of_isExponent hrest

theorem numberChars_of_isNumber {text : List Char} (h : isNumber text = true) :
    ∀ c ∈ text, NumberChar c := by
  unfold isNumber at h
  split at h
  · exact numberChars_cons (by decide) (numberChars_of_isUnsigned h)
  · exact numberChars_of_isUnsigned h

theorem allPrinted_of_isNumber {text : List Char} (h : isNumber text = true) :
    AllPrinted text := by
  intro c hc
  rcases numberChars_of_isNumber h c hc with hdigit | hmark
  · exact printed_of_isDigit hdigit
  · have hmarks : AllPrinted ['-', '+', '.', 'e', 'E'] := by decide
    exact hmarks c hmark

theorem allPrinted_append {a b : String} (ha : AllPrinted a.toList) (hb : AllPrinted b.toList) :
    AllPrinted (a ++ b).toList := by
  rw [String.toList_append]
  exact ha.append hb

theorem allPrinted_between {a text b : String} (ha : AllPrinted a.toList)
    (h : AllPrinted text.toList) (hb : AllPrinted b.toList) :
    AllPrinted (a ++ text ++ b).toList :=
  allPrinted_append (allPrinted_append ha h) hb

mutual

/-- A well-formed text has no control characters but its blanks. -/
theorem Value.printed : ∀ {text : String}, Value text → AllPrinted text.toList
  | _, .null => by decide
  | _, .true => by decide
  | _, .false => by decide
  | _, .number h => allPrinted_of_isNumber h
  | _, .string h =>
    allPrinted_between (by decide) (allPrinted_of_isStringBody h) (by decide)
  | _, .noItems h => allPrinted_between (by decide) (allPrinted_of_blank h) (by decide)
  | _, .array h => allPrinted_between (by decide) h.printed (by decide)
  | _, .noMembers h => allPrinted_between (by decide) (allPrinted_of_blank h) (by decide)
  | _, .object h => allPrinted_between (by decide) h.printed (by decide)

theorem Items.printed : ∀ {items : String}, Items items → AllPrinted items.toList
  | _, .item hbefore hvalue hafter =>
    allPrinted_between (allPrinted_of_blank hbefore) hvalue.printed (allPrinted_of_blank hafter)
  | _, .append h h' => allPrinted_append (allPrinted_append h.printed (by decide)) h'.printed

theorem Members.printed : ∀ {members : String}, Members members → AllPrinted members.toList
  | _, .member hbefore hkey hafterKey hbeforeValue hvalue hafter => by
    have hquoted := allPrinted_between (allPrinted_append (allPrinted_of_blank hbefore)
      (show AllPrinted "\"".toList by decide)) (allPrinted_of_isStringBody hkey)
      (show AllPrinted "\"".toList by decide)
    have hcolon := allPrinted_between hquoted (allPrinted_of_blank hafterKey)
      (show AllPrinted ":".toList by decide)
    exact allPrinted_append (allPrinted_between hcolon (allPrinted_of_blank hbeforeValue)
      hvalue.printed) (allPrinted_of_blank hafter)
  | _, .append h h' => allPrinted_append (allPrinted_append h.printed (by decide)) h'.printed

end

end JsonText
