import FtyRest.Lib.JsonText

/-!
# Commas in JSON texts

No well-formed text has a comma before a closing bracket.  A scan from left to right finds such
commas: outside of strings it remembers whether there are only blanks since the last comma.
-/

namespace JsonText

/-- Where a scan is. -/
inductive Place where
  | outside (comma : Bool)
  | inside
  | escaped
deriving DecidableEq, Repr

/-- `none` is a bracket that closes behind a comma. -/
def scanChar : Place → Char → Option Place
  | .outside comma, c =>
      if c = '"' then some .inside
      else if isBlank c then some (.outside comma)
      else if c = ',' then some (.outside true)
      else if c = ']' || c = '\x7d' then if comma then none else some (.outside false)
      else some (.outside false)
  | .inside, c =>
      if c = '"' then some (.outside false) else if c = '\\' then some .escaped else some .inside
  | .escaped, _ => some .inside

def scan (place : Place) (text : List Char) : Option Place := text.foldlM scanChar place

theorem scan_cons (place : Place) (c : Char) (text : List Char) :
    scan place (c :: text) = (scanChar place c).bind (scan · text) := rfl

theorem scan_append (place : Place) (a b : List Char) :
    scan place (a ++ b) = (scan place a).bind (scan · b) := by
  unfold scan
  rw [List.foldlM_append]
  rfl

theorem scan_of_append {place next : Place} {a b : List Char} (h : scan place a = some next) :
    scan place (a ++ b) = scan next b := by
  rw [scan_append, h, Option.bind_some]

theorem scan_blank {text : List Char} (h : text.all isBlank = true) (comma : Bool) :
    scan (.outside comma) text = some (.outside comma) := by
  induction text with
  | nil => rfl
  | cons c text ih =>
    rw [List.all_cons, Bool.and_eq_true_iff] at h
    have hquote : c ≠ '"' := by
      rintro rfl
      exact absurd h.1 (by decide)
    have hchar : scanChar (.outside comma) c = some (.outside comma) := by
      unfold scanChar
      dsimp only
      rw [if_neg hquote, if_pos h.1]
    rw [scan_cons, hchar, Option.bind_some, ih h.2]

theorem scanChar_inside {c : Char} (hquote : c ≠ '"') (hslash : c ≠ '\\') :
    scanChar .inside c = some .inside := by
  unfold scanChar
  dsimp only
  rw [if_neg hquote, if_neg hslash]

theorem scanChar_isHex {c : Char} (h : isHex c = true) : scanChar .inside c = some .inside := by
  apply scanChar_inside
  · rintro rfl
    exact absurd h (by decide)
  · rintro rfl
    exact absurd h (by decide)

/-- A string is left where its quote is. -/
theorem scan_isStringBody {body : List Char} (h : isStringBody body = true) :
    scan .inside body = some .inside := by
  have hescape : scanChar .inside '\\' = some .escaped := rfl
  refine isStringBody_induction (P := fun body ↦ scan .inside body = some .inside) rfl ?_ ?_ ?_ h
  · intro c₁ c₂ c₃ c₄ rest h₁ h₂ h₃ h₄ _ ih
    have hu : scanChar .escaped 'u' = some .inside := rfl
    rw [scan_cons, hescape, Option.bind_some, scan_cons, hu, Option.bind_some, scan_cons,
      scanChar_isHex h₁, Option.bind_some, scan_cons, scanChar_isHex h₂, Option.bind_some,
      scan_cons, scanChar_isHex h₃, Option.bind_some, scan_cons, scanChar_isHex h₄,
      Option.bind_some, ih]
  · intro c rest _ ih
    have hany : scanChar .escaped c = some .inside := rfl
    rw [scan_cons, hescape, Option.bind_some, scan_cons, hany, Option.bind_some, ih]
  · rintro c rest ⟨hquote, hslash, -⟩ ih
    rw [scan_cons, scanChar_inside hquote hslash, Option.bind_some, ih]

theorem NumberChar.ne {c other : Char} (h : NumberChar c) (hother : ¬ NumberChar other) :
    c ≠ other := by
  rintro rfl
  exact hother h

theorem scanChar_number {c : Char} (h : NumberChar c) (comma : Bool) :
    scanChar (.outside comma) c = some (.outside false) := by
  have hblank : isBlank c = false := by
    unfold isBlank
    rw [decide_eq_false (h.ne (by decide)), decide_eq_false (h.ne (by decide)),
      decide_eq_false (h.ne (by decide)), decide_eq_false (h.ne (by decide))]
    rfl
  have hclose : (decide (c = ']') || decide (c = '\x7d')) = false := by
    rw [decide_eq_false (h.ne (by decide)), decide_eq_false (h.ne (by decide))]
    rfl
  unfold scanChar
  dsimp only
  rw [if_neg (h.ne (by decide)), hblank, if_neg Bool.false_ne_true, if_neg (h.ne (by decide)),
    hclose, if_neg Bool.false_ne_true]

/-- Each character of a number is one that may stand behind a comma. -/
theorem scan_number {text : List Char} (hne : text ≠ []) (h : ∀ c ∈ text, NumberChar c)
    (comma : Bool) : scan (.outside comma) text = some (.outside false) := by
  induction text generalizing comma with
  | nil => exact absurd rfl hne
  | cons c text ih =>
    rw [List.forall_mem_cons] at h
    rw [scan_cons, scanChar_number h.1, Option.bind_some]
    by_cases htext : text = []
    · rw [htext]
      rfl
    · exact ih htext h.2 false

theorem ne_nil_of_isNumber {text : List Char} (h : isNumber text = true) : text ≠ [] := by
  rintro rfl
  cases h

/-- The scan of a text goes through, and ends without a comma. -/
def Closed (text : String) : Prop :=
  ∀ comma, scan (.outside comma) text.toList = some (.outside false)

theorem scan_string {before text after : String} {place middle next last : Place}
    (hbefore : scan place before.toList = some middle)
    (htext : scan middle text.toList = some next) (hafter : scan next after.toList = some last) :
    scan place (before ++ text ++ after).toList = some last := by
  rw [String.toList_append, String.toList_append, List.append_assoc, scan_of_append hbefore,
    scan_of_append htext, hafter]

theorem scan_string₂ {text after : String} {place next last : Place}
    (htext : scan place text.toList = some next) (hafter : scan next after.toList = some last) :
    scan place (text ++ after).toList = some last := by
  rw [String.toList_append, scan_of_append htext, hafter]

mutual

/-- No well-formed text has a comma before a closing bracket. -/
theorem Value.closed : ∀ {text : String}, Value text → Closed text
  | _, .null => fun comma ↦ by cases comma <;> rfl
  | _, .true => fun comma ↦ by cases comma <;> rfl
  | _, .false => fun comma ↦ by cases comma <;> rfl
  | _, .number h => fun comma ↦
    scan_number (ne_nil_of_isNumber h) (numberChars_of_isNumber h) comma
  | _, .string h => fun comma ↦
    scan_string (show scan (.outside comma) "\"".toList = some .inside from rfl)
      (scan_isStringBody h) rfl
  | _, .noItems h => fun comma ↦
    scan_string (show scan (.outside comma) "[".toList = some (.outside false) from rfl)
      (scan_blank h false) rfl
  | _, .array h => fun comma ↦
    scan_string (show scan (.outside comma) "[".toList = some (.outside false) from rfl)
      (h.closed false) rfl
  | _, .noMembers h => fun comma ↦
    scan_string (show scan (.outside comma) "\x7b".toList = some (.outside false) from rfl)
      (scan_blank h false) rfl
  | _, .object h => fun comma ↦
    scan_string (show scan (.outside comma) "\x7b".toList = some (.outside false) from rfl)
      (h.closed false) rfl

theorem Items.closed : ∀ {items : String}, Items items → Closed items
  | _, .item hbefore hvalue hafter => fun comma ↦
    scan_string (scan_blank hbefore comma) (hvalue.closed comma) (scan_blank hafter false)
  | _, .append h h' => fun comma ↦
    scan_string (h.closed comma) (show scan _ ",".toList = some (.outside true) from rfl)
      (h'.closed true)

theorem Members.closed : ∀ {members : String}, Members members → Closed members
  | _, .member hbefore hkey hafterKey hbeforeValue hvalue hafter => fun comma ↦ by
    have hquote := scan_string₂ (scan_blank hbefore comma)
      (show scan _ "\"".toList = some .inside from rfl)
    have hquoted := scan_string hquote (scan_isStringBody hkey)
      (show scan _ "\"".toList = some (.outside false) from rfl)
    have hcolon := scan_string hquoted (scan_blank hafterKey false)
      (show scan _ ":".toList = some (.outside false) from rfl)
    exact scan_string₂ (scan_string hcolon (scan_blank hbeforeValue false) (hvalue.closed false))
      (scan_blank hafter false)
  | _, .append h h' => fun comma ↦
    scan_string (h.closed comma) (show scan _ ",".toList = some (.outside true) from rfl)
      (h'.closed true)

end

end JsonText
