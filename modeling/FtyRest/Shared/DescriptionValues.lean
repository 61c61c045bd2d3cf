import FtyRest.Shared.UpdateDescription
import Mathlib.Data.List.Infix

/-!
# The values of a description

A description is read as the texts between its quotes.  The value of an `ename"` is the fourth text
behind it: separators, `value`, separators, and then the value itself, which a quote has to close.
-/

namespace FtyRest.Shared

def splitTexts (text : List Char) : List (List Char) := text.splitOn '"'

def joinTexts (texts : List (List Char)) : List Char := ['"'].intercalate texts

/-- The separators before a value, without its quote. -/
def isPlainSeparator (c : Char) : Bool := c = ':' || c = ' '

/-- Whether the texts before a quoted text, the nearest first, are those before a value. -/
def precedesValue : List (List Char) → Bool
  | separators' :: key :: separators :: text :: _ =>
      separators'.all isPlainSeparator && key = valueKey && separators.all isEnameSeparator &&
        ename.isSuffixOf text
  | _ => false

def replaceQuoted (externalName : List Char) :
    List (List Char) → List (List Char) → List (List Char)
  | _, [] => []
  | before, text :: texts =>
      (if precedesValue before then externalName else text) ::
        replaceQuoted externalName (text :: before) texts

/-- The last text has no quote behind it, so that it is no value. -/
def replaceTexts (externalName : List Char) (texts : List (List Char)) : List (List Char) :=
  replaceQuoted externalName [] texts.dropLast ++ [texts.getLastD []]

/-- What `updateDescription` is for: each value is the friendly name, and the rest is kept. -/
def replaceValues (externalName description : List Char) : List Char :=
  joinTexts (replaceTexts externalName (splitTexts description))

/-- An `ename"` with separators and `"value"`, and a quote in what is behind. -/
structure Segment (texts before : List (List Char)) (text separators : List Char)
    (behind : List (List Char)) : Prop where
  texts_eq : texts = before ++ text :: separators :: valueKey :: behind
  isSuffix : ename <:+ text
  isSeparator : ∀ c ∈ separators, isEnameSeparator c = true
  quote : 2 ≤ behind.length

/-- Behind `"value"` there is a quoted value that does not begin with a separator, and that is
empty only when its quote is the last one. -/
structure QuotedValue (behind : List (List Char)) (separators value : List Char)
    (rest : List (List Char)) : Prop where
  behind_eq : behind = separators :: value :: rest
  isPlain : ∀ c ∈ separators, isPlainSeparator c = true
  closed : rest ≠ []
  notPlain : ∀ c ∈ value.head?, isPlainSeparator c = false
  empty : value = [] → rest.length = 1

def WellSeparated (texts : List (List Char)) : Prop :=
  ∀ before text separators behind, Segment texts before text separators behind →
    ∃ separators' value rest, QuotedValue behind separators' value rest

/-! ## Splitting and joining -/

section

variable {text : List Char} {texts : List (List Char)}

theorem joinTexts_cons : joinTexts (text :: texts) = text ++ texts.flatMap ('"' :: ·) := by
  unfold joinTexts
  induction texts generalizing text with
  | nil => rw [List.intercalate_singleton, List.flatMap_nil, List.append_nil]
  | cons second texts ih =>
    rw [List.intercalate_cons_cons, ih, List.flatMap_cons, List.append_assoc]
    rfl

theorem joinTexts_append {texts' : List (List Char)} (h : texts ≠ []) (h' : texts' ≠ []) :
    joinTexts (texts ++ texts') = joinTexts texts ++ '"' :: joinTexts texts' := by
  obtain ⟨first, texts, rfl⟩ := List.exists_cons_of_ne_nil h
  obtain ⟨second, texts', rfl⟩ := List.exists_cons_of_ne_nil h'
  rw [List.cons_append, joinTexts_cons, joinTexts_cons, joinTexts_cons, List.flatMap_append,
    List.flatMap_cons, List.append_assoc, List.cons_append]

theorem joinTexts_singleton : joinTexts [text] = text := List.intercalate_singleton

theorem joinTexts_cons_of_ne (h : texts ≠ []) :
    joinTexts (text :: texts) = text ++ '"' :: joinTexts texts := by
  rw [← List.singleton_append, joinTexts_append (List.cons_ne_nil _ _) h, joinTexts_singleton]

theorem joinTexts_concat_nil (h : texts ≠ []) :
    joinTexts (texts ++ [[]]) = joinTexts texts ++ ['"'] :=
  joinTexts_append h (List.cons_ne_nil _ _)

theorem joinTexts_concat_append {e : List Char} :
    joinTexts (texts ++ [text ++ e]) = joinTexts (texts ++ [text]) ++ e := by
  cases texts with
  | nil => rw [List.nil_append, List.nil_append, joinTexts_singleton, joinTexts_singleton]
  | cons first texts =>
    rw [joinTexts_append (List.cons_ne_nil _ _) (List.cons_ne_nil _ _),
      joinTexts_append (List.cons_ne_nil _ _) (List.cons_ne_nil _ _), joinTexts_singleton,
      joinTexts_singleton, List.append_assoc, List.cons_append]

theorem quote_mem_joinTexts (h : 2 ≤ texts.length) : '"' ∈ joinTexts texts := by
  match texts, h with
  | first :: second :: texts, _ =>
    rw [joinTexts_cons_of_ne (List.cons_ne_nil _ _)]
    exact List.mem_append_right _ List.mem_cons_self

theorem joinTexts_splitTexts (text : List Char) : joinTexts (splitTexts text) = text :=
  List.intercalate_splitOn _

theorem splitTexts_ne_nil (text : List Char) : splitTexts text ≠ [] := List.splitOn_ne_nil _ _

theorem splitTexts_append {text' : List Char} :
    splitTexts (text ++ '"' :: text') = splitTexts text ++ splitTexts text' :=
  List.splitOn_append_cons_self _ _

theorem splitTexts_of_not_mem (h : '"' ∉ text) : splitTexts text = [text] :=
  List.splitOn_eq_singleton h

theorem not_mem_of_mem_splitTexts {part : List Char} (h : part ∈ splitTexts text) : '"' ∉ part := by
  unfold splitTexts at h
  induction text generalizing part with
  | nil =>
    rw [List.splitOn_nil, List.mem_singleton] at h
    rw [h]
    exact List.not_mem_nil
  | cons c text ih =>
    rw [List.splitOn_cons_eq_if_modifyHead] at h
    split at h
    · rcases List.mem_cons.mp h with rfl | h
      · exact List.not_mem_nil
      · exact ih h
    · rename_i hc
      obtain ⟨first, parts, heq⟩ := List.exists_cons_of_ne_nil (List.splitOn_ne_nil '"' text)
      rw [heq] at h ih
      -- a letter that is no quote goes to the first of the parts
      rcases List.mem_cons.mp h with rfl | h
      · intro hmem
        rcases List.mem_cons.mp hmem with hquote | hmem
        · exact hc (beq_iff_eq.mpr hquote.symm)
        · exact ih List.mem_cons_self hmem
      · exact ih (List.mem_cons_of_mem _ h)

/-- What has no quote belongs to the last text. -/
theorem exists_splitTexts_append (text : List Char) {e : List Char} (h : '"' ∉ e) : ∃ before last,
    splitTexts text = before ++ [last] ∧ splitTexts (text ++ e) = before ++ [last ++ e] := by
  obtain ⟨before, last, heq⟩ := (List.eq_nil_or_concat' _).resolve_left
    (splitTexts_ne_nil text)
  refine ⟨before, last, heq, ?_⟩
  have hnone : ∀ part ∈ before ++ [last ++ e], '"' ∉ part := by
    intro part hpart
    rcases List.mem_append.mp hpart with hbefore | hlast
    · exact not_mem_of_mem_splitTexts (heq ▸ List.mem_append_left _ hbefore)
    · rw [List.mem_singleton.mp hlast]
      have hnot : '"' ∉ last := not_mem_of_mem_splitTexts (heq ▸ List.mem_concat_self)
      exact fun hmem ↦ (List.mem_append.mp hmem).elim hnot h
  have hjoin : text ++ e = joinTexts (before ++ [last ++ e]) := by
    rw [joinTexts_concat_append, ← heq, joinTexts_splitTexts]
  rw [hjoin]
  exact List.splitOn_intercalate '"' hnone (List.concat_ne_nil _ _)

end

/-! ## Segments -/

section

variable {texts before behind : List (List Char)} {text separators : List Char}

theorem exists_mem_of_isSuffix (h : ename <:+ text) :
    ∃ c ∈ text, isEnameSeparator c = false ∧ isPlainSeparator c = false :=
  ⟨'m', h.subset (by decide), rfl, rfl⟩

theorem not_separators_of_isSuffix (h : ename <:+ text) :
    ¬ ∀ c ∈ text, isEnameSeparator c = true := by
  obtain ⟨c, hc, hno, -⟩ := exists_mem_of_isSuffix h
  intro hall
  rw [hall c hc] at hno
  cases hno

theorem not_plain_of_isSuffix (h : ename <:+ text) :
    ¬ ∀ c ∈ text, isPlainSeparator c = true := by
  obtain ⟨c, hc, -, hno⟩ := exists_mem_of_isSuffix h
  intro hall
  rw [hall c hc] at hno
  cases hno

theorem ne_valueKey_of_isSuffix (h : ename <:+ text) : text ≠ valueKey := by
  rintro rfl
  exact absurd h (by decide)

/-- Another segment cannot begin right before an `ename"`. -/
theorem exists_inner {before' behind' tail : List (List Char)} {text' separators' : List Char}
    (hsuffix : ename <:+ text) (hseparators : ∀ c ∈ separators', isEnameSeparator c = true)
    (heq : before ++ text :: tail = before' ++ text' :: separators' :: valueKey :: behind')
    (hlt : before'.length < before.length) :
    ∃ mid, before = before' ++ text' :: separators' :: valueKey :: mid ∧
      behind' = mid ++ text :: tail := by
  rcases List.append_eq_append_iff.mp heq with ⟨between, hbefore, -⟩ | ⟨between, rfl, hrest⟩
  · rw [hbefore, List.length_append] at hlt
    omega
  · -- by the texts in between: neither the separators nor the key can be the later `ename`
    match between, hrest with
    | [], _ =>
      rw [List.append_nil] at hlt
      omega
    | [_], hrest =>
      simp only [List.cons_append, List.nil_append, List.cons.injEq] at hrest
      rw [hrest.2.1] at hseparators
      exact absurd hseparators (not_separators_of_isSuffix hsuffix)
    | [_, _], hrest =>
      simp only [List.cons_append, List.nil_append, List.cons.injEq] at hrest
      exact absurd hrest.2.2.1.symm (ne_valueKey_of_isSuffix hsuffix)
    | _ :: _ :: _ :: mid, hrest =>
      simp only [List.cons_append, List.cons.injEq] at hrest
      obtain ⟨htext, hbetween, hkey, hbehind⟩ := hrest
      exact ⟨mid, by rw [htext, hbetween, hkey], hbehind⟩

/-- The value of a segment does not depend on what is behind a later `ename"`. -/
theorem QuotedValue.of_tail {mid tail tail' rest : List (List Char)} {separators' value : List Char}
    (hsuffix : ename <:+ text) (htail : tail ≠ []) (htail' : tail' ≠ [])
    (h : QuotedValue (mid ++ text :: tail) separators' value rest) :
    ∃ rest', QuotedValue (mid ++ text :: tail') separators' value rest' := by
  -- the separators and the value are in front of `text`, which ends in `ename`
  match mid, h.behind_eq with
  | [], hbehind =>
    obtain ⟨rfl, -⟩ := List.cons_eq_cons.mp hbehind
    exact absurd h.isPlain (not_plain_of_isSuffix hsuffix)
  | [_], hbehind =>
    obtain ⟨rfl, hrest⟩ := List.cons_eq_cons.mp hbehind
    obtain ⟨rfl, -⟩ := List.cons_eq_cons.mp hrest
    refine ⟨tail', rfl, h.isPlain, htail', h.notPlain, ?_⟩
    rintro rfl
    exact absurd hsuffix (by decide)
  | _ :: _ :: more, hbehind =>
    obtain ⟨rfl, hrest⟩ := List.cons_eq_cons.mp hbehind
    obtain ⟨rfl, rfl⟩ := List.cons_eq_cons.mp hrest
    refine ⟨more ++ text :: tail', rfl, h.isPlain, List.append_ne_nil_of_right_ne_nil _
      (List.cons_ne_nil _ _), h.notPlain, ?_⟩
    intro hempty
    have hlength := h.empty hempty
    have hpos := List.length_pos_of_ne_nil htail
    change (more ++ text :: tail).length = 1 at hlength
    rw [List.length_append, List.length_cons] at hlength
    omega

/-- The segment that the loop takes first. -/
structure LastSegment (texts before : List (List Char)) (text separators : List Char)
    (behind : List (List Char)) : Prop extends Segment texts before text separators behind where
  last : ∀ before' text' separators' behind', Segment texts before' text' separators' behind' →
    before'.length ≤ before.length

theorem LastSegment.inner_or_eq (h : LastSegment texts before text separators behind)
    {before' behind' : List (List Char)} {text' separators' : List Char}
    (h' : Segment texts before' text' separators' behind') : behind' = behind ∨
    ∃ mid, before = before' ++ text' :: separators' :: valueKey :: mid ∧
      behind' = mid ++ text :: separators :: valueKey :: behind := by
  have heq := h.texts_eq.symm.trans h'.texts_eq
  rcases Nat.lt_or_eq_of_le (h.last _ _ _ _ h') with hlt | hlength
  · exact .inr (exists_inner h.isSuffix h'.isSeparator heq hlt)
  · obtain ⟨-, heq⟩ := List.append_inj heq hlength.symm
    simp only [List.cons.injEq] at heq
    exact .inl heq.2.2.2.symm

/-- The loop leaves the texts up to the `ename"` of the last segment, and an empty one behind it. -/
theorem LastSegment.wellSeparated_iff (h : LastSegment texts before text separators behind) :
    WellSeparated texts ↔ WellSeparated (before ++ [text, []]) ∧
      ∃ separators' value rest, QuotedValue behind separators' value rest := by
  have hsuffix := h.isSuffix
  constructor
  · intro hall
    refine ⟨?_, hall _ _ _ _ h.toSegment⟩
    intro before' text' separators' behind' h'
    -- every segment of what the loop leaves is one of the texts, in front of the last one
    have hlt : before'.length < before.length := by
      have hlength := congrArg List.length h'.texts_eq
      have hquote := h'.quote
      simp only [List.length_append, List.length_cons, List.length_nil] at hlength
      omega
    obtain ⟨mid, hbefore, rfl⟩ := exists_inner hsuffix h'.isSeparator h'.texts_eq hlt
    have hsegment : Segment texts before' text' separators'
        (mid ++ text :: separators :: valueKey :: behind) := by
      refine ⟨?_, h'.isSuffix, h'.isSeparator, ?_⟩
      · rw [h.texts_eq, hbefore]
        simp only [List.append_assoc, List.cons_append]
      · simp only [List.length_append, List.length_cons]
        omega
    obtain ⟨separators₁, value, rest, hvalue⟩ := hall _ _ _ _ hsegment
    obtain ⟨rest', hvalue'⟩ := hvalue.of_tail hsuffix (List.cons_ne_nil _ _)
      (List.cons_ne_nil [] [])
    exact ⟨separators₁, value, rest', hvalue'⟩
  · rintro ⟨hfirst, hlast⟩ before' text' separators' behind' h'
    rcases h.inner_or_eq h' with rfl | ⟨mid, hbefore, rfl⟩
    · exact hlast
    · have hsegment : Segment (before ++ [text, []]) before' text' separators'
          (mid ++ text :: [[]]) := by
        refine ⟨?_, h'.isSuffix, h'.isSeparator, ?_⟩
        · rw [hbefore]
          simp only [List.append_assoc, List.cons_append]
        · simp only [List.length_append, List.length_cons, List.length_nil]
          omega
      obtain ⟨separators₁, value, rest, hvalue⟩ := hfirst _ _ _ _ hsegment
      obtain ⟨rest', hvalue'⟩ := hvalue.of_tail hsuffix (List.cons_ne_nil _ _)
        (List.cons_ne_nil separators (valueKey :: behind))
      exact ⟨separators₁, value, rest', hvalue'⟩

end

/-! ## What is replaced -/

section

variable {externalName : List Char} {texts texts' before post : List (List Char)}
  {text separators x y : List Char}

theorem replaceQuoted_append (texts : List (List Char)) :
    replaceQuoted externalName before (texts ++ texts') =
      replaceQuoted externalName before texts ++
        replaceQuoted externalName (texts.reverse ++ before) texts' := by
  induction texts generalizing before with
  | nil => rfl
  | cons first texts ih =>
    rw [List.cons_append, replaceQuoted, replaceQuoted, ih, List.reverse_cons, List.append_assoc]
    rfl

theorem replaceQuoted_eq_self (h : ∀ pre part rest, texts = pre ++ part :: rest →
    precedesValue (pre.reverse ++ before) = false) :
    replaceQuoted externalName before texts = texts := by
  induction texts generalizing before with
  | nil => rfl
  | cons first texts ih =>
    have hfirst := h [] first texts rfl
    rw [List.reverse_nil, List.nil_append] at hfirst
    rw [replaceQuoted, hfirst, if_neg Bool.false_ne_true, ih]
    rintro pre part rest rfl
    have hpart := h (first :: pre) part rest rfl
    rwa [List.reverse_cons, List.append_assoc] at hpart

theorem replaceTexts_concat : replaceTexts externalName (texts ++ [text]) =
    replaceQuoted externalName [] texts ++ [text] := by
  unfold replaceTexts
  rw [List.dropLast_concat, List.getLastD_concat]

theorem precedesValue_cons : precedesValue (x :: valueKey :: separators :: text :: before) =
    (x.all isPlainSeparator && separators.all isEnameSeparator && ename.isSuffixOf text) := by
  simp [precedesValue]

theorem precedesValue_of_not_plain (h : ¬ ∀ c ∈ x, isPlainSeparator c = true) :
    precedesValue (x :: before) = false := by
  rw [← List.all_eq_true, Bool.not_eq_true] at h
  match before with
  | [] | [_] | [_, _] => rfl
  | _ :: _ :: _ :: _ => simp [precedesValue, h]

theorem precedesValue_of_ne (h : y ≠ valueKey) : precedesValue (x :: y :: before) = false := by
  match before with
  | [] | [_] => rfl
  | _ :: _ :: _ => simp [precedesValue, h]

/-- What precedes a value is a segment. -/
theorem segment_of_precedesValue (y : List Char) (texts : List (List Char))
    {pre : List (List Char)} (h : precedesValue pre.reverse = true) :
    ∃ before text separators behind, pre.length = before.length + 4 ∧
      Segment (pre ++ y :: texts) before text separators behind := by
  rcases hpre : pre.reverse with _ | ⟨x, _ | ⟨key, _ | ⟨separators, _ | ⟨text, before⟩⟩⟩⟩ <;>
    rw [hpre] at h
  case cons.cons.cons.cons =>
    simp only [precedesValue, Bool.and_eq_true, decide_eq_true_eq, List.all_eq_true,
      List.isSuffixOf_iff_suffix] at h
    obtain ⟨⟨⟨-, rfl⟩, hseparators⟩, hsuffix⟩ := h
    rw [List.reverse_eq_iff] at hpre
    refine ⟨before.reverse, text, separators, x :: y :: texts, ?_, ?_, hsuffix, hseparators, ?_⟩
    · rw [hpre]
      simp
    · rw [hpre]
      simp
    · simp only [List.length_cons]
      omega
  all_goals cases h

/-- Without a segment nothing is replaced. -/
theorem replaceTexts_of_none (hne : texts ≠ [])
    (h : ∀ before text separators behind, ¬ Segment texts before text separators behind) :
    replaceTexts externalName texts = texts := by
  obtain ⟨front, last, rfl⟩ := (List.eq_nil_or_concat' texts).resolve_left hne
  rw [replaceTexts_concat, replaceQuoted_eq_self]
  rintro pre part rest rfl
  rw [List.append_nil, ← Bool.not_eq_true]
  intro hvalue
  obtain ⟨before, text, separators, behind, -, hsegment⟩ :=
    segment_of_precedesValue part (rest ++ [last]) hvalue
  rw [List.append_assoc, List.cons_append] at h
  exact h _ _ _ _ hsegment

/-- The key and the separators of a segment are kept. -/
theorem replaceQuoted_segment (hsuffix : ename <:+ text) :
    replaceQuoted externalName (text :: before) (separators :: valueKey :: x :: texts) =
      separators :: valueKey :: x ::
        replaceQuoted externalName (x :: valueKey :: separators :: text :: before) texts := by
  have hkey : ¬ ∀ c ∈ valueKey, isPlainSeparator c = true := by
    intro hall
    exact absurd (hall 'v' List.mem_cons_self) (by decide)
  -- none of the three follows a value: each would need blanks or the key in its place
  rw [replaceQuoted, replaceQuoted, replaceQuoted,
    precedesValue_of_not_plain (not_plain_of_isSuffix hsuffix),
    precedesValue_of_ne (ne_valueKey_of_isSuffix hsuffix), precedesValue_of_not_plain hkey]
  simp only [Bool.false_eq_true, if_false]

/-- Behind the value of the last segment nothing is replaced. -/
theorem LastSegment.replaceTexts_eq
    (h : LastSegment texts before text separators (x :: y :: post)) :
    replaceTexts externalName texts = replaceQuoted externalName [] (before ++ [text]) ++
      separators :: valueKey :: x ::
        (if post ≠ [] ∧ x.all isPlainSeparator = true then externalName else y) :: post := by
  have hsuffix := h.isSuffix
  have htexts := h.texts_eq
  rcases List.eq_nil_or_concat' post with rfl | ⟨mid, last, rfl⟩
  · have hfront : texts = (before ++ [text] ++ [separators, valueKey, x]) ++ [y] := by
      rw [htexts]
      simp
    rw [hfront, replaceTexts_concat, replaceQuoted_append (before ++ [text]),
      List.reverse_append, List.reverse_singleton, List.append_nil, List.singleton_append,
      replaceQuoted_segment hsuffix, if_neg fun hpost ↦ hpost.1 rfl]
    simp [replaceQuoted]
  · have hfront :
        texts = (before ++ [text] ++ separators :: valueKey :: x :: y :: mid) ++ [last] := by
      rw [htexts]
      simp
    -- a value in between would belong to a later segment
    have hmid : replaceQuoted externalName
        (y :: x :: valueKey :: separators :: text :: before.reverse) mid = mid := by
      apply replaceQuoted_eq_self
      rintro pre part rest rfl
      rw [← Bool.not_eq_true]
      intro hvalue
      have hpre : pre.reverse ++ y :: x :: valueKey :: separators :: text :: before.reverse =
          (before ++ text :: separators :: valueKey :: x :: y :: pre).reverse := by simp
      rw [hpre] at hvalue
      obtain ⟨before', text', separators', behind', hlength, hsegment⟩ :=
        segment_of_precedesValue part (rest ++ [last]) hvalue
      have hle := h.last before' text' separators' behind' (by
        rw [htexts]
        simpa using hsegment)
      simp only [List.length_append, List.length_cons] at hlength
      omega
    have hseparators : separators.all isEnameSeparator = true :=
      List.all_eq_true.mpr h.isSeparator
    have hvalue : precedesValue (x :: valueKey :: separators :: text :: before.reverse) =
        x.all isPlainSeparator := by
      rw [precedesValue_cons, hseparators, List.isSuffixOf_iff_suffix.mpr hsuffix, Bool.and_true,
        Bool.and_true]
    have hpost : mid ++ [last] ≠ [] := List.concat_ne_nil _ _
    rw [hfront, replaceTexts_concat, replaceQuoted_append (before ++ [text]),
      List.reverse_append, List.reverse_singleton, List.append_nil, List.singleton_append,
      replaceQuoted_segment hsuffix, replaceQuoted, hmid, hvalue]
    simp

theorem replaceQuoted_ne_nil (h : texts ≠ []) : replaceQuoted externalName before texts ≠ [] := by
  obtain ⟨first, texts, rfl⟩ := List.exists_cons_of_ne_nil h
  exact List.cons_ne_nil _ _

variable {description cut : List Char}

theorem replaceValues_of_none (h : ∀ before text separators behind,
    ¬ Segment (splitTexts description) before text separators behind) :
    replaceValues externalName description = description := by
  unfold replaceValues
  rw [replaceTexts_of_none (splitTexts_ne_nil _) h, joinTexts_splitTexts]

/-- The values in front of the last segment are replaced where the loop goes on. -/
theorem LastSegment.replaceValues_eq
    (h : LastSegment (splitTexts description) before text separators (x :: y :: post))
    (hcut : splitTexts cut = before ++ [text, []]) :
    replaceValues externalName description = replaceValues externalName cut ++
      (separators ++ '"' :: (valueKey ++ '"' :: joinTexts (x ::
        (if post ≠ [] ∧ x.all isPlainSeparator = true then externalName else y) ::
          post))) := by
  have hfront : before ++ [text, []] = (before ++ [text]) ++ [[]] := by simp
  have hne : replaceQuoted externalName [] (before ++ [text]) ≠ [] :=
    replaceQuoted_ne_nil (List.concat_ne_nil _ _)
  unfold replaceValues
  rw [h.replaceTexts_eq, hcut, hfront, replaceTexts_concat, joinTexts_concat_nil hne,
    joinTexts_append hne (List.cons_ne_nil _ _), joinTexts_cons_of_ne (List.cons_ne_nil _ _),
    joinTexts_cons_of_ne (List.cons_ne_nil _ _), List.append_assoc, List.singleton_append]

end

end FtyRest.Shared
