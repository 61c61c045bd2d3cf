import FtyRest.Shared.DescriptionValues

/-!
# What `updateDescription` replaces

A match takes the last segment of the search, and the separators that it takes run over the quote
of the value: over the whole of an empty value, and into one that begins with a separator.
-/

namespace FtyRest.Shared

open GreedyPattern

/-! ## Matches and segments -/

section

variable {description u separators rest : List Char}

theorem not_mem_ename : '"' ∉ ename := by decide

theorem quote_not_mem_of_isSeparator (h : ∀ c ∈ separators, isEnameSeparator c = true) :
    '"' ∉ separators := by
  intro hmem
  exact absurd (h _ hmem) (by decide)

theorem two_le_length_splitTexts (h : '"' ∈ rest) : 2 ≤ (splitTexts rest).length := by
  obtain ⟨front, behind, rfl⟩ := List.append_of_mem h
  have hfront := List.length_pos_of_ne_nil (splitTexts_ne_nil front)
  have hbehind := List.length_pos_of_ne_nil (splitTexts_ne_nil behind)
  rw [splitTexts_append, List.length_append]
  omega

theorem Anchor.segment (h : Anchor description u separators rest) :
    ∃ before text, splitTexts (u ++ ename) = before ++ [text] ∧
      Segment (splitTexts description) before text separators (splitTexts rest) := by
  obtain ⟨before, last, -, hsplit⟩ := exists_splitTexts_append u not_mem_ename
  have hkey : '"' ∉ valueKey := by decide
  refine ⟨before, last ++ ename, hsplit, ?_, List.suffix_append _ _, h.isSeparator,
    two_le_length_splitTexts h.quote⟩
  rw [h.text_eq, splitTexts_append, splitTexts_append, splitTexts_append, hsplit,
    splitTexts_of_not_mem (quote_not_mem_of_isSeparator h.isSeparator), splitTexts_of_not_mem hkey,
    List.append_assoc]
  rfl

theorem Segment.anchor {before behind : List (List Char)} {text : List Char}
    (h : Segment (splitTexts description) before text separators behind) :
    ∃ u, u ++ ename = joinTexts (before ++ [text]) ∧
      Anchor description u separators (joinTexts behind) := by
  obtain ⟨front, rfl⟩ := h.isSuffix
  refine ⟨joinTexts (before ++ [front]), joinTexts_concat_append.symm, ?_, h.isSeparator,
    quote_mem_joinTexts h.quote⟩
  have hne : behind ≠ [] := by
    rintro rfl
    exact absurd h.quote (by decide)
  have htexts : splitTexts description =
      (before ++ [front ++ ename]) ++ separators :: valueKey :: behind := by
    rw [h.texts_eq, List.append_assoc, List.singleton_append]
  rw [← joinTexts_splitTexts description, htexts,
    joinTexts_append (List.concat_ne_nil _ _) (List.cons_ne_nil _ _),
    joinTexts_cons_of_ne (List.cons_ne_nil _ _), joinTexts_cons_of_ne hne, joinTexts_concat_append]

/-- An `ename"` that is no further behind has no more texts before it. -/
theorem length_le_of_joinTexts {before before' tail tail' : List (List Char)}
    {text text' : List Char} (heq : before ++ text :: tail = before' ++ text' :: tail')
    (hle : (joinTexts (before' ++ [text'])).length ≤ (joinTexts (before ++ [text])).length) :
    before'.length ≤ before.length := by
  rcases List.append_eq_append_iff.mp heq with ⟨more, rfl, hmore⟩ | ⟨more, rfl, -⟩
  · match more, hmore with
    | [], _ => rw [List.append_nil]
    | _ :: more, hmore =>
      obtain ⟨rfl, -⟩ := List.cons_eq_cons.mp hmore
      have hfront :
          before ++ text :: more ++ [text'] = (before ++ [text]) ++ (more ++ [text']) := by
        simp
      rw [hfront, joinTexts_append (List.concat_ne_nil _ _) (List.concat_ne_nil _ _),
        List.length_append, List.length_cons] at hle
      omega
  · rw [List.length_append]
    omega

theorem Match.anchor {run quoted : List Char}
    (h : Match description u separators run quoted rest) :
    Anchor description u separators (run ++ (quoted ++ '"' :: rest)) :=
  ⟨h.text_eq, h.isSeparator, List.mem_append_right _ (List.mem_append_right _ List.mem_cons_self)⟩

theorem Match.lastSegment {run quoted : List Char}
    (h : Match description u separators run quoted rest) (hline : IsLine description) :
    ∃ before text, splitTexts (u ++ ename ++ ['"']) = before ++ [text, []] ∧
      LastSegment (splitTexts description) before text separators
        (splitTexts (run ++ (quoted ++ '"' :: rest))) := by
  obtain ⟨before, text, hsplit, hsegment⟩ := h.anchor.segment
  refine ⟨before, text, ?_, hsegment, ?_⟩
  · rw [splitTexts_append, hsplit, List.append_assoc]
    rfl
  · intro before' text' separators' behind' hsegment'
    obtain ⟨u', hjoin, hanchor⟩ := hsegment'.anchor
    have hle := h.last hline _ _ _ hanchor
    apply length_le_of_joinTexts (hsegment.texts_eq.symm.trans hsegment'.texts_eq)
    rw [← hjoin, ← hsplit, joinTexts_splitTexts, List.length_append, List.length_append]
    omega

end

/-! ## The separators of a match -/

/-- The separators are taken as far as a quote is left behind them. -/
structure GreedyRun (run quoted rest : List Char) : Prop where
  isRun : ∀ c ∈ run, isValueSeparator c = true
  noQuote : '"' ∉ quoted
  greedy : ∀ run' rest', run ++ (quoted ++ '"' :: rest) = run' ++ rest' →
    (∀ c ∈ run', isValueSeparator c = true) → '"' ∈ rest' → run'.length ≤ run.length

theorem Match.greedyRun {description u separators run quoted rest : List Char}
    (h : Match description u separators run quoted rest) (hline : IsLine description) :
    GreedyRun run quoted rest := ⟨h.isRun, h.noQuote, h.greedy hline⟩

section

variable {run quoted rest x y : List Char} {post : List (List Char)}

theorem isValueSeparator_of_isPlain {c : Char} (h : isPlainSeparator c = true) :
    isValueSeparator c = true := by
  simp only [isPlainSeparator, isValueSeparator, Bool.or_eq_true, decide_eq_true_eq] at h ⊢
  exact h.imp_left .inl

theorem isPlain_or_quote {c : Char} (h : isValueSeparator c = true) :
    isPlainSeparator c = true ∨ c = '"' := by
  simp only [isPlainSeparator, isValueSeparator, Bool.or_eq_true, decide_eq_true_eq] at h ⊢
  rcases h with (h | h) | h
  · exact .inl (.inl h)
  · exact .inr h
  · exact .inl (.inr h)

/-- A text splits at its first quote in one way. -/
theorem eq_of_first_quote {a b c d : List Char} (ha : '"' ∉ a) (hc : '"' ∉ c)
    (h : a ++ '"' :: b = c ++ '"' :: d) : a = c ∧ b = d := by
  have hsplit := congrArg splitTexts h
  rw [splitTexts_append, splitTexts_append, splitTexts_of_not_mem ha, splitTexts_of_not_mem hc]
    at hsplit
  obtain ⟨rfl, -⟩ := List.cons_eq_cons.mp hsplit
  exact ⟨rfl, (List.cons_eq_cons.mp (List.append_cancel_left h)).2⟩

theorem isValueSeparator_concat (hplain : ∀ c ∈ x, isPlainSeparator c = true) {c : Char}
    (hc : c ∈ x ++ ['"']) : isValueSeparator c = true := by
  rcases List.mem_append.mp hc with hc | hc
  · exact isValueSeparator_of_isPlain (hplain c hc)
  · rw [List.mem_singleton.mp hc]
    rfl

/-- The text behind `"value"`, up to the quote of the value and to the one that closes it. -/
theorem text_of_splitTexts {text : List Char} (h : splitTexts text = x :: y :: post)
    (hpost : post ≠ []) : text = x ++ ['"'] ++ (y ++ '"' :: joinTexts post) := by
  rw [← joinTexts_splitTexts text, h, joinTexts_cons_of_ne (List.cons_ne_nil _ _),
    joinTexts_cons_of_ne hpost, List.append_assoc, List.singleton_append]

/-- A well separated value is what the match finds. -/
theorem GreedyRun.of_quotedValue (h : GreedyRun run quoted rest)
    (hsplit : splitTexts (run ++ (quoted ++ '"' :: rest)) = x :: y :: post)
    (hvalue : QuotedValue (x :: y :: post) x y post) :
    run = x ++ ['"'] ∧ quoted = y ∧ rest = joinTexts post := by
  have hy : '"' ∉ y :=
    not_mem_of_mem_splitTexts (hsplit ▸ List.mem_cons_of_mem _ List.mem_cons_self)
  have htext := text_of_splitTexts hsplit hvalue.closed
  have hle := h.greedy (x ++ ['"']) (y ++ '"' :: joinTexts post) htext
    (fun c ↦ isValueSeparator_concat hvalue.isPlain)
    (List.mem_append_right _ List.mem_cons_self)
  obtain ⟨r, rfl, hrest⟩ : ∃ r, run = x ++ ['"'] ++ r ∧
      y ++ '"' :: joinTexts post = r ++ (quoted ++ '"' :: rest) := by
    rcases List.append_eq_append_iff.mp htext with ⟨r, hrun, hrest⟩ | h
    · rw [hrun, List.length_append] at hle
      have hnil : r = [] := List.eq_nil_of_length_eq_zero (by omega)
      rw [hnil, List.append_nil] at hrun
      rw [hnil, List.nil_append] at hrest
      exact ⟨[], by rw [hrun, List.append_nil], hrest.symm⟩
    · exact h
  cases r with
  | nil =>
    obtain ⟨hquoted, hjoin⟩ := eq_of_first_quote hy h.noQuote hrest
    exact ⟨List.append_nil _, hquoted.symm, hjoin.symm⟩
  | cons c r =>
    -- a longer run begins in the value, or at the quote that closes an empty one
    have hc := h.isRun c (List.mem_append_right _ List.mem_cons_self)
    cases y with
    | nil =>
      obtain ⟨p, rfl⟩ := List.length_eq_one_iff.mp (hvalue.empty rfl)
      rw [joinTexts_singleton] at hrest
      obtain ⟨-, hp⟩ := List.cons_eq_cons.mp hrest
      have hquote : '"' ∈ p := by
        rw [hp]
        exact List.mem_append_right _ (List.mem_append_right _ List.mem_cons_self)
      have hlast : p ∈ [x, [], p] := List.mem_of_getLast? rfl
      rw [← hsplit] at hlast
      exact absurd hquote (not_mem_of_mem_splitTexts hlast)
    | cons d y =>
      obtain ⟨rfl, -⟩ := List.cons_eq_cons.mp hrest
      rcases isPlain_or_quote hc with hplain | rfl
      · rw [hvalue.notPlain d rfl] at hplain
        cases hplain
      · exact absurd List.mem_cons_self hy

/-- A match that finds the value in its quotes has found a well separated one. -/
theorem GreedyRun.quotedValue (h : GreedyRun (x ++ ['"']) y (joinTexts post))
    (hplain : ∀ c ∈ x, isPlainSeparator c = true) (hpost : post ≠ []) :
    QuotedValue (x :: y :: post) x y post := by
  refine ⟨rfl, hplain, hpost, ?_, ?_⟩
  · -- a separator behind the quote would have been taken into the run
    intro c hc
    obtain ⟨y, rfl⟩ := List.head?_eq_some_iff.mp hc
    rw [← Bool.not_eq_true]
    intro hc
    have hle := h.greedy (x ++ ['"'] ++ [c]) (y ++ '"' :: joinTexts post) (by simp) (by
      intro d hd
      rcases List.mem_append.mp hd with hd | hd
      · exact isValueSeparator_concat hplain hd
      · rw [List.mem_singleton.mp hd]
        exact isValueSeparator_of_isPlain hc) (List.mem_append_right _ List.mem_cons_self)
    simp only [List.length_append, List.length_singleton] at hle
    omega
  · -- an empty value: its closing quote would be in the run, were there another one behind it
    rintro rfl
    by_contra hlength
    have hpos := List.length_pos_of_ne_nil hpost
    have hle := h.greedy (x ++ ['"'] ++ ['"']) (joinTexts post) (by simp) (by
      intro d hd
      rcases List.mem_append.mp hd with hd | hd
      · exact isValueSeparator_concat hplain hd
      · rw [List.mem_singleton.mp hd]
        rfl) (quote_mem_joinTexts (by omega))
    simp only [List.length_append, List.length_singleton] at hle
    omega

end

/-! ## A name that is told apart -/

section

variable {n : Nat} {a b c w w' : List Char}

/-- A name of `n` letters does not reach over a quote. -/
theorem le_length_of_replicate (h : a ++ List.replicate n '!' = b ++ '"' :: c) : n ≤ c.length := by
  have hquote : '"' ∉ List.replicate n '!' := by
    intro hmem
    exact absurd (List.eq_of_mem_replicate hmem) (by decide)
  rcases List.append_eq_append_iff.mp h with ⟨more, -, hname⟩ | ⟨more, -, hbehind⟩
  · rw [hname] at hquote
    exact absurd (List.mem_append_right _ List.mem_cons_self) hquote
  · cases more with
    | nil =>
      rw [List.nil_append] at hbehind
      rw [← hbehind] at hquote
      exact absurd List.mem_cons_self hquote
    | cons d more =>
      rw [List.cons_append] at hbehind
      rw [(List.cons_eq_cons.mp hbehind).2, List.length_append, List.length_replicate]
      omega

theorem eq_of_replicate_of_le (h : a ++ List.replicate n '!' ++ '"' :: w =
    b ++ List.replicate n '!' ++ '"' :: w') (hw : w.length ≤ w'.length) (hn : w'.length < n) :
    a = b ∧ w = w' := by
  rcases List.append_eq_append_iff.mp h with ⟨more, hfront, hbehind⟩ | ⟨more, hfront, hbehind⟩
  · have hlength := congrArg List.length hbehind
    rw [List.length_append, List.length_cons, List.length_cons] at hlength
    have hnil : more = [] := List.eq_nil_of_length_eq_zero (by omega)
    rw [hnil] at hfront hbehind
    rw [List.append_nil] at hfront
    exact ⟨(List.append_cancel_right hfront).symm, (List.cons_eq_cons.mp hbehind).2⟩
  · cases more with
    | nil =>
      rw [List.append_nil] at hfront
      exact ⟨List.append_cancel_right hfront, (List.cons_eq_cons.mp hbehind).2.symm⟩
    | cons d more =>
      rw [List.cons_append] at hbehind
      obtain ⟨hd, htail⟩ := List.cons_eq_cons.mp hbehind
      rw [← hd] at hfront
      have hle := le_length_of_replicate hfront
      rw [htail, List.length_append] at hn
      omega

theorem eq_of_replicate (h : a ++ List.replicate n '!' ++ '"' :: w =
    b ++ List.replicate n '!' ++ '"' :: w') (hw : w.length < n) (hw' : w'.length < n) :
    a = b ∧ w = w' := by
  rcases Nat.le_total w.length w'.length with hle | hle
  · exact eq_of_replicate_of_le h hle hw'
  · obtain ⟨hfront, hbehind⟩ := eq_of_replicate_of_le h.symm hle hw
    exact ⟨hfront.symm, hbehind.symm⟩

theorem quote_mem_of_concat (h : a ++ ['"'] = b ++ c) (hne : c ≠ []) : '"' ∈ c := by
  obtain ⟨front, last, rfl⟩ := (List.eq_nil_or_concat' c).resolve_left hne
  rw [← List.append_assoc] at h
  have hlast : '"' = last := List.singleton_inj.mp (List.append_inj_right' h rfl)
  rw [hlast]
  exact List.mem_concat_self

/-- Where both put the name at the same place, the run ends with the quote of the value. -/
theorem eq_of_front {run quoted x y : List Char} (hquoted : '"' ∉ quoted) (hy : '"' ∉ y)
    (hfront : a ++ run = b ++ (x ++ ['"'])) (htext : run ++ quoted = x ++ ['"'] ++ y) :
    run = x ++ ['"'] ∧ quoted = y := by
  rcases List.append_eq_append_iff.mp htext with ⟨more, hrun, hmore⟩ | ⟨more, hrun, hmore⟩
  · by_cases hnil : more = []
    · rw [hnil, List.append_nil] at hrun
      rw [hnil] at hmore
      exact ⟨hrun.symm, hmore⟩
    · have hquote := quote_mem_of_concat hrun hnil
      rw [hmore] at hquoted
      exact absurd (List.mem_append_left _ hquote) hquoted
  · by_cases hnil : more = []
    · rw [hnil, List.append_nil] at hrun
      rw [hnil] at hmore
      exact ⟨hrun, hmore.symm⟩
    · rw [hrun, ← List.append_assoc b, ← List.append_assoc a] at hfront
      have hquote := quote_mem_of_concat hfront.symm hnil
      rw [hmore] at hy
      exact absurd (List.mem_append_left _ hquote) hy

end

/-! ## The loop and the values -/

section

variable {externalName description u separators run quoted rest : List Char}

theorem updateDescription_of_some (h : matchGroups descriptionPattern description =
    some (matchParts u separators run quoted rest)) :
    updateDescription externalName description =
      updateDescription externalName (u ++ ename ++ ['"']) ++
        (separators ++ '"' :: (valueKey ++ '"' :: (run ++ (externalName ++ '"' :: rest)))) := by
  have hstep : updateDescription externalName description = _ := updateLoop_of_some h
  rw [hstep, updateLoop_res]
  simp only [List.append_assoc, List.cons_append, List.append_nil]

theorem not_segment_of_none (hline : IsLine description)
    (h : matchGroups descriptionPattern description = none) (before : List (List Char))
    (text separators : List Char) (behind : List (List Char)) :
    ¬ Segment (splitTexts description) before text separators behind := by
  intro hsegment
  obtain ⟨u, -, hanchor⟩ := hsegment.anchor
  exact not_anchor_of_matchGroups hline h hanchor

theorem Match.isLine (h : Match description u separators run quoted rest)
    (hline : IsLine description) : IsLine (u ++ ename ++ ['"']) := by
  have htext : description = (u ++ ename ++ ['"']) ++ (separators ++ '"' :: (valueKey ++ '"' ::
      (run ++ (quoted ++ '"' :: rest)))) := by
    rw [h.text_eq]
    simp
  rw [htext] at hline
  exact hline.of_append.1

theorem Match.length_le (h : Match description u separators run quoted rest) :
    (u ++ ename ++ ['"']).length + (run ++ quoted).length + rest.length < description.length := by
  rw [h.text_eq]
  simp only [List.length_append, List.length_cons, List.length_nil]
  omega

/-- The texts behind `"value"` in a match, up to the one behind the first quote. -/
theorem Match.exists_splitTexts (h : Match description u separators run quoted rest) :
    ∃ x y post, splitTexts (run ++ (quoted ++ '"' :: rest)) = x :: y :: post := by
  have hlength := two_le_length_splitTexts h.anchor.quote
  match splitTexts (run ++ (quoted ++ '"' :: rest)), hlength with
  | x :: y :: post, _ => exact ⟨x, y, post, rfl⟩

/-- From the last segment to the first, each value is replaced. -/
theorem updateDescription_of_wellSeparated {description : List Char} (hline : IsLine description)
    (hwell : WellSeparated (splitTexts description)) :
    updateDescription externalName description = replaceValues externalName description := by
  cases h : matchGroups descriptionPattern description with
  | none =>
    rw [replaceValues_of_none (not_segment_of_none hline h)]
    exact (updateLoop_of_none h).trans (List.append_nil _)
  | some parts =>
    obtain ⟨u, separators, run, quoted, rest, hmatch, rfl⟩ := match_of_matchGroups h
    have hlt := hmatch.length_le
    obtain ⟨before, text, hcut, hlast⟩ := hmatch.lastSegment hline
    obtain ⟨hfirst, x, y, post, hvalue⟩ := hlast.wellSeparated_iff.mp hwell
    rw [← hcut] at hfirst
    have ih := updateDescription_of_wellSeparated (hmatch.isLine hline) hfirst
    have hsplit := hvalue.behind_eq
    rw [hsplit] at hlast hvalue
    obtain ⟨hrun, -, hrest⟩ := (hmatch.greedyRun hline).of_quotedValue hsplit hvalue
    rw [updateDescription_of_some h, ih, hlast.replaceValues_eq hcut,
      if_pos ⟨hvalue.closed, List.all_eq_true.mpr hvalue.isPlain⟩,
      joinTexts_cons_of_ne (List.cons_ne_nil _ _), joinTexts_cons_of_ne hvalue.closed, hrun, hrest, List.append_assoc x, List.singleton_append]
termination_by description.length
decreasing_by omega

/-- A long name of letters that are no quotes shows where the loop has put it. -/
theorem wellSeparated_of_updateDescription {n : Nat} {description : List Char}
    (hline : IsLine description) (hn : description.length ≤ n)
    (heq : updateDescription (List.replicate n '!') description =
      replaceValues (List.replicate n '!') description) :
    WellSeparated (splitTexts description) := by
  cases h : matchGroups descriptionPattern description with
  | none =>
    intro before text separators behind hsegment
    exact absurd hsegment (not_segment_of_none hline h _ _ _ _)
  | some parts =>
    obtain ⟨u, separators, run, quoted, rest, hmatch, rfl⟩ := match_of_matchGroups h
    have hlt := hmatch.length_le
    obtain ⟨before, text, hcut, hlast⟩ := hmatch.lastSegment hline
    obtain ⟨x, y, post, hsplit⟩ := hmatch.exists_splitTexts
    have hwell := hlast.wellSeparated_iff
    rw [hsplit] at hlast hwell
    rw [updateDescription_of_some h, hlast.replaceValues_eq hcut] at heq
    by_cases hvalue : post ≠ [] ∧ x.all isPlainSeparator = true
    · -- the name is longer than all of the text, so the two copies of it stand in one place
      obtain ⟨hpost, hplain⟩ := hvalue
      have htext := text_of_splitTexts hsplit hpost
      have hlength := congrArg List.length htext
      simp only [List.length_append, List.length_cons] at hlength hlt
      rw [if_pos ⟨hpost, hplain⟩, joinTexts_cons_of_ne (List.cons_ne_nil _ _),
        joinTexts_cons_of_ne hpost] at heq
      have hname : (updateDescription (List.replicate n '!') (u ++ ename ++ ['"']) ++
          (separators ++ '"' :: (valueKey ++ ['"'])) ++ run) ++ List.replicate n '!' ++
            '"' :: rest =
          (replaceValues (List.replicate n '!') (u ++ ename ++ ['"']) ++
            (separators ++ '"' :: (valueKey ++ ['"'])) ++ (x ++ ['"'])) ++ List.replicate n '!' ++
            '"' :: joinTexts post := by
        simpa using heq
      obtain ⟨hfront, rfl⟩ := eq_of_replicate hname (by omega) (by omega)
      obtain ⟨rfl, rfl⟩ := eq_of_front (hmatch.noQuote)
        (not_mem_of_mem_splitTexts (hsplit ▸ List.mem_cons_of_mem _ List.mem_cons_self))
        hfront ((List.append_left_inj ('"' :: joinTexts post)).mp (by simpa using htext))
      have hgreedy := hmatch.greedyRun hline
      refine hwell.mpr ⟨?_, x, _, post, hgreedy.quotedValue (List.all_eq_true.mp hplain) hpost⟩
      rw [← hcut]
      apply wellSeparated_of_updateDescription (hmatch.isLine hline) (n := n) _
        (List.append_cancel_right (List.append_cancel_right hfront))
      simp only [List.length_append, List.length_cons]
      omega
    · -- the texts behind the segment are kept, with the quotes of `"value"` in front of them
      have htext : joinTexts (x :: y :: post) = run ++ quoted ++ '"' :: rest := by
        rw [← hsplit, joinTexts_splitTexts, List.append_assoc]
      rw [if_neg hvalue, htext] at heq
      have hname : (updateDescription (List.replicate n '!') (u ++ ename ++ ['"']) ++
          (separators ++ '"' :: (valueKey ++ '"' :: run))) ++ List.replicate n '!' =
          (replaceValues (List.replicate n '!') (u ++ ename ++ ['"']) ++
            (separators ++ '"' :: valueKey)) ++ '"' :: (run ++ quoted) := by
        apply (List.append_left_inj ('"' :: rest)).mp
        simpa using heq
      have hle := le_length_of_replicate hname
      omega
termination_by description.length
decreasing_by omega

/-- The values, and nothing else, become the friendly name exactly when they are well separated. -/
theorem updateDescription_replaces_iff (hline : IsLine description) :
    (∀ externalName, updateDescription externalName description =
      replaceValues externalName description) ↔ WellSeparated (splitTexts description) := by
  constructor
  · intro hall
    exact wellSeparated_of_updateDescription hline (Nat.le_refl _) (hall _)
  · intro hwell externalName
    exact updateDescription_of_wellSeparated hline hwell

theorem updateDescription_replaces_iff_ups :
    (∀ externalName, updateDescription externalName
      "\x7b\"ename\": \x7b\"value\":\"ups\", \"assetLink\":\"ups-1\"\x7d\x7d".toList =
      replaceValues externalName
        "\x7b\"ename\": \x7b\"value\":\"ups\", \"assetLink\":\"ups-1\"\x7d\x7d".toList) ↔
      WellSeparated (splitTexts
        "\x7b\"ename\": \x7b\"value\":\"ups\", \"assetLink\":\"ups-1\"\x7d\x7d".toList) :=
  updateDescription_replaces_iff (by decide)

/-- The separators of an empty value run over both of its quotes, and the name behind them takes
the place of the comma. -/
theorem empty_value_is_skipped :
    IsLine "\"ename\":\x7b\"value\":\"\",\"assetLink\":\"ups-1\"\x7d".toList ∧
    updateDescription "UPS".toList
        "\"ename\":\x7b\"value\":\"\",\"assetLink\":\"ups-1\"\x7d".toList =
      "\"ename\":\x7b\"value\":\"\"UPS\"assetLink\":\"ups-1\"\x7d".toList ∧
    replaceValues "UPS".toList
        "\"ename\":\x7b\"value\":\"\",\"assetLink\":\"ups-1\"\x7d".toList =
      "\"ename\":\x7b\"value\":\"UPS\",\"assetLink\":\"ups-1\"\x7d".toList := by
  refine ⟨by decide, ?_, by decide⟩
  have hsome : matchGroups descriptionPattern
      "\"ename\":\x7b\"value\":\"\",\"assetLink\":\"ups-1\"\x7d".toList =
      some (matchParts ['"'] [':', '{'] ":\"\"".toList ",".toList
        "assetLink\":\"ups-1\"\x7d".toList) := by
    decide
  have hnone : matchGroups descriptionPattern (['"'] ++ ename ++ ['"']) = none := by decide
  have hend : updateDescription "UPS".toList (['"'] ++ ename ++ ['"']) = ['"'] ++ ename ++ ['"'] :=
    (updateLoop_of_none hnone).trans (List.append_nil _)
  rw [updateDescription_of_some hsome, hend]
  decide

end

end FtyRest.Shared
