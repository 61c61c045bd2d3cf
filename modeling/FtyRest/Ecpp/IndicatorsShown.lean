import FtyRest.Ecpp.IndicatorsPrinted
import FtyRest.Ecpp.IndicatorsTrend
import FtyRest.Lib.Stoi

/-!
# What the indicators show

When `datacenter_indicators` answers for every datacenter, with a number or `null` for each
parameter.
-/

namespace FtyRest.Ecpp

open Binary64

/-! ## Numbers -/

def numberOrNull (text : String) : String := if JsonText.Number text then text else "null"

/-- A text that is printed as a number or as `null`. -/
def ShownText (text : String) : Prop :=
  JsonText.Number text ∨ text.toList.map Char.toLower = "nan".toList ∨ text = "null"

theorem not_number_of_nan {text : String} (h : text.toList.map Char.toLower = "nan".toList) :
    ¬ JsonText.Number text := by
  intro hnumber
  unfold JsonText.Number at hnumber
  rw [String.toList_ofList] at h
  cases hlist : text.toList with
  | nil =>
    rw [hlist] at h
    cases h
  | cons c rest =>
    rw [hlist] at h hnumber
    have hc : c.toLower = 'n' := (List.cons.inj h).1
    -- a number starts with a minus or a digit, `nan` with neither
    have hminus : c ≠ '-' := by
      rintro rfl
      exact absurd hc (by decide)
    have hdigit : c.isDigit = false := by
      rw [Bool.eq_false_iff]
      intro hdigit
      rw [Stoi.toLower_of_isDigit hdigit] at hc
      rw [hc] at hdigit
      exact absurd hdigit (by decide)
    unfold JsonText.isNumber at hnumber
    split at hnumber
    · rename_i heq
      exact hminus (List.cons.inj heq).1
    · unfold JsonText.isUnsigned at hnumber
      rw [List.takeWhile_cons_of_neg (by simp [hdigit])] at hnumber
      cases hnumber

theorem printedValue_null : printedValue "null" = "null" := by
  unfold printedValue
  split
  · rfl
  · rfl

theorem printedValue_iff {text : String} : printedValue text = numberOrNull text ↔ ShownText text := by
  unfold printedValue numberOrNull ShownText
  by_cases hnan : text.toList.map Char.toLower = "nan".toList
  · rw [if_pos hnan, if_neg (not_number_of_nan hnan)]
    exact iff_of_true rfl (Or.inr (Or.inl hnan))
  · rw [if_neg hnan]
    by_cases hnumber : JsonText.Number text
    · rw [if_pos hnumber]
      exact iff_of_true rfl (Or.inl hnumber)
    · rw [if_neg hnumber, or_iff_right hnumber, or_iff_right hnan]

section

variable (env : IndicatorEnv)

/-! ## The values -/

/-- The value of a text that is a number. -/
def numberOf (text : String) : Option Double :=
  if JsonText.Number text then stod text.toList else none

/-- The trend between two texts: `null` where one is missing or not a number. -/
def shownTrend (average actual : Option String) : String :=
  match average.bind numberOf, actual.bind numberOf with
  | some average, some actual =>
      if average.isZero then "null" else numberOrNull (relativeChange actual average).toText
  | _, _ => "null"

/-- The value of a parameter, of the metrics of a datacenter. -/
def shownValue (metrics : List Metric) (key : String) : String :=
  match paramToSrc.lookup key with
  | none => "null"
  | some src =>
      if isTrend key then
        match splitSlash src with
        | [average, actual] => shownTrend (metricText metrics average) (metricText metrics actual)
        | _ => "null"
      else
        match metricText metrics src with
        | none => "null"
        | some text => numberOrNull text

/-- One object that holds each requested parameter once. -/
structure ShowsDc (params : List String) (dc : Nat × String) (o : Indicator) : Prop where
  id : o.id = dc.2
  name : o.name = (env.idToNameExtName dc.1).2
  distinct : (o.members.map Prod.fst).Nodup
  params : ∀ key, key ∈ o.members.map Prod.fst ↔ key ∈ params
  values : ∀ member ∈ o.members, member.2 = shownValue (metricsOf env dc.2) member.1

/-- The request is answered with the right object for each datacenter. -/
def AnswersDcs (arg1 arg2 : String) (dcs : List (Nat × String)) (params : List String) : Prop :=
  ∃ objects, printedObjects env dcs params = .ok objects ∧
    datacenterIndicators env arg1 arg2 = .ok (indicatorsText objects) ∧
    List.Forall₂ (ShowsDc env params) dcs objects

/-! ## The condition -/

/-- The texts of a trend are doubles, and where a change is computed of them they are numbers
and it does not overflow. -/
structure ReadableTrend (average actual : Option String) : Prop where
  readAverage : ∀ s, average = some s → (stod s.toList).isSome
  readActual : ∀ t, actual = some t → (stod t.toList).isSome
  change : ∀ s t x y, average = some s → actual = some t →
    stod s.toList = some x → stod t.toList = some y →
      noChange y x = true ∨ (JsonText.Number s ∧ JsonText.Number t) ∧ Fits y x

/-- The texts that a parameter is made of are printed right. -/
def ReadableParam (metrics : List Metric) (key : String) : Prop :=
  ∀ src, paramToSrc.lookup key = some src →
    if isTrend key then
      ∀ average actual, splitSlash src = [average, actual] →
        ReadableTrend (metricText metrics average) (metricText metrics actual)
    else ∀ text, metricText metrics src = some text → ShownText text

end

section

variable {env : IndicatorEnv} {metrics : List Metric} {params : List String} {key : String}

theorem lookup_metrics_nil (metrics : List Metric) (k : String) :
    List.lookup k (metrics.foldl addMetric []) = metricText metrics k := by
  rw [lookup_metrics]
  exact Option.none_or

theorem readValue_metrics (source : String) :
    readValue (metrics.foldl addMetric []) source =
      match metricText metrics source with
      | none => .ok .nan
      | some text =>
          match stod text.toList with
          | none => .error .stod
          | some value => .ok value := by
  have hlookup := lookup_metrics_nil metrics source
  unfold readValue
  cases htext : metricText metrics source with
  | none => simp only [hlookup, htext]
  | some text =>
    cases hvalue : stod text.toList with
    | none => simp only [hlookup, htext, hvalue]
    | some value => simp only [hlookup, htext, hvalue]

/-- A parameter that is no trend. -/
theorem textOf_plain {src : String} (h : paramToSrc.lookup key = some src)
    (htrend : isTrend key = false) :
    textOf metrics key = .ok ((metricText metrics src).getD "null") := by
  unfold textOf paramText atKey
  rw [h]
  simp only [Checks.ok_bind]
  rw [lookup_metrics_nil]
  cases metricText metrics src with
  | none =>
    dsimp only
    rw [htrend]
    rfl
  | some text => rfl

theorem metricText_src {src : String} (h : paramToSrc.lookup key = some src)
    (htrend : isTrend key = true) : metricText metrics src = none := by
  apply if_neg
  intro hmem
  exact (source_dot hmem).2 ((param_plain h).2.2.mp htrend)

/-- The text of a trend of these values. -/
def trendText (average actual : Double) : String :=
  if average.isZero || (relativeChange actual average).isNan then "null"
  else (relativeChange actual average).toText

theorem textOf_trend {src average actual : String} (h : paramToSrc.lookup key = some src)
    (htrend : isTrend key = true) (hsplit : splitSlash src = [average, actual]) :
    textOf metrics key =
      match readValue (metrics.foldl addMetric []) actual with
      | .error e => .error e
      | .ok y =>
          match readValue (metrics.foldl addMetric []) average with
          | .error e => .error e
          | .ok x => .ok (trendText x y) := by
  unfold textOf paramText
  have hkey : atKey paramToSrc key = .ok src := by
    unfold atKey
    rw [h]
  -- the actual value is read first, so its failure is the one that is reported
  rw [hkey]
  simp only [Checks.ok_bind]
  rw [lookup_metrics_nil, metricText_src h htrend]
  dsimp only
  rw [if_pos htrend]
  unfold getTrendValue
  rw [hkey]
  simp only [Checks.ok_bind]
  rw [hsplit]
  dsimp only
  cases readValue (metrics.foldl addMetric []) actual with
  | error e => rfl
  | ok y =>
    cases readValue (metrics.foldl addMetric []) average with
    | error e => rfl
    | ok x =>
      simp only [Checks.ok_bind]
      unfold trendText
      cases hzero : x.isZero with
      | true => rfl
      | false => rfl

/-! ## Trends -/

theorem stod_representable {text : List Char} {x : Double} (h : stod text = some x) :
    ∀ s a, x = .finite s a → Representable a := by
  rintro s a rfl
  exact stod_finite h

theorem shownTrend_of_numbers {s t : String} {x y : Double}
    (hnumbers : JsonText.Number s ∧ JsonText.Number t) (hx : stod s.toList = some x)
    (hy : stod t.toList = some y) : shownTrend (some s) (some t) =
      if x.isZero then "null" else numberOrNull (relativeChange y x).toText := by
  have haverage : numberOf s = some x := (if_pos hnumbers.1).trans hx
  have hactual : numberOf t = some y := (if_pos hnumbers.2).trans hy
  unfold shownTrend
  rw [Option.bind_some, Option.bind_some, haverage, hactual]

theorem shownTrend_of_not_numbers {s t : String}
    (hnumbers : ¬ (JsonText.Number s ∧ JsonText.Number t)) :
    shownTrend (some s) (some t) = "null" := by
  unfold shownTrend
  rw [Option.bind_some, Option.bind_some]
  by_cases hs : JsonText.Number s
  · have hactual : numberOf t = none := if_neg fun ht ↦ hnumbers ⟨hs, ht⟩
    rw [hactual]
    cases numberOf s <;> rfl
  · have haverage : numberOf s = none := if_neg hs
    rw [haverage]

/-- Two texts that are read are printed right. -/
theorem printed_trend_iff {s t : String} {x y : Double} (hx : stod s.toList = some x)
    (hy : stod t.toList = some y) :
    printedValue (trendText x y) = shownTrend (some s) (some t) ↔
      noChange y x = true ∨ (JsonText.Number s ∧ JsonText.Number t) ∧ Fits y x := by
  unfold trendText
  cases hno : noChange y x with
  | true =>
    -- both sides are `null`
    have hnan : x.isZero = true ∨ relativeChange y x = .nan := change_of_noChange hno
    have hzero : (x.isZero || (relativeChange y x).isNan) = true := by
      rcases hnan with hzero | hnan
      · rw [hzero, Bool.true_or]
      · rw [hnan]
        exact Bool.or_true _
    have hshown : shownTrend (some s) (some t) = "null" := by
      by_cases hnumbers : JsonText.Number s ∧ JsonText.Number t
      · rw [shownTrend_of_numbers hnumbers hx hy]
        rcases hnan with hzero | hnan
        · rw [if_pos hzero]
        · rw [hnan]
          exact ite_self _
      · exact shownTrend_of_not_numbers hnumbers
    rw [if_pos hzero, hshown]
    exact iff_of_true printedValue_null (Or.inl rfl)
  | false =>
    rw [or_iff_right Bool.false_ne_true]
    obtain ⟨hzero, hchange⟩ :=
      change_of_change (stod_representable hy) (stod_representable hx) hno
    rcases hchange with ⟨hfits, w, z, hfinite⟩ | ⟨hfits, w, hinfinity⟩
    · -- a number is printed
      have hnumber := number_toText w z
      have hnan : (Double.finite w z).isNan = false := rfl
      rw [hzero, hfinite, hnan, Bool.or_false, if_neg Bool.false_ne_true, and_iff_left hfits,
        printedValue_iff.mpr (Or.inl hnumber)]
      by_cases hnumbers : JsonText.Number s ∧ JsonText.Number t
      · rw [shownTrend_of_numbers hnumbers hx hy, hzero, if_neg Bool.false_ne_true, hfinite]
        exact iff_of_true rfl hnumbers
      · rw [shownTrend_of_not_numbers hnumbers]
        apply iff_of_false _ hnumbers
        intro heq
        unfold numberOrNull at heq
        rw [if_pos hnumber] at heq
        rw [heq] at hnumber
        exact absurd hnumber (by decide)
    · -- an infinity is printed
      have hnan : (Double.infinity w).isNan = false := rfl
      have hnull : numberOrNull (Double.infinity w).toText = "null" :=
        if_neg (not_number_infinity w)
      have hshown : shownTrend (some s) (some t) = numberOrNull (Double.infinity w).toText := by
        by_cases hnumbers : JsonText.Number s ∧ JsonText.Number t
        · rw [shownTrend_of_numbers hnumbers hx hy, hzero, if_neg Bool.false_ne_true, hinfinity]
        · rw [shownTrend_of_not_numbers hnumbers, hnull]
      rw [hzero, hinfinity, hnan, Bool.or_false, if_neg Bool.false_ne_true, hshown, printedValue_iff]
      apply iff_of_false _ fun h ↦ hfits h.2
      unfold ShownText
      cases w with
      | true => decide
      | false => decide

/-- A text is missing, or it cannot be read, or it is a value. -/
theorem read_cases (text : Option String) :
    text = none ∨ (∃ t, text = some t ∧ stod t.toList = none) ∨
      ∃ t x, text = some t ∧ stod t.toList = some x := by
  cases text with
  | none => exact Or.inl rfl
  | some t =>
    right
    cases hread : stod t.toList with
    | none => exact Or.inl ⟨t, rfl, hread⟩
    | some x => exact Or.inr ⟨t, x, rfl, hread⟩

/-- Where a text is missing, what is computed is no number. -/
theorem printed_trend_missing {x y : Double} (h : x = .nan ∨ y = .nan) :
    printedValue (trendText x y) = "null" := by
  have hnan : (relativeChange y x).isNan = true := by
    rcases h with rfl | rfl
    · rw [change_nan_right]
      rfl
    · rw [change_nan_left]
      rfl
  unfold trendText
  rw [hnan, Bool.or_true, if_pos rfl]
  exact printedValue_null

theorem shownTrend_missing {average actual : Option String} (h : average = none ∨ actual = none) :
    shownTrend average actual = "null" := by
  unfold shownTrend
  rcases h with rfl | rfl
  · rfl
  · cases average.bind numberOf <;> rfl

theorem ReadableTrend.of_missing {average actual : Option String}
    (h : average = none ∨ actual = none)
    (haverage : ∀ s, average = some s → (stod s.toList).isSome)
    (hactual : ∀ t, actual = some t → (stod t.toList).isSome) : ReadableTrend average actual := by
  refine ⟨haverage, hactual, fun s t x y hs ht ↦ ?_⟩
  rcases h with rfl | rfl
  · cases hs
  · cases ht

theorem not_readableTrend_average {s : String} {actual : Option String}
    (h : stod s.toList = none) : ¬ ReadableTrend (some s) actual := by
  intro hread
  have hsome := hread.readAverage s rfl
  rw [h] at hsome
  cases hsome

/-- The text of a trend is printed right when its texts can be read. -/
theorem shown_trend_iff {src average actual : String} (h : paramToSrc.lookup key = some src)
    (htrend : isTrend key = true) (hsplit : splitSlash src = [average, actual]) :
    (∃ text, textOf metrics key = .ok text ∧ printedValue text =
        shownTrend (metricText metrics average) (metricText metrics actual)) ↔
      ReadableTrend (metricText metrics average) (metricText metrics actual) := by
  rw [textOf_trend h htrend hsplit, readValue_metrics, readValue_metrics]
  generalize metricText metrics average = averageText
  generalize metricText metrics actual = actualText
  -- the actual value is read first
  rcases read_cases actualText with rfl | ⟨t, rfl, hactual⟩ | ⟨t, y, rfl, hactual⟩
  · rcases read_cases averageText with rfl | ⟨s, rfl, haverage⟩ | ⟨s, x, rfl, haverage⟩
    · rw [shownTrend_missing (Or.inl rfl)]
      apply iff_of_true ⟨_, rfl, printed_trend_missing (Or.inl rfl)⟩
      exact .of_missing (Or.inl rfl) (fun _ ht ↦ by cases ht) (fun _ ht ↦ by cases ht)
    · dsimp only
      rw [haverage]
      exact iff_of_false (fun ⟨_, hok, _⟩ ↦ by cases hok) (not_readableTrend_average haverage)
    · dsimp only
      rw [haverage, shownTrend_missing (Or.inr rfl)]
      apply iff_of_true ⟨_, rfl, printed_trend_missing (Or.inr rfl)⟩
      refine .of_missing (Or.inr rfl) (fun _ ht ↦ ?_) (fun _ ht ↦ by cases ht)
      rw [← Option.some.inj ht, haverage]
      rfl
  · dsimp only
    rw [hactual]
    apply iff_of_false (fun ⟨_, hok, _⟩ ↦ by cases hok)
    intro hread
    have hsome := hread.readActual t rfl
    rw [hactual] at hsome
    cases hsome
  · dsimp only
    rw [hactual]
    rcases read_cases averageText with rfl | ⟨s, rfl, haverage⟩ | ⟨s, x, rfl, haverage⟩
    · rw [shownTrend_missing (Or.inl rfl)]
      apply iff_of_true ⟨_, rfl, printed_trend_missing (Or.inl rfl)⟩
      refine .of_missing (Or.inl rfl) (fun _ ht ↦ by cases ht) (fun _ ht ↦ ?_)
      rw [← Option.some.inj ht, hactual]
      rfl
    · dsimp only
      rw [haverage]
      exact iff_of_false (fun ⟨_, hok, _⟩ ↦ by cases hok) (not_readableTrend_average haverage)
    · dsimp only
      rw [haverage]
      dsimp only
      simp only [Except.ok.injEq, exists_eq_left']
      rw [printed_trend_iff haverage hactual]
      constructor
      · intro hchange
        refine ⟨fun _ ht ↦ ?_, fun _ ht ↦ ?_, fun s' t' x' y' hs ht hx hy ↦ ?_⟩
        · rw [← Option.some.inj ht, haverage]
          rfl
        · rw [← Option.some.inj ht, hactual]
          rfl
        · obtain rfl := Option.some.inj hs
          obtain rfl := Option.some.inj ht
          obtain rfl := Option.some.inj (haverage.symm.trans hx)
          obtain rfl := Option.some.inj (hactual.symm.trans hy)
          exact hchange
      · exact fun hread ↦ hread.change s t x y rfl rfl haverage hactual

theorem readableParam_plain {src : String} (h : paramToSrc.lookup key = some src)
    (htrend : isTrend key = false) :
    ReadableParam metrics key ↔ ∀ text, metricText metrics src = some text → ShownText text := by
  unfold ReadableParam
  rw [h, htrend]
  simp only [Option.some.injEq, forall_eq', Bool.false_eq_true, if_false]

theorem readableParam_trend {src average actual : String} (h : paramToSrc.lookup key = some src)
    (htrend : isTrend key = true) (hsplit : splitSlash src = [average, actual]) :
    ReadableParam metrics key ↔
      ReadableTrend (metricText metrics average) (metricText metrics actual) := by
  unfold ReadableParam
  rw [h, htrend]
  simp only [Option.some.injEq, forall_eq', if_true, hsplit, List.cons.injEq, and_true]
  constructor
  · exact fun hread ↦ hread average actual ⟨rfl, rfl⟩
  · rintro hread _ _ ⟨rfl, rfl⟩
    exact hread

theorem shown_param_iff (h : (paramToSrc.lookup key).isSome) :
    (∃ text, textOf metrics key = .ok text ∧ printedValue text = shownValue metrics key) ↔
      ReadableParam metrics key := by
  obtain ⟨src, hsrc⟩ := Option.isSome_iff_exists.mp h
  unfold shownValue
  rw [hsrc]
  dsimp only
  cases htrend : isTrend key with
  | true =>
    obtain ⟨average, actual, hsplit, -⟩ := param_trend hsrc htrend
    rw [if_pos rfl, hsplit, readableParam_trend hsrc htrend hsplit]
    exact shown_trend_iff hsrc htrend hsplit
  | false =>
    rw [if_neg Bool.false_ne_true, textOf_plain hsrc htrend, readableParam_plain hsrc htrend]
    cases htext : metricText metrics src with
    | none =>
      apply iff_of_true ⟨_, rfl, printedValue_null⟩
      exact fun _ ht ↦ by cases ht
    | some text =>
      simp only [Option.getD_some, Except.ok.injEq, exists_eq_left', Option.some.injEq, forall_eq']
      exact printedValue_iff

/-! ## The objects -/

theorem mem_printedMembers {rows : TextMap} (h : (rows.map Prod.fst).Nodup)
    {member : String × String} : member ∈ printedMembers rows ↔
      (paramToSrc.lookup member.1).isSome ∧
        ∃ value, rows.lookup member.1 = some value ∧ member.2 = printedValue value := by
  unfold printedMembers
  rw [List.mem_map]
  constructor
  · rintro ⟨row, hrow, rfl⟩
    obtain ⟨hmem, halias⟩ := List.mem_filter.mp hrow
    exact ⟨halias, row.2, AssocList.lookup_of_mem h hmem, rfl⟩
  · rintro ⟨halias, value, hvalue, hmember⟩
    refine ⟨(member.1, value), List.mem_filter.mpr ⟨AssocList.mem_of_lookup hvalue, halias⟩, ?_⟩
    rw [← hmember]

/-- What a datacenter that is known in full shows of a parameter. -/
theorem mem_printed_full {rows : TextMap} (hparams : ∀ key ∈ params, (paramToSrc.lookup key).isSome)
    (hfull : Full metrics params rows) {member : String × String} :
    member ∈ printedMembers rows ↔
      member.1 ∈ params ∧
        ∃ value, textOf metrics member.1 = .ok value ∧ member.2 = printedValue value := by
  rw [mem_printedMembers hfull.1]
  simp only [hfull.2, texts]
  constructor
  · rintro ⟨halias, value, hvalue, hmember⟩
    -- a key that is printed is a parameter, which no metric is
    by_cases hmem : member.1 ∈ params
    · rw [if_pos hmem] at hvalue
      refine ⟨hmem, value, ?_, hmember⟩
      cases htext : textOf metrics member.1 with
      | error e =>
        rw [htext] at hvalue
        cases hvalue
      | ok text =>
        rw [htext] at hvalue
        rw [Option.some.inj hvalue]
    · rw [if_neg hmem, metricText_param halias] at hvalue
      cases hvalue
  · rintro ⟨hmem, value, hvalue, hmember⟩
    refine ⟨hparams _ hmem, value, ?_, hmember⟩
    rw [if_pos hmem, hvalue]
    rfl

theorem showsDc_iff {dc : Nat × String} {rows : TextMap}
    (hparams : ∀ key ∈ params, (paramToSrc.lookup key).isSome)
    (hfull : Full (metricsOf env dc.2) params rows)
    (hall : AllTexts (metricsOf env dc.2) params) :
    ShowsDc env params dc ⟨dc.2, (env.idToNameExtName dc.1).2, printedMembers rows⟩ ↔
      ∀ key ∈ params, ReadableParam (metricsOf env dc.2) key := by
  have hmem := @mem_printed_full (metricsOf env dc.2) params rows hparams hfull
  constructor
  · intro h key hkey
    rw [← shown_param_iff (hparams key hkey)]
    obtain ⟨value, hvalue⟩ := hall key hkey
    have hshown := h.values (key, printedValue value) (hmem.mpr ⟨hkey, value, hvalue, rfl⟩)
    exact ⟨value, hvalue, hshown⟩
  · intro hread
    refine ⟨rfl, rfl, ?_, fun key ↦ ?_, fun member hmember ↦ ?_⟩
    · unfold printedMembers
      rw [List.map_map]
      exact hfull.1.sublist (List.filter_sublist.map _)
    · rw [List.mem_map]
      constructor
      · rintro ⟨member, hmember, rfl⟩
        exact (hmem.mp hmember).1
      · intro hkey
        obtain ⟨value, hvalue⟩ := hall key hkey
        exact ⟨(key, printedValue value), hmem.mpr ⟨hkey, value, hvalue, rfl⟩, rfl⟩
    · obtain ⟨hkey, value, hvalue, hprinted⟩ := hmem.mp hmember
      obtain ⟨text, htext, hshown⟩ :=
        (shown_param_iff (hparams _ hkey)).mpr (hread member.1 hkey)
      rw [hprinted, ← hshown, Except.ok.inj (hvalue.symm.trans htext)]

theorem allTexts_of_readable (hparams : ∀ key ∈ params, (paramToSrc.lookup key).isSome)
    (h : ∀ key ∈ params, ReadableParam metrics key) : AllTexts metrics params := by
  intro key hkey
  obtain ⟨text, htext, -⟩ := (shown_param_iff (hparams key hkey)).mpr (h key hkey)
  exact ⟨text, htext⟩

/-- The object of a datacenter that is known. -/
theorem dcObject_of_lookup {dataDc : DataDc} {dc : Nat × String} {rows : TextMap}
    (hname : env.idToNameExtName dc.1 ≠ ("", "")) (h : dataDc.lookup dc.2 = some rows) :
    dcObject env dataDc dc = .ok ⟨dc.2, (env.idToNameExtName dc.1).2, printedMembers rows⟩ := by
  unfold dcObject
  rw [h, if_neg]
  intro hboth
  simp only [Bool.and_eq_true, decide_eq_true_eq] at hboth
  exact hname (Prod.ext hboth.1 hboth.2)

theorem lookup_of_dcObject {dataDc : DataDc} {dc : Nat × String} {o : Indicator}
    (h : dcObject env dataDc dc = .ok o) : (dataDc.lookup dc.2).isSome := by
  unfold dcObject at h
  split at h
  · cases h
  · cases hlookup : dataDc.lookup dc.2 with
    | none =>
      rw [hlookup] at h
      cases h
    | some rows => rfl

/-- The objects are right when each datacenter has a metric and the texts that the parameters are
made of can be printed. -/
theorem printedObjects_iff {dcs : List (Nat × String)}
    (hparams : ∀ key ∈ params, (paramToSrc.lookup key).isSome)
    (hread : ∀ dc ∈ dcs, (env.readMetrics dc.2).isSome)
    (hnames : ∀ dc ∈ dcs, env.idToNameExtName dc.1 ≠ ("", "")) :
    (∃ objects, printedObjects env dcs params = .ok objects ∧
        List.Forall₂ (ShowsDc env params) dcs objects) ↔
      ∀ dc ∈ dcs, metricsOf env dc.2 ≠ [] ∧
        ∀ key ∈ params, ReadableParam (metricsOf env dc.2) key := by
  have hreadNames : ∀ name ∈ dcs.map Prod.snd, (env.readMetrics name).isSome := by
    intro name hname
    obtain ⟨dc, hdc, rfl⟩ := List.mem_map.mp hname
    exact hread dc hdc
  have hempty : Known env params [] := fun _ _ h ↦ by cases h
  unfold printedObjects
  -- either all texts are read, or a text cannot be read and nothing is printed
  rcases collect_spec hparams hreadNames hempty with
    ⟨hall, dataDc, hdata, hknown, hsome⟩ | ⟨hnot, e, he⟩
  · rw [hdata]
    simp only [Checks.ok_bind]
    have hsomeDc (dc : Nat × String) (hdc : dc ∈ dcs) :
        (dataDc.lookup dc.2).isSome ↔ metricsOf env dc.2 ≠ [] := by
      rw [hsome]
      simp only [List.lookup_nil, Option.isSome_none, Bool.false_eq_true, false_or]
      exact and_iff_right (List.mem_map_of_mem hdc)
    -- what is printed of a datacenter that has a metric
    let object (dc : Nat × String) : Indicator :=
      ⟨dc.2, (env.idToNameExtName dc.1).2, printedMembers ((dataDc.lookup dc.2).getD [])⟩
    have hobject (dc : Nat × String) (hdc : dc ∈ dcs) (hne : metricsOf env dc.2 ≠ []) :
        dcObject env dataDc dc = .ok (object dc) ∧ (ShowsDc env params dc (object dc) ↔
          ∀ key ∈ params, ReadableParam (metricsOf env dc.2) key) := by
      obtain ⟨rows, hrows⟩ := Option.isSome_iff_exists.mp ((hsomeDc dc hdc).mpr hne)
      have heq : object dc = ⟨dc.2, (env.idToNameExtName dc.1).2, printedMembers rows⟩ := by
        show Indicator.mk _ _ (printedMembers ((dataDc.lookup dc.2).getD [])) = _
        rw [hrows, Option.getD_some]
      rw [heq]
      exact ⟨dcObject_of_lookup (hnames dc hdc) hrows, showsDc_iff hparams (hknown _ _ hrows)
        (hall _ (List.mem_map_of_mem hdc) hne)⟩
    constructor
    · rintro ⟨objects, hobjects, hshows⟩
      have hne : ∀ dc ∈ dcs, metricsOf env dc.2 ≠ [] := by
        intro dc hdc
        obtain ⟨o, _, ho⟩ := Checks.mapM_ok_image hobjects hdc
        exact (hsomeDc dc hdc).mp (lookup_of_dcObject ho)
      rw [Checks.mapM_eq_ok fun dc hdc ↦ (hobject dc hdc (hne dc hdc)).1] at hobjects
      rw [← Except.ok.inj hobjects, List.forall₂_map_right_iff, List.forall₂_same] at hshows
      intro dc hdc
      exact ⟨hne dc hdc, (hobject dc hdc (hne dc hdc)).2.mp (hshows dc hdc)⟩
    · intro h
      refine ⟨dcs.map object, Checks.mapM_eq_ok fun dc hdc ↦ (hobject dc hdc (h dc hdc).1).1, ?_⟩
      rw [List.forall₂_map_right_iff, List.forall₂_same]
      intro dc hdc
      exact (hobject dc hdc (h dc hdc).1).2.mpr (h dc hdc).2
  · rw [he]
    apply iff_of_false
    · rintro ⟨objects, hobjects, -⟩
      cases hobjects
    · intro h
      apply hnot
      intro name hname _
      obtain ⟨dc, hdc, rfl⟩ := List.mem_map.mp hname
      exact allTexts_of_readable hparams (h dc hdc).2

theorem checkIndicators_params {arg1 arg2 : String} {dcs : List (Nat × String)}
    (h : checkIndicators env arg1 arg2 = .ok (dcs, params)) :
    ∀ key ∈ params, (paramToSrc.lookup key).isSome := by
  intro key hkey
  unfold checkIndicators at h
  simp only [Checks.bind_eq_ok, Checks.pure_eq_ok] at h
  obtain ⟨_, -, _, -, _, -, _, -, checkedArg2, -, _, hchecks, _, -, _, -, hpair⟩ := h
  obtain rfl := (Prod.mk.inj hpair).2
  have hparam := Checks.forM_ok_mem hchecks hkey
  unfold checkParam at hparam
  split at hparam
  · assumption
  · cases hparam

/-- A request that is accepted is answered right when each datacenter has a metric and the texts
that the parameters are made of can be printed. -/
theorem answersDcs_iff {arg1 arg2 : String} {dcs : List (Nat × String)}
    (hrequest : checkIndicators env arg1 arg2 = .ok (dcs, params))
    (hread : ∀ dc ∈ dcs, (env.readMetrics dc.2).isSome)
    (hnames : ∀ dc ∈ dcs, env.idToNameExtName dc.1 ≠ ("", "")) :
    AnswersDcs env arg1 arg2 dcs params ↔ ∀ dc ∈ dcs, metricsOf env dc.2 ≠ [] ∧
      ∀ key ∈ params, ReadableParam (metricsOf env dc.2) key := by
  rw [← printedObjects_iff (checkIndicators_params hrequest) hread hnames]
  apply exists_congr
  intro objects
  apply and_congr_right
  intro hobjects
  unfold datacenterIndicators
  rw [hrequest]
  show indicators env dcs params = _ ∧ _ ↔ _
  rw [indicators_eq, hobjects]
  exact and_iff_right rfl

end

/-- Two datacenters with these metrics. -/
def roomAndHall (room hall : List Metric) : IndicatorEnv where
  databaseReady := true
  checkUserPermissions := .ok ()
  isOkName _ := true
  checkRegexText _ value _ := .ok value
  split text := (text.toList.splitOn ',').map String.ofList
  getItems1 := some [(3, "datacenter-3"), (4, "datacenter-4")]
  nameToAssetId name := if name = "datacenter-3" then 3 else if name = "datacenter-4" then 4 else -1
  readMetrics name := some (if name = "datacenter-3" then room else hall)
  idToNameExtName id := if id = 3 then ("datacenter-3", "Room") else ("datacenter-4", "Hall")

/-- The power of a room, whose trend is a number, and of a hall, whose average is not known. -/
def powers : IndicatorEnv :=
  roomAndHall
    [⟨"realpower.default", "110"⟩, ⟨"realpower.default_arithmetic_mean_24h", "1e2"⟩]
    [⟨"realpower.default", "NaN"⟩]

theorem readable_powers : ∀ dc ∈ [(3, "datacenter-3"), (4, "datacenter-4")],
    metricsOf powers dc.2 ≠ [] ∧
      ∀ key ∈ ["power", "trend_power_last_day"], ReadableParam (metricsOf powers dc.2) key := by
  have hpower : paramToSrc.lookup "power" = some "realpower.default" := rfl
  have htrend : paramToSrc.lookup "trend_power_last_day" =
      some "realpower.default_arithmetic_mean_24h/realpower.default" := by decide +kernel
  have hsplit : splitSlash "realpower.default_arithmetic_mean_24h/realpower.default" =
      ["realpower.default_arithmetic_mean_24h", "realpower.default"] := by decide +kernel
  have hroom : metricText (metricsOf powers "datacenter-3") "realpower.default" = some "110" := by
    decide +kernel
  have hmean : metricText (metricsOf powers "datacenter-3")
      "realpower.default_arithmetic_mean_24h" = some "1e2" := by decide +kernel
  have hhall : metricText (metricsOf powers "datacenter-4") "realpower.default" = some "NaN" := by
    decide +kernel
  have hmissing : metricText (metricsOf powers "datacenter-4")
      "realpower.default_arithmetic_mean_24h" = none := by decide +kernel
  have hactual : stod "110".toList = some (.finite false 110) := by decide +kernel
  have haverage : stod "1e2".toList = some (.finite false 100) := by decide +kernel
  simp only [List.forall_mem_cons, readableParam_plain hpower (by decide +kernel),
    readableParam_trend htrend (by decide +kernel) hsplit, hroom, hmean, hhall, hmissing,
    Option.some.injEq, forall_eq']
  refine ⟨⟨by decide +kernel, Or.inl (by decide), ⟨?_, ?_, ?_⟩, fun _ h ↦ absurd h List.not_mem_nil⟩,
    ⟨by decide +kernel, Or.inr (Or.inl (by decide)), .of_missing (Or.inl rfl) ?_ ?_,
      fun _ h ↦ absurd h List.not_mem_nil⟩, fun _ h ↦ absurd h List.not_mem_nil⟩
  · rintro s hs
    rw [← Option.some.inj hs, haverage]
    rfl
  · rintro t ht
    rw [← Option.some.inj ht, hactual]
    rfl
  · rintro s t x y hs ht hx hy
    rw [← Option.some.inj hs, haverage] at hx
    rw [← Option.some.inj ht, hactual] at hy
    rw [← Option.some.inj hs, ← Option.some.inj ht, ← Option.some.inj hx, ← Option.some.inj hy]
    exact Or.inr ⟨⟨by decide, by decide⟩, by decide +kernel, by decide +kernel⟩
  · exact fun _ ht ↦ by cases ht
  · rintro t ht
    rw [← Option.some.inj ht]
    decide +kernel

theorem answersDcs_powers : AnswersDcs powers "datacenter-3,datacenter-4"
    "power,trend_power_last_day" [(3, "datacenter-3"), (4, "datacenter-4")]
    ["power", "trend_power_last_day"] :=
  (answersDcs_iff (by decide +kernel) (by decide +kernel) (by decide +kernel)).mpr readable_powers

/-- A datacenter without metrics has no texts, and reading them throws. -/
theorem no_metrics_throws :
    datacenterIndicators (roomAndHall [] []) "datacenter-3" "power" = .error .outOfRange ∧
    ¬ ∀ (env : IndicatorEnv) (arg1 arg2 : String) (dcs : List (Nat × String))
        (params : List String),
      checkIndicators env arg1 arg2 = .ok (dcs, params) →
      (∀ dc ∈ dcs, (env.readMetrics dc.2).isSome) →
      (∀ dc ∈ dcs, env.idToNameExtName dc.1 ≠ ("", "")) →
      AnswersDcs env arg1 arg2 dcs params := by
  have hthrows : datacenterIndicators (roomAndHall [] []) "datacenter-3" "power" =
      .error .outOfRange := by decide +kernel
  refine ⟨hthrows, fun hall ↦ ?_⟩
  obtain ⟨objects, -, hok, -⟩ := hall (roomAndHall [] []) "datacenter-3" "power"
    [(3, "datacenter-3")] ["power"] (by decide +kernel) (by decide +kernel) (by decide +kernel)
  rw [hthrows] at hok
  cases hok

end FtyRest.Ecpp
