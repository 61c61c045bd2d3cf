import FtyRest.Ecpp.Indicators
import FtyRest.Lib.Checks

/-!
# How the indicators are collected and printed

What is known of a datacenter once its metrics are read, and the objects that are printed of it.
-/

namespace FtyRest.Ecpp

/-! ## The table -/

theorem source_chars : (interestingSources.map String.toList).all
    (fun source ↦ '.' ∈ source && '/' ∉ source) = true := by
  simp only [interestingSources, List.map_cons, List.map_nil]
  repeat rw [String.toList_ofList]
  decide

theorem param_chars : (paramToSrc.map fun p ↦ (p.1.toList, p.2.toList)).all
    (fun p ↦ '.' ∉ p.1 && '/' ∉ p.1 &&
      (decide (p.1.take 5 = ['t', 'r', 'e', 'n', 'd']) == decide ('/' ∈ p.2))) = true := by
  simp only [paramToSrc, List.map_cons, List.map_nil]
  repeat rw [String.toList_ofList]
  decide

theorem param_sources : (paramToSrc.map fun p ↦ p.2.toList).all
    (fun src ↦ (src.splitOn '/').all fun source ↦
      source ∈ interestingSources.map String.toList) = true := by
  simp only [paramToSrc, interestingSources, List.map_cons, List.map_nil]
  repeat rw [String.toList_ofList]
  decide

theorem param_trends : (paramToSrc.map fun p ↦ p.2.toList).all
    (fun src ↦ (src.splitOn '/').length = if '/' ∈ src then 2 else 1) = true := by
  simp only [paramToSrc, List.map_cons, List.map_nil]
  repeat rw [String.toList_ofList]
  decide

section

variable {key src : String}

theorem isTrend_eq (key : String) :
    isTrend key = decide (key.toList.take 5 = ['t', 'r', 'e', 'n', 'd']) := by
  unfold isTrend
  rw [String.toList_ofList]

theorem mem_interestingSources {source : String} :
    source ∈ interestingSources ↔ source.toList ∈ interestingSources.map String.toList := by
  constructor
  · exact fun h ↦ List.mem_map_of_mem h
  · intro h
    obtain ⟨other, hother, heq⟩ := List.mem_map.mp h
    rw [← String.toList_inj.mp heq]
    exact hother

theorem source_dot (h : src ∈ interestingSources) : '.' ∈ src.toList ∧ '/' ∉ src.toList := by
  have hall := List.all_eq_true.mp source_chars _ (List.mem_map_of_mem h)
  simpa using hall

theorem mem_of_lookup_param (h : paramToSrc.lookup key = some src) : (key, src) ∈ paramToSrc :=
  AssocList.mem_of_lookup h

theorem param_plain (h : paramToSrc.lookup key = some src) :
    '.' ∉ key.toList ∧ '/' ∉ key.toList ∧ (isTrend key = true ↔ '/' ∈ src.toList) := by
  have hall := List.all_eq_true.mp param_chars _ (List.mem_map_of_mem (mem_of_lookup_param h))
  rw [isTrend_eq]
  simpa [and_assoc] using hall

/-- No parameter is a topic. -/
theorem param_not_source (h : paramToSrc.lookup key = some src) : key ∉ interestingSources :=
  fun hmem ↦ (param_plain h).1 (source_dot hmem).1

theorem mem_source {source : List Char} (h : paramToSrc.lookup key = some src)
    (hsource : source ∈ src.toList.splitOn '/') : String.ofList source ∈ interestingSources := by
  have hall := List.all_eq_true.mp param_sources _ (List.mem_map_of_mem (mem_of_lookup_param h))
  rw [mem_interestingSources, String.toList_ofList]
  exact of_decide_eq_true (List.all_eq_true.mp hall source hsource)

theorem param_topic (h : paramToSrc.lookup key = some src) (htrend : isTrend key = false) :
    src ∈ interestingSources := by
  have hslash : '/' ∉ src.toList := by
    rw [← (param_plain h).2.2, htrend]
    decide
  have hsplit : src.toList.splitOn '/' = [src.toList] := by
    apply List.splitOnP_eq_singleton
    intro c hc
    rw [beq_eq_false_iff_ne]
    rintro rfl
    exact hslash hc
  have hmem := mem_source h (hsplit ▸ List.mem_singleton_self _)
  rwa [String.ofList_toList] at hmem

/-- A trend compares two topics. -/
theorem param_trend (h : paramToSrc.lookup key = some src) (htrend : isTrend key = true) :
    ∃ average actual, splitSlash src = [average, actual] ∧ average ∈ interestingSources ∧
      actual ∈ interestingSources := by
  have hall := List.all_eq_true.mp param_trends _ (List.mem_map_of_mem (mem_of_lookup_param h))
  have hlength := of_decide_eq_true hall
  rw [if_pos ((param_plain h).2.2.mp htrend)] at hlength
  obtain ⟨average, actual, hsplit⟩ := List.length_eq_two.mp hlength
  refine ⟨.ofList average, .ofList actual, ?_, ?_, ?_⟩
  · unfold splitSlash
    rw [hsplit, List.map_cons, List.map_cons, List.map_nil]
  · exact mem_source h (hsplit ▸ List.mem_cons_self)
  · exact mem_source h (hsplit ▸ List.mem_cons_of_mem _ (List.mem_singleton_self _))

end

/-! ## The texts of a datacenter -/

section

variable {m m' : TextMap} {key value : String}

theorem TextMap.lookup_emplace (m : TextMap) (key value k : String) :
    (m.emplace key value).lookup k = (m.lookup k).or (if k = key then some value else none) := by
  unfold TextMap.emplace
  by_cases hkey : (m.lookup key).isSome = true
  · rw [if_pos hkey]
    by_cases hk : k = key
    · obtain ⟨v, hv⟩ := Option.isSome_iff_exists.mp hkey
      rw [hk, hv, Option.some_or]
    · rw [if_neg hk, Option.or_none]
  · have hnone : m.lookup key = none := by
      rwa [Bool.not_eq_true, Option.isSome_eq_false_iff, Option.isNone_iff_eq_none] at hkey
    rw [if_neg hkey, AssocList.lookup_orderedInsert hnone]
    by_cases hk : k = key
    · simp [hk, hnone]
    · simp [hk]

theorem TextMap.nodup_emplace (h : (m.map Prod.fst).Nodup) (key value : String) :
    ((m.emplace key value).map Prod.fst).Nodup := by
  unfold TextMap.emplace
  split
  · exact h
  · rename_i hkey
    have hperm := (List.perm_orderedInsert (fun a b : String × String ↦ a.1 ≤ b.1) (key, value) m).map
      Prod.fst
    rw [hperm.nodup_iff, List.map_cons, List.nodup_cons]
    refine ⟨fun hmem ↦ hkey ?_, h⟩
    obtain ⟨p, hp, hfst⟩ := List.mem_map.mp hmem
    have hlookup := AssocList.lookup_of_mem h (k := p.1) (x := p.2) hp
    rw [hfst] at hlookup
    rw [hlookup]
    rfl

/-- The first metric of a topic. -/
def metricText (metrics : List Metric) (source : String) : Option String :=
  if source ∈ interestingSources then (metrics.find? (·.type = source)).map (·.value) else none

theorem lookup_metrics (metrics : List Metric) (m : TextMap) (k : String) :
    (metrics.foldl addMetric m).lookup k = (m.lookup k).or (metricText metrics k) := by
  induction metrics generalizing m with
  | nil =>
    unfold metricText
    rw [List.foldl_nil, List.find?_nil, Option.map_none, ite_self, Option.or_none]
  | cons metric metrics ih =>
    rw [List.foldl_cons, ih]
    unfold metricText addMetric
    by_cases hsource : metric.type ∈ interestingSources
    · rw [if_pos hsource, TextMap.lookup_emplace, Option.or_assoc]
      by_cases hk : k = metric.type
      · have hfind : (metric :: metrics).find? (·.type = k) = some metric :=
          List.find?_cons_of_pos (decide_eq_true hk.symm)
        rw [hfind, hk, if_pos rfl, if_pos hsource, if_pos hsource, Option.some_or, Option.map_some]
      · rw [if_neg hk, Option.none_or,
          List.find?_cons_of_neg (by simpa using fun h : metric.type = k ↦ hk h.symm)]
    · rw [if_neg hsource]
      by_cases hk : k ∈ interestingSources
      · have hne : metric.type ≠ k := by
          rintro rfl
          exact hsource hk
        rw [if_pos hk, if_pos hk, List.find?_cons_of_neg (by simpa using hne)]
      · rw [if_neg hk, if_neg hk]

theorem nodup_metrics (metrics : List Metric) (h : (m.map Prod.fst).Nodup) :
    ((metrics.foldl addMetric m).map Prod.fst).Nodup := by
  induction metrics generalizing m with
  | nil => exact h
  | cons metric metrics ih =>
    apply ih
    unfold addMetric
    split
    · exact TextMap.nodup_emplace h _ _
    · exact h

/-- The text of a parameter, once the metrics are known. -/
def textOf (metrics : List Metric) (key : String) :
    Except IndicatorFailure String :=
  paramText (metrics.foldl addMetric []) key

theorem lookup_source {source : String} (h : source ∈ interestingSources) :
    paramToSrc.lookup source = none := by
  cases hlookup : paramToSrc.lookup source with
  | none => rfl
  | some src => exact absurd h (param_not_source hlookup)

/-- What a parameter is found under is no parameter. -/
theorem lookup_src {src : String} (h : paramToSrc.lookup key = some src) :
    paramToSrc.lookup src = none := by
  cases htrend : isTrend key with
  | false => exact lookup_source (param_topic h htrend)
  | true =>
    cases hlookup : paramToSrc.lookup src with
    | none => rfl
    | some _ => exact absurd ((param_plain h).2.2.mp htrend) (param_plain hlookup).2.1

theorem readValue_congr {source : String} (h : m.lookup source = m'.lookup source) :
    readValue m source = readValue m' source := by
  unfold readValue
  rw [h]

/-- What is known of the topics decides the text of a parameter. -/
theorem paramText_congr {src : String} (hkey : paramToSrc.lookup key = some src)
    (hm : ∀ k, paramToSrc.lookup k = none → m.lookup k = m'.lookup k) :
    paramText m key = paramText m' key := by
  unfold paramText atKey
  rw [hkey]
  simp only [Checks.ok_bind]
  rw [hm src (lookup_src hkey)]
  cases m'.lookup src with
  | some text => rfl
  | none =>
    dsimp only
    cases htrend : isTrend key with
    | false => rfl
    | true =>
      obtain ⟨average, actual, hsplit, haverage, hactual⟩ := param_trend hkey htrend
      have htrendValue : getTrendValue m key = getTrendValue m' key := by
        unfold getTrendValue atKey
        rw [hkey]
        simp only [Checks.ok_bind]
        rw [hsplit]
        dsimp only
        rw [readValue_congr (hm actual (lookup_source hactual)),
          readValue_congr (hm average (lookup_source haverage))]
      rw [htrendValue]

/-- What a datacenter holds once its metrics and its parameters are put in. -/
def texts (metrics : List Metric) (params : List String) (k : String) :
    Option String :=
  if k ∈ params then (textOf metrics k).toOption else metricText metrics k

/-- Nothing is held that the metrics and the parameters do not tell. -/
def Partly (metrics : List Metric) (params : List String) (m : TextMap) : Prop :=
  (m.map Prod.fst).Nodup ∧ ∀ k v, m.lookup k = some v → texts metrics params k = some v

def Full (metrics : List Metric) (params : List String) (m : TextMap) : Prop :=
  (m.map Prod.fst).Nodup ∧ ∀ k, m.lookup k = texts metrics params k

/-- No text of a parameter throws. -/
def AllTexts (metrics : List Metric) (params : List String) : Prop :=
  ∀ key ∈ params, ∃ text, textOf metrics key = .ok text

theorem Full.partly {metrics : List Metric} {params : List String} (h : Full metrics params m) :
    Partly metrics params m :=
  ⟨h.1, fun k _ hv ↦ (h.2 k).symm.trans hv⟩

theorem partly_nil {metrics : List Metric} {params : List String} : Partly metrics params [] :=
  ⟨List.nodup_nil, fun _ _ h ↦ by cases h⟩

variable {metrics : List Metric} {params : List String}

theorem metricText_param (h : (paramToSrc.lookup key).isSome) : metricText metrics key = none := by
  obtain ⟨src, hsrc⟩ := Option.isSome_iff_exists.mp h
  exact if_neg (param_not_source hsrc)

/-- The parameters are put in one after the other. -/
theorem foldlM_addParam (hparams : ∀ key ∈ params, (paramToSrc.lookup key).isSome)
    (hnodup : (m.map Prod.fst).Nodup)
    (hm : ∀ k, paramToSrc.lookup k = none → m.lookup k = metricText metrics k) :
    AllTexts metrics params ∧
      (∃ m', params.foldlM addParam m = .ok m' ∧ (m'.map Prod.fst).Nodup ∧
        ∀ k, m'.lookup k =
          (m.lookup k).or (if k ∈ params then (textOf metrics k).toOption else none)) ∨
    ¬ AllTexts metrics params ∧
      ∃ e, params.foldlM addParam m = .error e := by
  induction params generalizing m with
  | nil =>
    left
    refine ⟨fun _ h ↦ absurd h List.not_mem_nil, m, rfl, hnodup, fun k ↦ ?_⟩
    rw [if_neg List.not_mem_nil, Option.or_none]
  | cons key params ih =>
    obtain ⟨src, hsrc⟩ := Option.isSome_iff_exists.mp (hparams key List.mem_cons_self)
    have hrest : ∀ key ∈ params, (paramToSrc.lookup key).isSome := by
      intro other hother
      exact hparams other (List.mem_cons_of_mem _ hother)
    have htext : paramText m key = textOf metrics key := by
      apply paramText_congr hsrc
      intro k hk
      rw [hm k hk, lookup_metrics]
      rfl
    rw [List.foldlM_cons]
    unfold addParam
    rw [htext]
    cases hvalue : textOf metrics key with
    | error e =>
      right
      refine ⟨fun hall ↦ ?_, e, rfl⟩
      obtain ⟨text, htext⟩ := hall key List.mem_cons_self
      rw [hvalue] at htext
      cases htext
    | ok value =>
      -- a parameter is no source, so the texts of the others do not change
      have hlookup := TextMap.lookup_emplace m key value
      have hstep := ih (m := m.emplace key value) hrest (TextMap.nodup_emplace hnodup key value) (by
        intro k hk
        have hne : k ≠ key := by
          rintro rfl
          rw [hsrc] at hk
          cases hk
        rw [hlookup, if_neg hne, Option.or_none, hm k hk])
      rcases hstep with ⟨hall, m', hm', hnodup', hlookup'⟩ | ⟨hnot, e, he⟩
      · left
        refine ⟨List.forall_mem_cons.mpr ⟨⟨value, hvalue⟩, hall⟩, m', hm', hnodup', fun k ↦ ?_⟩
        rw [hlookup', hlookup, Option.or_assoc]
        congr 1
        by_cases hk : k = key
        · subst hk
          rw [if_pos rfl, if_pos List.mem_cons_self, hvalue, Option.some_or]
          rfl
        · simp only [hk, if_false, Option.none_or, List.mem_cons, false_or]
      · right
        refine ⟨fun hall ↦ hnot (List.forall_mem_cons.mp hall).2, e, he⟩

theorem addTexts_spec (hparams : ∀ key ∈ params, (paramToSrc.lookup key).isSome)
    (h : Partly metrics params m) :
    AllTexts metrics params ∧
      (∃ m', addTexts metrics params m = .ok m' ∧ Full metrics params m') ∨
    ¬ AllTexts metrics params ∧ ∃ e, addTexts metrics params m = .error e := by
  have hnodup := nodup_metrics metrics h.1
  -- a topic of a metric is not itself a parameter, so the map holds its metric
  have htopic : ∀ k, paramToSrc.lookup k = none →
      List.lookup k (metrics.foldl addMetric m) = metricText metrics k := by
    intro k hk
    have hmem : k ∉ params := by
      intro hmem
      have hsome := hparams k hmem
      rw [hk] at hsome
      cases hsome
    rw [lookup_metrics]
    cases hlookup : m.lookup k with
    | none => exact Option.none_or
    | some _ =>
      have hv := h.2 k _ hlookup
      rw [texts, if_neg hmem] at hv
      rw [hv, Option.some_or]
  refine (foldlM_addParam hparams hnodup htopic).imp_left ?_
  rintro ⟨hall, m', hm', hnodup', hlookup⟩
  refine ⟨hall, m', hm', hnodup', fun k ↦ ?_⟩
  rw [hlookup, lookup_metrics]
  -- for a parameter the text was computed, for any other key it is the metric
  by_cases hk : k ∈ params
  · rw [metricText_param (hparams k hk), Option.or_none, if_pos hk]
    have hpartly := h.2 k
    unfold texts at hpartly ⊢
    rw [if_pos hk] at hpartly ⊢
    cases hlookup : m.lookup k with
    | none => rw [Option.none_or]
    | some _ => rw [Option.some_or, hpartly _ hlookup]
  · rw [if_neg hk, Option.or_none]
    have hpartly := h.2 k
    unfold texts at hpartly ⊢
    rw [if_neg hk] at hpartly ⊢
    cases hlookup : m.lookup k with
    | none => rw [Option.none_or]
    | some _ => rw [Option.some_or, hpartly _ hlookup]

/-! ## All datacenters -/

variable {env : IndicatorEnv}

/-- The metrics of a datacenter whose read did not fail. -/
def metricsOf (env : IndicatorEnv) (name : String) : List Metric := (env.readMetrics name).getD []

/-- Each datacenter that is known is known in full. -/
def Known (env : IndicatorEnv) (params : List String) (dataDc : DataDc) : Prop :=
  ∀ name m, dataDc.lookup name = some m → Full (metricsOf env name) params m

theorem collectDc_spec {dataDc : DataDc} {aDc : String}
    (hparams : ∀ key ∈ params, (paramToSrc.lookup key).isSome)
    (hread : (env.readMetrics aDc).isSome) (hknown : Known env params dataDc) :
    (metricsOf env aDc ≠ [] → AllTexts (metricsOf env aDc) params) ∧
      (∃ dataDc', collectDc env params dataDc aDc = .ok dataDc' ∧ Known env params dataDc' ∧
        ∀ name, (dataDc'.lookup name).isSome ↔
          (dataDc.lookup name).isSome ∨ name = aDc ∧ metricsOf env aDc ≠ []) ∨
    ¬ (metricsOf env aDc ≠ [] → AllTexts (metricsOf env aDc) params) ∧
      ∃ e, collectDc env params dataDc aDc = .error e := by
  obtain ⟨metrics, hmetrics⟩ := Option.isSome_iff_exists.mp hread
  have hof : metricsOf env aDc = metrics := by
    unfold metricsOf
    rw [hmetrics, Option.getD_some]
  unfold collectDc
  rw [hmetrics, hof]
  dsimp only
  by_cases hnil : metrics = []
  · left
    refine ⟨fun hne ↦ absurd hnil hne, dataDc, ?_, hknown, fun name ↦ ?_⟩
    · rw [hnil, List.length_nil, if_pos rfl]
    · simp [hnil]
  · rw [if_neg fun h ↦ hnil (List.length_eq_zero_iff.mp h)]
    -- a datacenter that was known before is known with the same texts
    have hpartly : Partly metrics params ((dataDc.lookup aDc).getD []) := by
      cases hlookup : dataDc.lookup aDc with
      | none => exact partly_nil
      | some m =>
        have hm := (hknown aDc m hlookup).partly
        rwa [hof] at hm
    rcases addTexts_spec hparams hpartly with ⟨hall, row, hrow, hfull⟩ | ⟨hnot, e, he⟩
    · left
      rw [hrow]
      refine ⟨fun _ ↦ hall, _, rfl, fun name m hm ↦ ?_, fun name ↦ ?_⟩
      · rw [AssocList.lookup_put] at hm
        by_cases hname : name = aDc
        · rw [if_pos hname] at hm
          rw [hname, hof, ← Option.some.inj hm]
          exact hfull
        · rw [if_neg hname] at hm
          exact hknown name m hm
      · rw [AssocList.lookup_put]
        by_cases hname : name = aDc
        · simp [hname, hnil]
        · simp [hname]
    · right
      rw [he]
      exact ⟨fun h ↦ hnot (h hnil), e, rfl⟩

theorem collect_spec {names : List String} {dataDc : DataDc}
    (hparams : ∀ key ∈ params, (paramToSrc.lookup key).isSome)
    (hread : ∀ name ∈ names, (env.readMetrics name).isSome) (hknown : Known env params dataDc) :
    (∀ name ∈ names, metricsOf env name ≠ [] → AllTexts (metricsOf env name) params) ∧
      (∃ dataDc', names.foldlM (collectDc env params) dataDc = .ok dataDc' ∧
        Known env params dataDc' ∧
        ∀ name, (dataDc'.lookup name).isSome ↔
          (dataDc.lookup name).isSome ∨ name ∈ names ∧ metricsOf env name ≠ []) ∨
    (¬ ∀ name ∈ names, metricsOf env name ≠ [] → AllTexts (metricsOf env name) params) ∧
      ∃ e, names.foldlM (collectDc env params) dataDc = .error e := by
  induction names generalizing dataDc with
  | nil =>
    left
    exact ⟨fun _ h ↦ absurd h List.not_mem_nil, dataDc, rfl, hknown, fun name ↦ by simp⟩
  | cons aDc names ih =>
    rw [List.foldlM_cons, List.forall_mem_cons]
    have hrest : ∀ name ∈ names, (env.readMetrics name).isSome := by
      intro name hname
      exact hread name (List.mem_cons_of_mem _ hname)
    -- a datacenter without metrics enters nothing;
    -- for another one each parameter gets its text, or one throws
    rcases collectDc_spec hparams (hread aDc List.mem_cons_self) hknown with
      ⟨hthis, next, hnext, hknown', hsome⟩ | ⟨hnot, e, he⟩
    · rw [hnext, Checks.ok_bind]
      rcases ih hrest hknown' with ⟨hall, last, hlast, hknown'', hsome'⟩ | ⟨hnot, e, he⟩
      · left
        refine ⟨⟨hthis, hall⟩, last, hlast, hknown'', fun name ↦ ?_⟩
        rw [hsome', hsome, List.mem_cons, or_assoc, or_and_right]
        apply or_congr_right
        apply or_congr_left
        constructor
        · rintro ⟨rfl, hne⟩
          exact ⟨rfl, hne⟩
        · rintro ⟨rfl, hne⟩
          exact ⟨rfl, hne⟩
      · right
        exact ⟨fun h ↦ hnot h.2, e, he⟩
    · right
      rw [he]
      exact ⟨fun h ↦ hnot h.1, e, rfl⟩

end

/-! ## What is printed -/

/-- What is printed of a datacenter. -/
structure Indicator where
  id : String
  name : String
  members : List (String × String)
deriving DecidableEq, Repr

def memberText (member : String × String) : String := "\"" ++ member.1 ++ "\":" ++ member.2

def membersText : List (String × String) → String
  | [] => ""
  | member :: members => "," ++ memberText member ++ membersText members

def objectText (o : Indicator) : String :=
  "\x7b" ++ "\"id\": \"" ++ o.id ++ "\"," ++ "\"name\": \"" ++ o.name ++ "\"" ++
    membersText o.members ++ " " ++ "\x7d"

def indicatorsText (objects : List Indicator) : String :=
  "\x7b\"datacenter_indicators\": [" ++ JsonText.commaText (objects.map objectText) ++ "]\x7d"

/-- The members that are printed of the texts of a datacenter. -/
def printedMembers (rows : TextMap) : List (String × String) :=
  (rows.filter fun row ↦ (paramToSrc.lookup row.1).isSome).map fun row ↦
    (row.1, printedValue row.2)

section

variable {env : IndicatorEnv} {dataDc : DataDc}

theorem foldl_printRow (rows : TextMap) (json : String) :
    rows.foldl printRow (json ++ ",") = json ++ membersText (printedMembers rows) ++ "," := by
  induction rows generalizing json with
  | nil =>
    show json ++ "," = json ++ "" ++ ","
    rw [String.append_empty]
  | cons row rows ih =>
    rw [List.foldl_cons]
    -- only the keys that are parameters are printed, the topics next to them are not
    by_cases halias : (paramToSrc.lookup row.1).isSome = true
    · have hmembers : printedMembers (row :: rows) =
          (row.1, printedValue row.2) :: printedMembers rows := by
        unfold printedMembers
        rw [List.filter_cons, if_pos halias, List.map_cons]
      have hrow : printRow (json ++ ",") row =
          json ++ ("," ++ memberText (row.1, printedValue row.2)) ++ "," := by
        unfold printRow memberText
        rw [if_pos halias]
        simp only [String.append_assoc]
      rw [hrow, ih, hmembers, membersText]
      simp only [String.append_assoc]
    · have hmembers : printedMembers (row :: rows) = printedMembers rows := by
        unfold printedMembers
        rw [List.filter_cons, if_neg halias]
      have hrow : printRow (json ++ ",") row = json ++ "," := by
        unfold printRow
        rw [if_neg halias]
      rw [hrow, ih, hmembers]

theorem blankBack_append (json : String) : blankBack (json ++ ",") = json ++ " " := by
  unfold blankBack
  rw [← String.toList_inj, String.toList_ofList, String.toList_append, String.toList_append]
  rw [show ",".toList = [','] by rfl, show " ".toList = [' '] by rfl, List.dropLast_concat]

/-- The object of a datacenter. -/
def dcObject (env : IndicatorEnv) (dataDc : DataDc) (dc : Nat × String) :
    Except IndicatorFailure Indicator :=
  if (env.idToNameExtName dc.1).1 = "" && (env.idToNameExtName dc.1).2 = "" then
    .error (.die (internalError "Database failure"))
  else
    match dataDc.lookup dc.2 with
    | none => .error .outOfRange
    | some rows => .ok ⟨dc.2, (env.idToNameExtName dc.1).2, printedMembers rows⟩

theorem printDc_eq (count : Nat) (json : String) (dc : Nat × String) (i : Nat) :
    printDc env dataDc count json (dc, i) =
      match dcObject env dataDc dc with
      | .error e => .error e
      | .ok o => .ok (json ++ objectText o ++ if i < count - 1 then "," else "") := by
  obtain ⟨id, name⟩ := dc
  unfold printDc dcObject atKey
  dsimp only
  by_cases hnames : ((env.idToNameExtName id).1 = "" && (env.idToNameExtName id).2 = "") = true
  · rw [if_pos hnames, if_pos hnames]
    rfl
  · rw [if_neg hnames, if_neg hnames]
    cases dataDc.lookup name with
    | none => rfl
    | some rows =>
      have hcomma (base : String) : base ++ "\"," = base ++ "\"" ++ "," := by
        rw [String.append_assoc]
        rfl
      show Except.ok (blankBack (rows.foldl printRow (json ++ "\x7b" ++ "\"id\": \"" ++ name ++
        "\"," ++ "\"name\": \"" ++ (env.idToNameExtName id).2 ++ "\",")) ++ "\x7d" ++ _) = _
      rw [hcomma (_ ++ (env.idToNameExtName id).2), foldl_printRow, blankBack_append]
      unfold objectText
      simp only [String.append_assoc]

theorem foldlM_printDc {n k : Nat} {dcs : List (Nat × String)} (hk : k + dcs.length = n)
    (json : String) :
    (dcs.zipIdx k).foldlM (printDc env dataDc n) json =
      match dcs.mapM (dcObject env dataDc) with
      | .error e => .error e
      | .ok objects => .ok (json ++ JsonText.commaText (objects.map objectText)) := by
  induction dcs generalizing k json with
  | nil =>
    show Except.ok json = Except.ok (json ++ "")
    rw [String.append_empty]
  | cons dc dcs ih =>
    rw [List.length_cons] at hk
    rw [List.zipIdx_cons, List.foldlM_cons, List.mapM_cons, printDc_eq]
    cases dcObject env dataDc dc with
    | error e => rfl
    | ok o =>
      simp only [Checks.ok_bind]
      rw [ih (by omega)]
      cases hobjects : dcs.mapM (dcObject env dataDc) with
      | error e => rfl
      | ok objects =>
        show Except.ok _ = Except.ok _
        congr 1
        rw [List.map_cons]
        -- a comma follows each object but the last, which the source tells by its position
        by_cases hdcs : dcs = []
        · subst hdcs
          have hnil : objects = [] := by
            cases hobjects
            rfl
          rw [List.length_nil] at hk
          rw [hnil, if_neg (by omega)]
          show json ++ objectText o ++ "" ++ "" = json ++ objectText o
          rw [String.append_empty, String.append_empty]
        · have hpos := List.length_pos_iff.mpr hdcs
          have hne : objects ≠ [] := by
            rintro rfl
            exact hdcs (List.forall₂_nil_right_iff.mp (Checks.mapM_ok_iff.mp hobjects))
          rw [if_pos (by omega), JsonText.commaText_cons (by simpa using hne)]
          simp only [String.append_assoc]

/-- The objects that are printed for the datacenters. -/
def printedObjects (env : IndicatorEnv) (dcs : List (Nat × String))
    (requestedParams : List String) : Except IndicatorFailure (List Indicator) := do
  let dataDc ← (dcs.map Prod.snd).foldlM (collectDc env requestedParams) []
  dcs.mapM (dcObject env dataDc)

/-- The answer is the text of the objects. -/
theorem indicators_eq (env : IndicatorEnv) (dcs : List (Nat × String))
    (requestedParams : List String) :
    indicators env dcs requestedParams =
      match printedObjects env dcs requestedParams with
      | .error e => .error e
      | .ok objects => .ok (indicatorsText objects) := by
  unfold indicators printedObjects printDcs
  cases (dcs.map Prod.snd).foldlM (collectDc env requestedParams) [] with
  | error e => rfl
  | ok dataDc =>
    simp only [Checks.ok_bind]
    rw [foldlM_printDc (Nat.zero_add _)]
    cases dcs.mapM (dcObject env dataDc) with
    | error e => rfl
    | ok objects => rfl

end

end FtyRest.Ecpp
