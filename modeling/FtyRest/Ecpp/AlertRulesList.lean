import FtyRest.Ecpp.Mlm
import FtyRest.Lib.FindReplace

/-!
# The list of alert rules

`alert_rules_list.ecpp`: the documents of the rules, with the friendly names that the assets have
now.  The name of the last asset is kept from rule to rule.
-/

namespace FtyRest.Ecpp

open Checks Mailbox FindReplace

structure RulesListEnv where
  databaseReady : Bool
  checkUserPermissions : Except HttpDie Unit
  /-- `check_regex_text` with `^.{0,100}$` -/
  checkRuleClass : String → Except HttpDie Unit
  mlm : Mlm
  deserialize : List Char → Option Json
  /-- The name that `name_to_extname` puts in place, unless it fails. -/
  nameToExtname : String → Option String

/-- The checked parameters of a request. -/
structure RulesFilter where
  checkedType : String
  checkedRuleClass : String
deriving DecidableEq, Repr

/-- The variables for assetLink and ename. -/
structure Names where
  assetLink : String := ""
  externalName : String := ""
deriving DecidableEq, Repr

/-- `\"ename\"`, as it is written inside a text -/
def enameKey : List Char := ['\\', '"', 'e', 'n', 'a', 'm', 'e', '\\', '"']

def catInternal : List Char := "\"CAT_INTERNAL\"".toList

def catAutomation : List Char := "\"CAT_AUTOMATION\"".toList

/-- The `ename` section from its brace on; without one `substr` throws. -/
def currentEname (data : List Char) : Option (List Char) :=
  match find enameKey data with
  | none => none
  | some found =>
      match findFrom ['\x7b'] data found with
      | none => none
      | some start =>
          match findFrom ['\x7d'] data found with
          | none => some (data.drop start)
          | some last =>
              -- the length wraps around where the closing brace is before the other one
              if last + 1 < start then some (data.drop start)
              else some ((data.drop start).take (last + 1 - start))

section

variable (env : RulesListEnv)

/-- The `assetLink` of a section, once its quotes are those of a document. -/
def sectionLink (ename : List Char) : Option String :=
  (env.deserialize (replaceAll ['\\', '"'] ['"'] ename)).bind fun siEname ↦
    (siEname.getMember "assetLink").map Json.getValue

/-- recover the data of the asset if needed -/
def Names.look (names : Names) (link : String) : Names :=
  if link = names.assetLink then names
  else ⟨link, (env.nameToExtname link).getD names.externalName⟩

def newEname (names : Names) : List Char :=
  "\x7b \\\"value\\\" : \\\"".toList ++ names.externalName.toList ++
    "\\\", \\\"assetLink\\\" : \\\"".toList ++ names.assetLink.toList ++ "\\\"\x7d".toList

/-- The text of a rule with the names, where it is a document still. -/
def renamed (ename : List Char) (names : Names) (data : List Char) : List Char :=
  let newData := replaceLoop ename (newEname names) data 0
  if (env.deserialize newData).isSome then newData else data

/-- A rule with an `ename` section; a loop that replaces nothing at all does not end. -/
def renameRule (names : Names) (data : List Char) : Except Ended (Names × List Char) :=
  match currentEname data with
  | none => .ok (names, data)
  | some ename =>
      match sectionLink env ename with
      | none => .ok (names, data)
      | some link =>
          if ename = [] then .error .waiting
          else .ok (names.look env link, renamed env ename (names.look env link) data)

def isListed (part : List Char) : Bool :=
  (find catInternal part).isNone && (find catAutomation part).isNone

/-- The rules of the answer. -/
def collectRules (names : Names) : List (List Char) → Except Ended (List Json)
  | [] => .ok []
  | part :: parts =>
      if isListed part then do
        let (names', data) ← renameRule env names part
        let siRule ← orThrow (env.deserialize data) .thrown
        let rules ← collectRules names' parts
        return siRule :: rules
      else collectRules names parts

def RulesFilter.refused (filter : RulesFilter) (reason : String) : Ended :=
  if reason = "NOT_FOUND" then
    .died ⟨"request-param-bad", ["type", "'" ++ filter.checkedType ++ "'",
      "one of the following values [ 'threshold', 'single', 'pattern', 'all' ] or empty"]⟩
  else
    .died (internalError ("Error while retrieving list of rules with type = '" ++
      filter.checkedType ++ "': " ++ reason ++ "."))

/-- Check command. Can be LIST or ERROR. -/
def readRulesList (filter : RulesFilter) (frames : List String) : Except Ended (List Json) := do
  let (command, parts) ← popCommand frames
  if command = "LIST" then
    let (type, parts) ← popCommand parts
    require (type = filter.checkedType)
      (.died (internalError "Received type != expected one!"))
    let (ruleClass, parts) ← popCommand parts
    require (ruleClass = filter.checkedRuleClass)
      (.died (internalError "Received rule_class != expected one!"))
    collectRules env {} (parts.map String.toList)
  else if command = "ERROR" then
    let (reason, _) ← popPart parts
    throw (filter.refused reason)
  else throw badMessage

def ruleTypes : List String := ["threshold", "single", "pattern", "all", "flexible"]

def checkRulesList (param : String → String) : Except HttpDie RulesFilter := do
  require (env.databaseReady = true)
    (internalError "Database is not ready yet, please try again after a while.")
  env.checkUserPermissions
  let type := if param "type" = "" then "all" else param "type"
  require (type ∈ ruleTypes) ⟨"request-param-bad", ["type", "'" ++ type ++ "'",
    "one of the following values ['threshold', 'single', 'pattern', 'all', 'flexible']"]⟩
  env.checkRuleClass (param "rule_class")
  return ⟨type, param "rule_class"⟩

def RulesFilter.engine (filter : RulesFilter) : String :=
  if filter.checkedType = "flexible" then "fty-alert-flexible" else "fty-alert-engine"

/-- The calls of `exchange`, with one more before the poller. -/
def exchangeRulesList (filter : RulesFilter) : Except Ended (List String) := do
  require (env.mlm.sendto = true) (callFailed "" "mlm_client_sendto")
  require (env.mlm.msgpipe = true) (callFailed "" "mlm_client_msgpipe")
  exchange env.mlm "" filter.engine "rfc-evaluator-rules" false

def alertRulesList (param : String → String) : Except Ended (List Json) := do
  let filter ← (checkRulesList env param).mapError .died
  prepare env.mlm "" [1000]
  let frames ← exchangeRulesList env filter
  readRulesList env filter (frames.map cStr)

end

/-! ## The names in the list -/

section

variable (env : RulesListEnv)

def partLink (part : List Char) : Option String := (currentEname part).bind (sectionLink env)

/-- The assets of the rules that are listed. -/
def shownLinks (parts : List (List Char)) : List String :=
  (parts.filter isListed).filterMap (partLink env)

/-- The name of the last one of the assets that can be found. -/
def lastFound (links : List String) : String := (links.filterMap env.nameToExtname).getLastD ""

/-- The text of a rule, with a name for its asset in each copy of its section. -/
def ruleText (name : String → String) (data : List Char) : List Char :=
  match currentEname data with
  | none => data
  | some ename =>
      match sectionLink env ename with
      | none => data
      | some link =>
          let newData := replaceAll ename (newEname ⟨link, name link⟩) data
          if (env.deserialize newData).isSome then newData else data

/-- The variables after the rules of some assets. -/
def namesAfter (links : List String) : Names := ⟨links.getLastD "", lastFound env links⟩

end

section

variable {env : RulesListEnv}

theorem lastFound_concat (links : List String) (link : String) :
    lastFound env (links ++ [link]) = (env.nameToExtname link).getD (lastFound env links) := by
  unfold lastFound
  rw [List.filterMap_append]
  cases hname : env.nameToExtname link with
  | none => simp [hname]
  | some name => simp [hname]

/-- What is kept from rule to rule is what would be looked up. -/
theorem look_namesAfter (hempty : env.nameToExtname "" = none) (links : List String)
    (link : String) :
    (namesAfter env links).look env link = namesAfter env (links ++ [link]) := by
  have hlast : (links ++ [link]).getLastD "" = link := by simp
  unfold Names.look namesAfter
  dsimp only
  rw [hlast, lastFound_concat]
  split
  · rename_i heq
    rw [← heq]
    cases hname : env.nameToExtname link with
    | none => rfl
    | some name =>
      -- the asset is the one of the rule before, whose name is there already
      have hne : links ≠ [] := by
        rintro rfl
        rw [heq] at hname
        exact absurd (hempty.symm.trans hname) nofun
      obtain ⟨before, last, rfl⟩ := List.eq_nil_or_concat links |>.resolve_left hne
      rw [List.concat_eq_append] at heq ⊢
      have hlink : link = last := by simpa using heq
      rw [lastFound_concat, ← hlink, hname]
      rfl
  · rfl

theorem renameRule_eq_ok (hempty : env.nameToExtname "" = none) {links : List String}
    {names : Names} {data text : List Char}
    (h : renameRule env (namesAfter env links) data = .ok (names, text)) :
    names = namesAfter env (links ++ (partLink env data).toList) ∧
      text = ruleText env (fun link ↦ lastFound env (links ++ [link])) data := by
  unfold renameRule at h
  unfold partLink ruleText
  cases hename : currentEname data with
  | none =>
    rw [hename] at h
    cases h
    exact ⟨by rw [Option.bind_none, Option.toList_none, List.append_nil], rfl⟩
  | some ename =>
    rw [hename] at h
    dsimp only at h ⊢
    rw [Option.bind_some]
    cases hlink : sectionLink env ename with
    | none =>
      rw [hlink] at h
      cases h
      exact ⟨by rw [Option.toList_none, List.append_nil], rfl⟩
    | some link =>
      rw [hlink] at h
      dsimp only at h ⊢
      split at h
      · cases h
      · rename_i hne
        -- the name found last is kept where the section has none
        rw [look_namesAfter hempty] at h
        cases h
        refine ⟨rfl, ?_⟩
        have hnames : namesAfter env (links ++ [link]) =
            ⟨link, lastFound env (links ++ [link])⟩ := by
          unfold namesAfter
          simp
        unfold renamed
        rw [replaceLoop_eq hne (Nat.zero_le _), List.take_zero, List.nil_append, List.drop_zero,
          hnames]

theorem collectRules_from (hempty : env.nameToExtname "" = none) {links : List String}
    {parts : List (List Char)} {rules : List Json}
    (h : collectRules env (namesAfter env links) parts = .ok rules) :
    rules.length = (parts.filter isListed).length ∧
      ∀ before part after, parts = before ++ part :: after → isListed part = true →
        ∃ siRule, rules[(before.filter isListed).length]? = some siRule ∧
          env.deserialize (ruleText env
            (fun link ↦ lastFound env (links ++ shownLinks env before ++ [link])) part) =
              some siRule := by
  induction parts generalizing links rules with
  | nil =>
    cases h
    refine ⟨rfl, fun before part after heq ↦ ?_⟩
    exact absurd heq.symm (List.append_ne_nil_of_right_ne_nil _ (List.cons_ne_nil _ _))
  | cons first parts ih =>
    rw [collectRules] at h
    by_cases hfirst : isListed first = true
    · rw [if_pos hfirst] at h
      simp only [bind_eq_ok, Prod.exists, orThrow_eq_ok, pure_eq_ok] at h
      obtain ⟨names, data, hrename, siRule, hrule, rest, hrest, rfl⟩ := h
      obtain ⟨rfl, rfl⟩ := renameRule_eq_ok hempty hrename
      obtain ⟨hlength, hrules⟩ := ih hrest
      refine ⟨by rw [List.filter_cons_of_pos hfirst, List.length_cons, List.length_cons, hlength],
        ?_⟩
      intro before part after heq hpart
      -- the rule is the first part, or it stands behind the first, which may have left a name
      cases before with
      | nil =>
        obtain ⟨rfl, rfl⟩ := List.cons_eq_cons.mp heq
        refine ⟨siRule, rfl, ?_⟩
        rw [← hrule]
        simp [shownLinks]
      | cons head before =>
        obtain ⟨rfl, rfl⟩ := List.cons_eq_cons.mp heq
        obtain ⟨siRule', hget, htext⟩ := hrules before part after rfl hpart
        rw [List.filter_cons_of_pos hfirst]
        refine ⟨siRule', hget, ?_⟩
        have hshown : shownLinks env (first :: before) =
            (partLink env first).toList ++ shownLinks env before := by
          unfold shownLinks
          rw [List.filter_cons_of_pos hfirst]
          cases hlink : partLink env first <;> simp [hlink]
        rw [hshown, ← List.append_assoc]
        exact htext
    · rw [if_neg hfirst] at h
      obtain ⟨hlength, hrules⟩ := ih h
      refine ⟨by rw [List.filter_cons_of_neg hfirst, hlength], ?_⟩
      intro before part after heq hpart
      cases before with
      | nil =>
        obtain ⟨rfl, rfl⟩ := List.cons_eq_cons.mp heq
        exact absurd hpart hfirst
      | cons head before =>
        obtain ⟨rfl, rfl⟩ := List.cons_eq_cons.mp heq
        have hshown : shownLinks env (first :: before) = shownLinks env before := by
          unfold shownLinks
          rw [List.filter_cons_of_neg hfirst]
        rw [List.filter_cons_of_neg hfirst, hshown]
        exact hrules before part after rfl hpart

theorem readRulesList_eq_ok {filter : RulesFilter} {frames : List String} {rules : List Json} :
    readRulesList env filter frames = .ok rules ↔ ∃ parts,
      frames = ["LIST", filter.checkedType, filter.checkedRuleClass] ++ parts ∧
        collectRules env {} (parts.map String.toList) = .ok rules := by
  unfold readRulesList
  simp only [bind_eq_ok, Prod.exists, popCommand_eq_ok]
  constructor
  · rintro ⟨command, parts, rfl, h⟩
    by_cases hlist : command = "LIST"
    · rw [if_pos hlist] at h
      simp only [bind_eq_ok, Prod.exists, popCommand_eq_ok, require_eq_ok] at h
      obtain ⟨_, _, rfl, _, rfl, _, parts, rfl, _, rfl, h⟩ := h
      rw [hlist]
      exact ⟨parts, rfl, h⟩
    · rw [if_neg hlist] at h
      split at h
      · simp at h
      · cases h
  · rintro ⟨parts, rfl, h⟩
    refine ⟨"LIST", _, rfl, ?_⟩
    rw [if_pos rfl]
    simp only [bind_eq_ok, Prod.exists, popCommand_eq_ok, require_eq_ok]
    exact ⟨_, _, rfl, (), rfl, _, parts, rfl, (), rfl, h⟩

/-- The list has the document of every rule that is not hidden.  The name in it is that of the last
asset that could be found, which is the asset of the rule itself whenever that one is found. -/
theorem alertRulesList_names (hempty : env.nameToExtname "" = none) {param : String → String}
    {rules : List Json} (h : alertRulesList env param = .ok rules) :
    ∃ filter frames parts, checkRulesList env param = .ok filter ∧
      exchangeRulesList env filter = .ok frames ∧
      frames.map cStr = ["LIST", filter.checkedType, filter.checkedRuleClass] ++ parts ∧
      rules.length = ((parts.map String.toList).filter isListed).length ∧
      ∀ before part after, parts.map String.toList = before ++ part :: after →
        isListed part = true →
        (∃ siRule, rules[(before.filter isListed).length]? = some siRule ∧
          env.deserialize (ruleText env
            (fun link ↦ lastFound env (shownLinks env before ++ [link])) part) = some siRule) ∧
        ∀ link name, partLink env part = some link → env.nameToExtname link = some name →
          lastFound env (shownLinks env before ++ [link]) = name := by
  unfold alertRulesList at h
  simp only [bind_eq_ok, mapError_eq_ok, readRulesList_eq_ok] at h
  obtain ⟨filter, hfilter, _, -, frames, hframes, parts, hparts, hrules⟩ := h
  obtain ⟨hlength, hall⟩ := @collectRules_from env hempty [] _ _ hrules
  refine ⟨filter, frames, parts, hfilter, hframes, hparts, hlength, ?_⟩
  intro before part after heq hpart
  refine ⟨hall before part after heq hpart, ?_⟩
  intro link name _ hname
  rw [lastFound_concat, hname]
  rfl

/-- In the text of a rule nothing changes but the copies of its section, and these only where the
new text is a document. -/
theorem renamed_pieces {ename : List Char} (hne : ename ≠ []) (names : Names) (data : List Char) :
    ∃ pieces, data = ename.intercalate pieces ∧ (∀ piece ∈ pieces, ¬ ename <:+: piece) ∧
      renamed env ename names data =
        if (env.deserialize ((newEname names).intercalate pieces)).isSome = true then
          (newEname names).intercalate pieces
        else data := by
  refine ⟨splits ename data, (intercalate_splits hne data).symm,
    fun _ h ↦ not_infix_of_mem_splits hne h, ?_⟩
  unfold renamed
  dsimp only
  rw [replaceLoop_eq hne (Nat.zero_le _), List.take_zero, List.nil_append, List.drop_zero]
  rfl

end

/-- A rule of an asset, without a name and with one. -/
def assetRule (asset : String) : String :=
  "\x7b\"a\":\"\\\"ename\\\":\x7b\\\"assetLink\\\":\\\"" ++ asset ++ "\\\"\x7d\"\x7d"

def namedRule (asset : String) : String :=
  "\x7b\"a\":\"\\\"ename\\\":\x7b \\\"value\\\" : \\\"UPS\\\", " ++
    "\\\"assetLink\\\" : \\\"" ++ asset ++ "\\\"\x7d\"\x7d"

def namedDocument (asset : String) : Json :=
  .object [("a", .str ("\"ename\":\x7b \"value\" : \"UPS\", \"assetLink\" : \"" ++ asset ++
    "\"\x7d"))]

/-- Two rules and one that is hidden; the second rule is for an asset that is not found. -/
def upsRulesEnv : RulesListEnv where
  databaseReady := true
  checkUserPermissions := .ok ()
  checkRuleClass _ := .ok ()
  mlm :=
    { agentFtyAlertList := "fty-alert-list"
      clientNew := true
      connect := fun _ ↦ true
      zmsgNew := true
      sendto := true
      msgpipe := true
      pollerNew := true
      wakes := [.readable (some ⟨"fty-alert-engine", "rfc-evaluator-rules",
        ["LIST", "all", "", assetRule "ups-1", assetRule "ups-2",
          "\x7b\"rule_cat\":[\"CAT_INTERNAL\"]\x7d"]⟩)] }
  deserialize text :=
    if text = "\x7b\"assetLink\":\"ups-1\"\x7d".toList then
      some (.object [("assetLink", .str "ups-1")])
    else if text = "\x7b\"assetLink\":\"ups-2\"\x7d".toList then
      some (.object [("assetLink", .str "ups-2")])
    else if text = (namedRule "ups-1").toList then some (namedDocument "ups-1")
    else if text = (namedRule "ups-2").toList then some (namedDocument "ups-2")
    else none
  nameToExtname name := if name = "ups-1" then some "UPS" else none

/-- The second rule is shown with the name of the first one. -/
theorem alertRulesList_names_ups : ∃ rules,
    alertRulesList upsRulesEnv (fun _ ↦ "") = .ok rules ∧ rules.length = 2 ∧
      rules[1]? = some (namedDocument "ups-2") := by
  have hlength : ((alertRulesList upsRulesEnv fun _ ↦ "").map List.length).toOption = some 2 := by
    decide +kernel
  cases h : alertRulesList upsRulesEnv fun _ ↦ "" with
  | error e =>
    rw [h] at hlength
    cases hlength
  | ok rules =>
    rw [h] at hlength
    refine ⟨rules, rfl, Option.some.inj hlength, ?_⟩
    obtain ⟨filter, frames, parts, hfilter, hframes, hparts, -, hall⟩ :=
      alertRulesList_names (by decide +kernel) h
    obtain rfl : (⟨"all", ""⟩ : RulesFilter) = filter := Except.ok.inj hfilter
    have hreply : exchangeRulesList upsRulesEnv ⟨"all", ""⟩ = .ok ["LIST", "all", "",
        assetRule "ups-1", assetRule "ups-2", "\x7b\"rule_cat\":[\"CAT_INTERNAL\"]\x7d"] := by
      decide +kernel
    obtain rfl := Except.ok.inj (hreply.symm.trans hframes)
    have hthree : parts = [assetRule "ups-1", assetRule "ups-2",
        "\x7b\"rule_cat\":[\"CAT_INTERNAL\"]\x7d"] := by
      have hcStr : ["LIST", "all", "", assetRule "ups-1", assetRule "ups-2",
            "\x7b\"rule_cat\":[\"CAT_INTERNAL\"]\x7d"].map cStr =
          ["LIST", "all", ""] ++ [assetRule "ups-1", assetRule "ups-2",
            "\x7b\"rule_cat\":[\"CAT_INTERNAL\"]\x7d"] := by
        decide +kernel
      exact List.append_cancel_left (hparts.symm.trans hcStr)
    obtain ⟨⟨siRule, hget, htext⟩, -⟩ := hall [(assetRule "ups-1").toList]
      (assetRule "ups-2").toList ["\x7b\"rule_cat\":[\"CAT_INTERNAL\"]\x7d".toList]
      (by rw [hthree]; rfl) (by decide +kernel)
    have hnamed : ruleText upsRulesEnv
        (fun link ↦ lastFound upsRulesEnv
          (shownLinks upsRulesEnv [(assetRule "ups-1").toList] ++ [link]))
        (assetRule "ups-2").toList = (namedRule "ups-2").toList := by
      decide +kernel
    have hdocument : upsRulesEnv.deserialize (namedRule "ups-2").toList =
        some (namedDocument "ups-2") := by
      dsimp only [upsRulesEnv]
      rw [if_neg (by decide +kernel), if_neg (by decide +kernel), if_neg (by decide +kernel),
        if_pos rfl]
    rw [hnamed] at htext
    rw [← htext.symm.trans hdocument]
    exact hget

theorem renamed_pieces_ups : ∃ pieces, (assetRule "ups-2").toList =
    "\x7b\\\"assetLink\\\":\\\"ups-2\\\"\x7d".toList.intercalate pieces ∧
      (namedRule "ups-2").toList = (newEname ⟨"ups-2", "UPS"⟩).intercalate pieces := by
  have hnamed : renamed upsRulesEnv "\x7b\\\"assetLink\\\":\\\"ups-2\\\"\x7d".toList
      ⟨"ups-2", "UPS"⟩ (assetRule "ups-2").toList = (namedRule "ups-2").toList := by
    decide +kernel
  have hchanged : (namedRule "ups-2").toList ≠ (assetRule "ups-2").toList := by decide +kernel
  have hne : "\x7b\\\"assetLink\\\":\\\"ups-2\\\"\x7d".toList ≠ [] := by decide +kernel
  obtain ⟨pieces, hpieces, -, htext⟩ :=
    @renamed_pieces upsRulesEnv _ hne ⟨"ups-2", "UPS"⟩ (assetRule "ups-2").toList
  refine ⟨pieces, hpieces, ?_⟩
  rw [hnamed] at htext
  split at htext
  · exact htext
  · exact absurd htext hchanged

end FtyRest.Ecpp
