import FtyRest.Ecpp.Json
import FtyRest.Lib.AssocList
import FtyRest.Lib.Binary64
import FtyRest.Lib.Checks

/-!
# Indicators of datacenters

The values that `datacenter_indicators.ecpp` prints for some datacenters.
-/

namespace FtyRest.Ecpp

open Binary64 Checks

/-! ## The parameters -/

-- ATTENTION!!! for trends:
--  first one should be average, second one is raw measurement
def paramToSrc : List (String × String) :=
  [("power", "realpower.default"),
   ("avg_power_last_day", "realpower.default_arithmetic_mean_24h"),
   ("avg_power_last_week", "realpower.default_arithmetic_mean_7d"),
   ("avg_power_last_month", "realpower.default_arithmetic_mean_30d"),
   ("min_power_last_day", "realpower.default_min_24h"),
   ("min_power_last_week", "realpower.default_min_7d"),
   ("min_power_last_month", "realpower.default_min_30d"),
   ("max_power_last_day", "realpower.default_max_24h"),
   ("max_power_last_week", "realpower.default_max_7d"),
   ("max_power_last_month", "realpower.default_max_30d"),
   ("trend_power_last_day", "realpower.default_arithmetic_mean_24h/realpower.default"),
   ("trend_power_last_week", "realpower.default_arithmetic_mean_7d/realpower.default"),
   ("trend_power_last_month", "realpower.default_arithmetic_mean_30d/realpower.default"),
   ("consumption_last_day", "realpower.default_consumption_24h"),
   ("consumption_last_week", "realpower.default_consumption_7d"),
   ("consumption_last_month", "realpower.default_consumption_30d"),
   ("temperature", "average.temperature"),
   ("avg_temperature_last_day", "average.temperature_arithmetic_mean_24h"),
   ("avg_temperature_last_week", "average.temperature_arithmetic_mean_7d"),
   ("avg_temperature_last_month", "average.temperature_arithmetic_mean_30d"),
   ("min_temperature_last_day", "average.temperature_min_24h"),
   ("min_temperature_last_week", "average.temperature_min_7d"),
   ("min_temperature_last_month", "average.temperature_min_30d"),
   ("max_temperature_last_day", "average.temperature_max_24h"),
   ("max_temperature_last_week", "average.temperature_max_7d"),
   ("max_temperature_last_month", "average.temperature_max_30d"),
   ("trend_temperature_last_day", "average.temperature_arithmetic_mean_24h/average.temperature"),
   ("trend_temperature_last_week", "average.temperature_arithmetic_mean_7d/average.temperature"),
   ("trend_temperature_last_month", "average.temperature_arithmetic_mean_30d/average.temperature"),
   ("humidity", "average.humidity"),
   ("avg_humidity_last_day", "average.humidity_arithmetic_mean_24h"),
   ("avg_humidity_last_week", "average.humidity_arithmetic_mean_7d"),
   ("avg_humidity_last_month", "average.humidity_arithmetic_mean_30d"),
   ("min_humidity_last_day", "average.humidity_min_24h"),
   ("min_humidity_last_week", "average.humidity_min_7d"),
   ("min_humidity_last_month", "average.humidity_min_30d"),
   ("max_humidity_last_day", "average.humidity_max_24h"),
   ("max_humidity_last_week", "average.humidity_max_7d"),
   ("max_humidity_last_month", "average.humidity_max_30d"),
   ("trend_humidity_last_day", "average.humidity_arithmetic_mean_24h/average.humidity"),
   ("trend_humidity_last_week", "average.humidity_arithmetic_mean_7d/average.humidity"),
   ("trend_humidity_last_month", "average.humidity_arithmetic_mean_30d/average.humidity")]

def interestingSources : List String :=
  ["realpower.default",
   "realpower.default_arithmetic_mean_24h",
   "realpower.default_arithmetic_mean_7d",
   "realpower.default_arithmetic_mean_30d",
   "realpower.default_min_24h",
   "realpower.default_min_7d",
   "realpower.default_min_30d",
   "realpower.default_max_24h",
   "realpower.default_max_7d",
   "realpower.default_max_30d",
   "realpower.default_arithmetic_mean_24h",
   "realpower.default_arithmetic_mean_7d",
   "realpower.default_arithmetic_mean_30d",
   "realpower.default_consumption_24h",
   "realpower.default_consumption_7d",
   "realpower.default_consumption_30d",
   "average.temperature",
   "average.temperature_arithmetic_mean_24h",
   "average.temperature_arithmetic_mean_7d",
   "average.temperature_arithmetic_mean_30d",
   "average.temperature_min_24h",
   "average.temperature_min_7d",
   "average.temperature_min_30d",
   "average.temperature_max_24h",
   "average.temperature_max_7d",
   "average.temperature_max_30d",
   "average.temperature_arithmetic_mean_24h",
   "average.temperature_arithmetic_mean_7d",
   "average.temperature_arithmetic_mean_30d",
   "average.humidity_arithmetic_mean_24h",
   "average.humidity_arithmetic_mean_7d",
   "average.humidity_arithmetic_mean_30d",
   "average.humidity",
   "average.humidity_min_24h",
   "average.humidity_min_7d",
   "average.humidity_min_30d",
   "average.humidity_max_24h",
   "average.humidity_max_7d",
   "average.humidity_max_30d",
   "average.humidity_arithmetic_mean_24h",
   "average.humidity_arithmetic_mean_7d",
   "average.humidity_arithmetic_mean_30d"]

def isTrend (key : String) : Bool := key.toList.take 5 = "trend".toList

/-- `std::map<std::string, std::string>`, in the order of the keys. -/
abbrev TextMap := List (String × String)

/-- An entry that is there stays. -/
def TextMap.emplace (m : TextMap) (key value : String) : TextMap :=
  if (m.lookup key).isSome then m else m.orderedInsert (fun a b ↦ a.1 ≤ b.1) (key, value)

structure Metric where
  type : String
  value : String
deriving DecidableEq, Repr

inductive IndicatorFailure where
  | die (e : HttpDie)
  /-- `map::at` -/
  | outOfRange
  | stod
deriving DecidableEq, Repr

def atKey {α : Type} (m : List (String × α)) (key : String) : Except IndicatorFailure α :=
  match m.lookup key with
  | none => .error .outOfRange
  | some x => .ok x

/-- A value that is missing is not a number. -/
def readValue (dataDc : TextMap) (source : String) : Except IndicatorFailure Double :=
  match dataDc.lookup source with
  | none => .ok .nan
  | some text =>
      match stod text.toList with
      | none => .error .stod
      | some value => .ok value

/-- `round( (value_actual - value_average ) / ( value_average ) * 1000.0 ) / 10.0` -/
def relativeChange (valueActual valueAverage : Double) : Double :=
  ((((valueActual.sub valueAverage).div valueAverage).mul (.finite false 1000)).round).div
    (.finite false 10)

def splitSlash (text : String) : List String := (text.toList.splitOn '/').map String.ofList

def getTrendValue (dataDc : TextMap) (source : String) : Except IndicatorFailure Double := do
  let src ← atKey paramToSrc source
  match splitSlash src with
  | [average, actual] =>
      let valueActual ← readValue dataDc actual
      let valueAverage ← readValue dataDc average
      return if valueAverage.isZero then .nan else relativeChange valueActual valueAverage
  | _ => return .finite false 0

/-- The text of a parameter. -/
def paramText (dataDc : TextMap) (key : String) : Except IndicatorFailure String := do
  let src ← atKey paramToSrc key
  match dataDc.lookup src with
  | none =>
      if isTrend key then
        let value ← getTrendValue dataDc key
        return if value.isNan then "null" else value.toText
      else return "null"
  | some text => return text

def addParam (dataDc : TextMap) (key : String) : Except IndicatorFailure TextMap := do
  let value ← paramText dataDc key
  return dataDc.emplace key value

def addMetric (dataDc : TextMap) (metric : Metric) : TextMap :=
  if metric.type ∈ interestingSources then dataDc.emplace metric.type metric.value else dataDc

/-! ## The request -/

/-- What a request asks its surroundings; `none` is a read that failed. -/
structure IndicatorEnv where
  databaseReady : Bool
  checkUserPermissions : Except HttpDie Unit
  isOkName : String → Bool
  /-- `check_regex_text_or_die` -/
  checkRegexText : String → String → String → Except HttpDie String
  /-- `cxxtools::split` at commas -/
  split : String → List String
  /-- The names of all datacenters. -/
  getItems1 : Option (List (Nat × String))
  nameToAssetId : String → Int
  readMetrics : String → Option (List Metric)
  idToNameExtName : Nat → String × String

def validParam : String :=
  ", ".intercalate ((paramToSrc.map Prod.fst).insertionSort (· ≤ ·))

def checkParam (param : String) : Except HttpDie Unit :=
  if (paramToSrc.lookup param).isSome then .ok ()
  else .error ⟨"request-param-bad", ["arg2", "value '" ++ param ++ "'",
    "one of the following values: [" ++ validParam ++ "]."]⟩

section

variable (env : IndicatorEnv)

/-- The identifier and the name of a datacenter. -/
def checkDc (allDcsShort : List (Nat × String)) (item : String) : Except HttpDie (Nat × String) :=
  let dbid := env.nameToAssetId item
  if dbid = -1 then .error ⟨"element-not-found", [item]⟩
  else if dbid = -2 then .error (internalError "Connecting to database failed.")
  else
    let id := (dbid % 2 ^ 32).toNat
    match allDcsShort.lookup id with
    | none => .error ⟨"element-not-found", [item]⟩
    | some name => .ok (id, name)

/-- The datacenters and the parameters of a request. -/
def checkIndicators (arg1 arg2 : String) :
    Except HttpDie (List (Nat × String) × List String) := do
  require (env.databaseReady = true)
    (internalError "Database is not ready yet, please try again after a while.")
  env.checkUserPermissions
  require (arg1 ≠ "" ∧ env.isOkName arg1 = true) ⟨"request-param-required", ["arg1"]⟩
  require (arg2 ≠ "") ⟨"request-param-required", ["arg2"]⟩
  let checkedArg2 ← env.checkRegexText "arg2" arg2 "^[_,a-z]\x7b1,1024\x7d$"
  let requestedParams := env.split checkedArg2
  requestedParams.forM checkParam
  let allDcsShort ← orThrow env.getItems1
    (internalError "Error while retrieving information about datacenters.")
  let dcs ← (env.split arg1).mapM (checkDc env allDcsShort)
  return (dcs, requestedParams)

/-- The texts of the datacenters. -/
abbrev DataDc := List (String × TextMap)

/-- The metrics and the parameters of a datacenter are put to what is known of it. -/
def addTexts (metrics : List Metric) (requestedParams : List String) (dataDc : TextMap) :
    Except IndicatorFailure TextMap :=
  requestedParams.foldlM addParam (metrics.foldl addMetric dataDc)

/-- The current data of a datacenter. -/
def collectDc (requestedParams : List String) (dataDc : DataDc) (aDc : String) :
    Except IndicatorFailure DataDc :=
  match env.readMetrics aDc with
  | none => .error (.die (internalError "See log for more detail"))
  | some metrics =>
      if metrics.length = 0 then .ok dataDc
      else do
        let row ← addTexts metrics requestedParams ((dataDc.lookup aDc).getD [])
        return dataDc.filter (fun p ↦ p.1 ≠ aDc) ++ [(aDc, row)]

/-- `json.back() = ' '` -/
def blankBack (json : String) : String := .ofList (json.toList.dropLast ++ [' '])

/-- A text that is `nan` is no value. -/
def printedValue (value : String) : String :=
  if value.toList.map Char.toLower = "nan".toList then "null" else value

/-- data contains topics and it aliases, but we need to print only aliases -/
def printRow (json : String) (row : String × String) : String :=
  if (paramToSrc.lookup row.1).isSome then
    json ++ ("\"" ++ row.1 ++ "\":" ++ printedValue row.2) ++ ","
  else json

def printDc (dataDc : DataDc) (count : Nat) (json : String) (dc : (Nat × String) × Nat) :
    Except IndicatorFailure String := do
  let ((id, name), i) := dc
  let dcNames := env.idToNameExtName id
  if dcNames.1 = "" && dcNames.2 = "" then throw (.die (internalError "Database failure"))
  let json := json ++ "\x7b" ++ "\"id\": \"" ++ name ++ "\"," ++ "\"name\": \"" ++ dcNames.2 ++ "\","
  let rows ← atKey dataDc name
  return blankBack (rows.foldl printRow json) ++ "\x7d" ++ if i < count - 1 then "," else ""

def printDcs (dataDc : DataDc) (dcs : List (Nat × String)) : Except IndicatorFailure String := do
  let json ← dcs.zipIdx.foldlM (printDc env dataDc dcs.length) "\x7b\"datacenter_indicators\": ["
  return json ++ "]\x7d"

/-- The answer for these datacenters. -/
def indicators (dcs : List (Nat × String)) (requestedParams : List String) :
    Except IndicatorFailure String := do
  let dataDc ← (dcs.map Prod.snd).foldlM (collectDc env requestedParams) []
  printDcs env dataDc dcs

def datacenterIndicators (arg1 arg2 : String) : Except IndicatorFailure String := do
  let (dcs, requestedParams) ← (checkIndicators env arg1 arg2).mapError .die
  indicators env dcs requestedParams

end

end FtyRest.Ecpp
