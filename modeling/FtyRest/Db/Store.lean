import FtyRest.Db.Types

/-!
# The database and the licensing

The functions of the database library that the import calls, over a store that they read and
change, and the activation of assets.  The library is not part of the sources: it is a record of
functions here.
-/

namespace FtyRest.Db

/-- `link_t`; a text that is not given is `none`. -/
structure Link where
  src : Nat
  dest : Nat := 0
  srcOut : Option String := none
  destIn : Option String := none
  type : Nat := 0
deriving DecidableEq, Repr

/-- What `select_asset_element_web_byId` tells of an asset. -/
structure WebElement where
  typeId : Nat
  subtypeId : Nat
  subtypeName : String
deriving DecidableEq, Repr

/-- The columns of an asset that are written as they are. -/
structure ElementColumns where
  name : String
  parentId : Nat
  status : String
  priority : Nat
  assetTag : String
deriving DecidableEq, Repr

/-- A function that tells `rv` and fills a text.  `rv` is `0` when it succeeds. -/
abbrev Named := Int × String

structure AssetsDb (σ : Type) where
  -- reads
  nameToAssetId : σ → String → Int
  extnameToAssetId : σ → String → Int
  extnameToAssetName : σ → String → Named
  isOkName : String → Bool
  rowByName : σ → String → Except String (Option Nat)
  rowByExtname : σ → String → Except String (Option Nat)
  selectAssetElementWebById : σ → Nat → Except ErrNo WebElement
  getStatusFromDbHelper : σ → String → String
  selectMonitorDeviceTypeId : σ → String → Except DbReply Nat
  getJsonAsset : σ → Nat → Except String String
  typeidToType : Nat → String
  subtypeidToSubtype : Nat → String
  -- writes
  updateAssetElement : σ → Nat → ElementColumns → σ × Int × Nat
  insertIntoAssetElement : σ → ElementColumns → Nat → Nat → σ × DbReply
  deleteAssetExtAttributesWithRo : σ → Nat → Bool → σ × DbReply
  insertIntoAssetExtAttributes : σ → Nat → List (String × String) → Bool → String →
    σ × DbReply × String
  deleteAssetElementFromAssetGroups : σ → Nat → σ × DbReply
  insertElementIntoGroups : σ → List Nat → Nat → σ × DbReply
  deleteAssetLinksTo : σ → Nat → σ × DbReply
  insertIntoAssetLinks : σ → List Link → σ × DbReply
  insertIntoMonitorDevice : σ → Nat → String → σ × DbReply
  insertIntoMonitorAssetRelation : σ → Nat → Nat → σ × DbReply

/-- What `std::stod` makes of a text: whether the number is negative, and whether the text ends
there. -/
structure ParsedDouble where
  negative : Bool
  whole : Bool
deriving DecidableEq, Repr

/-- Functions on texts from other parts of the sources or of the libraries.  `behindEnd` is what a
dictionary gives behind its end, and `behindText` what is read behind the terminator of an empty
text, where nothing is specified. -/
structure Tools where
  behindEnd : Nat
  behindText : Char
  jsonify : String → String
  sanitizeDate : String → Option String
  stod : String → Option ParsedDouble

/-- The store, and the licensing activation of every asset. -/
structure World (σ : Type) where
  store : σ
  activation : Nat → Bool

/-- `fty::AssetActivator`, which is given the JSON of an asset; a failure is an exception. -/
structure AssetActivator (σ : Type) where
  activate : World σ → String → World σ × Except String Unit
  deactivate : World σ → String → World σ × Except String Unit

/-- `select_asset_element_by_name`: the name is looked up as an internal one first, and as an
external one then. -/
def selectAssetElementByName {σ : Type} (db : AssetsDb σ) (s : σ) (elementName : String) :
    Except ErrNo Nat :=
  if !db.isOkName elementName then .error .badInput
  else
    match db.rowByName s elementName with
    | .error _ => .error .internal
    | .ok (some id) => .ok id
    | .ok none =>
        -- maybe we got extname instead of name
        match db.rowByExtname s elementName with
        | .error _ => .error .internal
        | .ok (some id) => .ok id
        | .ok none => .error .notFound

end FtyRest.Db
