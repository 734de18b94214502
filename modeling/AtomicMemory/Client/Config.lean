import AtomicMemory.Core.Url
import AtomicMemory.Lib.PydanticModel
import AtomicMemory.Memory.Types
import Mathlib.Algebra.Order.Ring.Rat

-- The configuration models of the three clients, and the errors that their constructors raise
-- when a dict is no configuration.

open PyText PydanticModel
open PyValue hiding none

namespace AtomicMemory

/-- What the models use of Pydantic: its coercions, each with the one line it reports, and
the texts of its reports. -/
structure ConfigRuntime where
  str : PyValue → Except LineError String
  float : PyValue → Except LineError ℚ
  bool : PyValue → Except LineError Bool
  dict : PyValue → Except LineError Items
  secretStr : PyValue → Except LineError String
  modelType : PyValue → LineError
  secretStr_str : ∀ s, secretStr (.str s) = .ok s
  style : ReportStyle

/-- A coercion, and then a validator of the field, whose `ValueError` is about the value that
was given. -/
def coerced {α : Type} (coerce : PyValue → Except LineError α) (validator : α → Except String α)
    (wrap : α → PyValue) (v : PyValue) : Except (List LineError) PyValue :=
  match coerce v with
  | .error e => .error [e]
  | .ok a =>
    match validator a with
    | .error message => .error [valueError message v]
    | .ok b => .ok (wrap b)

theorem coerced_ne_nil {α : Type} (coerce : PyValue → Except LineError α)
    (validator : α → Except String α) (wrap : α → PyValue) (v : PyValue) :
    coerced coerce validator wrap v ≠ .error [] := by
  unfold coerced
  split
  · simp
  · split <;> simp

section Fields

variable (rt : ConfigRuntime)

def apiUrlField : ModelField where
  name := "api_url"
  aliasKey := some "apiUrl"
  default := none
  validate := coerced rt.str .ok .str
  ne_nil := coerced_ne_nil _ _ _

/-- `_validate_api_key`, which runs before the coercion. -/
def validateApiKey (emptyMessage : String) : PyValue → Except String PyValue
  | .str s => if strip s = [] then .error emptyMessage else .ok (.str (String.ofList (strip s)))
  -- what is no text is left to the coercion
  | v => .ok v

def apiKeyField (emptyMessage : String) : ModelField where
  name := "api_key"
  aliasKey := some "apiKey"
  default := none
  validate v :=
    match validateApiKey emptyMessage v with
    | .error message => .error [valueError message v]
    | .ok w => coerced rt.secretStr .ok .str w
  ne_nil v := by
    split
    · simp
    · exact coerced_ne_nil _ _ _ _

def validateUserId (value : String) : Except String String :=
  if strip value = [] then .error "value must not be empty" else .ok (String.ofList (strip value))

def userIdField : ModelField where
  name := "user_id"
  aliasKey := some "userId"
  default := none
  validate := coerced rt.str validateUserId .str
  ne_nil := coerced_ne_nil _ _ _

def validateTimeout (value : ℚ) : Except String ℚ :=
  if value ≤ 0 then .error "timeout_seconds must be greater than zero" else .ok value

def timeoutSecondsField : ModelField where
  name := "timeout_seconds"
  aliasKey := some "timeoutSeconds"
  default := some (.float 30)
  validate := coerced rt.float validateTimeout .float
  ne_nil := coerced_ne_nil _ _ _

def allowPrivateNetworksField : ModelField where
  name := "allow_private_networks"
  aliasKey := some "allowPrivateNetworks"
  default := some (.bool true)
  validate := coerced rt.bool .ok .bool
  ne_nil := coerced_ne_nil _ _ _

def providersField : ModelField where
  name := "providers"
  aliasKey := none
  default := none
  validate := coerced rt.dict .ok .dict
  ne_nil := coerced_ne_nil _ _ _

def defaultProviderField : ModelField where
  name := "default_provider"
  aliasKey := some "defaultProvider"
  default := some .none
  validate v := if v.isNone then .ok .none else coerced rt.str .ok .str v
  ne_nil v := by
    split
    · simp
    · exact coerced_ne_nil _ _ _ _

/-- `_require_providers`. -/
def requireProviders (values : Items) : Except String Items :=
  if (values.get "providers").truthy then .ok values
  else .error "memory.providers must not be empty"

/-- `MemoryNamespaceConfig | None`. -/
def memoryField : ModelField where
  name := "memory"
  aliasKey := none
  default := some .none
  validate
    | .none => .ok .none
    | .dict items =>
      (validateModel [providersField rt, defaultProviderField rt] requireProviders items).map .dict
    | v => .error [rt.modelType v]
  ne_nil v := by
    split
    · simp
    · rename_i items
      have h := validateModel_ne_nil [providersField rt, defaultProviderField rt] requireProviders
        items
      cases hv : validateModel [providersField rt, defaultProviderField rt] requireProviders
        items with
      | ok w => simp [Except.map]
      | error es =>
        rw [hv] at h
        simpa [Except.map] using h
    · simp

end Fields

def textOf (values : Items) (name : String) : String :=
  match values.get name with
  | .str s => s
  | _ => ""

def boolOf (values : Items) (name : String) : Bool :=
  match values.get name with
  | .bool b => b
  | _ => false

/-- `self.api_url = validate_api_url(...)`. -/
def checkApiUrl (u : Unicode) (values : Items) : Except String Items :=
  (validateApiUrl u (textOf values "api_url") (boolOf values "allow_private_networks")).map
    fun url => values.set "api_url" (.str url)

/-- `_require_non_empty`. -/
def requireNonEmpty (u : Unicode) (values : Items) : Except String Items :=
  if textOf values "api_url" = "" then .error "api_url is required"
  else
    match checkApiUrl u values with
    | .error message => .error message
    | .ok values =>
      if textOf values "user_id" = "" then .error "user_id is required" else .ok values

structure SdkError where
  className : String
  message : List Char
  context : Items

structure ConfigModel where
  title : String
  fields : List ModelField
  check : Items → Except String Items
  className : String
  context : List PyValue → Items

/-- `_DROPPED_ERROR_KEYS`. -/
def droppedErrorKeys : List String := ["input", "ctx", "url"]

/-- `sanitized_pydantic_errors`. -/
def sanitizedPydanticErrors (style : ReportStyle) (es : List LineError) : List PyValue :=
  es.map fun e => .dict ((e.toItems style.url).filter fun item => item.1 ∉ droppedErrorKeys)

def ConfigModel.error (model : ConfigModel) (style : ReportStyle) (es : List LineError) :
    SdkError where
  className := model.className
  message := "Invalid ".toList ++ model.title.toList ++ ": ".toList ++
    reportText style model.title es
  context := model.context (sanitizedPydanticErrors style es)

def ConfigModel.coerce (model : ConfigModel) (style : ReportStyle) (items : Items) :
    Except SdkError Items :=
  (validateModel model.fields model.check items).mapError (model.error style)

def atomicMemoryClientConfig (rt : ConfigRuntime) : ConfigModel where
  title := "AtomicMemoryClientConfig"
  fields := [apiUrlField rt, apiKeyField rt "value must not be empty", userIdField rt,
    timeoutSecondsField rt, allowPrivateNetworksField rt, memoryField rt]
  check := requireNonEmpty rt.style.unicode
  className := "ConfigError"
  context errors := [("type", .str "AtomicMemoryClientConfig"), ("errors", .list errors)]

def storageClientConfig (rt : ConfigRuntime) : ConfigModel where
  title := "StorageClientConfig"
  fields := [apiUrlField rt, apiKeyField rt "value must not be empty", userIdField rt,
    timeoutSecondsField rt, allowPrivateNetworksField rt]
  check := requireNonEmpty rt.style.unicode
  className := "StorageClientError"
  context errors := [("error_code", .str "invalid_storage_input"), ("status", .int 0),
    ("type", .str "StorageClientConfig"), ("errors", .list errors)]

def entitiesClientConfig (rt : ConfigRuntime) : ConfigModel where
  title := "EntitiesClientConfig"
  fields := [apiUrlField rt, apiKeyField rt "api_key must not be empty", timeoutSecondsField rt,
    allowPrivateNetworksField rt]
  check := checkApiUrl rt.style.unicode
  className := "EntitiesClientError"
  context _ := [("error_code", .str "invalid_entities_input"), ("status", .int 0)]

inductive KeyedClient
  | atomicMemory
  | storage
  | entities
  deriving DecidableEq, Repr

def KeyedClient.config (rt : ConfigRuntime) : KeyedClient → ConfigModel
  | atomicMemory => atomicMemoryClientConfig rt
  | storage => storageClientConfig rt
  | entities => entitiesClientConfig rt

/-- `_coerce_atomic_config` and the two `_coerce_config`, on a dict. -/
def coerceConfig (rt : ConfigRuntime) (client : KeyedClient) (items : Items) :
    Except SdkError Items :=
  (client.config rt).coerce rt.style items

/-- The line of a value that is not of a type. -/
def typeError (type msg : String) (v : PyValue) : LineError :=
  { type, loc := [], msg, input := v, ctx := none }

/-- The place of a line, unless it is the whole. -/
def locText (loc : List PyValue) : List Char :=
  if loc.isEmpty then []
  else '\n' :: ['.'].intercalate (loc.filterMap fun part => (str? part).map String.toList)

/-- Pydantic's report of one line for each error, without links to its documentation. -/
def ReportStyle.reference : ReportStyle where
  unicode := .ascii
  float q := (toString q.num).toList ++ '/' :: (toString q.den).toList
  datetime d := d.isoMillis
  header title count :=
    (toString count).toList ++ " validation error".toList ++ (if count = 1 then [] else ['s']) ++
      " for ".toList ++ title.toList
  before head :=
    locText head.loc ++ "\n  ".toList ++ head.msg.toList ++ " [type=".toList ++
      head.type.toList ++ ", input_value=".toList
  after head := ", input_type=".toList ++ head.inputType.toList ++ "]".toList
  url type := type

def ConfigRuntime.reference : ConfigRuntime where
  str
    | .str s => .ok s
    | v => .error (typeError "string_type" "Input should be a valid string" v)
  float
    | .float q => .ok q
    | .int n => .ok n
    | .bool b => .ok (if b then 1 else 0)
    | v => .error (typeError "float_type" "Input should be a valid number" v)
  bool
    | .bool b => .ok b
    | v => .error (typeError "bool_type" "Input should be a valid boolean" v)
  dict
    | .dict items => .ok items
    | v => .error (typeError "dict_type" "Input should be a valid dictionary" v)
  secretStr
    | .str s => .ok s
    | v => .error (typeError "string_type" "Input should be a valid string" v)
  modelType :=
    typeError "model_type" "Input should be a valid dictionary or instance of MemoryNamespaceConfig"
  secretStr_str _ := rfl
  style := ReportStyle.reference

end AtomicMemory
