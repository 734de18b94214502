import AtomicMemory.Client.Config
import AtomicMemory.Client.MemoryClient
import AtomicMemory.Client.RequestOrigin
import AtomicMemory.Lib.KeyedTable

-- `AtomicMemoryClient` makes three clients of one configuration. The configurations that it derives
-- for them are valid, and what they leave out of it, the strict mode of the guard, holds of their
-- requests nevertheless.

open PyText PydanticModel
open PyValue hiding none

namespace AtomicMemory

section

variable (rt : ConfigRuntime)

theorem text_ne_nil (v : PyValue) : coerced rt.str .ok .str v ≠ .error [] :=
  coerced_ne_nil _ _ _ v

theorem optionalText_ne_nil (v : PyValue) :
    (if v.isNone then .ok .none else coerced rt.str .ok .str v) ≠ .error [] := by
  split
  · exact fun h => by cases h
  · exact text_ne_nil rt v

def optionalApiKeyField : ModelField where
  name := "api_key"
  aliasKey := some "apiKey"
  default := some .none
  validate v := if v.isNone then .ok .none else coerced rt.str .ok .str v
  ne_nil := optionalText_ne_nil rt

/-- The `timeout_seconds` of a provider, which may be any number. -/
def providerTimeoutField : ModelField where
  name := "timeout_seconds"
  aliasKey := some "timeoutSeconds"
  default := some (.float 30)
  validate := coerced rt.float .ok .float
  ne_nil := coerced_ne_nil _ _ _

def apiVersionField : ModelField where
  name := "api_version"
  aliasKey := some "apiVersion"
  default := some (.str "v1")
  validate := coerced rt.str .ok .str
  ne_nil := text_ne_nil rt

/-- `meta_fact_filter`, with the coercion of its callables. -/
def metaFactFilterField (coerce : PyValue → Except LineError PyValue) : ModelField where
  name := "meta_fact_filter"
  aliasKey := some "metaFactFilter"
  default := some .none
  validate := coerced coerce .ok id
  ne_nil := coerced_ne_nil _ _ _

/-- The fields of `AtomicMemoryProviderConfig`. -/
def providerConfigFields (coerce : PyValue → Except LineError PyValue) : List ModelField :=
  [apiUrlField rt, optionalApiKeyField rt, providerTimeoutField rt, apiVersionField rt,
    metaFactFilterField coerce, allowPrivateNetworksField rt]

/-- `AtomicMemoryProviderConfig.model_validate`. -/
def providerConfig (coerce : PyValue → Except LineError PyValue) (items : Items) :
    Except (List LineError) Items :=
  validateModel (providerConfigFields rt coerce) (checkApiUrl rt.style.unicode) items

end

structure Namespaces where
  memory : Items
  service : MemoryServiceConfig
  storage : Items
  entities : Items

/-- What the constructor raises: the SDK's error about the given dict, Pydantic's own about a
configuration that is derived of it, or what the memory client's constructor raises. -/
inductive ConstructError
  | config (e : SdkError)
  | derived (es : List LineError)
  | memoryClient (e : PyError)

/-- The map of a `providers` attribute; a dict has each name once. -/
def providerTable (memory : Items) : KeyedTable String PyValue :=
  match memory.get "providers" with
  | .dict providers => .ofRows providers
  | _ => .empty

def providerEntries (memory : Items) : List (String × Option PyValue) :=
  (providerTable memory).rows.map fun row => (row.1, if row.2.isNone then none else some row.2)

theorem providerEntries_names (memory : Items) :
    (providerEntries memory).map Prod.fst = (providerTable memory).keys := by
  rw [providerEntries, List.map_map]
  rfl

/-- `MemoryClient(memory.providers, memory.default_provider)`. -/
def createMemoryClient (memory : Items) : Except PyError MemoryServiceConfig :=
  SyncClient.createConfig (providerEntries memory)
    (providerEntries_names memory ▸ (providerTable memory).nodup)
    (str? (memory.get "default_provider"))

/-- The provider that `_memory_config` configures. -/
def derivedProvider (config : Items) : Items :=
  [("apiUrl", config.get "api_url"), ("apiKey", config.get "api_key"),
    ("timeoutSeconds", config.get "timeout_seconds")]

section

variable (rt : ConfigRuntime) (secret : String → PyValue)

/-- `_memory_config`. -/
def memoryConfig (config : Items) : Except (List LineError) Items :=
  match config.get "memory" with
  | .dict memory => .ok memory
  | _ => validateModel [providersField rt, defaultProviderField rt] requireProviders
      [("providers", .dict [("atomicmemory", .dict (derivedProvider config))])]

/-- `_storage_config`, which hands the `SecretStr` on. -/
def storageConfig (config : Items) : Except (List LineError) Items :=
  validateModel (storageClientConfig rt).fields (storageClientConfig rt).check
    [("api_url", config.get "api_url"), ("api_key", secret (textOf config "api_key")),
      ("user_id", config.get "user_id"), ("timeout_seconds", config.get "timeout_seconds")]

/-- `_entities_config`. -/
def entitiesConfig (config : Items) : Except (List LineError) Items :=
  validateModel (entitiesClientConfig rt).fields (entitiesClientConfig rt).check
    [("api_url", config.get "api_url"), ("api_key", secret (textOf config "api_key")),
      ("timeout_seconds", config.get "timeout_seconds")]

/-- `AtomicMemoryClient(config)`, on a dict. -/
def constructClient (items : Items) : Except ConstructError Namespaces := do
  let config ← (coerceConfig rt .atomicMemory items).mapError .config
  let memory ← (memoryConfig rt config).mapError .derived
  let service ← (createMemoryClient memory).mapError .memoryClient
  let storage ← (storageConfig rt secret config).mapError .derived
  let entities ← (entitiesConfig rt secret config).mapError .derived
  .ok ⟨memory, service, storage, entities⟩

/-- Pydantic accepts what it has made itself; `secret` is the `SecretStr` of a text. -/
structure Lawful : Prop where
  str_str : ∀ s, rt.str (.str s) = .ok s
  float_float : ∀ q, rt.float (.float q) = .ok q
  dict_dict : ∀ items, rt.dict (.dict items) = .ok items
  secretStr_secret : ∀ s, rt.secretStr (secret s) = .ok s
  secret_ne_str : ∀ s t, secret s ≠ .str t

end

theorem coerced_ok {α : Type} {coerce : PyValue → Except LineError α}
    {validator : α → Except String α} {wrap : α → PyValue} {v w : PyValue}
    (h : coerced coerce validator wrap v = .ok w) :
    ∃ a b, coerce v = .ok a ∧ validator a = .ok b ∧ w = wrap b := by
  unfold coerced at h
  cases ha : coerce v with
  | error e =>
    rw [ha] at h
    cases h
  | ok a =>
    simp only [ha] at h
    cases hb : validator a with
    | error message =>
      rw [hb] at h
      cases h
    | ok b =>
      rw [hb] at h
      exact ⟨a, b, rfl, hb, (Except.ok.inj h).symm⟩

theorem coerced_of_ok {α : Type} {coerce : PyValue → Except LineError α}
    {validator : α → Except String α} {wrap : α → PyValue} {v : PyValue} {a b : α}
    (ha : coerce v = .ok a) (hb : validator a = .ok b) :
    coerced coerce validator wrap v = .ok (wrap b) := by
  simp only [coerced, ha, hb]

structure Settings where
  apiUrl : String
  apiKey : String
  userId : String
  timeoutSeconds : ℚ
  allowPrivateNetworks : Bool
  memory : PyValue

def Settings.items (settings : Settings) : Items :=
  [("api_key", .str settings.apiKey), ("user_id", .str settings.userId),
    ("timeout_seconds", .float settings.timeoutSeconds),
    ("allow_private_networks", .bool settings.allowPrivateNetworks), ("memory", settings.memory),
    ("api_url", .str settings.apiUrl)]

/-- A `MemoryNamespaceConfig`: there is a provider. -/
def ValidNamespace (memory : Items) : Prop :=
  ∃ providers, memory.get "providers" = .dict providers ∧ providers ≠ []

structure Settings.Valid (u : Unicode) (settings : Settings) : Prop where
  apiUrl : ∃ value, validateApiUrl u value settings.allowPrivateNetworks = .ok settings.apiUrl
  userId : validateUserId settings.userId = .ok settings.userId
  timeoutSeconds : validateTimeout settings.timeoutSeconds = .ok settings.timeoutSeconds
  memory : settings.memory = .none ∨ ∃ memory, settings.memory = .dict memory ∧
    ValidNamespace memory

theorem dropWhile_strip (value : String) : (strip value).dropWhile isSpace = strip value := by
  cases hstrip : strip value with
  | nil => rfl
  | cons c rest =>
    have hprefix : c :: rest <+: value.toList.dropWhile isSpace := by
      rw [← hstrip]
      exact List.rdropWhile_prefix _ _
    obtain ⟨more, hmore⟩ := hprefix
    have hhead := List.head?_dropWhile_not isSpace value.toList
    rw [← hmore] at hhead
    exact List.dropWhile_cons_of_neg (by simpa using hhead)

theorem strip_strip (value : String) : strip (String.ofList (strip value)) = strip value := by
  have hleft := dropWhile_strip value
  rw [strip, String.toList_ofList, hleft]
  exact List.rdropWhile_idempotent _ _

theorem validateUserId_self {value userId : String} (h : validateUserId value = .ok userId) :
    validateUserId userId = .ok userId := by
  unfold validateUserId at h
  split at h
  · cases h
  · rename_i hne
    rw [← Except.ok.inj h, validateUserId, strip_strip, if_neg hne]

theorem validateTimeout_ok {value timeout : ℚ} (h : validateTimeout value = .ok timeout) :
    value = timeout := by
  unfold validateTimeout at h
  split at h
  · cases h
  · exact Except.ok.inj h

theorem validateApiUrl_self {u : Unicode} {value url : String} {allow : Bool}
    (h : validateApiUrl u value allow = .ok url) : validateApiUrl u url allow = .ok url := by
  obtain ⟨-, -, -, -, rfl⟩ := validateApiUrl_ok h
  have hsame : validateApiUrl u (String.ofList (strip value)) allow =
      validateApiUrl u value allow := by
    simp only [validateApiUrl, strip_strip]
  rw [hsame, h]

theorem validateApiUrl_permissive {u : Unicode} {value url : String} {allow : Bool}
    (h : validateApiUrl u value allow = .ok url) : validateApiUrl u url true = .ok url := by
  cases allow with
  | false => exact validateApiUrl_of_strict (validateApiUrl_self h)
  | true => exact validateApiUrl_self h

theorem apiUrl_ne_empty {u : Unicode} {value url : String} {allow : Bool}
    (h : validateApiUrl u value allow = .ok url) : url ≠ "" := by
  rintro rfl
  obtain ⟨p, tail, hchecked⟩ := checked_of_validateApiUrl h
  exact hchecked.located.ne_nil rfl

section

variable {rt : ConfigRuntime} {items config : Items}

theorem apiUrlField_run {w : PyValue} (h : (apiUrlField rt).run items = .ok w) :
    ∃ s, w = .str s := by
  obtain ⟨v, hv⟩ | hdefault := run_ok h
  · have hv : coerced rt.str .ok .str v = .ok w := hv
    obtain ⟨-, s, -, -, rfl⟩ := coerced_ok hv
    exact ⟨s, rfl⟩
  · cases hdefault

theorem apiKeyField_run {emptyMessage : String} {w : PyValue}
    (h : (apiKeyField rt emptyMessage).run items = .ok w) : ∃ s, w = .str s := by
  obtain ⟨v, hv⟩ | hdefault := run_ok h
  · unfold apiKeyField at hv
    dsimp only at hv
    split at hv
    · cases hv
    · obtain ⟨-, s, -, -, rfl⟩ := coerced_ok hv
      exact ⟨s, rfl⟩
  · cases hdefault

theorem userIdField_run {w : PyValue} (h : (userIdField rt).run items = .ok w) :
    ∃ s, w = .str s ∧ validateUserId s = .ok s := by
  obtain ⟨v, hv⟩ | hdefault := run_ok h
  · have hv : coerced rt.str validateUserId .str v = .ok w := hv
    obtain ⟨value, s, -, hs, rfl⟩ := coerced_ok hv
    exact ⟨s, rfl, validateUserId_self hs⟩
  · cases hdefault

theorem timeoutSecondsField_run {w : PyValue} (h : (timeoutSecondsField rt).run items = .ok w) :
    ∃ q, w = .float q ∧ validateTimeout q = .ok q := by
  obtain ⟨v, hv⟩ | hdefault := run_ok h
  · have hv : coerced rt.float validateTimeout .float v = .ok w := hv
    obtain ⟨p, q, -, hq, rfl⟩ := coerced_ok hv
    obtain rfl := validateTimeout_ok hq
    exact ⟨p, rfl, hq⟩
  · refine ⟨30, (Option.some.inj hdefault).symm, ?_⟩
    rw [validateTimeout, if_neg (by norm_num)]

theorem allowPrivateNetworksField_run {w : PyValue}
    (h : (allowPrivateNetworksField rt).run items = .ok w) : ∃ b, w = .bool b := by
  obtain ⟨v, hv⟩ | hdefault := run_ok h
  · have hv : coerced rt.bool .ok .bool v = .ok w := hv
    obtain ⟨-, b, -, -, rfl⟩ := coerced_ok hv
    exact ⟨b, rfl⟩
  · exact ⟨true, (Option.some.inj hdefault).symm⟩

theorem validNamespace_of_ok {memory : Items} (h : validateModel
    [providersField rt, defaultProviderField rt] requireProviders items = .ok memory) :
    ValidNamespace memory := by
  obtain ⟨⟨ws, hws, hcheck⟩, -⟩ := validateModel_ok_iff.mp h
  cases hws with | cons hproviders hws =>
  cases hws with | cons hdefault hws =>
  cases hws
  obtain ⟨v, hv⟩ | hmissing := run_ok hproviders
  · have hv : coerced rt.dict .ok .dict v = .ok _ := hv
    obtain ⟨-, providers, -, -, rfl⟩ := coerced_ok hv
    unfold requireProviders at hcheck
    split at hcheck
    · rename_i htruthy
      obtain rfl := Except.ok.inj hcheck
      refine ⟨providers, rfl, fun hempty => ?_⟩
      rw [hempty] at htruthy
      cases htruthy
    · cases hcheck
  · cases hmissing

theorem memoryField_run {w : PyValue} (h : (memoryField rt).run items = .ok w) :
    w = .none ∨ ∃ memory, w = .dict memory ∧ ValidNamespace memory := by
  obtain ⟨v, hv⟩ | hdefault := run_ok h
  · unfold memoryField at hv
    dsimp only at hv
    split at hv
    · exact .inl (Except.ok.inj hv).symm
    · obtain ⟨memory, hmemory, rfl⟩ := Except.of_map_ok hv
      exact .inr ⟨memory, rfl, validNamespace_of_ok hmemory⟩
    · cases hv
  · exact .inl (Option.some.inj hdefault).symm

theorem requireNonEmpty_ok {u : Unicode} {values : Items}
    (h : requireNonEmpty u values = .ok config) : checkApiUrl u values = .ok config := by
  unfold requireNonEmpty at h
  split at h
  · cases h
  cases hcheck : checkApiUrl u values with
  | error message =>
    rw [hcheck] at h
    cases h
  | ok checked =>
    simp only [hcheck] at h
    split at h
    · cases h
    · exact congrArg Except.ok (Except.ok.inj h)

theorem settings_of_coerce (h : coerceConfig rt .atomicMemory items = .ok config) :
    ∃ settings : Settings, config = settings.items ∧ settings.Valid rt.style.unicode := by
  have hok : validateModel (atomicMemoryClientConfig rt).fields
      (requireNonEmpty rt.style.unicode) items = .ok config := Except.ok_of_mapError h
  obtain ⟨⟨ws, hws, hcheck⟩, -⟩ := validateModel_ok_iff.mp hok
  cases hws with | cons hurl hws =>
  cases hws with | cons hkey hws =>
  cases hws with | cons huser hws =>
  cases hws with | cons htimeout hws =>
  cases hws with | cons hallow hws =>
  cases hws with | cons hmemory hws =>
  cases hws
  obtain ⟨value, rfl⟩ := apiUrlField_run hurl
  obtain ⟨apiKey, rfl⟩ := apiKeyField_run hkey
  obtain ⟨userId, rfl, huserId⟩ := userIdField_run huser
  obtain ⟨timeout, rfl, hpositive⟩ := timeoutSecondsField_run htimeout
  obtain ⟨allow, rfl⟩ := allowPrivateNetworksField_run hallow
  have hmemory := memoryField_run hmemory
  obtain ⟨url, hurl, hconfig⟩ := Except.of_map_ok (requireNonEmpty_ok hcheck)
  refine ⟨⟨url, apiKey, userId, timeout, allow, _⟩, hconfig.symm, ⟨value, hurl⟩, huserId,
    hpositive, hmemory⟩

end

theorem userId_ne_empty {userId : String} (h : validateUserId userId = .ok userId) :
    userId ≠ "" := by
  rintro rfl
  cases h

theorem checkApiUrl_eq {u : Unicode} {values : Items} {url : String}
    (htext : textOf values "api_url" = url)
    (hallow : boolOf values "allow_private_networks" = true)
    (h : validateApiUrl u url true = .ok url) :
    checkApiUrl u values = .ok (values.set "api_url" (.str url)) := by
  rw [checkApiUrl, htext, hallow, h]
  rfl

theorem requireNonEmpty_eq {u : Unicode} {values : Items} {url userId : String}
    (htext : textOf values "api_url" = url)
    (hallow : boolOf values "allow_private_networks" = true)
    (h : validateApiUrl u url true = .ok url)
    (huser : textOf (values.set "api_url" (.str url)) "user_id" = userId) (hne : userId ≠ "") :
    requireNonEmpty u values = .ok (values.set "api_url" (.str url)) := by
  have hempty : textOf values "api_url" ≠ "" := htext ▸ apiUrl_ne_empty h
  unfold requireNonEmpty
  rw [if_neg hempty, checkApiUrl_eq htext hallow h]
  dsimp only
  rw [huser, if_neg hne]

section

variable {rt : ConfigRuntime} {secret : String → PyValue} {settings : Settings}

/-- The settings of a client that shares them, but for the mode of the guard. -/
def Settings.sharedItems (settings : Settings) : Items :=
  [("api_key", .str settings.apiKey), ("user_id", .str settings.userId),
    ("timeout_seconds", .float settings.timeoutSeconds), ("allow_private_networks", .bool true),
    ("api_url", .str settings.apiUrl)]

def Settings.entitiesItems (settings : Settings) : Items :=
  [("api_key", .str settings.apiKey), ("timeout_seconds", .float settings.timeoutSeconds),
    ("allow_private_networks", .bool true), ("api_url", .str settings.apiUrl)]

def Settings.providerItems (settings : Settings) : Items :=
  [("api_key", .str settings.apiKey), ("timeout_seconds", .float settings.timeoutSeconds),
    ("api_version", .str "v1"), ("meta_fact_filter", .none),
    ("allow_private_networks", .bool true), ("api_url", .str settings.apiUrl)]

section

variable (hlawful : Lawful rt secret)

include hlawful

theorem apiKeyField_secret (emptyMessage : String) (apiKey : String) :
    (apiKeyField rt emptyMessage).validate (secret apiKey) = .ok (.str apiKey) := by
  have htext : validateApiKey emptyMessage (secret apiKey) = .ok (secret apiKey) := by
    unfold validateApiKey
    split
    · rename_i s hs
      exact absurd hs (hlawful.secret_ne_str apiKey s)
    · rfl
  unfold apiKeyField
  simp only [htext]
  exact coerced_of_ok (hlawful.secretStr_secret apiKey) rfl

variable (hvalid : settings.Valid rt.style.unicode)

include hvalid

theorem storageConfig_eq : storageConfig rt secret settings.items = .ok settings.sharedItems := by
  obtain ⟨value, hurl⟩ := hvalid.apiUrl
  apply validateModel_ok_iff.mpr
  refine ⟨⟨[.str settings.apiUrl, .str settings.apiKey, .str settings.userId,
    .float settings.timeoutSeconds, .bool true], ?_, ?_⟩, of_decide_eq_true rfl⟩
  · refine .cons ?_ (.cons ?_ (.cons ?_ (.cons ?_ (.cons rfl .nil))))
    · exact run_accepted rfl (coerced_of_ok (hlawful.str_str _) rfl)
    · exact run_accepted rfl (apiKeyField_secret hlawful _ _)
    · exact run_accepted rfl (coerced_of_ok (hlawful.str_str _) hvalid.userId)
    · exact run_accepted rfl (coerced_of_ok (hlawful.float_float _) hvalid.timeoutSeconds)
  · exact requireNonEmpty_eq rfl rfl (validateApiUrl_permissive hurl) rfl
      (userId_ne_empty hvalid.userId)

theorem entitiesConfig_eq :
    entitiesConfig rt secret settings.items = .ok settings.entitiesItems := by
  obtain ⟨value, hurl⟩ := hvalid.apiUrl
  apply validateModel_ok_iff.mpr
  refine ⟨⟨[.str settings.apiUrl, .str settings.apiKey, .float settings.timeoutSeconds,
    .bool true], ?_, ?_⟩, of_decide_eq_true rfl⟩
  · refine .cons ?_ (.cons ?_ (.cons ?_ (.cons rfl .nil)))
    · exact run_accepted rfl (coerced_of_ok (hlawful.str_str _) rfl)
    · exact run_accepted rfl (apiKeyField_secret hlawful _ _)
    · exact run_accepted rfl (coerced_of_ok (hlawful.float_float _) hvalid.timeoutSeconds)
  · have hcheck : (entitiesClientConfig rt).check = checkApiUrl rt.style.unicode := rfl
    rw [hcheck, checkApiUrl_eq rfl rfl (validateApiUrl_permissive hurl)]
    rfl

theorem providerConfig_eq (coerce : PyValue → Except LineError PyValue) :
    providerConfig rt coerce (derivedProvider settings.items) = .ok settings.providerItems := by
  obtain ⟨value, hurl⟩ := hvalid.apiUrl
  apply validateModel_ok_iff.mpr
  refine ⟨⟨[.str settings.apiUrl, .str settings.apiKey, .float settings.timeoutSeconds,
    .str "v1", .none, .bool true], ?_, ?_⟩, of_decide_eq_true rfl⟩
  · refine .cons ?_ (.cons ?_ (.cons ?_ (.cons rfl (.cons rfl (.cons rfl .nil)))))
    · exact run_accepted rfl (coerced_of_ok (hlawful.str_str _) rfl)
    · exact run_accepted rfl (coerced_of_ok (hlawful.str_str _) rfl)
    · exact run_accepted rfl (coerced_of_ok (hlawful.float_float _) rfl)
  · exact checkApiUrl_eq rfl rfl (validateApiUrl_permissive hurl)

/-- The `MemoryNamespaceConfig` that is derived. -/
def Settings.memoryItems (settings : Settings) : Items :=
  [("providers", .dict [("atomicmemory", .dict (derivedProvider settings.items))]),
    ("default_provider", .none)]

omit hvalid in
theorem memoryConfig_eq (hmemory : settings.memory = .none) :
    memoryConfig rt settings.items = .ok settings.memoryItems := by
  have hget : settings.items.get "memory" = .none := hmemory
  rw [memoryConfig, hget]
  apply validateModel_ok_iff.mpr
  refine ⟨⟨[.dict [("atomicmemory", .dict (derivedProvider settings.items))], .none], ?_, rfl⟩,
    of_decide_eq_true rfl⟩
  refine .cons ?_ (.cons rfl .nil)
  exact run_accepted rfl (coerced_of_ok (hlawful.dict_dict _) rfl)

end

end

def Shares (names : List String) (config derived : Items) : Prop :=
  ∀ name ∈ names, derived.get name = config.get name

structure Consistent (rt : ConfigRuntime) (coerce : PyValue → Except LineError PyValue)
    (config : Items) (n : Namespaces) : Prop where
  storage : Shares ["api_url", "api_key", "user_id", "timeout_seconds"] config n.storage
  entities : Shares ["api_url", "api_key", "timeout_seconds"] config n.entities
  names : n.service.providerConfigs = (providerEntries n.memory).map Prod.fst
  chosen : SyncClient.Chooses (providerEntries n.memory) (str? (n.memory.get "default_provider"))
    n.service.defaultProvider
  given : config.get "memory" ≠ .none → config.get "memory" = .dict n.memory
  derived : config.get "memory" = .none → ∃ items provider,
    n.memory.get "providers" = .dict [("atomicmemory", .dict items)] ∧
      n.service.defaultProvider = "atomicmemory" ∧
      providerConfig rt coerce items = .ok provider ∧
      Shares ["api_url", "api_key", "timeout_seconds"] config provider

/-- The guard in the client's own mode accepts whatever goes to the client's URL. -/
def Guarded (u : Unicode) (config : Items) : Prop :=
  ∀ (s : Services) (call : ServiceCall) (path : List Char), call.path s = some path →
    call.isPrefixed = false →
    Accepts u (requestUrl (textOf config "api_url") path) (boolOf config "allow_private_networks")

section

variable {rt : ConfigRuntime} {secret : String → PyValue} {settings : Settings}

theorem guarded_of_valid (hvalid : settings.Valid rt.style.unicode) :
    Guarded rt.style.unicode settings.items := by
  obtain ⟨value, hurl⟩ := hvalid.apiUrl
  intro s call path hpath hprefixed
  have hbegins := begins_of_path hpath
  refine accepts_requestUrl hurl (.inr ?_) hbegins.exists_not_space
  apply hbegins.delimited_iff.mpr
  intro hcontra
  rw [hprefixed] at hcontra
  cases hcontra

theorem providerEntries_ne_nil {memory : Items} (h : ValidNamespace memory) :
    providerEntries memory ≠ [] := by
  obtain ⟨providers, hproviders, hne⟩ := h
  have htable : providerTable memory = .ofRows providers := by
    unfold providerTable
    rw [hproviders]
  intro hempty
  have hrows := List.map_eq_nil_iff.mp hempty
  rw [htable] at hrows
  exact KeyedTable.rows_ofRows_ne_nil hne hrows

theorem createMemoryClient_derived (settings : Settings) :
    ∃ service, createMemoryClient settings.memoryItems = .ok service ∧
      service.defaultProvider = "atomicmemory" := by
  have hentries : providerEntries settings.memoryItems =
      [("atomicmemory", some (.dict (derivedProvider settings.items)))] := rfl
  cases hcreated : createMemoryClient settings.memoryItems with
  | error e =>
    have hrefused := SyncClient.createConfig_error_iff.mp hcreated
    rw [hentries] at hrefused
    cases hrefused with
    | noProvider h => cases h
    | noUsable hne hdefault hpassed =>
      obtain hnone | hname := hpassed _ List.mem_cons_self
      · cases hnone
      · exact absurd (show "atomicmemory" = "default" from hname) (by decide)
    | notConfigured hne name hdefault => cases hdefault
  | ok service =>
    obtain ⟨hnames, -⟩ := SyncClient.createConfig_ok hcreated
    have hmem := service.default_mem
    rw [hnames, hentries] at hmem
    exact ⟨service, rfl, List.mem_singleton.mp hmem⟩

/-- The namespace that the constructor goes on with: the given one, or the one that is derived. -/
theorem memoryConfig_ok (hlawful : Lawful rt secret) (hvalid : settings.Valid rt.style.unicode) :
    ∃ memory, memoryConfig rt settings.items = .ok memory ∧
      (settings.memory = .dict memory ∧ ValidNamespace memory ∨
        settings.memory = .none ∧ memory = settings.memoryItems) := by
  obtain hmemory | ⟨memory, hmemory, hnamespace⟩ := hvalid.memory
  · exact ⟨_, memoryConfig_eq hlawful hmemory, .inr ⟨hmemory, rfl⟩⟩
  · have hget : settings.items.get "memory" = .dict memory := hmemory
    refine ⟨memory, ?_, .inl ⟨hmemory, hnamespace⟩⟩
    rw [memoryConfig, hget]

theorem constructClient_eq (hlawful : Lawful rt secret) (hvalid : settings.Valid rt.style.unicode)
    {items memory : Items} (hconfig : coerceConfig rt .atomicMemory items = .ok settings.items)
    (hmemory : memoryConfig rt settings.items = .ok memory) :
    constructClient rt secret items =
      ((createMemoryClient memory).mapError .memoryClient).map fun service =>
        ⟨memory, service, settings.sharedItems, settings.entitiesItems⟩ := by
  rw [constructClient, hconfig]
  show (do
    let memory ← (memoryConfig rt settings.items).mapError ConstructError.derived
    let service ← (createMemoryClient memory).mapError ConstructError.memoryClient
    let storage ← (storageConfig rt secret settings.items).mapError .derived
    let entities ← (entitiesConfig rt secret settings.items).mapError .derived
    .ok (⟨memory, service, storage, entities⟩ : Namespaces)) = _
  rw [hmemory, storageConfig_eq hlawful hvalid, entitiesConfig_eq hlawful hvalid]
  show (do
    let service ← (createMemoryClient memory).mapError ConstructError.memoryClient
    .ok (⟨memory, service, settings.sharedItems, settings.entitiesItems⟩ : Namespaces)) = _
  cases createMemoryClient memory <;> rfl

theorem error_of_map_mapError {ε ε' α β : Type} {x : Except ε α} {f : ε → ε'} {g : α → β} {e : ε'}
    (h : (x.mapError f).map g = .error e) : ∃ raised, x = .error raised ∧ e = f raised := by
  cases x with
  | error raised => exact ⟨raised, rfl, (Except.error.inj h).symm⟩
  | ok a => cases h

/-- The memory client refuses what was given to it, never what is derived. -/
theorem createMemoryClient_error_iff {memory : Items} {raised : PyError}
    (hcases : settings.memory = .dict memory ∧ ValidNamespace memory ∨
      settings.memory = .none ∧ memory = settings.memoryItems) :
    createMemoryClient memory = .error raised ↔ ∃ given : Items, settings.memory = .dict given ∧
      providerEntries given ≠ [] ∧
      SyncClient.Refused (providerEntries given) (str? (given.get "default_provider")) raised := by
  obtain ⟨hdict, hnamespace⟩ | ⟨hnone, rfl⟩ := hcases
  · refine SyncClient.createConfig_error_iff.trans ⟨fun h => ?_, ?_⟩
    · exact ⟨memory, hdict, providerEntries_ne_nil hnamespace, h⟩
    · rintro ⟨given, hgiven, -, h⟩
      obtain rfl := PyValue.dict.inj (hdict.symm.trans hgiven)
      exact h
  · obtain ⟨service, hservice, -⟩ := createMemoryClient_derived settings
    rw [hservice]
    refine iff_of_false (fun h => by cases h) ?_
    rintro ⟨given, hgiven, -⟩
    rw [hnone] at hgiven
    cases hgiven

theorem consistent_of_valid (hlawful : Lawful rt secret) (hvalid : settings.Valid rt.style.unicode)
    (coerce : PyValue → Except LineError PyValue) {memory : Items} {service : MemoryServiceConfig}
    (hcases : settings.memory = .dict memory ∧ ValidNamespace memory ∨
      settings.memory = .none ∧ memory = settings.memoryItems)
    (hservice : createMemoryClient memory = .ok service) :
    Consistent rt coerce settings.items
      ⟨memory, service, settings.sharedItems, settings.entitiesItems⟩ := by
  have hget : settings.items.get "memory" = settings.memory := rfl
  obtain ⟨hnames, hchosen⟩ := SyncClient.createConfig_ok hservice
  constructor
  · simp only [Shares, List.forall_mem_cons]
    exact ⟨rfl, rfl, rfl, rfl, List.forall_mem_nil _⟩
  · simp only [Shares, List.forall_mem_cons]
    exact ⟨rfl, rfl, rfl, List.forall_mem_nil _⟩
  · exact hnames
  · exact hchosen
  · intro hne
    rw [hget] at hne ⊢
    obtain ⟨hdict, -⟩ | ⟨hnone, -⟩ := hcases
    · exact hdict
    · exact absurd hnone hne
  · intro hnone
    rw [hget] at hnone
    obtain ⟨hdict, -⟩ | ⟨-, rfl⟩ := hcases
    · rw [hnone] at hdict
      cases hdict
    · obtain ⟨service', hservice', hdefault⟩ := createMemoryClient_derived settings
      obtain rfl := Except.ok.inj (hservice.symm.trans hservice')
      refine ⟨_, _, rfl, hdefault, providerConfig_eq hlawful hvalid coerce, ?_⟩
      simp only [Shares, List.forall_mem_cons]
      exact ⟨rfl, rfl, rfl, List.forall_mem_nil _⟩

/-- The constructor fails with the error about the given dict, or with the memory client's when
the given `memory` names no default that is configured and none can be picked; never with an
error about what is derived. Its namespaces work with the configuration's URL, key, user and
timeout, the memory client with the default that is named or the first that can be picked, and
the guard holds in the configuration's own mode, which is not handed on, of all their requests. -/
theorem construct_consistent (hlawful : Lawful rt secret)
    (coerce : PyValue → Except LineError PyValue) (items : Items) :
    (∀ e, constructClient rt secret items = .error e ↔
      (∃ sdk, coerceConfig rt .atomicMemory items = .error sdk ∧ e = .config sdk) ∨
      ∃ (config memory : Items) (raised : PyError),
        coerceConfig rt .atomicMemory items = .ok config ∧
        config.get "memory" = .dict memory ∧ providerEntries memory ≠ [] ∧
        SyncClient.Refused (providerEntries memory) (str? (memory.get "default_provider")) raised ∧
        e = .memoryClient raised) ∧
    ∀ n, constructClient rt secret items = .ok n →
      ∃ config, coerceConfig rt .atomicMemory items = .ok config ∧ Consistent rt coerce config n ∧
        Guarded rt.style.unicode config := by
  cases hconfig : coerceConfig rt .atomicMemory items with
  | error sdk =>
    have hraises : constructClient rt secret items = .error (.config sdk) := by
      rw [constructClient, hconfig]
      rfl
    rw [hraises]
    refine ⟨fun e => ⟨fun he => .inl ⟨sdk, rfl, (Except.error.inj he).symm⟩, ?_⟩,
      fun n hn => by cases hn⟩
    rintro (⟨sdk', hsdk, rfl⟩ | ⟨config, -, -, hok, -⟩)
    · rw [Except.error.inj hsdk]
    · cases hok
  | ok config =>
    obtain ⟨settings, rfl, hvalid⟩ := settings_of_coerce hconfig
    obtain ⟨memory, hmemory, hcases⟩ := memoryConfig_ok hlawful hvalid
    rw [constructClient_eq hlawful hvalid hconfig hmemory]
    constructor
    · intro e
      constructor
      · intro he
        obtain ⟨raised, hraised, rfl⟩ := error_of_map_mapError he
        obtain ⟨given, hgiven, hne, hrefused⟩ := (createMemoryClient_error_iff hcases).mp hraised
        exact .inr ⟨_, given, raised, rfl, hgiven, hne, hrefused, rfl⟩
      · rintro (⟨sdk, hsdk, -⟩ | ⟨config, given, raised, hok, hgiven, hne, hrefused, rfl⟩)
        · cases hsdk
        · obtain rfl := Except.ok.inj hok
          have hraised : createMemoryClient memory = .error raised :=
            (createMemoryClient_error_iff hcases).mpr ⟨given, hgiven, hne, hrefused⟩
          rw [hraised]
          rfl
    · intro n hn
      obtain ⟨service, hservice, rfl⟩ := Except.of_map_ok hn
      exact ⟨settings.items, rfl,
        consistent_of_valid hlawful hvalid coerce hcases (Except.ok_of_mapError hservice),
        guarded_of_valid hvalid⟩

end

/-- A `SecretStr` as one value. -/
def secretValue (s : String) : PyValue := .list [.str s]

def secretRuntime : ConfigRuntime :=
  { ConfigRuntime.reference with
    secretStr := fun
      | .str s | .list [.str s] => .ok s
      | v => .error (typeError "string_type" "Input should be a valid string" v)
    secretStr_str := fun _ => rfl }

theorem lawful_secretRuntime : Lawful secretRuntime secretValue :=
  ⟨fun _ => rfl, fun _ => rfl, fun _ => rfl, fun _ => rfl, fun _ _ h => by cases h⟩

def strictItems : Items :=
  [("apiUrl", .str " https://core.test/ "), ("apiKey", .str "key"), ("userId", .str "user"),
    ("allowPrivateNetworks", .bool false)]

/-- The strict guard accepts what the storage client sends. -/
theorem construct_consistent_strict :
    ∃ n, constructClient secretRuntime secretValue strictItems = .ok n ∧
      n.storage.get "api_url" = .str "https://core.test/" ∧
      Accepts .ascii "https://core.test/v1/storage/capabilities" false := by
  have hmade : ((constructClient secretRuntime secretValue strictItems).toOption).isSome := by
    decide +kernel
  have hread : (coerceConfig secretRuntime .atomicMemory strictItems).toOption.map (fun config =>
      (textOf config "api_url", boolOf config "allow_private_networks")) =
      some ("https://core.test/", false) := by
    decide +kernel
  obtain ⟨n, hn⟩ := Option.isSome_iff_exists.mp hmade
  have hn := PathCall.toOption_ok hn
  obtain ⟨config, hconfig, hconsistent, hguarded⟩ :=
    (construct_consistent lawful_secretRuntime (fun v => .ok v) strictItems).2 n hn
  obtain ⟨settings, rfl, -⟩ := settings_of_coerce hconfig
  rw [hconfig] at hread
  obtain ⟨hurl, hallow⟩ := Prod.mk.inj (Option.some.inj hread)
  have haccepts := hguarded (.reference []) (.storage .sync .capabilities) _ rfl rfl
  rw [hurl, hallow] at haccepts
  refine ⟨n, hn, ?_, ?_⟩
  · rw [hconsistent.storage "api_url" List.mem_cons_self, ← hurl]
    rfl
  · have hpath : requestUrl "https://core.test/" "/v1/storage/capabilities".toList =
        "https://core.test/v1/storage/capabilities" := by
      decide
    rw [← hpath]
    exact haccepts

end AtomicMemory
