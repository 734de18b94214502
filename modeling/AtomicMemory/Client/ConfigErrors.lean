import AtomicMemory.Client.Config

-- For a dict that is rejected whatever its API key: when the exception is the same for all keys.
-- It always carries the same context. Its message shows the inputs that were rejected, and the
-- input of a missing field, or of a check of the whole, is the dict with the key in it.

open PyText PydanticModel
open PyValue hiding none

namespace AtomicMemory

/-- A dict without its API key: what stands before and behind the key, and whether it goes by
its alias or its name. -/
structure KeyContext where
  before : Items
  after : Items
  keyName : String
  nodup : (keyName :: (before ++ after).keys).Nodup
  keyName_eq : keyName = "apiKey" ∨ keyName = "api_key" ∧ "apiKey" ∉ (before ++ after).keys

def KeyContext.config (c : KeyContext) (apiKey : String) : Items :=
  c.before ++ (c.keyName, .str apiKey) :: c.after

def NonBlank (apiKey : String) : Prop := strip apiKey ≠ []

instance (apiKey : String) : Decidable (NonBlank apiKey) := inferInstanceAs (Decidable (_ ≠ _))

theorem KeyContext.agreeOff (c : KeyContext) (apiKey apiKey' : String) :
    AgreeOff c.keyName (c.config apiKey) (c.config apiKey') :=
  agreeOff_replace c.keyName _ _ c.before c.after

theorem KeyContext.lookup_keyName (c : KeyContext) (apiKey : String) :
    (c.config apiKey).lookup c.keyName = some (.str apiKey) := by
  have hbefore : c.before.lookup c.keyName = none := by
    rw [Items.lookup_eq_none_iff]
    intro hmem
    have hnot := (List.nodup_cons.mp c.nodup).1
    apply hnot
    rw [Items.keys, List.map_append]
    exact List.mem_append_left _ hmem
  rw [KeyContext.config, Items.lookup_append, hbefore, Option.none_or, Items.lookup_cons,
    if_pos rfl]

theorem KeyContext.lookup_apiKey (c : KeyContext) (apiKey : String)
    (hname : c.keyName ≠ "apiKey") : (c.config apiKey).lookup "apiKey" = none := by
  obtain heq | ⟨-, hnot⟩ := c.keyName_eq
  · exact absurd heq hname
  · rw [Items.keys, List.map_append, List.mem_append, not_or] at hnot
    rw [KeyContext.config, Items.lookup_append, Items.lookup_cons, if_neg (Ne.symm hname),
      (Items.lookup_eq_none_iff _ _).mpr hnot.1, (Items.lookup_eq_none_iff _ _).mpr hnot.2]
    rfl

section ApiKey

variable (rt : ConfigRuntime) (emptyMessage : String) (c : KeyContext) {apiKey : String}

theorem apiKeyField_accepts (h : NonBlank apiKey) :
    ∃ v, (apiKeyField rt emptyMessage).validate (.str apiKey) = .ok v := by
  refine ⟨.str (String.ofList (strip apiKey)), ?_⟩
  have hstrip : strip apiKey ≠ [] := h
  simp only [apiKeyField, validateApiKey, if_neg hstrip, coerced, rt.secretStr_str]

theorem apiKeyField_given :
    (apiKeyField rt emptyMessage).given (c.config apiKey) =
      some (c.keyName, .str apiKey) := by
  have hkeys : (apiKeyField rt emptyMessage).keys = ["apiKey", "api_key"] := rfl
  have hfound := c.lookup_keyName apiKey
  unfold ModelField.given
  rw [hkeys, List.findSome?_cons]
  by_cases hname : c.keyName = "apiKey"
  · rw [← hname, hfound]
    rfl
  · have hname' : c.keyName = "api_key" := (c.keyName_eq.resolve_left hname).1
    rw [c.lookup_apiKey apiKey hname, ← hname', List.findSome?_cons, hfound]
    rfl

end ApiKey

theorem not_apiKey {f : ModelField} (names : List String) (hkeys : f.keys = names)
    (hnames : names.all fun name => name ≠ "apiKey" ∧ name ≠ "api_key") :
    ∀ key ∈ f.keys, ¬(key = "apiKey" ∨ key = "api_key") := by
  intro key hkey
  rw [not_or]
  exact of_decide_eq_true (List.all_eq_true.mp hnames key (hkeys ▸ hkey))

theorem not_apiKey_of_mem {rt : ConfigRuntime} {f : ModelField}
    (hf : f ∈ [apiUrlField rt, userIdField rt, timeoutSecondsField rt,
      allowPrivateNetworksField rt, memoryField rt]) :
    ∀ key ∈ f.keys, ¬(key = "apiKey" ∨ key = "api_key") := by
  simp only [List.mem_cons, List.not_mem_nil, or_false] at hf
  obtain rfl | rfl | rfl | rfl | rfl := hf
  · exact not_apiKey ["apiUrl", "api_url"] rfl (by decide)
  · exact not_apiKey ["userId", "user_id"] rfl (by decide)
  · exact not_apiKey ["timeoutSeconds", "timeout_seconds"] rfl (by decide)
  · exact not_apiKey ["allowPrivateNetworks", "allow_private_networks"] rfl (by decide)
  · exact not_apiKey ["memory"] rfl (by decide)

theorem KeyedClient.mem_fields (rt : ConfigRuntime) (client : KeyedClient) :
    ∃ emptyMessage, apiKeyField rt emptyMessage ∈ (client.config rt).fields ∧
      ∀ f ∈ (client.config rt).fields, f = apiKeyField rt emptyMessage ∨
        f ∈ [apiUrlField rt, userIdField rt, timeoutSecondsField rt,
          allowPrivateNetworksField rt, memoryField rt] := by
  cases client with
  | atomicMemory =>
    refine ⟨"value must not be empty", by simp [config, atomicMemoryClientConfig], ?_⟩
    intro f hf
    simp only [config, atomicMemoryClientConfig, List.mem_cons, List.not_mem_nil] at hf ⊢
    tauto
  | storage =>
    refine ⟨"value must not be empty", by simp [config, storageClientConfig], ?_⟩
    intro f hf
    simp only [config, storageClientConfig, List.mem_cons, List.not_mem_nil] at hf ⊢
    tauto
  | entities =>
    refine ⟨"api_key must not be empty", by simp [config, entitiesClientConfig], ?_⟩
    intro f hf
    simp only [config, entitiesClientConfig, List.mem_cons, List.not_mem_nil] at hf ⊢
    tauto

theorem KeyedClient.apiKeyField_unique (rt : ConfigRuntime) (client : KeyedClient) :
    ∃ emptyMessage, apiKeyField rt emptyMessage ∈ (client.config rt).fields ∧
      ∀ f ∈ (client.config rt).fields, ∀ key ∈ f.keys, key = "apiKey" ∨ key = "api_key" →
        f = apiKeyField rt emptyMessage := by
  obtain ⟨emptyMessage, hmem, hfields⟩ := client.mem_fields rt
  refine ⟨emptyMessage, hmem, ?_⟩
  intro f hf key hkey hapi
  obtain heq | hother := hfields f hf
  · exact heq
  · exact absurd hapi (not_apiKey_of_mem hother key hkey)

theorem textOf_congr {values values' : Items} {name : String}
    (h : values.lookup name = values'.lookup name) : textOf values name = textOf values' name := by
  unfold textOf Items.get
  rw [h]

theorem boolOf_congr {values values' : Items} {name : String}
    (h : values.lookup name = values'.lookup name) : boolOf values name = boolOf values' name := by
  unfold boolOf Items.get
  rw [h]

def CheckedAlike (values values' : Items) : Prop :=
  ∀ name ∈ ["api_url", "user_id", "allow_private_networks"],
    values.lookup name = values'.lookup name

theorem checkApiUrl_alike (u : Unicode) {values values' : Items}
    (h : CheckedAlike values values') :
    (∃ message, checkApiUrl u values = .error message ∧
      checkApiUrl u values' = .error message) ∨
    ∃ url, checkApiUrl u values = .ok (values.set "api_url" (.str url)) ∧
      checkApiUrl u values' = .ok (values'.set "api_url" (.str url)) := by
  have htext := textOf_congr (h "api_url" (by simp))
  have hbool := boolOf_congr (h "allow_private_networks" (by simp))
  unfold checkApiUrl
  rw [← htext, ← hbool]
  cases validateApiUrl u (textOf values "api_url") (boolOf values "allow_private_networks") with
  | ok url => exact .inr ⟨url, rfl, rfl⟩
  | error message => exact .inl ⟨message, rfl, rfl⟩

theorem checkApiUrl_congr (u : Unicode) {values values' : Items} {message : String}
    (h : CheckedAlike values values') (herror : checkApiUrl u values = .error message) :
    checkApiUrl u values' = .error message := by
  obtain ⟨m, hm, hm'⟩ | ⟨url, hurl, -⟩ := checkApiUrl_alike u h
  · rw [← herror, hm, hm']
  · rw [hurl] at herror
    cases herror

theorem requireNonEmpty_congr (u : Unicode) {values values' : Items} {message : String}
    (h : CheckedAlike values values') (herror : requireNonEmpty u values = .error message) :
    requireNonEmpty u values' = .error message := by
  have htext := textOf_congr (h "api_url" (by simp))
  unfold requireNonEmpty at herror ⊢
  rw [← htext]
  split at herror
  · rename_i hempty
    rw [if_pos hempty]
    exact herror
  · rename_i hne
    rw [if_neg hne]
    obtain ⟨m, hm, hm'⟩ | ⟨url, hurl, hurl'⟩ := checkApiUrl_alike u h
    · rw [hm] at herror
      rw [hm']
      exact herror
    · -- the check of the URL replaces nothing but the URL
      have huser : textOf (values.set "api_url" (.str url)) "user_id" =
          textOf (values'.set "api_url" (.str url)) "user_id" := by
        apply textOf_congr
        rw [Items.lookup_set, Items.lookup_set, if_neg (by decide), if_neg (by decide)]
        exact h "user_id" (by simp)
      rw [hurl] at herror
      rw [hurl']
      dsimp only at herror ⊢
      rw [← huser]
      split at herror
      · rename_i hempty
        rw [if_pos hempty]
        exact herror
      · cases herror

theorem KeyedClient.check_congr (rt : ConfigRuntime) (client : KeyedClient)
    {values values' : Items} {message : String} (h : CheckedAlike values values')
    (herror : (client.config rt).check values = .error message) :
    (client.config rt).check values' = .error message := by
  cases client with
  | atomicMemory =>
    simp only [config, atomicMemoryClientConfig] at herror ⊢
    exact requireNonEmpty_congr rt.style.unicode h herror
  | storage =>
    simp only [config, storageClientConfig] at herror ⊢
    exact requireNonEmpty_congr rt.style.unicode h herror
  | entities =>
    simp only [config, entitiesClientConfig] at herror ⊢
    exact checkApiUrl_congr rt.style.unicode h herror

def SameFailure (r r' : Except SdkError Items) : Prop :=
  ∃ e e', r = .error e ∧ r' = .error e' ∧ e.message = e'.message ∧ e.context = e'.context

section TwoKeys

variable (rt : ConfigRuntime) (client : KeyedClient) (c : KeyContext) {apiKey apiKey' : String}

theorem acceptedAt_keyName (h : NonBlank apiKey) :
    AcceptedAt c.keyName (client.config rt).fields (c.config apiKey) := by
  obtain ⟨emptyMessage, -, hunique⟩ := client.apiKeyField_unique rt
  intro f hf v hv
  obtain ⟨hmem, hlookup⟩ := given_mem hv
  rw [c.lookup_keyName apiKey] at hlookup
  cases hlookup
  rw [hunique f hf c.keyName hmem (c.keyName_eq.imp_right And.left)]
  exact apiKeyField_accepts rt emptyMessage h

theorem keyName_mem_usedKeys :
    c.keyName ∈ usedKeys (client.config rt).fields (c.config apiKey) := by
  obtain ⟨emptyMessage, hmem, -⟩ := client.apiKeyField_unique rt
  refine List.mem_filterMap.mpr ⟨_, hmem, ?_⟩
  rw [apiKeyField_given]
  rfl

theorem checkedAlike_values (apiKey apiKey' : String) :
    CheckedAlike (values (client.config rt).fields (c.config apiKey))
      (values (client.config rt).fields (c.config apiKey')) := by
  obtain ⟨emptyMessage, -, hunique⟩ := client.apiKeyField_unique rt
  intro name hname
  apply (c.agreeOff apiKey apiKey').values_lookup
  intro f hf v hv hf'
  rw [hunique f hf c.keyName (given_mem hv).1 (c.keyName_eq.imp_right And.left)] at hf'
  subst hf'
  have hnot : "api_key" ∉ ["api_url", "user_id", "allow_private_networks"] := by decide
  exact hnot hname

theorem validateModel_alike (h : NonBlank apiKey) (h' : NonBlank apiKey') {es : List LineError}
    (hes : validateModel (client.config rt).fields (client.config rt).check (c.config apiKey) =
      .error es) :
    ∃ es', validateModel (client.config rt).fields (client.config rt).check (c.config apiKey') =
        .error es' ∧
      Alike rt.style (c.config apiKey) (c.config apiKey')
        (¬Diagnosed (client.config rt).fields (c.config apiKey)) es es' :=
  (c.agreeOff apiKey apiKey').validateModel rt.style (acceptedAt_keyName rt client c h)
    (acceptedAt_keyName rt client c h') (keyName_mem_usedKeys rt client c)
    (fun _ => client.check_congr rt (checkedAlike_values rt client c apiKey apiKey')) hes

theorem diagnosed_of_diagnosed (h : NonBlank apiKey) (apiKey' : String)
    (hdiagnosed : Diagnosed (client.config rt).fields (c.config apiKey)) :
    Diagnosed (client.config rt).fields (c.config apiKey') :=
  (c.agreeOff apiKey apiKey').diagnosed (acceptedAt_keyName rt client c h) hdiagnosed

end TwoKeys

theorem coerceConfig_error {rt : ConfigRuntime} {client : KeyedClient} {items : Items}
    {e : SdkError} (h : coerceConfig rt client items = .error e) :
    ∃ es, validateModel (client.config rt).fields (client.config rt).check items = .error es ∧
      e = (client.config rt).error rt.style es := by
  unfold coerceConfig ConfigModel.coerce at h
  cases hes : validateModel (client.config rt).fields (client.config rt).check items with
  | ok vs =>
    rw [hes] at h
    cases h
  | error es =>
    rw [hes] at h
    cases h
    exact ⟨es, rfl, rfl⟩

theorem coerceConfig_of_error {rt : ConfigRuntime} {client : KeyedClient} {items : Items}
    {es : List LineError}
    (h : validateModel (client.config rt).fields (client.config rt).check items = .error es) :
    coerceConfig rt client items = .error ((client.config rt).error rt.style es) := by
  unfold coerceConfig ConfigModel.coerce
  rw [h]
  rfl

theorem sanitizedPydanticErrors_eq (style : ReportStyle) (es : List LineError) :
    sanitizedPydanticErrors style es = (es.map LineError.head).map fun head =>
      .dict [("type", .str head.type), ("loc", .list head.loc), ("msg", .str head.msg)] := by
  unfold sanitizedPydanticErrors
  rw [List.map_map]
  apply List.map_congr_left
  intro e _
  have hctx : (e.ctx.toList.map fun ctx => ("ctx", ctx)).filter
      (fun item : String × PyValue => item.1 ∉ droppedErrorKeys) = [] := by
    cases e.ctx <;> rfl
  rw [LineError.toItems, List.filter_append, List.filter_append, hctx, List.append_nil]
  rfl

theorem context_irrelevant (rt : ConfigRuntime) (client : KeyedClient) (c : KeyContext)
    {apiKey apiKey' : String} (h : NonBlank apiKey) (h' : NonBlank apiKey') {e : SdkError}
    (he : coerceConfig rt client (c.config apiKey) = .error e) :
    ∃ e', coerceConfig rt client (c.config apiKey') = .error e' ∧ e.context = e'.context := by
  obtain ⟨es, hes, rfl⟩ := coerceConfig_error he
  obtain ⟨es', hes', halike⟩ := validateModel_alike rt client c h h' hes
  refine ⟨_, coerceConfig_of_error hes', ?_⟩
  unfold ConfigModel.error
  rw [sanitizedPydanticErrors_eq, sanitizedPydanticErrors_eq, halike.heads]

theorem reportText_lt (rt : ConfigRuntime) (client : KeyedClient) (c : KeyContext)
    {es : List LineError}
    (hes : validateModel (client.config rt).fields (client.config rt).check (c.config "a") =
      .error es)
    (hundiagnosed : ¬Diagnosed (client.config rt).fields (c.config "a")) :
    ∃ es', validateModel (client.config rt).fields (client.config rt).check (c.config "aa") =
        .error es' ∧ ∀ title,
      (reportText rt.style title es).length < (reportText rt.style title es').length := by
  have hsize : size rt.style (c.config "a") < size rt.style (c.config "aa") := by
    apply size_replace
    have ha : (reprValue rt.style.toReprStyle (.str "a")).length = 3 := rfl
    have haa : (reprValue rt.style.toReprStyle (.str "aa")).length = 4 := rfl
    rw [ha, haa]
    decide
  have haa : NonBlank "aa" := by decide
  obtain ⟨es', hes', halike⟩ := validateModel_alike rt client c (by decide) haa hes
  exact ⟨es', hes', halike.reportText_lt hundiagnosed hsize⟩

/-- The exception for a rejected dict is the same for all keys exactly when the report is
about parts of the dict only. -/
theorem sameFailure_iff (rt : ConfigRuntime) (client : KeyedClient) (c : KeyContext)
    {apiKey₀ : String} {e₀ : SdkError} (h₀ : NonBlank apiKey₀)
    (he₀ : coerceConfig rt client (c.config apiKey₀) = .error e₀) :
    (∀ apiKey apiKey', NonBlank apiKey → NonBlank apiKey' →
      SameFailure (coerceConfig rt client (c.config apiKey))
        (coerceConfig rt client (c.config apiKey'))) ↔
      Diagnosed (client.config rt).fields (c.config apiKey₀) := by
  obtain ⟨es₀, hes₀, -⟩ := coerceConfig_error he₀
  constructor
  · intro hsame
    by_contra hundiagnosed
    have ha : NonBlank "a" := by decide
    obtain ⟨es, hes, -⟩ := validateModel_alike rt client c h₀ ha hes₀
    have hundiagnosed' : ¬Diagnosed (client.config rt).fields (c.config "a") :=
      mt (diagnosed_of_diagnosed rt client c ha apiKey₀) hundiagnosed
    -- keys of two lengths make reports of two lengths
    obtain ⟨es', hes', hlt⟩ := reportText_lt rt client c hes hundiagnosed'
    obtain ⟨e, e', he, he', hmessage, -⟩ := hsame "a" "aa" ha (by decide)
    rw [coerceConfig_of_error hes] at he
    rw [coerceConfig_of_error hes'] at he'
    cases he
    cases he'
    have hlength := congrArg List.length hmessage
    simp only [ConfigModel.error, List.length_append] at hlength
    have := hlt (client.config rt).title
    omega
  · intro hdiagnosed apiKey apiKey' h h'
    obtain ⟨es, hes, halike⟩ := validateModel_alike rt client c h₀ h hes₀
    obtain ⟨es', hes', halike'⟩ := validateModel_alike rt client c h₀ h' hes₀
    have heq := halike.same (not_not.mpr hdiagnosed)
    have heq' := halike'.same (not_not.mpr hdiagnosed)
    refine ⟨_, _, coerceConfig_of_error hes, coerceConfig_of_error hes', ?_⟩
    rw [← heq, ← heq']
    exact ⟨rfl, rfl⟩

def wrongUrlContext : KeyContext where
  before := []
  after := [("apiUrl", .int 3), ("userId", .str "u")]
  keyName := "apiKey"
  nodup := by decide
  keyName_eq := .inl rfl

theorem sameFailure_wrongUrl :
    SameFailure (coerceConfig .reference .storage (wrongUrlContext.config "a"))
      (coerceConfig .reference .storage (wrongUrlContext.config "bb")) := by
  have hfails : ∃ e, coerceConfig .reference .storage (wrongUrlContext.config "a") = .error e :=
    ⟨_, rfl⟩
  obtain ⟨e, he⟩ := hfails
  have ha : NonBlank "a" := by decide
  have hdiagnosed : Diagnosed (KeyedClient.storage.config .reference).fields
      (wrongUrlContext.config "a") := by
    constructor
    · intro f hf hdefault
      simp only [KeyedClient.config, storageClientConfig, List.mem_cons, List.not_mem_nil,
        or_false] at hf
      obtain rfl | rfl | rfl | rfl | rfl := hf
      · rfl
      · rfl
      · rfl
      · cases hdefault
      · cases hdefault
    · exact .inl ⟨apiUrlField .reference, List.mem_cons_self, "apiUrl", .int 3, _, rfl, rfl⟩
  exact (sameFailure_iff .reference .storage wrongUrlContext ha he).mpr hdiagnosed "a" "bb" ha
    (by decide)

/-- A missing URL shows the key: the two dicts differ in it, and so do the two messages. -/
theorem missing_apiUrl_shows_apiKey :
    ∃ e e', coerceConfig .reference .storage [("apiKey", .str "a"), ("userId", .str "u")] =
        .error e ∧
      coerceConfig .reference .storage [("apiKey", .str "b"), ("userId", .str "u")] = .error e' ∧
      e.message ≠ e'.message := by
  exact ⟨_, _, rfl, rfl, by decide +kernel⟩

end AtomicMemory
