import AtomicMemory.Lib.Machine
import AtomicMemory.Memory.Service

-- `MemoryClient.initialize` and `MemoryClient.close` hold one lock for their whole
-- body, so a run of the client is a sequence of complete calls.

namespace AtomicMemory.SyncClient
open SyncService

/-- `_pick_first_provider_key`: a value of `none` is a config of `None`. -/
def pickFirstProviderKey {γ : Type*} (providers : List (String × Option γ)) : Option String :=
  (providers.find? fun kv => kv.2.isSome && kv.1 != "default").map Prod.fst

/-- `MemoryClient.__init__`, up to the service's config. An empty `default_provider`
counts as none. -/
def createConfig {γ : Type*} (providers : List (String × Option γ))
    (keys : (providers.map Prod.fst).Nodup) (defaultProvider : Option String) :
    Except PyError MemoryServiceConfig :=
  if providers.isEmpty then
    .error (.configError ("MemoryClient requires at least one provider config. " ++
      "Pass e.g. \x7b\"atomicmemory\": \x7b\"api_url\": \"...\"\x7d\x7d."))
  else
    match (defaultProvider.filter (· != "")) <|> pickFirstProviderKey providers with
    | none => .error (.configError "No usable provider config supplied")
    | some chosen => MemoryServiceConfig.create (providers.map Prod.fst) keys chosen

/-- `_initialized`, `_init_error`, the service's two maps, and the caller's world. -/
structure MemoryClient where
  initialized : Bool
  initError : Option PyError
  service : MemoryService
  world : World

def MemoryClient.new : MemoryClient := ⟨false, none, .empty, ⟨[], 0, []⟩⟩

/-- `MemoryClient.initialize`. Only an `Exception` is recorded. -/
def initializeClient (config : MemoryServiceConfig) (c : MemoryClient)
    (registry : ProviderRegistry) : MemoryClient × Outcome :=
  if c.initialized then (c, .returned)
  else match c.initError with
    | some e => (c, .raised e)
    | none =>
      match c.service.initializeProviders config registry c.world with
      | (service, world, .returned) => ({ c with initialized := true, service, world }, .returned)
      | (service, world, .raised e) =>
        ({ c with initError := if e.isException then some e else none, service, world }, .raised e)

/-- `MemoryClient.close`. -/
def closeClient (c : MemoryClient) : MemoryClient × Outcome :=
  if c.initialized then
    let (service, world, outcome) := c.service.close c.world
    ({ c with initialized := false, service, world }, outcome)
  else (c, .returned)

inductive Call
  | initializeClient (registry : ProviderRegistry)
  | closeClient

def step (config : MemoryServiceConfig) (c : MemoryClient) : Call → Option MemoryClient
  | .initializeClient registry => some (initializeClient config c registry).1
  | .closeClient => some (closeClient c).1

def machine (config : MemoryServiceConfig) : Machine MemoryClient Call := ⟨.new, step config⟩

/-- Calls whose registry's providers raise only `Exception`s from `close()`. -/
def SafeCall (_ : MemoryClient) : Call → Prop
  | .initializeClient registry => registry.ClosesSafely
  | .closeClient => True

def MemoryClient.registered (c : MemoryClient) : List Provider := c.service.providers.map Prod.snd

structure Consistent (c : MemoryClient) : Prop where
  initialized_iff : c.initialized = true ↔ c.service.providers ≠ []
  error_uninitialized : ∀ e, c.initError = some e → c.initialized = false
  error_isException : ∀ e, c.initError = some e → e.isException = true
  registered_safe : ∀ p ∈ c.registered, ClosesSafely p
  registered_created : ∀ i ∈ providerIds c.registered, i < c.world.created
  registered_nodup : (providerIds c.registered).Nodup
  closed_once : ∀ i < c.world.created,
    c.world.closeCalls.count i = if i ∈ providerIds c.registered then 0 else 1
  closed_created : ∀ i ∈ c.world.closeCalls, i < c.world.created

theorem consistent_new : Consistent .new := by
  constructor <;> simp [MemoryClient.new, MemoryClient.registered, MemoryService.empty, providerIds]

theorem Consistent.providers_eq_nil {c : MemoryClient} (h : Consistent c)
    (hi : c.initialized = false) : c.service.providers = [] := by
  by_contra hne
  rw [h.initialized_iff.mpr hne] at hi
  cases hi

/-- The ids of `k` providers created from `n` on, each once. -/
theorem count_range' (i n k : ℕ) :
    (List.range' n k).count i = if n ≤ i ∧ i < n + k then 1 else 0 := by
  by_cases h : n ≤ i ∧ i < n + k
  · rw [if_pos h]
    exact List.count_eq_one_of_mem List.nodup_range' (by simp only [List.mem_range'_1]; exact h)
  · rw [if_neg h]
    exact List.count_eq_zero.mpr (by simpa only [List.mem_range'_1] using h)

/-- The service either commits the fresh providers it created or closes each of
them once and leaves its maps alone. -/
theorem initializeProviders_cases (config : MemoryServiceConfig) (svc : MemoryService)
    (registry : ProviderRegistry) (w : World) (h : registry.ClosesSafely) :
    ∃ fresh : Staged, providerIds (stagedList fresh) = List.range' w.created fresh.length ∧
      (svc.initializeProviders config registry w).2.1.created = w.created + fresh.length ∧
      (∀ p ∈ stagedList fresh, ClosesSafely p) ∧
      (((svc.initializeProviders config registry w).2.2 = .returned ∧
          (svc.initializeProviders config registry w).1.providers = stagedProviders fresh ∧
          stagedProviders fresh ≠ [] ∧
          (svc.initializeProviders config registry w).2.1.closeCalls = w.closeCalls) ∨
        (∃ e, (svc.initializeProviders config registry w).2.2 = .raised e) ∧
          (svc.initializeProviders config registry w).1 = svc ∧
          (svc.initializeProviders config registry w).2.1.closeCalls =
            w.closeCalls ++ List.range' w.created fresh.length) := by
  obtain ⟨fresh, h1, h2, h3, h4, h5⟩ := stageProviders_spec registry config.providerConfigs [] w
  have hsafe := h5 h
  rw [List.nil_append] at h1
  unfold MemoryService.initializeProviders
  generalize stageProviders registry config.providerConfigs [] w = r at h1 h3 h4
  obtain ⟨staged, w', error⟩ := r
  dsimp only at h1 h3 h4 ⊢
  subst h1
  refine ⟨staged, h2, ?_, hsafe, ?_⟩
  · -- the teardown constructs no provider
    split
    · exact h3
    · rw [teardown_eq _ _ hsafe]
      exact h3
  · split
    · -- without an error the default provider is staged, so the map is not empty
      rename_i hnone
      left
      have hd : missingDefaultError config staged = none := by
        cases error <;> simp_all
      exact ⟨rfl, rfl, stagedProviders_ne_nil hd, h4⟩
    · right
      rw [teardown_eq _ _ hsafe]
      exact ⟨⟨_, rfl⟩, rfl, by simp only [h4, h2]⟩

theorem Consistent.commit {c : MemoryClient} (hc : Consistent c) (hi : c.initialized = false)
    (herr : c.initError = none) {service : MemoryService} {world : World} {fresh : Staged}
    (hids : providerIds (stagedList fresh) = List.range' c.world.created fresh.length)
    (hcreated : world.created = c.world.created + fresh.length)
    (hsafe : ∀ p ∈ stagedList fresh, ClosesSafely p)
    (hprov : service.providers = stagedProviders fresh) (hne : stagedProviders fresh ≠ [])
    (hcalls : world.closeCalls = c.world.closeCalls) :
    Consistent { c with initialized := true, service, world } := by
  have hregistered : service.providers.map Prod.snd = stagedList fresh := by
    rw [hprov, stagedProviders_map_snd]
  have hnil : providerIds c.registered = [] := by
    simp [MemoryClient.registered, hc.providers_eq_nil hi, providerIds]
  constructor <;> simp only [MemoryClient.registered, hregistered, hids, hcalls, hcreated]
  · simpa only [hprov, true_iff] using hne
  · simp [herr]
  · simp [herr]
  · exact hsafe
  · exact fun i hm => (List.mem_range'_1.mp hm).2
  · exact List.nodup_range'
  · intro i hlt
    by_cases hold : i < c.world.created
    · rw [if_neg (by rw [List.mem_range'_1]; omega), hc.closed_once i hold, hnil]
      simp
    · rw [if_pos (by rw [List.mem_range'_1]; omega)]
      exact List.count_eq_zero.mpr fun hm => hold (hc.closed_created i hm)
  · exact fun i hm => Nat.lt_add_right _ (hc.closed_created i hm)

theorem Consistent.fail {c : MemoryClient} (hc : Consistent c) (hi : c.initialized = false)
    {world : World} {n : ℕ} (hcreated : world.created = c.world.created + n)
    (hcalls : world.closeCalls = c.world.closeCalls ++ List.range' c.world.created n)
    (error : Option PyError) (herror : ∀ e, error = some e → e.isException = true) :
    Consistent { c with initError := error, world } := by
  have hnil : c.service.providers.map Prod.snd = [] := by simp [hc.providers_eq_nil hi]
  constructor <;> simp only [MemoryClient.registered, hnil, hcalls, hcreated]
  · exact hc.initialized_iff
  · exact fun _ _ => hi
  · exact herror
  · simp
  · simp [providerIds]
  · simp [providerIds]
  · intro i hlt
    have hcount := count_range' i c.world.created n
    simp only [providerIds, List.map_nil, List.not_mem_nil, if_false, List.count_append, hcount]
    by_cases hold : i < c.world.created
    · have hreg : i ∉ providerIds c.registered := by
        simp [MemoryClient.registered, hnil, providerIds]
      rw [hc.closed_once i hold, if_neg hreg, if_neg (by omega)]
    · rw [List.count_eq_zero.mpr fun hm => hold (hc.closed_created i hm), if_pos (by omega)]
  · intro i hm
    rcases List.mem_append.mp hm with hm | hm
    · exact Nat.lt_add_right _ (hc.closed_created i hm)
    · exact (List.mem_range'_1.mp hm).2

theorem consistent_initializeClient (config : MemoryServiceConfig) (c : MemoryClient)
    (registry : ProviderRegistry) (hc : Consistent c) (h : registry.ClosesSafely) :
    Consistent (initializeClient config c registry).1 := by
  unfold initializeClient
  split
  · exact hc
  · rename_i hi
    have hi : c.initialized = false := by simpa using hi
    split
    · exact hc
    · rename_i herr
      have hcases := initializeProviders_cases config c.service registry c.world h
      generalize c.service.initializeProviders config registry c.world = r at hcases
      obtain ⟨service, world, outcome⟩ := r
      obtain ⟨fresh, hids, hcreated, hsafe, hcommit | hfail⟩ := hcases
      · obtain ⟨rfl, hprov, hne, hcalls⟩ := hcommit
        exact hc.commit hi herr hids hcreated hsafe hprov hne hcalls
      · obtain ⟨⟨e, rfl⟩, rfl, hcalls⟩ := hfail
        refine hc.fail hi hcreated hcalls _ fun e' he' => ?_
        split at he'
        · rename_i hex
          cases he'
          exact hex
        · cases he'

theorem consistent_closeClient (c : MemoryClient) (hc : Consistent c) :
    Consistent (closeClient c).1 := by
  unfold closeClient
  split
  · rename_i hi
    have hw := closeProviders_world c.registered none c.world hc.registered_safe
    unfold MemoryService.close
    change Consistent (MemoryClient.mk false c.initError .empty
      (closeProviders c.registered none c.world).1)
    rw [hw]
    constructor
    · simp [MemoryService.empty]
    · exact fun e he => rfl
    · exact hc.error_isException
    · simp [MemoryClient.registered, MemoryService.empty]
    · simp [MemoryClient.registered, MemoryService.empty, providerIds]
    · simp [MemoryClient.registered, MemoryService.empty, providerIds]
    · intro i hlt
      change i < c.world.created at hlt
      change (c.world.closeCalls ++ providerIds c.registered).count i = 1
      rw [List.count_append, hc.closed_once i hlt]
      split
      · -- a registered provider had not been closed and stands once in the map
        rename_i hm
        rw [Nat.zero_add]
        exact List.count_eq_one_of_mem hc.registered_nodup hm
      · rename_i hm
        rw [List.count_eq_zero.mpr hm]
    · intro i hm
      simp only [List.mem_append] at hm
      exact hm.elim (hc.closed_created i) (hc.registered_created i)
  · exact hc

theorem consistent_step (config : MemoryServiceConfig) (c : MemoryClient) (call : Call)
    (c' : MemoryClient) (hc : Consistent c) (hs : SafeCall c call)
    (h : step config c call = some c') : Consistent c' := by
  cases call with
  | initializeClient registry =>
    cases h
    exact consistent_initializeClient config c registry hc hs
  | closeClient =>
    cases h
    exact consistent_closeClient c hc

theorem consistent_of_reachable {config : MemoryServiceConfig} {c : MemoryClient}
    (h : (machine config).ReachableBy SafeCall c) : Consistent c :=
  h.invariant consistent_new (consistent_step config)

theorem initializeClient_of_error (config : MemoryServiceConfig) {c : MemoryClient} {e : PyError}
    (hc : Consistent c) (he : c.initError = some e) (registry : ProviderRegistry) :
    initializeClient config c registry = (c, .raised e) := by
  simp [initializeClient, hc.error_uninitialized e he, he]

theorem closeClient_initError (c : MemoryClient) : (closeClient c).1.initError = c.initError := by
  unfold closeClient
  split <;> rfl

theorem initError_forever {config : MemoryServiceConfig} {c c' : MemoryClient} {e : PyError}
    (hc : Consistent c) (he : c.initError = some e) (h : (machine config).Leads SafeCall c c') :
    c'.initError = some e := by
  refine (h.invariant (I := fun c => Consistent c ∧ c.initError = some e) ?_ ⟨hc, he⟩).2
  rintro c call c' ⟨hc, he⟩ hs hstep
  refine ⟨consistent_step config c call c' hc hs hstep, ?_⟩
  cases call with
  | initializeClient registry =>
    cases hstep
    rw [initializeClient_of_error config hc he registry]
    exact he
  | closeClient =>
    cases hstep
    rw [closeClient_initError, he]

section

variable {γ : Type*} {providers : List (String × Option γ)} {defaultProvider : Option String}

/-- No default is named: `default_provider or ...` goes on with the providers. -/
def NoDefault (defaultProvider : Option String) : Prop :=
  defaultProvider = none ∨ defaultProvider = some ""

/-- There is no configuration in the entry, or it is the one called `default`. -/
def PassedOver (entry : String × Option γ) : Prop := entry.2 = none ∨ entry.1 = "default"

/-- The default that the constructor takes: the one that is named, or the first provider that is
not passed over. -/
def Chooses (providers : List (String × Option γ)) (defaultProvider : Option String)
    (name : String) : Prop :=
  defaultProvider = some name ∧ name ≠ "" ∨
    NoDefault defaultProvider ∧ ∃ before config after,
      providers = before ++ (name, some config) :: after ∧ name ≠ "default" ∧
        ∀ entry ∈ before, PassedOver entry

inductive Refused (providers : List (String × Option γ)) (defaultProvider : Option String) :
    PyError → Prop
  | noProvider (h : providers = []) : Refused providers defaultProvider
      (.configError ("MemoryClient requires at least one provider config. " ++
        "Pass e.g. \x7b\"atomicmemory\": \x7b\"api_url\": \"...\"\x7d\x7d."))
  | noUsable (h : providers ≠ []) (hdefault : NoDefault defaultProvider)
      (hpassed : ∀ entry ∈ providers, PassedOver entry) :
      Refused providers defaultProvider (.configError "No usable provider config supplied")
  | notConfigured (h : providers ≠ []) (name : String) (hdefault : defaultProvider = some name)
      (hne : name ≠ "") (hname : name ∉ providers.map Prod.fst) :
      Refused providers defaultProvider
        (.configError s!"default_provider '{name}' is not in provider_configs")

theorem passedOver_iff (entry : String × Option γ) :
    (entry.2.isSome && entry.1 != "default") = false ↔ PassedOver entry := by
  rw [Bool.and_eq_false_iff, bne_eq_false_iff_eq, Option.isSome_eq_false_iff, Option.isNone_iff_eq_none]
  rfl

theorem pickFirstProviderKey_eq_some_iff {name : String} :
    pickFirstProviderKey providers = some name ↔ ∃ before config after,
      providers = before ++ (name, some config) :: after ∧ name ≠ "default" ∧
        ∀ entry ∈ before, PassedOver entry := by
  unfold pickFirstProviderKey
  rw [Option.map_eq_some_iff]
  constructor
  · rintro ⟨⟨_, config⟩, hfind, rfl⟩
    obtain ⟨htaken, before, after, rfl, hbefore⟩ := List.find?_eq_some_iff_append.mp hfind
    rw [Bool.and_eq_true, Option.isSome_iff_exists, bne_iff_ne] at htaken
    obtain ⟨⟨config, rfl⟩, hname⟩ := htaken
    refine ⟨before, config, after, rfl, hname, fun entry hentry => ?_⟩
    exact (passedOver_iff entry).mp ((Bool.not_eq_true' _).mp (hbefore entry hentry))
  · rintro ⟨before, config, after, rfl, hname, hbefore⟩
    refine ⟨(name, some config), List.find?_eq_some_iff_append.mpr ⟨?_, before, after, rfl, ?_⟩, rfl⟩
    · exact bne_iff_ne.mpr hname
    · intro entry hentry
      rw [(passedOver_iff entry).mpr (hbefore entry hentry)]
      rfl

theorem pickFirstProviderKey_eq_none_iff :
    pickFirstProviderKey providers = none ↔ ∀ entry ∈ providers, PassedOver entry := by
  unfold pickFirstProviderKey
  rw [Option.map_eq_none_iff, List.find?_eq_none]
  refine forall₂_congr fun entry _ => ?_
  rw [Bool.not_eq_true, passedOver_iff]

theorem filter_default_none_iff :
    defaultProvider.filter (· != "") = none ↔ NoDefault defaultProvider := by
  cases defaultProvider with
  | none => exact iff_of_true rfl (.inl rfl)
  | some name =>
    rw [Option.filter_eq_none_iff]
    simp [NoDefault]

theorem filter_default_some_iff {name : String} :
    defaultProvider.filter (· != "") = some name ↔ defaultProvider = some name ∧ name ≠ "" := by
  rw [Option.filter_eq_some_iff, bne_iff_ne]

theorem createConfig_cases (keys : (providers.map Prod.fst).Nodup) :
    (∃ config, createConfig providers keys defaultProvider = .ok config ∧
      config.providerConfigs = providers.map Prod.fst ∧
        Chooses providers defaultProvider config.defaultProvider) ∨
    ∃ e, createConfig providers keys defaultProvider = .error e ∧
      Refused providers defaultProvider e := by
  unfold createConfig
  by_cases hempty : providers.isEmpty = true
  · rw [if_pos hempty]
    exact .inr ⟨_, rfl, .noProvider (List.isEmpty_iff.mp hempty)⟩
  · rw [if_neg hempty]
    have hne : providers ≠ [] := fun h => hempty (List.isEmpty_iff.mpr h)
    have hkeys : providers.map Prod.fst ≠ [] := fun h => hne (List.map_eq_nil_iff.mp h)
    cases hdefault : defaultProvider.filter (· != "") with
    | some name =>
      have hgiven := filter_default_some_iff.mp hdefault
      unfold MemoryServiceConfig.create
      dsimp only [HOrElse.hOrElse, OrElse.orElse, Option.orElse]
      rw [if_neg hkeys]
      by_cases hmem : name ∈ providers.map Prod.fst
      · rw [dif_pos hmem]
        exact .inl ⟨_, rfl, rfl, .inl hgiven⟩
      · rw [dif_neg hmem]
        exact .inr ⟨_, rfl, .notConfigured hne name hgiven.1 hgiven.2 hmem⟩
    | none =>
      have hnodefault := filter_default_none_iff.mp hdefault
      cases hpick : pickFirstProviderKey providers with
      | none =>
        exact .inr ⟨_, rfl, .noUsable hne hnodefault (pickFirstProviderKey_eq_none_iff.mp hpick)⟩
      | some name =>
        have hfirst := pickFirstProviderKey_eq_some_iff.mp hpick
        obtain ⟨before, config, after, hproviders, -⟩ := hfirst
        have hmem : name ∈ providers.map Prod.fst := by
          rw [hproviders, List.map_append]
          exact List.mem_append_right _ List.mem_cons_self
        unfold MemoryServiceConfig.create
        dsimp only [HOrElse.hOrElse, OrElse.orElse, Option.orElse]
        rw [if_neg hkeys, dif_pos hmem]
        exact .inl ⟨_, rfl, rfl, .inr ⟨hnodefault, pickFirstProviderKey_eq_some_iff.mp hpick⟩⟩

theorem createConfig_ok {keys : (providers.map Prod.fst).Nodup} {config : MemoryServiceConfig}
    (h : createConfig providers keys defaultProvider = .ok config) :
    config.providerConfigs = providers.map Prod.fst ∧
      Chooses providers defaultProvider config.defaultProvider := by
  obtain ⟨config', hconfig, hcreated⟩ | ⟨e, he, -⟩ := createConfig_cases keys
  · rw [h] at hconfig
    cases hconfig
    exact hcreated
  · rw [h] at he
    cases he

theorem NoDefault.not_named (h : NoDefault defaultProvider) {name : String}
    (hname : defaultProvider = some name) : name = "" := by
  rw [hname] at h
  obtain hnone | hempty := h
  · cases hnone
  · exact Option.some.inj hempty

theorem Chooses.not_refused {name : String} (h : Chooses providers defaultProvider name)
    (hmem : name ∈ providers.map Prod.fst) (e : PyError) : ¬ Refused providers defaultProvider e := by
  intro hrefused
  cases hrefused with
  | noProvider hempty =>
    rw [hempty] at hmem
    cases hmem
  | noUsable hne hdefault hpassed =>
    obtain ⟨hgiven, hname⟩ | ⟨-, before, config, after, rfl, hname, -⟩ := h
    · exact hname (hdefault.not_named hgiven)
    · obtain hnone | hdefault := hpassed (name, some config) (by simp)
      · cases hnone
      · exact hname hdefault
  | notConfigured hne given hdefault hgiven hnot =>
    obtain ⟨hsame, -⟩ | ⟨hnodefault, -⟩ := h
    · rw [hdefault] at hsame
      exact hnot (Option.some.inj hsame ▸ hmem)
    · exact hgiven (hnodefault.not_named hdefault)

theorem Refused.unique {e e' : PyError} (h : Refused providers defaultProvider e)
    (h' : Refused providers defaultProvider e') : e = e' := by
  cases h with
  | noProvider hempty =>
    cases h' with
    | noProvider => rfl
    | noUsable hne => exact absurd hempty hne
    | notConfigured hne => exact absurd hempty hne
  | noUsable hne hdefault =>
    cases h' with
    | noProvider hempty => exact absurd hempty hne
    | noUsable => rfl
    | notConfigured _ name hgiven hname => exact absurd (hdefault.not_named hgiven) hname
  | notConfigured hne name hgiven hname =>
    cases h' with
    | noProvider hempty => exact absurd hempty hne
    | noUsable _ hdefault => exact absurd (hdefault.not_named hgiven) hname
    | notConfigured _ name' hgiven' =>
      rw [hgiven] at hgiven'
      rw [Option.some.inj hgiven']

theorem createConfig_error_iff {keys : (providers.map Prod.fst).Nodup} {e : PyError} :
    createConfig providers keys defaultProvider = .error e ↔
      Refused providers defaultProvider e := by
  obtain ⟨config, hconfig, hnames, hchooses⟩ | ⟨e', he, hrefused⟩ := createConfig_cases keys
  · rw [hconfig]
    refine iff_of_false (fun h => by cases h) ?_
    exact hchooses.not_refused (hnames ▸ config.default_mem) e
  · rw [he]
    constructor
    · intro h
      exact Except.error.inj h ▸ hrefused
    · intro h
      rw [hrefused.unique h]

end

/-- The lifecycle of the sync client, over runs of any length. -/
theorem lifecycle (config : MemoryServiceConfig) (c : MemoryClient)
    (h : (machine config).ReachableBy SafeCall c) :
    (c.initialized = true ↔ c.service.providers ≠ []) ∧
    ¬ (c.initialized = true ∧ c.initError.isSome = true) ∧
    (∀ e, c.initError = some e →
      e.isException = true ∧
      (∀ registry, initializeClient config c registry = (c, .raised e)) ∧
      (closeClient c).1.initError = some e ∧
      ∀ c', (machine config).Leads SafeCall c c' → c'.initError = some e) ∧
    ∀ i < c.world.created,
      (i ∈ providerIds c.registered ∧ c.world.closeCalls.count i = 0) ∨
      (i ∉ providerIds c.registered ∧ c.world.closeCalls.count i = 1) := by
  have hc := consistent_of_reachable h
  refine ⟨hc.initialized_iff, ?_, ?_, ?_⟩
  · rintro ⟨hi, he⟩
    obtain ⟨e, he⟩ := Option.isSome_iff_exists.mp he
    rw [hc.error_uninitialized e he] at hi
    cases hi
  · intro e he
    refine ⟨hc.error_isException e he, initializeClient_of_error config hc he, ?_, ?_⟩
    · rw [closeClient_initError, he]
    · exact fun c' hl => initError_forever hc he hl
  · intro i hi
    have hcount := hc.closed_once i hi
    by_cases hm : i ∈ providerIds c.registered
    · exact .inl ⟨hm, by rw [hcount, if_pos hm]⟩
    · exact .inr ⟨hm, by rw [hcount, if_neg hm]⟩

/-- A client whose only provider fails in its own `initialize()`. -/
theorem lifecycle_failed_initialize :
    ∃ config c e, (machine config).ReachableBy SafeCall c ∧ c.initError = some e ∧
      c.world.closeCalls = [0] ∧
      (c.initialized = true ↔ c.service.providers ≠ []) ∧
      ∀ registry, initializeClient config c registry = (c, .raised e) := by
  let config : MemoryServiceConfig := ⟨["p"], "p", by decide, by decide⟩
  let registry : ProviderRegistry := fun _ => some (.returns ⟨0, some (.exception 7), none⟩)
  have hsafe : registry.ClosesSafely := by
    intro name b hb e he
    cases hb
    cases he
  have hreach : (machine config).ReachableBy SafeCall
      (initializeClient config .new registry).1 :=
    Machine.ReachableBy.next (l := .initializeClient registry) (.start _) hsafe rfl
  have h := lifecycle config _ hreach
  exact ⟨config, _, .exception 7, hreach, rfl, rfl, h.1, (h.2.2.1 _ rfl).2.1⟩

end AtomicMemory.SyncClient
