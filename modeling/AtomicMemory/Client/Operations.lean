import AtomicMemory.Client.MemoryClient
import AtomicMemory.Memory.ServiceOperations

-- What an operation of `MemoryClient` calls for, in every state that any run of `initialize`
-- and `close` leads to, whatever their providers raise.

namespace AtomicMemory.SyncClient
open SyncService ServiceOperations

/-- What a caller passes: a model object, or a dict that is still to be validated. -/
inductive Argument (α : Type)
  | object (value : α)
  | dict (items : PyValue.Items)

structure RequestModels where
  ingestInput : PyValue.Items → Option IngestInput
  searchRequest : PyValue.Items → Option SearchRequest
  packageRequest : PyValue.Items → Option PackageRequest
  memoryRef : PyValue.Items → Option MemoryRef
  listRequest : PyValue.Items → Option ListRequest

/-- What the `_coerce_*` functions do, each with its model. -/
def coerce {α : Type} (typeName : String) (validate : PyValue.Items → Option α) :
    Argument α → Except OperationError α
  | .object value => .ok value
  | .dict items =>
    match validate items with
    | some value => .ok value
    | none => .error (.invalid typeName)

/-- The client's config, the hooks of the pipelines its registries return, and the names and
models its operations use. -/
structure Setting (η : Type) where
  config : MemoryServiceConfig
  hooks : ℕ → MemoryProcessingPipeline η
  nameOf : Provider → String
  models : RequestModels

section

variable {η ξ : Type} (s : Setting η)

def Setting.coerceIngest : Argument IngestInput → Except OperationError IngestInput :=
  coerce "IngestInput" s.models.ingestInput

def Setting.coerceSearch : Argument SearchRequest → Except OperationError SearchRequest :=
  coerce "SearchRequest" s.models.searchRequest

def Setting.coercePackage : Argument PackageRequest → Except OperationError PackageRequest :=
  coerce "PackageRequest" s.models.packageRequest

def Setting.coerceRef : Argument MemoryRef → Except OperationError MemoryRef :=
  coerce "MemoryRef" s.models.memoryRef

def Setting.coerceListRequest : Argument ListRequest → Except OperationError ListRequest :=
  coerce "ListRequest" s.models.listRequest

def Setting.service (c : MemoryClient) : Service Provider η :=
  ⟨s.config.defaultProvider, c.service.providers,
    c.service.pipelines.map fun entry => (entry.1, s.hooks entry.2)⟩

/-- `_assert_initialized`. -/
def assertInitialized (c : MemoryClient) : Except OperationError Unit :=
  if c.initialized then .ok () else .error (.raised .notInitializedError)

/-- The client asserts that it is initialized, coerces the argument and asks the service. -/
def gated {α β : Type} (c : MemoryClient) (argument : Except OperationError α)
    (serve : α → Calls Provider η ξ (Except OperationError β)) :
    Calls Provider η ξ (Except OperationError β) :=
  match assertInitialized c with
  | .error e => .ends (.error e)
  | .ok () =>
    match argument with
    | .error e => .ends (.error e)
    | .ok value => serve value

/-- `MemoryClient.ingest`, and `ingest_direct`. -/
def Setting.ingest (c : MemoryClient) (input : Argument IngestInput) :
    Calls Provider η ξ (Except OperationError IngestResult) :=
  gated c (s.coerceIngest input) fun input => (s.service c).ingest input none

/-- `MemoryClient.search`, and `search_direct`. -/
def Setting.search (c : MemoryClient) (request : Argument SearchRequest) :
    Calls Provider η ξ (Except OperationError (SearchResultPage String)) :=
  gated c (s.coerceSearch request) fun request => (s.service c).search request none

/-- `MemoryClient.package`, and `package_direct`. -/
def Setting.package (c : MemoryClient) (request : Argument PackageRequest) :
    Calls Provider η ξ (Except OperationError (ContextPackage String)) :=
  gated c (s.coercePackage request) fun request => (s.service c).package s.nameOf request none

/-- `MemoryClient.get`. -/
def Setting.get (c : MemoryClient) (ref : Argument MemoryRef) :
    Calls Provider η ξ (Except OperationError (Option (Memory String))) :=
  gated c (s.coerceRef ref) fun ref => (s.service c).get ref none

/-- `MemoryClient.delete`. -/
def Setting.delete (c : MemoryClient) (ref : Argument MemoryRef) :
    Calls Provider η ξ (Except OperationError Unit) :=
  gated c (s.coerceRef ref) fun ref => (s.service c).delete ref none

/-- `MemoryClient.list`. -/
def Setting.list (c : MemoryClient) (request : Argument ListRequest) :
    Calls Provider η ξ (Except OperationError (ListResultPage String)) :=
  gated c (s.coerceListRequest request) fun request => (s.service c).list request none

inductive Operation
  | ingest (input : Argument IngestInput)
  | search (request : Argument SearchRequest)
  | package (request : Argument PackageRequest)
  | get (ref : Argument MemoryRef)
  | delete (ref : Argument MemoryRef)
  | list (request : Argument ListRequest)

abbrev Operation.Result : Operation → Type
  | .ingest _ => IngestResult
  | .search _ => SearchResultPage String
  | .package _ => ContextPackage String
  | .get _ => Option (Memory String)
  | .delete _ => Unit
  | .list _ => ListResultPage String

def Setting.operate (c : MemoryClient) :
    (op : Operation) → Calls Provider η ξ (Except OperationError op.Result)
  | .ingest input => s.ingest c input
  | .search request => s.search c request
  | .package request => s.package c request
  | .get ref => s.get c ref
  | .delete ref => s.delete c ref
  | .list request => s.list c request

def Answered {α β : Type} (argument : Except OperationError α)
    (serves : α → Trace Provider η ξ → Except OperationError β → Prop)
    (trace : Trace Provider η ξ) (outcome : Except OperationError β) : Prop :=
  match argument with
  | .error e => trace = [] ∧ outcome = .error e
  | .ok value => serves value trace outcome

/-- The operation is served by the provider and the hooks of the pipeline, and by nothing else. -/
def Setting.Served (provider : Provider) (pipeline : MemoryProcessingPipeline η) :
    (op : Operation) → Trace Provider η ξ → Except OperationError op.Result → Prop
  | .ingest input => Answered (s.coerceIngest input) (IngestRun provider pipeline)
  | .search request => Answered (s.coerceSearch request)
      (ReadRun provider pipeline.preprocessSearch pipeline.postprocessSearch .search)
  | .package request => Answered (s.coercePackage request) (PackageRun s.nameOf provider)
  | .get ref => Answered (s.coerceRef ref)
      (ReadRun provider pipeline.preprocessGet pipeline.postprocessGet .get)
  | .delete ref => Answered (s.coerceRef ref) (DeleteRun provider)
  | .list request => Answered (s.coerceListRequest request)
      (ReadRun provider none pipeline.postprocessList .list)

/-- How many of the names that are configured before `name` have a factory. -/
def position (registry : ProviderRegistry) (names : List String) (name : String) : ℕ :=
  (names.takeWhile (· ≠ name)).countP fun other => (registry other).isSome

/-- The last initialization of the client has registered the provider and the pipeline under
the name: its registry's factory for the name has made them, the provider's `initialize()` has
returned, and no `close()` has been called on it. -/
def Registered (config : MemoryServiceConfig) (c : MemoryClient) (name : String)
    (provider : Provider) (pipeline : ℕ) : Prop :=
  ∃ (before : MemoryClient) (registry : ProviderRegistry) (b : ProviderBehaviour),
    (machine config).Reachable before ∧ before.initialized = false ∧
    initializeClient config before registry = (c, .returned) ∧
    name ∈ config.providerConfigs ∧ registry name = some (.returns b) ∧ b.onInitialize = none ∧
    provider = ⟨before.world.created + position registry config.providerConfigs name, b.onClose⟩ ∧
    pipeline = b.pipeline ∧ provider.id ∉ c.world.closeCalls

end

def StagedFrom (registry : ProviderRegistry) (names : List String) (w : World)
    (error : Option PyError) (entry : String × Registration) : Prop :=
  entry.1 ∈ names ∧ ∃ b, registry entry.1 = some (.returns b) ∧
    (error = none → b.onInitialize = none) ∧
    entry.2 = ⟨⟨w.created + position registry names entry.1, b.onClose⟩, b.pipeline⟩

theorem position_head (registry : ProviderRegistry) (name : String) (names : List String) :
    position registry (name :: names) name = 0 := by
  simp [position]

theorem position_cons (registry : ProviderRegistry) {name other : String} (names : List String)
    (h : name ≠ other) :
    position registry (name :: names) other =
      position registry names other + if (registry name).isSome then 1 else 0 := by
  simp [position, h, List.countP_cons]

theorem stageProviders_entries (registry : ProviderRegistry) {names : List String}
    (hnodup : names.Nodup) (staged : Staged) (w : World) :
    ∀ entry ∈ (stageProviders registry names staged w).1, entry ∈ staged ∨
      StagedFrom registry names w (stageProviders registry names staged w).2.2 entry := by
  induction names generalizing staged w with
  | nil => exact fun entry h => .inl h
  | cons name names ih =>
    obtain ⟨hnot, hnodup⟩ := List.nodup_cons.mp hnodup
    intro entry hentry
    unfold stageProviders at hentry ⊢
    cases hb : registry name with
    | none =>
      simp only [hb] at hentry ⊢
      refine (ih hnodup staged w entry hentry).imp_right fun h => ?_
      obtain ⟨hmem, b, hb', hinit, hentry⟩ := h
      have hne : name ≠ entry.1 := fun heq => hnot (heq ▸ hmem)
      refine ⟨List.mem_cons_of_mem _ hmem, b, hb', hinit, ?_⟩
      rw [position_cons registry names hne, hb]
      exact hentry
    | some factory =>
      cases factory with
      | raises e =>
        simp only [hb] at hentry ⊢
        exact .inl hentry
      | returns b =>
        simp only [hb] at hentry ⊢
        have hhead : ∀ error, (error = none → b.onInitialize = none) →
            StagedFrom registry (name :: names) w error
              (name, ⟨⟨w.created, b.onClose⟩, b.pipeline⟩) := by
          intro error hinit
          refine ⟨List.mem_cons_self, b, hb, hinit, ?_⟩
          rw [position_head, Nat.add_zero]
        cases hinit : b.onInitialize with
        | some e =>
          simp only [hinit] at hentry ⊢
          refine (List.mem_append.mp hentry).imp_right fun h => ?_
          rw [List.mem_singleton.mp h]
          exact hhead _ nofun
        | none =>
          simp only [hinit] at hentry ⊢
          rcases ih hnodup _ _ entry hentry with h | ⟨hmem, b', hb', hinit', hentry'⟩
          · refine (List.mem_append.mp h).imp_right fun h => ?_
            rw [List.mem_singleton.mp h]
            exact hhead _ fun _ => hinit
          · -- the provider of the head was made before
            have hne : name ≠ entry.1 := fun heq => hnot (heq ▸ hmem)
            refine .inr ⟨List.mem_cons_of_mem _ hmem, b', hb', hinit', ?_⟩
            rw [position_cons registry names hne, hb, hentry']
            have hid : (w.construct name).created + position registry names entry.1 =
                w.created + (position registry names entry.1 + 1) := by
              change w.created + 1 + _ = _
              omega
            rw [hid]
            rfl

/-- A loop that ends without an error stages every name that has a factory, in order. -/
theorem stageProviders_names (registry : ProviderRegistry) (names : List String) (staged : Staged)
    (w : World) (h : (stageProviders registry names staged w).2.2 = none) :
    (stageProviders registry names staged w).1.map Prod.fst =
      staged.map Prod.fst ++ names.filter fun name => (registry name).isSome := by
  induction names generalizing staged w with
  | nil => simp [stageProviders]
  | cons name names ih =>
    unfold stageProviders at h ⊢
    cases hb : registry name with
    | none =>
      simp only [hb] at h ⊢
      rw [ih staged w h]
      simp [hb]
    | some factory =>
      cases factory with
      | raises e =>
        simp only [hb] at h
        cases h
      | returns b =>
        simp only [hb] at h ⊢
        cases hinit : b.onInitialize with
        | some e =>
          simp only [hinit] at h
          cases h
        | none =>
          simp only [hinit] at h ⊢
          rw [ih _ _ h]
          simp [hb]

/-- No provider is made on the way from `w` to `w'`, and only those of `ps` are closed. -/
def OnlyCloses (ps : List Provider) (w w' : World) : Prop :=
  w'.created = w.created ∧ ∀ i ∈ w'.closeCalls, i ∈ w.closeCalls ∨ i ∈ providerIds ps

theorem OnlyCloses.first (p : Provider) (ps : List Provider) (w : World) :
    OnlyCloses (p :: ps) w (w.closeCall p) := by
  refine ⟨rfl, fun i h => (List.mem_append.mp h).imp_right fun h => ?_⟩
  rw [List.mem_singleton.mp h]
  exact List.mem_cons_self

theorem OnlyCloses.next {p : Provider} {ps : List Provider} {w w' : World}
    (h : OnlyCloses ps (w.closeCall p) w') : OnlyCloses (p :: ps) w w' := by
  refine ⟨h.1, fun i hi => ?_⟩
  rcases h.2 i hi with hi | hi
  · exact (OnlyCloses.first p ps w).2 i hi
  · exact .inr (List.mem_cons_of_mem _ hi)

theorem teardown_onlyCloses (ps : List Provider) (w : World) :
    OnlyCloses ps w (teardown ps w).1 := by
  induction ps generalizing w with
  | nil => exact ⟨rfl, fun i h => .inl h⟩
  | cons p ps ih =>
    unfold teardown
    split
    · exact (ih _).next
    · split
      · exact (ih _).next
      · exact .first p ps w

theorem closeProviders_onlyCloses (ps : List Provider) (first : Option PyError) (w : World) :
    OnlyCloses ps w (closeProviders ps first w).1 := by
  induction ps generalizing first w with
  | nil => exact ⟨rfl, fun i h => .inl h⟩
  | cons p ps ih =>
    unfold closeProviders
    split
    · exact (ih _ _).next
    · split
      · exact (ih _ _).next
      · exact .first p ps w

/-- The calls of `close()` are of providers that were created, an uninitialized client has no
provider, and an initialized one is as its last initialization left it. -/
structure Opened (config : MemoryServiceConfig) (c : MemoryClient) : Prop where
  closed_created : ∀ i ∈ c.world.closeCalls, i < c.world.created
  registered_created : ∀ i ∈ providerIds c.registered, i < c.world.created
  service_empty : c.initialized = false → c.service = .empty
  opened : c.initialized = true → ∃ (before : MemoryClient) (registry : ProviderRegistry),
    (machine config).Reachable before ∧ before.initialized = false ∧
      (∀ i ∈ before.world.closeCalls, i < before.world.created) ∧
      initializeClient config before registry = (c, .returned)

theorem opened_new (config : MemoryServiceConfig) : Opened config .new where
  closed_created i h := by cases h
  registered_created i h := by cases h
  service_empty _ := rfl
  opened h := by cases h

theorem initializeClient_returned {config : MemoryServiceConfig} {before c : MemoryClient}
    {registry : ProviderRegistry} (hi : before.initialized = false)
    (h : initializeClient config before registry = (c, .returned)) :
    ∃ (staged : Staged) (w : World),
      stageProviders registry config.providerConfigs [] before.world = (staged, w, none) ∧
      config.defaultProvider ∈ staged.map Prod.fst ∧
      c = ⟨true, before.initError, ⟨stagedProviders staged, stagedPipelines staged⟩, w⟩ := by
  unfold initializeClient at h
  rw [if_neg (by rw [hi]; exact Bool.false_ne_true)] at h
  cases herr : before.initError with
  | some e =>
    simp only [herr] at h
    cases h
  | none =>
    simp only [herr, MemoryService.initializeProviders] at h
    generalize stageProviders registry config.providerConfigs [] before.world = r at h
    obtain ⟨staged, w, error⟩ := r
    dsimp only at h
    cases hfail : error <|> missingDefaultError config staged with
    | some e =>
      simp only [hfail] at h
      cases h
    | none =>
      simp only [hfail] at h
      cases h
      have hnone : error = none ∧ missingDefaultError config staged = none := by
        cases error with
        | some e => cases hfail
        | none => exact ⟨rfl, hfail⟩
      obtain ⟨rfl, hdefault⟩ := hnone
      refine ⟨staged, w, rfl, ?_, rfl⟩
      by_contra hnot
      rw [missingDefaultError, if_neg hnot] at hdefault
      cases hdefault

theorem initializeClient_raised {config : MemoryServiceConfig} {before c : MemoryClient}
    {registry : ProviderRegistry} {e : PyError} (hi : before.initialized = false)
    (h : initializeClient config before registry = (c, .raised e)) :
    c.initialized = false ∧ c.service = before.service ∧
      before.world.created ≤ c.world.created ∧
      ∀ i ∈ c.world.closeCalls, i ∈ before.world.closeCalls ∨ i < c.world.created := by
  unfold initializeClient at h
  rw [if_neg (by rw [hi]; exact Bool.false_ne_true)] at h
  cases herr : before.initError with
  | some e' =>
    simp only [herr] at h
    cases h
    exact ⟨hi, rfl, le_rfl, fun i h => .inl h⟩
  | none =>
    simp only [herr, MemoryService.initializeProviders] at h
    obtain ⟨fresh, hfresh, hids, hcreated, hcalls, -⟩ :=
      stageProviders_spec registry config.providerConfigs [] before.world
    generalize stageProviders registry config.providerConfigs [] before.world = r at *
    obtain ⟨staged, w, error⟩ := r
    dsimp only at h hfresh hcreated hcalls
    rw [List.nil_append] at hfresh
    subst hfresh
    cases hfail : error <|> missingDefaultError config staged with
    | none =>
      simp only [hfail] at h
      cases h
    | some e' =>
      simp only [hfail] at h
      cases h
      obtain ⟨hsame, hclosed⟩ := teardown_onlyCloses (stagedList staged) w
      refine ⟨hi, rfl, by rw [hsame, hcreated]; exact Nat.le_add_right _ _, fun i hi => ?_⟩
      refine (hclosed i hi).imp (fun h => hcalls ▸ h) fun h => ?_
      rw [hids, List.mem_range'_1] at h
      rw [hsame, hcreated]
      exact h.2

theorem Opened.initializeClient {config : MemoryServiceConfig} {c : MemoryClient}
    (hreach : (machine config).Reachable c) (hc : Opened config c) (registry : ProviderRegistry) :
    Opened config (initializeClient config c registry).1 := by
  cases hi : c.initialized with
  | true =>
    have hsame : SyncClient.initializeClient config c registry = (c, .returned) := by
      rw [SyncClient.initializeClient, if_pos hi]
    rw [hsame]
    exact hc
  | false =>
    generalize hr : SyncClient.initializeClient config c registry = r
    obtain ⟨c', outcome⟩ := r
    cases outcome with
    | returned =>
      obtain ⟨staged, w, hstage, -, rfl⟩ := initializeClient_returned hi hr
      obtain ⟨fresh, hfresh, hids, hcreated, hcalls, -⟩ :=
        stageProviders_spec registry config.providerConfigs [] c.world
      rw [hstage] at hfresh hcreated hcalls
      dsimp only at hfresh hcreated hcalls
      rw [List.nil_append] at hfresh
      subst hfresh
      constructor
      · intro i h
        dsimp only at h ⊢
        rw [hcalls] at h
        rw [hcreated]
        exact Nat.lt_add_right _ (hc.closed_created i h)
      · intro i h
        dsimp only [MemoryClient.registered] at h ⊢
        rw [stagedProviders_map_snd, hids, List.mem_range'_1] at h
        rw [hcreated]
        exact h.2
      · intro h
        cases h
      · exact fun _ => ⟨c, registry, hreach, hi, hc.closed_created, hr⟩
    | raised e =>
      obtain ⟨hi', hservice, hle, hclosed⟩ := initializeClient_raised hi hr
      constructor
      · exact fun i h => (hclosed i h).elim (fun h => (hc.closed_created i h).trans_le hle) id
      · intro i h
        rw [MemoryClient.registered, hservice] at h
        exact (hc.registered_created i h).trans_le hle
      · exact fun _ => hservice.trans (hc.service_empty hi)
      · intro h
        rw [hi'] at h
        cases h

theorem Opened.closeClient {config : MemoryServiceConfig} {c : MemoryClient} (hc : Opened config c) :
    Opened config (closeClient c).1 := by
  cases hi : c.initialized with
  | false =>
    have hsame : SyncClient.closeClient c = (c, .returned) := by
      rw [SyncClient.closeClient, if_neg (by rw [hi]; exact Bool.false_ne_true)]
    rw [hsame]
    exact hc
  | true =>
    obtain ⟨hcreated, hclosed⟩ := closeProviders_onlyCloses c.registered none c.world
    have hafter : (SyncClient.closeClient c).1 =
        ⟨false, c.initError, .empty, (closeProviders c.registered none c.world).1⟩ := by
      rw [SyncClient.closeClient, if_pos hi]
      rfl
    rw [hafter]
    constructor
    · intro i h
      dsimp only at h ⊢
      rw [hcreated]
      exact (hclosed i h).elim (hc.closed_created i) (hc.registered_created i)
    · intro i h
      cases h
    · exact fun _ => rfl
    · intro h
      cases h

theorem opened_of_reachable {config : MemoryServiceConfig} {c : MemoryClient}
    (h : (machine config).Reachable c) : Opened config c := by
  obtain ⟨history, hex⟩ := h
  induction hex with
  | start => exact opened_new config
  | next hex hstep ih =>
    rename_i history before call after
    cases call with
    | initializeClient registry =>
      cases hstep
      exact Opened.initializeClient ⟨history, hex⟩ ih registry
    | closeClient =>
      cases hstep
      exact ih.closeClient

theorem lookup_stagedProviders (staged : Staged) (name : String) :
    (stagedProviders staged).lookup name =
      (staged.lookup name).map Registration.provider := KeyedTable.lookup_map _ staged name

theorem lookup_stagedPipelines (staged : Staged) (name : String) :
    (stagedPipelines staged).lookup name =
      (staged.lookup name).map Registration.pipeline := KeyedTable.lookup_map _ staged name

theorem staged_lookup {registry : ProviderRegistry} {names : List String} (hnodup : names.Nodup)
    {w w' : World} {staged : Staged} {name : String} {registration : Registration}
    (hstage : stageProviders registry names [] w = (staged, w', none))
    (hlookup : staged.lookup name = some registration) :
    name ∈ names ∧ ∃ b, registry name = some (.returns b) ∧ b.onInitialize = none ∧
      registration = ⟨⟨w.created + position registry names name, b.onClose⟩, b.pipeline⟩ := by
  obtain ⟨first, rest, hstaged, -⟩ := List.lookup_eq_some_iff.mp hlookup
  have hentry : (name, registration) ∈ (stageProviders registry names [] w).1 := by
    rw [hstage, hstaged]
    simp
  have hfrom := (stageProviders_entries registry hnodup [] w _ hentry).resolve_left
    List.not_mem_nil
  rw [hstage] at hfrom
  obtain ⟨hname, b, hb, hinit, heq⟩ := hfrom
  exact ⟨hname, b, hb, hinit rfl, heq⟩

theorem registered_iff {config : MemoryServiceConfig} {c : MemoryClient} (hc : Opened config c)
    {name : String} {provider : Provider} {pipeline : ℕ} :
    Registered config c name provider pipeline ↔
      c.service.providers.lookup name = some provider ∧
        c.service.pipelines.lookup name = some pipeline := by
  constructor
  · intro h
    obtain ⟨before, registry, b, hreach, hi, hinit, hname, hb, -, rfl, rfl, -⟩ := h
    obtain ⟨staged, w, hstage, -, hafter⟩ := initializeClient_returned hi hinit
    have hnames := stageProviders_names registry config.providerConfigs [] before.world
      (by rw [hstage])
    rw [hstage] at hnames
    have hmem : name ∈ staged.map Prod.fst := by
      rw [hnames]
      exact List.mem_append_right _ (List.mem_filter.mpr ⟨hname, by rw [hb]; rfl⟩)
    obtain ⟨registration, hlookup⟩ := KeyedTable.mem_map_fst_iff.mp hmem
    obtain ⟨-, b', hb', -, rfl⟩ := staged_lookup config.nodup hstage hlookup
    rw [hb] at hb'
    cases hb'
    rw [hafter]
    dsimp only
    rw [lookup_stagedProviders, lookup_stagedPipelines, hlookup]
    exact ⟨rfl, rfl⟩
  · intro h
    obtain ⟨hprovider, hpipeline⟩ := h
    cases hi : c.initialized with
    | false =>
      rw [hc.service_empty hi] at hprovider
      cases hprovider
    | true =>
      obtain ⟨before, registry, hreach, hbefore, hold, hinit⟩ := hc.opened hi
      obtain ⟨staged, w, hstage, -, hafter⟩ := initializeClient_returned hbefore hinit
      have hservice : c.service = ⟨stagedProviders staged, stagedPipelines staged⟩ := by rw [hafter]
      have hworld : c.world = w := by rw [hafter]
      rw [hservice] at hprovider hpipeline
      dsimp only at hprovider hpipeline
      rw [lookup_stagedProviders] at hprovider
      obtain ⟨registration, hlookup, rfl⟩ := Option.map_eq_some_iff.mp hprovider
      rw [lookup_stagedPipelines, hlookup] at hpipeline
      obtain ⟨hname, b, hb, hinitialized, rfl⟩ := staged_lookup config.nodup hstage hlookup
      refine ⟨before, registry, b, hreach, hbefore, hinit, hname, hb, hinitialized, rfl,
        (Option.some.inj hpipeline).symm, fun hclosed => ?_⟩
      -- it was closed before it was made
      obtain ⟨fresh, -, -, -, hcalls, -⟩ :=
        stageProviders_spec registry config.providerConfigs [] before.world
      rw [hstage] at hcalls
      rw [hworld, hcalls] at hclosed
      exact absurd (hold _ hclosed) (Nat.not_lt.mpr (Nat.le_add_right _ _))

theorem Opened.exists_staged {config : MemoryServiceConfig} {c : MemoryClient}
    (hc : Opened config c) (hi : c.initialized = true) :
    ∃ staged, c.service = ⟨stagedProviders staged, stagedPipelines staged⟩ := by
  obtain ⟨before, registry, -, hbefore, -, hinit⟩ := hc.opened hi
  obtain ⟨staged, w, -, -, hafter⟩ := initializeClient_returned hbefore hinit
  exact ⟨staged, by rw [hafter]⟩

theorem registered_of_lookup {config : MemoryServiceConfig} {c : MemoryClient}
    (hc : Opened config c) {name : String} {provider : Provider}
    (h : c.service.providers.lookup name = some provider) :
    ∃ pipeline, Registered config c name provider pipeline := by
  cases hi : c.initialized with
  | false =>
    rw [hc.service_empty hi] at h
    cases h
  | true =>
    obtain ⟨staged, hservice⟩ := hc.exists_staged hi
    have hprovider := h
    rw [hservice, lookup_stagedProviders] at hprovider
    obtain ⟨registration, hlookup, -⟩ := Option.map_eq_some_iff.mp hprovider
    refine ⟨registration.pipeline, (registered_iff hc).mpr ⟨h, ?_⟩⟩
    rw [hservice, lookup_stagedPipelines, hlookup]
    rfl

theorem registered_of_pipeline {config : MemoryServiceConfig} {c : MemoryClient}
    (hc : Opened config c) {name : String} {pipeline : ℕ}
    (h : c.service.pipelines.lookup name = some pipeline) :
    ∃ provider, Registered config c name provider pipeline := by
  cases hi : c.initialized with
  | false =>
    rw [hc.service_empty hi] at h
    cases h
  | true =>
    obtain ⟨staged, hservice⟩ := hc.exists_staged hi
    have hpipeline := h
    rw [hservice, lookup_stagedPipelines] at hpipeline
    obtain ⟨registration, hlookup, -⟩ := Option.map_eq_some_iff.mp hpipeline
    refine ⟨registration.provider, (registered_iff hc).mpr ⟨?_, h⟩⟩
    rw [hservice, lookup_stagedProviders, hlookup]
    rfl

theorem default_registered {config : MemoryServiceConfig} {c : MemoryClient}
    (hc : Opened config c) (hi : c.initialized = true) :
    ∃ provider, c.service.providers.lookup config.defaultProvider = some provider := by
  obtain ⟨before, registry, -, hbefore, -, hinit⟩ := hc.opened hi
  obtain ⟨staged, w, -, hdefault, hafter⟩ := initializeClient_returned hbefore hinit
  have hproviders : c.service.providers = stagedProviders staged := by rw [hafter]
  obtain ⟨registration, hlookup⟩ := KeyedTable.mem_map_fst_iff.mp hdefault
  rw [hproviders, lookup_stagedProviders, hlookup]
  exact ⟨registration.provider, rfl⟩

section

variable {η ξ : Type} (s : Setting η)

theorem gated_runs {α β : Type} {c : MemoryClient} {argument : Except OperationError α}
    {serve : α → Calls Provider η ξ (Except OperationError β)}
    {serves : α → Trace Provider η ξ → Except OperationError β → Prop}
    {trace : Trace Provider η ξ} {outcome : Except OperationError β} (hi : c.initialized = true)
    (hserve : ∀ value, (serve value).Runs trace outcome → serves value trace outcome)
    (h : (gated c argument serve).Runs trace outcome) : Answered argument serves trace outcome := by
  unfold gated assertInitialized at h
  rw [if_pos hi] at h
  cases argument with
  | error e =>
    obtain ⟨rfl, rfl⟩ := CallTree.runs_ends_iff.mp h
    exact ⟨rfl, rfl⟩
  | ok value => exact hserve value h

theorem gated_uninitialized {α β : Type} {c : MemoryClient} (argument : Except OperationError α)
    (serve : α → Calls Provider η ξ (Except OperationError β)) (hi : c.initialized = false) :
    gated c argument serve = .ends (.error (.raised .notInitializedError)) := by
  unfold gated assertInitialized
  rw [if_neg (by rw [hi]; exact Bool.false_ne_true)]

/-- In every state that a run of the client leads to: an operation of an uninitialized client
raises `NotInitializedError`, whatever its argument, and calls for nothing; a dict that is not
valid calls for nothing either; and every other operation is served by the provider and the
hooks that the last initialization has registered for the default name, a provider that has
been initialized and has not been closed. -/
theorem operations_routed (c : MemoryClient) (h : (machine s.config).Reachable c) (op : Operation)
    (trace : Trace Provider η ξ) (outcome : Except OperationError op.Result)
    (hrun : (s.operate c op).Runs trace outcome) :
    (c.initialized = false → trace = [] ∧ outcome = .error (.raised .notInitializedError)) ∧
    (c.initialized = true → ∃ provider pipeline,
      Registered s.config c s.config.defaultProvider provider pipeline ∧
      s.Served provider (s.hooks pipeline) op trace outcome) := by
  constructor
  · intro hi
    have hends : s.operate (ξ := ξ) c op = .ends (.error (.raised .notInitializedError)) := by
      cases op <;> exact gated_uninitialized _ _ hi
    rw [hends] at hrun
    exact CallTree.runs_ends_iff.mp hrun
  · intro hi
    have hc := opened_of_reachable h
    obtain ⟨provider, hlookup⟩ := default_registered hc hi
    obtain ⟨pipeline, hregistered⟩ := registered_of_lookup hc hlookup
    have hpipeline := ((registered_iff hc).mp hregistered).2
    refine ⟨provider, pipeline, hregistered, ?_⟩
    have hget : (s.service c).getProvider none = .ok provider := getProvider_ok.mpr hlookup
    have hhooks : (s.service c).pipeline none = s.hooks pipeline := by
      change ((c.service.pipelines.map fun entry => (entry.1, s.hooks entry.2)).lookup
        s.config.defaultProvider).getD noopPipeline = _
      rw [KeyedTable.lookup_map, hpipeline]
      rfl
    cases op with
    | ingest input =>
      refine gated_runs hi (fun input hserve => ?_) hrun
      have hsplit := ingest_runs hget hserve
      rw [hhooks] at hsplit
      exact hsplit
    | search request =>
      refine gated_runs hi (fun request hserve => ?_) hrun
      have hread := readThrough_runs hget hserve
      rw [hhooks] at hread
      exact hread
    | package request => exact gated_runs hi (fun request hserve => package_runs hget hserve) hrun
    | get ref =>
      refine gated_runs hi (fun ref hserve => ?_) hrun
      have hread := readThrough_runs hget hserve
      rw [hhooks] at hread
      exact hread
    | delete ref => exact gated_runs hi (fun ref hserve => delete_runs hget hserve) hrun
    | list request =>
      refine gated_runs hi (fun request hserve => ?_) hrun
      have hread := readThrough_runs hget hserve
      rw [hhooks] at hread
      exact hread

end

theorem onlyProvider_mem : "p" ∈ ["p"] := List.mem_singleton.mpr rfl

def hookedSetting : Setting ℕ where
  config := ⟨["p"], "p", List.nodup_singleton "p", onlyProvider_mem⟩
  hooks _ := ⟨none, none, some 0, some 1, none, none, none⟩
  nameOf _ := "p"
  models := ⟨fun _ => none, fun _ => none, fun _ => none, fun _ => none, fun _ => none⟩

def hookedRegistry : ProviderRegistry := fun _ => some (.returns ⟨7, none, none⟩)

def userSearch (query : String) : SearchRequest := ⟨query, ⟨some "u", none, none, none⟩, none, none⟩

def hookedAnswer : Trace Provider ℕ ℕ → (call : ServiceOperations.Call Provider ℕ ℕ) →
    Answer Provider ℕ ℕ call
  | _, .preprocess _ .search _ => .ok (userSearch "changed")
  | _, .read _ .search _ => .ok ⟨[], some "next", none⟩
  | _, .postprocess _ .search page _ => .ok { page with cursor := none }
  | _, _ => .error (.exception 0)

/-- The client has been opened, closed and opened again. -/
theorem operations_routed_reopened :
    ∃ c trace outcome, (machine hookedSetting.config).Reachable c ∧
      c.world.closeCalls = [0] ∧ trace.length = 3 ∧
      (c.initialized = true → ∃ provider pipeline,
        Registered hookedSetting.config c "p" provider pipeline ∧
        hookedSetting.Served (ξ := ℕ) provider (hookedSetting.hooks pipeline)
          (.search (.object (userSearch "q"))) trace outcome) := by
  let c : MemoryClient := ⟨true, none, ⟨[("p", ⟨1, none⟩)], [("p", 7)]⟩, ⟨["p", "p"], 2, [0]⟩⟩
  have hreach : (machine hookedSetting.config).Reachable c :=
    Machine.reachable_exec [.initializeClient hookedRegistry, .closeClient,
      .initializeClient hookedRegistry] rfl
  have hrun := CallTree.runs_perform hookedAnswer
    (hookedSetting.operate (ξ := ℕ) c (.search (.object (userSearch "q")))) []
  have hrouted := operations_routed hookedSetting c hreach _ _ _ hrun
  exact ⟨c, _, _, hreach, rfl, rfl, hrouted.2⟩

end AtomicMemory.SyncClient
