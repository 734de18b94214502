import AtomicMemory.Client.Operations
import AtomicMemory.Lib.Raises

-- `get_provider_status` and the `atomicmemory` property, in every state that any run of
-- `initialize` and `close` leads to.

namespace AtomicMemory.SyncClient
open SyncService ServiceOperations

/-- `κ` is what a provider's `capabilities()` returns. -/
structure ProviderStatus (κ : Type) where
  name : String
  initialized : Bool
  capabilities : Option κ

/-- What a provider's own methods return or raise; `extension` is `get_extension` of
`"atomicmemory.base"`, and `none` is any result that is no `AtomicMemoryHandle`. -/
structure Inspection (κ θ : Type) where
  capabilities : Provider → Except PyError κ
  extension : Provider → Except PyError (Option θ)

section

variable {η κ θ : Type} (s : Setting η) (inspection : Inspection κ θ)

/-- `MemoryClient.get_provider`. -/
def Setting.getProvider (c : MemoryClient) (name : Option String) :
    Except OperationError Provider :=
  match assertInitialized c with
  | .error e => .error e
  | .ok () => ((s.service c).getProvider name).mapError .raised

def Setting.providerStatus (c : MemoryClient) (name : String) :
    Except PyError (ProviderStatus κ) :=
  if name ∈ c.service.providers.map Prod.fst then do
    let provider ← (s.service c).getProvider (some name)
    let capabilities ← inspection.capabilities provider
    return ⟨name, true, some capabilities⟩
  else .ok ⟨name, false, none⟩

/-- `MemoryClient.get_provider_status`. -/
def Setting.getProviderStatus (c : MemoryClient) : Except PyError (List (ProviderStatus κ)) :=
  if c.initialized then s.config.providerConfigs.mapM (s.providerStatus inspection c)
  else .ok (s.config.providerConfigs.map fun name => ⟨name, false, none⟩)

/-- `MemoryClient.atomicmemory`. -/
def Setting.atomicmemory (c : MemoryClient) : Except PyError (Option θ) :=
  if c.initialized then
    if "atomicmemory" ∈ s.config.providerConfigs then do
      let provider ← (s.service c).getProvider (some "atomicmemory")
      inspection.extension provider
    else .ok none
  else .ok none

end

section

variable {η κ θ : Type} (s : Setting η) (inspection : Inspection κ θ)

/-- The status says of its provider what asking for the provider says; a name that is empty
stands for the default provider's when the provider is asked for. -/
structure Truthful (c : MemoryClient) (status : ProviderStatus κ) : Prop where
  initialized_iff : status.initialized = true ↔
    ∃ provider pipeline, Registered s.config c status.name provider pipeline
  provider_iff : status.name ≠ "" →
    (status.initialized = true ↔ ∃ provider, s.getProvider c (some status.name) = .ok provider)
  capabilities : status.initialized = true → ∃ provider capabilities,
    s.getProvider c (some status.name) = .ok provider ∧
      inspection.capabilities provider = .ok capabilities ∧
      status.capabilities = some capabilities
  no_capabilities : status.initialized = false → status.capabilities = none

variable {s}

theorem providerName_of_ne {c : MemoryClient} {name : String} (h : name ≠ "") :
    (s.service c).providerName (some name) = name := by
  simp [Service.providerName, nonEmpty, Option.filter, h]

theorem clientProvider_ok_iff {c : MemoryClient} {name : Option String} {provider : Provider} :
    s.getProvider c name = .ok provider ↔
      c.initialized = true ∧ (s.service c).getProvider name = .ok provider := by
  unfold Setting.getProvider assertInitialized
  cases c.initialized with
  | false => simp
  | true =>
    simp only [if_true, true_and]
    cases (s.service c).getProvider name <;> simp [Except.mapError]

theorem registered_iff_mem {c : MemoryClient} (hc : Opened s.config c) {name : String} :
    (∃ provider pipeline, Registered s.config c name provider pipeline) ↔
      name ∈ c.service.providers.map Prod.fst := by
  rw [KeyedTable.mem_map_fst_iff]
  constructor
  · intro h
    obtain ⟨provider, pipeline, h⟩ := h
    exact ⟨provider, ((registered_iff hc).mp h).1⟩
  · intro h
    obtain ⟨provider, h⟩ := h
    exact ⟨provider, registered_of_lookup hc h⟩

theorem getProvider_of_ne {c : MemoryClient} (hi : c.initialized = true) {name : String}
    (h : name ≠ "") : (∃ provider, s.getProvider c (some name) = .ok provider) ↔
      name ∈ c.service.providers.map Prod.fst := by
  rw [KeyedTable.mem_map_fst_iff]
  refine exists_congr fun provider => ?_
  rw [clientProvider_ok_iff, getProvider_ok, providerName_of_ne h]
  exact and_iff_right hi

theorem providerStatus_name {c : MemoryClient} {name : String} {status : ProviderStatus κ}
    (h : s.providerStatus inspection c name = .ok status) : status.name = name := by
  unfold Setting.providerStatus at h
  split at h
  · obtain ⟨provider, -, h⟩ := Except.bind_ok h
    obtain ⟨capabilities, -, h⟩ := Except.bind_ok h
    cases h
    rfl
  · cases h
    rfl

theorem providerStatus_truthful {c : MemoryClient} (hc : Opened s.config c)
    (hi : c.initialized = true) {name : String} {status : ProviderStatus κ}
    (h : s.providerStatus inspection c name = .ok status) : Truthful s inspection c status := by
  unfold Setting.providerStatus at h
  split at h
  · rename_i hmem
    obtain ⟨provider, hprovider, h⟩ := Except.bind_ok h
    obtain ⟨capabilities, hcapabilities, h⟩ := Except.bind_ok h
    cases h
    constructor
    · exact iff_of_true rfl ((registered_iff_mem hc).mpr hmem)
    · exact fun hne => iff_of_true rfl ((getProvider_of_ne hi hne).mpr hmem)
    · exact fun _ => ⟨provider, capabilities, clientProvider_ok_iff.mpr ⟨hi, hprovider⟩,
        hcapabilities, rfl⟩
    · intro h
      cases h
  · rename_i hmem
    cases h
    constructor
    · exact iff_of_false Bool.false_ne_true fun h => hmem ((registered_iff_mem hc).mp h)
    · exact fun hne => iff_of_false Bool.false_ne_true fun h =>
        hmem ((getProvider_of_ne hi hne).mp h)
    · intro h
      cases h
    · exact fun _ => rfl

theorem uninitialized_truthful {c : MemoryClient} (hc : Opened s.config c)
    (hi : c.initialized = false) (name : String) :
    Truthful s inspection c ⟨name, false, none⟩ := by
  have hnone : ¬ ∃ provider pipeline, Registered s.config c name provider pipeline := by
    rw [registered_iff_mem hc, hc.service_empty hi]
    exact List.not_mem_nil
  have hprovider : ¬ ∃ provider, s.getProvider c (some name) = .ok provider := by
    intro h
    obtain ⟨provider, h⟩ := h
    have hinit := (clientProvider_ok_iff.mp h).1
    rw [hi] at hinit
    cases hinit
  constructor
  · exact iff_of_false Bool.false_ne_true hnone
  · exact fun _ => iff_of_false Bool.false_ne_true hprovider
  · intro h
    cases h
  · exact fun _ => rfl

/-- A status fails only as the `capabilities()` of the provider does. -/
theorem providerStatus_error {c : MemoryClient} (hc : Opened s.config c)
    (hi : c.initialized = true) {name : String} {e : PyError}
    (h : s.providerStatus inspection c name = .error e) :
    ∃ provider, s.getProvider c (some name) = .ok provider ∧
      inspection.capabilities provider = .error e := by
  unfold Setting.providerStatus at h
  split at h
  · rename_i hmem
    -- an empty name finds the default provider
    have hfound : ∃ provider, s.getProvider c (some name) = .ok provider := by
      by_cases hname : name = ""
      · subst hname
        obtain ⟨provider, hlookup⟩ := default_registered hc hi
        exact ⟨provider, clientProvider_ok_iff.mpr ⟨hi, getProvider_ok.mpr hlookup⟩⟩
      · exact (getProvider_of_ne hi hname).mpr hmem
    obtain ⟨provider, hprovider⟩ := hfound
    refine ⟨provider, hprovider, ?_⟩
    rw [(clientProvider_ok_iff.mp hprovider).2] at h
    change (inspection.capabilities provider >>= fun capabilities =>
      Except.ok (⟨name, true, some capabilities⟩ : ProviderStatus κ)) = .error e at h
    cases hcapabilities : inspection.capabilities provider with
    | error e' =>
      rw [hcapabilities] at h
      cases h
      rfl
    | ok capabilities =>
      rw [hcapabilities] at h
      cases h
  · cases h

theorem truthful_of_forall₂ {c : MemoryClient} {names : List String}
    {statuses : List (ProviderStatus κ)}
    (h : List.Forall₂ (fun name status => status.name = name ∧ Truthful s inspection c status)
      names statuses) :
    statuses.map ProviderStatus.name = names ∧
      ∀ status ∈ statuses, Truthful s inspection c status := by
  induction h with
  | nil => exact ⟨rfl, fun status hmem => absurd hmem List.not_mem_nil⟩
  | cons hhead _ ih =>
    refine ⟨by rw [List.map_cons, hhead.1, ih.1], fun status hmem => ?_⟩
    rcases List.mem_cons.mp hmem with rfl | hmem
    · exact hhead.2
    · exact ih.2 status hmem

theorem statuses_truthful {c : MemoryClient} (hc : Opened s.config c)
    {statuses : List (ProviderStatus κ)} (h : s.getProviderStatus inspection c = .ok statuses) :
    statuses.map ProviderStatus.name = s.config.providerConfigs ∧
      ∀ status ∈ statuses, Truthful s inspection c status := by
  apply truthful_of_forall₂
  unfold Setting.getProviderStatus at h
  split at h
  · rename_i hi
    exact (Except.mapM_ok h).imp fun name status hstatus =>
      ⟨providerStatus_name inspection hstatus, providerStatus_truthful inspection hc hi hstatus⟩
  · rename_i hi
    cases h
    rw [Bool.not_eq_true] at hi
    rw [List.forall₂_map_right_iff]
    exact List.forall₂_same.mpr fun name _ => ⟨rfl, uninitialized_truthful inspection hc hi name⟩

theorem atomicmemory_eq {c : MemoryClient} (hi : c.initialized = true)
    (hname : "atomicmemory" ∈ s.config.providerConfigs) :
    s.atomicmemory inspection c =
      match c.service.providers.lookup "atomicmemory" with
      | none => .error (.configError "Provider 'atomicmemory' is not registered")
      | some provider => inspection.extension provider := by
  have hprovider : (s.service c).getProvider (some "atomicmemory") =
      match c.service.providers.lookup "atomicmemory" with
      | none => .error (.configError "Provider 'atomicmemory' is not registered")
      | some provider => .ok provider := by
    unfold Service.getProvider
    rw [providerName_of_ne (by decide)]
    dsimp only [Setting.service]
    cases c.service.providers.lookup "atomicmemory" <;> rfl
  unfold Setting.atomicmemory
  rw [if_pos hi, if_pos hname, hprovider]
  cases c.service.providers.lookup "atomicmemory" <;> rfl

theorem configured_of_registered {c : MemoryClient} {name : String} {provider : Provider}
    {pipeline : ℕ} (h : Registered s.config c name provider pipeline) :
    c.initialized = true ∧ name ∈ s.config.providerConfigs := by
  obtain ⟨before, registry, b, -, hbefore, hinit, hname, -⟩ := h
  obtain ⟨staged, w, -, -, hafter⟩ := initializeClient_returned hbefore hinit
  exact ⟨by rw [hafter], hname⟩

theorem atomicmemory_ok_iff {c : MemoryClient} (hc : Opened s.config c) {handle : θ} :
    s.atomicmemory inspection c = .ok (some handle) ↔
      ∃ provider pipeline, Registered s.config c "atomicmemory" provider pipeline ∧
        inspection.extension provider = .ok (some handle) := by
  constructor
  · intro h
    by_cases hi : c.initialized = true
    · by_cases hname : "atomicmemory" ∈ s.config.providerConfigs
      · rw [atomicmemory_eq inspection hi hname] at h
        split at h
        · cases h
        · rename_i provider hlookup
          obtain ⟨pipeline, hregistered⟩ := registered_of_lookup hc hlookup
          exact ⟨provider, pipeline, hregistered, h⟩
      · rw [Setting.atomicmemory, if_pos hi, if_neg hname] at h
        cases h
    · rw [Setting.atomicmemory, if_neg hi] at h
      cases h
  · intro h
    obtain ⟨provider, pipeline, hregistered, hextension⟩ := h
    obtain ⟨hi, hname⟩ := configured_of_registered hregistered
    rw [atomicmemory_eq inspection hi hname, ((registered_iff hc).mp hregistered).1]
    exact hextension

theorem atomicmemory_error_iff {c : MemoryClient} (hc : Opened s.config c) {e : PyError} :
    s.atomicmemory inspection c = .error e ↔
      c.initialized = true ∧ "atomicmemory" ∈ s.config.providerConfigs ∧
        ((∃ provider pipeline, Registered s.config c "atomicmemory" provider pipeline ∧
            inspection.extension provider = .error e) ∨
          (¬ ∃ provider pipeline, Registered s.config c "atomicmemory" provider pipeline) ∧
            e = .configError "Provider 'atomicmemory' is not registered") := by
  by_cases hi : c.initialized = true
  · by_cases hname : "atomicmemory" ∈ s.config.providerConfigs
    · rw [atomicmemory_eq inspection hi hname]
      simp only [hi, hname, true_and]
      cases hlookup : c.service.providers.lookup "atomicmemory" with
      | none =>
        have hnone : ¬ ∃ provider pipeline,
            Registered s.config c "atomicmemory" provider pipeline := by
          intro h
          obtain ⟨provider, pipeline, h⟩ := h
          rw [((registered_iff hc).mp h).1] at hlookup
          cases hlookup
        constructor
        · intro h
          exact .inr ⟨hnone, (Except.error.inj h).symm⟩
        · intro h
          rcases h with ⟨provider, pipeline, h, -⟩ | ⟨-, rfl⟩
          · exact absurd ⟨provider, pipeline, h⟩ hnone
          · rfl
      | some found =>
        obtain ⟨pipeline, hregistered⟩ := registered_of_lookup hc hlookup
        constructor
        · intro h
          exact .inl ⟨found, pipeline, hregistered, h⟩
        · intro h
          rcases h with ⟨provider, pipeline, h, hextension⟩ | ⟨hnone, -⟩
          · rw [((registered_iff hc).mp h).1] at hlookup
            cases hlookup
            exact hextension
          · exact absurd ⟨found, pipeline, hregistered⟩ hnone
    · rw [Setting.atomicmemory, if_pos hi, if_neg hname]
      refine iff_of_false nofun fun h => hname h.2.1
  · rw [Setting.atomicmemory, if_neg hi]
    refine iff_of_false nofun fun h => hi h.1

/-- In every state that a run of the client leads to: `get_provider_status` names the
configured providers in order and is truthful of each; it raises only what the
`capabilities()` of a registered provider raises. The `atomicmemory` property is the handle of
the registered provider, and on an initialized client it also raises when the provider is
configured but the last initialization found no factory for its name. -/
theorem status_truthful (c : MemoryClient) (h : (machine s.config).Reachable c) :
    (∀ statuses, s.getProviderStatus inspection c = .ok statuses →
      statuses.map ProviderStatus.name = s.config.providerConfigs ∧
        ∀ status ∈ statuses, Truthful s inspection c status) ∧
    (∀ e, s.getProviderStatus inspection c = .error e →
      ∃ name ∈ s.config.providerConfigs, ∃ provider,
        s.getProvider c (some name) = .ok provider ∧
          inspection.capabilities provider = .error e) ∧
    (∀ handle, s.atomicmemory inspection c = .ok (some handle) ↔
      ∃ provider pipeline, Registered s.config c "atomicmemory" provider pipeline ∧
        inspection.extension provider = .ok (some handle)) ∧
    ∀ e, s.atomicmemory inspection c = .error e ↔
      c.initialized = true ∧ "atomicmemory" ∈ s.config.providerConfigs ∧
        ((∃ provider pipeline, Registered s.config c "atomicmemory" provider pipeline ∧
            inspection.extension provider = .error e) ∨
          (¬ ∃ provider pipeline, Registered s.config c "atomicmemory" provider pipeline) ∧
            e = .configError "Provider 'atomicmemory' is not registered") := by
  have hc := opened_of_reachable h
  refine ⟨fun statuses => statuses_truthful inspection hc, fun e he => ?_,
    fun handle => atomicmemory_ok_iff inspection hc, fun e => atomicmemory_error_iff inspection hc⟩
  unfold Setting.getProviderStatus at he
  split at he
  · rename_i hi
    obtain ⟨name, hname, hstatus⟩ := Except.mapM_error he
    exact ⟨name, hname, providerStatus_error inspection hc hi hstatus⟩
  · cases he

end

/-- A default provider, one whose name has no factory, and `atomicmemory`, whose name has none
either. -/
def statusSetting : Setting ℕ where
  config := ⟨["p", "q", "atomicmemory"], "p", by decide, by decide⟩
  hooks _ := noopPipeline
  nameOf _ := "p"
  models := hookedSetting.models

theorem status_truthful_partial :
    ∃ c, (machine statusSetting.config).Reachable c ∧
      (∃ status, Truthful (κ := ℕ) (θ := ℕ) statusSetting ⟨fun p => .ok p.id, fun _ => .ok none⟩ c
        status ∧ status.name = "q" ∧ status.initialized = false) := by
  let c : MemoryClient := ⟨true, none, ⟨[("p", ⟨0, none⟩)], [("p", 7)]⟩, ⟨["p"], 1, []⟩⟩
  have hreach : (machine statusSetting.config).Reachable c :=
    Machine.reachable_exec [.initializeClient fun name =>
      if name = "p" then some (.returns ⟨7, none, none⟩) else none] rfl
  have htruthful := (status_truthful (κ := ℕ) (θ := ℕ) (s := statusSetting)
    ⟨fun p => .ok p.id, fun _ => .ok none⟩ c hreach).1
    [⟨"p", true, some 0⟩, ⟨"q", false, none⟩, ⟨"atomicmemory", false, none⟩] rfl
  exact ⟨c, hreach, _, htruthful.2 ⟨"q", false, none⟩ (by simp), rfl, rfl⟩

end AtomicMemory.SyncClient
