import AtomicMemory.Lib.KeyedTable
import AtomicMemory.Memory.ServiceIngest

-- Every operation of `MemoryService`, as the calls it makes of the provider and of the hooks
-- of the provider's pipeline. Their answers are open.

namespace AtomicMemory.ServiceOperations

inductive Read
  | search
  | get
  | list
  deriving DecidableEq

abbrev Request : Read → Type
  | .search => SearchRequest
  | .get => MemoryRef
  | .list => ListRequest

abbrev Response : Read → Type
  | .search => SearchResultPage String
  | .get => Option (Memory String)
  | .list => ListResultPage String

/-- What `get_extension` returns, as far as `package` looks at it. -/
inductive Extension (ξ : Type)
  | missing
  | withoutPackage
  | packager (packager : ξ)

inductive OperationError
  | raised (e : PyError)
  /-- The SDK's `ValidationError` for an argument that is no valid dict of its type. -/
  | invalid (typeName : String)
  | unsupportedOperation (provider operation : String)
  deriving DecidableEq

section

variable (π η ξ : Type)

structure MemoryProcessingPipeline where
  preprocessIngest : Option η
  postprocessIngest : Option η
  preprocessSearch : Option η
  postprocessSearch : Option η
  preprocessGet : Option η
  postprocessGet : Option η
  postprocessList : Option η

/-- `_default_provider_name`, `_providers` and `_pipelines`. -/
structure Service where
  defaultProvider : String
  providers : List (String × π)
  pipelines : List (String × MemoryProcessingPipeline η)

inductive Call
  | ingesting (call : ServiceIngest.Call π η)
  | preprocess (hook : η) (kind : Read) (request : Request kind)
  | read (provider : π) (kind : Read) (request : Request kind)
  | postprocess (hook : η) (kind : Read) (response : Response kind) (request : Request kind)
  | delete (provider : π) (ref : MemoryRef)
  | getExtension (provider : π) (name : String)
  | package (packager : ξ) (request : PackageRequest)

abbrev Value : Call π η ξ → Type
  | .ingesting call => ServiceIngest.Value π η call
  | .preprocess _ kind _ => Request kind
  | .read _ kind _ => Response kind
  | .postprocess _ kind _ _ => Response kind
  | .delete _ _ => Unit
  | .getExtension _ _ => Extension ξ
  | .package _ _ => ContextPackage String

abbrev Answer (c : Call π η ξ) := Except PyError (Value π η ξ c)

abbrev Calls := CallTree (Call π η ξ) (Answer π η ξ)

abbrev Trace := List (Sigma (Answer π η ξ))

end

section

variable {π η ξ : Type}

/-- `NOOP_PIPELINE`. -/
def noopPipeline : MemoryProcessingPipeline η := ⟨none, none, none, none, none, none, none⟩

def MemoryProcessingPipeline.ingestHooks (pipeline : MemoryProcessingPipeline η) :
    ServiceIngest.Pipeline η :=
  ⟨pipeline.preprocessIngest, pipeline.postprocessIngest⟩

def MemoryProcessingPipeline.preprocess (pipeline : MemoryProcessingPipeline η) : Read → Option η
  | .search => pipeline.preprocessSearch
  | .get => pipeline.preprocessGet
  | .list => none

def MemoryProcessingPipeline.postprocess (pipeline : MemoryProcessingPipeline η) :
    Read → Option η
  | .search => pipeline.postprocessSearch
  | .get => pipeline.postprocessGet
  | .list => pipeline.postprocessList

/-- What `ingest` reads of the service. -/
def Service.ingesting (svc : Service π η) : ServiceIngest.Service π η :=
  ⟨svc.defaultProvider, svc.providers,
    svc.pipelines.map fun entry => (entry.1, entry.2.ingestHooks)⟩

/-- `name or self._default_provider_name`. -/
def Service.providerName (svc : Service π η) (name : Option String) : String :=
  (nonEmpty name).getD svc.defaultProvider

def Service.getProvider (svc : Service π η) (name : Option String) : Except PyError π :=
  let providerName := svc.providerName name
  match svc.providers.lookup providerName with
  | none => .error (.configError s!"Provider '{providerName}' is not registered")
  | some provider => .ok provider

/-- `_pipeline`. -/
def Service.pipeline (svc : Service π η) (name : Option String) : MemoryProcessingPipeline η :=
  (svc.pipelines.lookup (svc.providerName name)).getD noopPipeline

def ofIngest {α : Type} :
    ServiceIngest.Calls π η (Except PyError α) → Calls π η ξ (Except OperationError α)
  | .ends result => .ends (result.mapError .raised)
  | .calls call next => .calls (.ingesting call) fun answer => ofIngest (next answer)

/-- `MemoryService.ingest`. -/
def Service.ingest (svc : Service π η) (input : IngestInput) (name : Option String) :
    Calls π η ξ (Except OperationError IngestResult) :=
  ofIngest (ServiceIngest.ingest svc.ingesting input name)

/-- The provider reads the processed request, and the hook after it sees the same one. -/
def readProcessed (provider : π) (postprocess : Option η) (kind : Read) (processed : Request kind) :
    Calls π η ξ (Except OperationError (Response kind)) :=
  .calls (.read provider kind processed) fun
    | .error e => .ends (.error (.raised e))
    | .ok response =>
      match postprocess with
      | none => .ends (.ok response)
      | some hook =>
        .calls (.postprocess hook kind response processed) fun answer =>
          .ends (answer.mapError .raised)

/-- What `search`, `get` and `list` do, each with its hooks. -/
def Service.readThrough (svc : Service π η) (kind : Read) (request : Request kind)
    (name : Option String) : Calls π η ξ (Except OperationError (Response kind)) :=
  match svc.getProvider name with
  | .error e => .ends (.error (.raised e))
  | .ok provider =>
    let pipeline := svc.pipeline name
    match pipeline.preprocess kind with
    | none => readProcessed provider (pipeline.postprocess kind) kind request
    | some hook =>
      .calls (.preprocess hook kind request) fun
        | .error e => .ends (.error (.raised e))
        | .ok processed => readProcessed provider (pipeline.postprocess kind) kind processed

/-- `MemoryService.search`. -/
def Service.search (svc : Service π η) (request : SearchRequest) (name : Option String) :
    Calls π η ξ (Except OperationError (SearchResultPage String)) :=
  svc.readThrough .search request name

/-- `MemoryService.get`. -/
def Service.get (svc : Service π η) (ref : MemoryRef) (name : Option String) :
    Calls π η ξ (Except OperationError (Option (Memory String))) :=
  svc.readThrough .get ref name

/-- `MemoryService.list`. -/
def Service.list (svc : Service π η) (request : ListRequest) (name : Option String) :
    Calls π η ξ (Except OperationError (ListResultPage String)) :=
  svc.readThrough .list request name

/-- `MemoryService.delete`. -/
def Service.delete (svc : Service π η) (ref : MemoryRef) (name : Option String) :
    Calls π η ξ (Except OperationError Unit) :=
  match svc.getProvider name with
  | .error e => .ends (.error (.raised e))
  | .ok provider => .calls (.delete provider ref) fun answer => .ends (answer.mapError .raised)

/-- `MemoryService.package`; `nameOf` is `provider.name`. -/
def Service.package (nameOf : π → String) (svc : Service π η) (request : PackageRequest)
    (name : Option String) : Calls π η ξ (Except OperationError (ContextPackage String)) :=
  match svc.getProvider name with
  | .error e => .ends (.error (.raised e))
  | .ok provider =>
    .calls (.getExtension provider "package") fun
      | .error e => .ends (.error (.raised e))
      | .ok (.packager packager) =>
        .calls (.package packager request) fun answer => .ends (answer.mapError .raised)
      | .ok _ => .ends (.error (.unsupportedOperation (nameOf provider) "package"))

inductive Processed (preprocess : Option η) (kind : Read) (request : Request kind) :
    Trace π η ξ → Request kind → Prop
  | unchanged (hpre : preprocess = none) : Processed preprocess kind request [] request
  | changed (hook : η) (processed : Request kind) (hpre : preprocess = some hook) :
    Processed preprocess kind request [⟨.preprocess hook kind request, .ok processed⟩] processed

/-- The provider and the hook after it are given the processed request, and what the last
of them answers is the outcome. -/
inductive ReadRun (provider : π) (preprocess postprocess : Option η) (kind : Read)
    (request : Request kind) : Trace π η ξ → Except OperationError (Response kind) → Prop
  | refused (hook : η) (e : PyError) (hpre : preprocess = some hook) :
    ReadRun provider preprocess postprocess kind request
      [⟨.preprocess hook kind request, .error e⟩] (.error (.raised e))
  | fails {before : Trace π η ξ} {processed : Request kind} (e : PyError)
      (hpre : Processed preprocess kind request before processed) :
    ReadRun provider preprocess postprocess kind request
      (before ++ [⟨.read provider kind processed, .error e⟩]) (.error (.raised e))
  | plain {before : Trace π η ξ} {processed : Request kind} (response : Response kind)
      (hpre : Processed preprocess kind request before processed) (hpost : postprocess = none) :
    ReadRun provider preprocess postprocess kind request
      (before ++ [⟨.read provider kind processed, .ok response⟩]) (.ok response)
  | hooked {before : Trace π η ξ} {processed : Request kind} (response : Response kind) (hook : η)
      (answer : Except PyError (Response kind))
      (hpre : Processed preprocess kind request before processed)
      (hpost : postprocess = some hook) :
    ReadRun provider preprocess postprocess kind request
      (before ++ [⟨.read provider kind processed, .ok response⟩,
        ⟨.postprocess hook kind response processed, answer⟩]) (answer.mapError .raised)

inductive PackageRun (nameOf : π → String) (provider : π) (request : PackageRequest) :
    Trace π η ξ → Except OperationError (ContextPackage String) → Prop
  | fails (e : PyError) :
    PackageRun nameOf provider request [⟨.getExtension provider "package", .error e⟩]
      (.error (.raised e))
  | unsupported (extension : Extension ξ) (hext : ∀ packager, extension ≠ .packager packager) :
    PackageRun nameOf provider request [⟨.getExtension provider "package", .ok extension⟩]
      (.error (.unsupportedOperation (nameOf provider) "package"))
  | packages (packager : ξ) (answer : Except PyError (ContextPackage String)) :
    PackageRun nameOf provider request
      [⟨.getExtension provider "package", .ok (.packager packager)⟩,
        ⟨.package packager request, answer⟩] (answer.mapError .raised)

def DeleteRun (provider : π) (ref : MemoryRef) (trace : Trace π η ξ)
    (outcome : Except OperationError Unit) : Prop :=
  ∃ answer : Except PyError Unit,
    trace = [⟨.delete provider ref, answer⟩] ∧ outcome = answer.mapError .raised

def ingestStep (step : Sigma (ServiceIngest.Answer π η)) : Sigma (Answer π η ξ) :=
  ⟨.ingesting step.1, step.2⟩

def IngestRun (provider : π) (pipeline : MemoryProcessingPipeline η) (input : IngestInput)
    (trace : Trace π η ξ) (outcome : Except OperationError IngestResult) : Prop :=
  ∃ steps result, trace = steps.map ingestStep ∧ outcome = result.mapError .raised ∧
    ServiceIngest.PipelineRun provider pipeline.ingestHooks input steps result

theorem getProvider_ok {svc : Service π η} {name : Option String} {provider : π} :
    svc.getProvider name = .ok provider ↔
      svc.providers.lookup (svc.providerName name) = some provider := by
  unfold Service.getProvider
  dsimp only
  cases svc.providers.lookup (svc.providerName name) <;> simp

theorem ofIngest_runs {α : Type} {t : ServiceIngest.Calls π η (Except PyError α)}
    {trace : Trace π η ξ} {outcome : Except OperationError α} (h : (ofIngest t).Runs trace outcome) :
    ∃ steps result, trace = steps.map ingestStep ∧ outcome = result.mapError .raised ∧
      t.Runs steps result := by
  induction t generalizing trace with
  | ends result =>
    obtain ⟨rfl, rfl⟩ := CallTree.runs_ends_iff.mp h
    exact ⟨[], result, rfl, rfl, .ends result⟩
  | calls call next ih =>
    obtain ⟨answer, rest, rfl, hnext⟩ := CallTree.runs_calls_iff.mp h
    obtain ⟨steps, result, rfl, houtcome, hsteps⟩ := ih answer hnext
    exact ⟨⟨call, answer⟩ :: steps, result, rfl, houtcome, .calls hsteps⟩

theorem readProcessed_runs {provider : π} {preprocess postprocess : Option η} {kind : Read}
    {request processed : Request kind} {before trace : Trace π η ξ}
    {outcome : Except OperationError (Response kind)}
    (hpre : Processed preprocess kind request before processed)
    (h : (readProcessed provider postprocess kind processed).Runs trace outcome) :
    ReadRun provider preprocess postprocess kind request (before ++ trace) outcome := by
  obtain ⟨answer, rest, rfl, hnext⟩ := CallTree.runs_calls_iff.mp h
  cases answer with
  | error e =>
    obtain ⟨rfl, rfl⟩ := CallTree.runs_ends_iff.mp hnext
    exact .fails e hpre
  | ok response =>
    cases postprocess with
    | none =>
      obtain ⟨rfl, rfl⟩ := CallTree.runs_ends_iff.mp hnext
      exact .plain response hpre rfl
    | some hook =>
      obtain ⟨answer, rest, rfl, hlast⟩ := CallTree.runs_calls_iff.mp hnext
      obtain ⟨rfl, rfl⟩ := CallTree.runs_ends_iff.mp hlast
      exact .hooked response hook answer hpre rfl

theorem readThrough_runs {svc : Service π η} {kind : Read} {request : Request kind}
    {name : Option String} {provider : π} {trace : Trace π η ξ}
    {outcome : Except OperationError (Response kind)} (hprovider : svc.getProvider name = .ok provider)
    (h : (svc.readThrough kind request name).Runs trace outcome) :
    ReadRun provider ((svc.pipeline name).preprocess kind) ((svc.pipeline name).postprocess kind)
      kind request trace outcome := by
  unfold Service.readThrough at h
  simp only [hprovider] at h
  generalize svc.pipeline name = pipeline at h ⊢
  cases hpre : pipeline.preprocess kind with
  | none =>
    simp only [hpre] at h
    exact readProcessed_runs (.unchanged rfl) h
  | some hook =>
    simp only [hpre] at h
    obtain ⟨answer, rest, rfl, hnext⟩ := CallTree.runs_calls_iff.mp h
    cases answer with
    | error e =>
      obtain ⟨rfl, rfl⟩ := CallTree.runs_ends_iff.mp hnext
      exact .refused hook e rfl
    | ok processed => exact readProcessed_runs (.changed hook processed rfl) hnext

theorem package_runs {nameOf : π → String} {svc : Service π η} {request : PackageRequest}
    {name : Option String} {provider : π} {trace : Trace π η ξ}
    {outcome : Except OperationError (ContextPackage String)}
    (hprovider : svc.getProvider name = .ok provider)
    (h : (svc.package nameOf request name).Runs trace outcome) :
    PackageRun nameOf provider request trace outcome := by
  unfold Service.package at h
  simp only [hprovider] at h
  obtain ⟨answer, rest, rfl, hnext⟩ := CallTree.runs_calls_iff.mp h
  cases answer with
  | error e =>
    obtain ⟨rfl, rfl⟩ := CallTree.runs_ends_iff.mp hnext
    exact .fails e
  | ok extension =>
    cases extension with
    | packager packager =>
      obtain ⟨answer, rest, rfl, hlast⟩ := CallTree.runs_calls_iff.mp hnext
      obtain ⟨rfl, rfl⟩ := CallTree.runs_ends_iff.mp hlast
      exact .packages packager answer
    | _ =>
      obtain ⟨rfl, rfl⟩ := CallTree.runs_ends_iff.mp hnext
      exact .unsupported _ fun packager heq => by cases heq

theorem delete_runs {svc : Service π η} {ref : MemoryRef} {name : Option String} {provider : π}
    {trace : Trace π η ξ} {outcome : Except OperationError Unit}
    (hprovider : svc.getProvider name = .ok provider)
    (h : (svc.delete ref name).Runs trace outcome) : DeleteRun provider ref trace outcome := by
  unfold Service.delete at h
  simp only [hprovider] at h
  obtain ⟨answer, rest, rfl, hnext⟩ := CallTree.runs_calls_iff.mp h
  obtain ⟨rfl, rfl⟩ := CallTree.runs_ends_iff.mp hnext
  exact ⟨answer, rfl, rfl⟩

theorem ingest_runs {svc : Service π η} {input : IngestInput} {name : Option String}
    {provider : π} {trace : Trace π η ξ} {outcome : Except OperationError IngestResult}
    (hprovider : svc.getProvider name = .ok provider)
    (h : (svc.ingest input name).Runs trace outcome) :
    IngestRun provider (svc.pipeline name) input trace outcome := by
  obtain ⟨steps, result, htrace, houtcome, hsteps⟩ := ofIngest_runs h
  refine ⟨steps, result, htrace, houtcome, ?_⟩
  have hsplit := @ServiceIngest.ingest_runs _ _ _ _ _ (steps, result) hsteps
  unfold ServiceIngest.SplitRun at hsplit
  rw [← ServiceIngest.providerName_eq] at hsplit
  have hname : svc.ingesting.providerName name = svc.providerName name := rfl
  have hlookup := getProvider_ok.mp hprovider
  have hproviders : svc.ingesting.providers = svc.providers := rfl
  have hpipeline : (svc.ingesting.pipelines.lookup (svc.providerName name)).getD ⟨none, none⟩ =
      (svc.pipeline name).ingestHooks := by
    unfold Service.ingesting Service.pipeline
    rw [KeyedTable.lookup_map]
    cases svc.pipelines.lookup (svc.providerName name) <;> rfl
  simp only [hname, hproviders, hlookup, hpipeline] at hsplit
  exact hsplit

end

end AtomicMemory.ServiceOperations
