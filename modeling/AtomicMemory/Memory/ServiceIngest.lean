import AtomicMemory.Lib.CallTree
import AtomicMemory.Memory.IngestInput

-- `ingest` of both services, as the calls it makes of the provider and of the hooks of its
-- pipeline. Their answers are open.

namespace AtomicMemory.ServiceIngest

section

variable (π η : Type)

/-- What `ingest` reads of a `MemoryProcessingPipeline`, whose hooks are the caller's. -/
structure Pipeline where
  preprocessIngest : Option η
  postprocessIngest : Option η

/-- `_default_provider_name`, `_providers` and `_pipelines`. -/
structure Service where
  defaultProvider : String
  providers : List (String × π)
  pipelines : List (String × Pipeline η)

inductive Call
  | preprocessIngest (hook : η) (input : IngestInput)
  | ingest (provider : π) (item : IngestInput)
  | postprocessIngest (hook : η) (result : IngestResult) (item : IngestInput)

abbrev Value : Call π η → Type
  | .preprocessIngest _ _ => List IngestInput
  | .ingest _ _ => IngestResult
  | .postprocessIngest _ _ _ => Unit

abbrev Answer (c : Call π η) := Except PyError (Value π η c)

abbrev Calls := CallTree (Call π η) (Answer π η)

abbrev Trace := List (Sigma (Answer π η))

end

section

variable {π η : Type}

/-- `NOOP_PIPELINE`. -/
def noopPipeline : Pipeline η := ⟨none, none⟩

/-- `_merge_ingest_results`. -/
def mergeIngestResults (results : List IngestResult) : IngestResult where
  created := results.flatMap IngestResult.created
  updated := results.flatMap IngestResult.updated
  unchanged := results.flatMap IngestResult.unchanged

/-- `name or self._default_provider_name`. -/
def Service.providerName (svc : Service π η) (name : Option String) : String :=
  (nonEmpty name).getD svc.defaultProvider

def Service.getProvider (svc : Service π η) (name : Option String) : Except PyError π :=
  let providerName := svc.providerName name
  match svc.providers.lookup providerName with
  | none => .error (.configError s!"Provider '{providerName}' is not registered")
  | some provider => .ok provider

/-- `_pipeline`. -/
def Service.pipeline (svc : Service π η) (name : Option String) : Pipeline η :=
  (svc.pipelines.lookup (svc.providerName name)).getD noopPipeline

/-- The loop over what `preprocess_ingest` has made of the input. -/
def ingestItems (provider : π) (pipeline : Pipeline η) :
    List IngestInput → List IngestResult → Calls π η (Except PyError IngestResult)
  | [], results => .ends (.ok (mergeIngestResults results))
  | item :: items, results =>
    .calls (.ingest provider item) fun
      | .error e => .ends (.error e)
      | .ok result =>
        match pipeline.postprocessIngest with
        | none => ingestItems provider pipeline items (results ++ [result])
        | some hook =>
          .calls (.postprocessIngest hook result item) fun
            | .error e => .ends (.error e)
            | .ok () => ingestItems provider pipeline items (results ++ [result])

/-- `MemoryService.ingest`. -/
def ingest (svc : Service π η) (input : IngestInput) (name : Option String) :
    Calls π η (Except PyError IngestResult) :=
  match svc.getProvider name with
  | .error e => .ends (.error e)
  | .ok provider =>
    let pipeline := svc.pipeline name
    match pipeline.preprocessIngest with
    | some hook =>
      .calls (.preprocessIngest hook input) fun
        | .error e => .ends (.error e)
        | .ok items => ingestItems provider pipeline items []
    | none =>
      .calls (.ingest provider input) fun
        | .error e => .ends (.error e)
        | .ok result =>
          match pipeline.postprocessIngest with
          | none => .ends (.ok result)
          | some hook =>
            .calls (.postprocessIngest hook result input) fun
              | .error e => .ends (.error e)
              | .ok () => .ends (.ok result)

def asyncIngestItems (provider : π) (pipeline : Pipeline η) :
    List IngestInput → List IngestResult → Calls π η (Except PyError IngestResult)
  | [], results => .ends (.ok (mergeIngestResults results))
  | item :: items, results =>
    .calls (.ingest provider item) fun
      | .error e => .ends (.error e)
      | .ok result =>
        match pipeline.postprocessIngest with
        | none => asyncIngestItems provider pipeline items (results ++ [result])
        | some hook =>
          .calls (.postprocessIngest hook result item) fun
            | .error e => .ends (.error e)
            | .ok () => asyncIngestItems provider pipeline items (results ++ [result])

/-- `AsyncMemoryService.ingest`, which awaits its calls. -/
def asyncIngest (svc : Service π η) (input : IngestInput) (name : Option String) :
    Calls π η (Except PyError IngestResult) :=
  match svc.getProvider name with
  | .error e => .ends (.error e)
  | .ok provider =>
    let pipeline := svc.pipeline name
    match pipeline.preprocessIngest with
    | some hook =>
      .calls (.preprocessIngest hook input) fun
        | .error e => .ends (.error e)
        | .ok items => asyncIngestItems provider pipeline items []
    | none =>
      .calls (.ingest provider input) fun
        | .error e => .ends (.error e)
        | .ok result =>
          match pipeline.postprocessIngest with
          | none => .ends (.ok result)
          | some hook =>
            .calls (.postprocessIngest hook result input) fun
              | .error e => .ends (.error e)
              | .ok () => .ends (.ok result)

def itemTrace (provider : π) (pipeline : Pipeline η) (item : IngestInput)
    (result : IngestResult) : Trace π η :=
  ⟨.ingest provider item, .ok result⟩ ::
    match pipeline.postprocessIngest with
    | none => []
    | some hook => [⟨.postprocessIngest hook result item, .ok ()⟩]

def itemsTrace (provider : π) (pipeline : Pipeline η)
    (done : List (IngestInput × IngestResult)) : Trace π η :=
  done.flatMap fun x => itemTrace provider pipeline x.1 x.2

inductive ItemFails (provider : π) (pipeline : Pipeline η) (item : IngestInput) (e : PyError) :
    Trace π η → Prop
  | ingest : ItemFails provider pipeline item e [⟨.ingest provider item, .error e⟩]
  | postprocess (hook : η) (result : IngestResult) (hpost : pipeline.postprocessIngest = some hook) :
    ItemFails provider pipeline item e
      [⟨.ingest provider item, .ok result⟩, ⟨.postprocessIngest hook result item, .error e⟩]

/-- All items were ingested one after another, or those before the first failure; the
results are concatenated, or the failure is raised. -/
inductive ItemsRun (provider : π) (pipeline : Pipeline η) (items : List IngestInput) :
    Trace π η → Except PyError IngestResult → Prop
  | succeeds (results : List IngestResult) (hlength : results.length = items.length) :
    ItemsRun provider pipeline items (itemsTrace provider pipeline (items.zip results))
      (.ok ⟨results.flatMap IngestResult.created, results.flatMap IngestResult.updated,
        results.flatMap IngestResult.unchanged⟩)
  | fails (done : List (IngestInput × IngestResult)) (item : IngestInput) (rest : List IngestInput)
      (last : Trace π η) (e : PyError) (hitems : items = done.map Prod.fst ++ item :: rest)
      (hlast : ItemFails provider pipeline item e last) :
    ItemsRun provider pipeline items (itemsTrace provider pipeline done ++ last) (.error e)

inductive PipelineRun (provider : π) (pipeline : Pipeline η) (input : IngestInput) :
    Trace π η → Except PyError IngestResult → Prop
  | whole {trace : Trace π η} {outcome : Except PyError IngestResult}
      (hpre : pipeline.preprocessIngest = none)
      (hitems : ItemsRun provider pipeline [input] trace outcome) :
    PipelineRun provider pipeline input trace outcome
  | split {trace : Trace π η} {outcome : Except PyError IngestResult} (hook : η)
      (items : List IngestInput) (hpre : pipeline.preprocessIngest = some hook)
      (hitems : ItemsRun provider pipeline items trace outcome) :
    PipelineRun provider pipeline input (⟨.preprocessIngest hook input, .ok items⟩ :: trace) outcome
  | refused (hook : η) (e : PyError) (hpre : pipeline.preprocessIngest = some hook) :
    PipelineRun provider pipeline input [⟨.preprocessIngest hook input, .error e⟩] (.error e)

/-- An empty or absent name stands for the default provider's; a name that is not registered
is refused before any call. -/
def SplitRun (svc : Service π η) (input : IngestInput) (name : Option String)
    (run : Trace π η × Except PyError IngestResult) : Prop :=
  let providerName := if name = some "" then svc.defaultProvider else name.getD svc.defaultProvider
  match svc.providers.lookup providerName with
  | none =>
    run = ([], .error (.configError ("Provider '" ++ providerName ++ "' is not registered")))
  | some provider =>
    PipelineRun provider ((svc.pipelines.lookup providerName).getD ⟨none, none⟩) input run.1 run.2

theorem itemsTrace_concat (provider : π) (pipeline : Pipeline η)
    (done : List (IngestInput × IngestResult)) (item : IngestInput) (result : IngestResult) :
    itemsTrace provider pipeline (done ++ [(item, result)]) =
      itemsTrace provider pipeline done ++ itemTrace provider pipeline item result := by
  simp [itemsTrace]

/-- One item: `ingest`, then the hook, then `next`. -/
def itemStep (provider : π) (pipeline : Pipeline η) (item : IngestInput)
    (next : IngestResult → Calls π η (Except PyError IngestResult)) :
    Calls π η (Except PyError IngestResult) :=
  .calls (.ingest provider item) fun
    | .error e => .ends (.error e)
    | .ok result =>
      match pipeline.postprocessIngest with
      | none => next result
      | some hook =>
        .calls (.postprocessIngest hook result item) fun
          | .error e => .ends (.error e)
          | .ok () => next result

/-- An item fails and ends the run, or `next` goes on after it. -/
theorem itemStep_runs {provider : π} {pipeline : Pipeline η} {item : IngestInput}
    {next : IngestResult → Calls π η (Except PyError IngestResult)} {trace : Trace π η}
    {outcome : Except PyError IngestResult}
    (h : (itemStep provider pipeline item next).Runs trace outcome) :
    (∃ e, outcome = .error e ∧ ItemFails provider pipeline item e trace) ∨
      ∃ result rest, trace = itemTrace provider pipeline item result ++ rest ∧
        (next result).Runs rest outcome := by
  obtain ⟨answer, rest, rfl, hnext⟩ := CallTree.runs_calls_iff.mp h
  cases answer with
  | error e =>
    obtain ⟨rfl, rfl⟩ := CallTree.runs_ends_iff.mp hnext
    exact .inl ⟨e, rfl, .ingest⟩
  | ok result =>
    cases hpost : pipeline.postprocessIngest with
    | none =>
      simp only [hpost] at hnext
      refine .inr ⟨result, rest, ?_, hnext⟩
      simp only [itemTrace, hpost]
      rfl
    | some hook =>
      simp only [hpost] at hnext
      obtain ⟨answer, rest, rfl, hlast⟩ := CallTree.runs_calls_iff.mp hnext
      cases answer with
      | error e =>
        obtain ⟨rfl, rfl⟩ := CallTree.runs_ends_iff.mp hlast
        exact .inl ⟨e, rfl, .postprocess hook result hpost⟩
      | ok _ =>
        refine .inr ⟨result, rest, ?_, hlast⟩
        simp only [itemTrace, hpost]
        rfl

/-- What was done before the loop reached the rest of the items is a part of the run. -/
theorem ingestItems_runs {provider : π} {pipeline : Pipeline η} {items : List IngestInput}
    {results : List IngestResult} {trace : Trace π η} {outcome : Except PyError IngestResult}
    (h : (ingestItems provider pipeline items results).Runs trace outcome)
    {done : List (IngestInput × IngestResult)} (hresults : results = done.map Prod.snd) :
    ItemsRun provider pipeline (done.map Prod.fst ++ items)
      (itemsTrace provider pipeline done ++ trace) outcome := by
  induction items generalizing results trace done with
  | nil =>
    obtain ⟨rfl, rfl⟩ := CallTree.runs_ends_iff.mp h
    subst hresults
    have hzip : (done.map Prod.fst).zip (done.map Prod.snd) = done := by
      rw [List.zip_map']
      exact List.map_id done
    have hrun : ItemsRun provider pipeline (done.map Prod.fst)
        (itemsTrace provider pipeline ((done.map Prod.fst).zip (done.map Prod.snd))) _ :=
      .succeeds (done.map Prod.snd) (by rw [List.length_map, List.length_map])
    rw [hzip] at hrun
    rw [List.append_nil, List.append_nil]
    exact hrun
  | cons item items ih =>
    change (itemStep provider pipeline item fun result =>
      ingestItems provider pipeline items (results ++ [result])).Runs trace outcome at h
    rcases itemStep_runs h with ⟨e, rfl, hfails⟩ | ⟨result, rest, rfl, hrest⟩
    · exact .fails done item items _ e rfl hfails
    · -- the item joins what is done
      have hresults' : results ++ [result] = (done ++ [(item, result)]).map Prod.snd := by
        rw [hresults, List.map_append]
        rfl
      have hrun := ih hrest hresults'
      rw [itemsTrace_concat, List.append_assoc, List.map_append, List.append_assoc] at hrun
      exact hrun

theorem merge_singleton (result : IngestResult) :
    (⟨[result].flatMap IngestResult.created, [result].flatMap IngestResult.updated,
      [result].flatMap IngestResult.unchanged⟩ : IngestResult) = result := by
  simp

/-- Without a `preprocess_ingest` hook the input is the one item. -/
theorem wholeInput_runs {provider : π} {pipeline : Pipeline η} {input : IngestInput}
    {result : IngestResult} :
    ItemsRun provider pipeline [input] (itemTrace provider pipeline input result) (.ok result) := by
  have hrun : ItemsRun provider pipeline [input]
      (itemsTrace provider pipeline ([input].zip [result])) _ := .succeeds [result] rfl
  rw [merge_singleton] at hrun
  simpa [itemsTrace] using hrun

theorem providerName_eq (svc : Service π η) (name : Option String) :
    svc.providerName name =
      if name = some "" then svc.defaultProvider else name.getD svc.defaultProvider := by
  unfold Service.providerName nonEmpty
  cases name with
  | none => simp
  | some name =>
    by_cases hname : name = ""
    · simp [hname, Option.filter]
    · simp [hname, Option.filter]

theorem ingest_runs {svc : Service π η} {input : IngestInput} {name : Option String}
    {run : Trace π η × Except PyError IngestResult} (h : (ingest svc input name).Runs run.1 run.2) :
    SplitRun svc input name run := by
  obtain ⟨trace, outcome⟩ := run
  unfold SplitRun
  unfold ingest Service.getProvider at h
  rw [← providerName_eq]
  dsimp only at h ⊢
  cases hprovider : svc.providers.lookup (svc.providerName name) with
  | none =>
    simp only [hprovider] at h
    obtain ⟨rfl, rfl⟩ := CallTree.runs_ends_iff.mp h
    rfl
  | some provider =>
    simp only [hprovider] at h
    change PipelineRun provider (svc.pipeline name) input trace outcome
    generalize svc.pipeline name = pipeline at h ⊢
    cases hpre : pipeline.preprocessIngest with
    | some hook =>
      simp only [hpre] at h
      obtain ⟨answer, rest, rfl, hnext⟩ := CallTree.runs_calls_iff.mp h
      cases answer with
      | error e =>
        obtain ⟨rfl, rfl⟩ := CallTree.runs_ends_iff.mp hnext
        exact .refused hook e hpre
      | ok items =>
        have hnil : [] = ([] : List (IngestInput × IngestResult)).map Prod.snd := rfl
        exact .split hook items hpre (ingestItems_runs hnext hnil)
    | none =>
      simp only [hpre] at h
      have hstep : (itemStep provider pipeline input fun result => .ends (.ok result)).Runs trace
          outcome := by
        convert h using 1
        refine congrArg (CallTree.calls _) (funext fun x => ?_)
        cases x with
        | error e => rfl
        | ok result =>
          cases pipeline.postprocessIngest with
          | none => rfl
          | some hook =>
            refine congrArg (CallTree.calls _) (funext fun x => ?_)
            cases x <;> rfl
      rcases itemStep_runs hstep with ⟨e, rfl, hfails⟩ | ⟨result, rest, rfl, hrest⟩
      · exact .whole hpre (.fails [] input [] _ e rfl hfails)
      · obtain ⟨rfl, rfl⟩ := CallTree.runs_ends_iff.mp hrest
        rw [List.append_nil]
        exact .whole hpre wholeInput_runs

theorem asyncIngestItems_eq (provider : π) (pipeline : Pipeline η) (items : List IngestInput)
    (results : List IngestResult) :
    asyncIngestItems provider pipeline items results =
      ingestItems provider pipeline items results := by
  induction items generalizing results with
  | nil => rfl
  | cons item items ih =>
    unfold asyncIngestItems ingestItems
    simp only [ih]

theorem asyncIngest_eq (svc : Service π η) (input : IngestInput) (name : Option String) :
    asyncIngest svc input name = ingest svc input name := by
  unfold asyncIngest ingest
  simp only [asyncIngestItems_eq]

/-- Whatever the provider and the hooks return or raise, an ingest goes through the items as
a split ingest does; and so does one whose calls are awaited, with the same calls and the
same outcome where the calls have the same answers. -/
theorem ingest_split_trace (svc : Service π η) (input : IngestInput) (name : Option String)
    (answer : Trace π η → (c : Call π η) → Answer π η c) :
    SplitRun svc input name ((ingest svc input name).perform answer []) ∧
      ∀ start resumptions run, (asyncIngest svc input name).drive start resumptions [] = some run →
        SplitRun svc input name run ∧
          (CallTree.Agrees answer [] run.1 → (ingest svc input name).perform answer [] = run) := by
  refine ⟨ingest_runs (CallTree.runs_perform answer _ []), fun start resumptions run hrun => ?_⟩
  rw [asyncIngest_eq] at hrun
  have hruns := CallTree.runs_of_drive hrun
  exact ⟨ingest_runs hruns, hruns.perform_eq⟩

end

def doublingService : Service ℕ ℕ :=
  ⟨"p", [("p", 1), ("q", 2)], [("p", ⟨some 0, some 1⟩)]⟩

def doublingAnswer : Trace ℕ ℕ → (c : Call ℕ ℕ) → Answer ℕ ℕ c
  | _, .preprocessIngest _ input => .ok [input, input]
  | before, .ingest _ _ => .ok ⟨["m" ++ toString before.length], [], []⟩
  | before, .postprocessIngest _ _ _ =>
    if before.length < 4 then .ok () else .error (.exception 0)

def doublingInput : IngestInput := ⟨⟨none, none, none, none⟩, none, none, none, .text "hi"⟩

theorem ingest_split_trace_doubling :
    ∃ run, (asyncIngest doublingService doublingInput (some "")).drive
        (fun before c => .suspends fun _ => .ends (doublingAnswer before c))
        [none, none, none, none, none] [] = some run ∧
      run.1.length = 5 ∧ run.2 = .error (.exception 0) ∧
      (ingest doublingService doublingInput (some "")).perform doublingAnswer [] = run := by
  have hrun : (asyncIngest doublingService doublingInput (some "")).drive
      (fun before c => .suspends fun _ => .ends (doublingAnswer before c))
      [none, none, none, none, none] [] =
      some ([⟨.preprocessIngest 0 doublingInput, .ok [doublingInput, doublingInput]⟩,
          ⟨.ingest 1 doublingInput, .ok ⟨["m1"], [], []⟩⟩,
          ⟨.postprocessIngest 1 ⟨["m1"], [], []⟩ doublingInput, .ok ()⟩,
          ⟨.ingest 1 doublingInput, .ok ⟨["m3"], [], []⟩⟩,
          ⟨.postprocessIngest 1 ⟨["m3"], [], []⟩ doublingInput, .error (.exception 0)⟩],
        .error (.exception 0)) := rfl
  have hclaim := ingest_split_trace doublingService doublingInput (some "") doublingAnswer
  have hsame := (hclaim.2 _ _ _ hrun).2
  exact ⟨_, hrun, rfl, rfl, hsame ⟨rfl, rfl, rfl, rfl, rfl, trivial⟩⟩

end AtomicMemory.ServiceIngest
