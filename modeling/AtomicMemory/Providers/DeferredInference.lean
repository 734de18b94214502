import AtomicMemory.Lib.Machine
import AtomicMemory.Providers.Mem0Provider
import Mathlib.Algebra.Order.Group.Multiset
import Mathlib.Tactic.Abel

-- A deferred ingest posts its body a second time. `Mem0Provider` does so before it returns;
-- `AsyncMem0Provider` leaves it to a task, which takes the client when it first runs.

open PyValue hiding none

namespace AtomicMemory.Mem0Provider

/-- `should_defer` of `do_ingest`. -/
def shouldDefer (config : Config) (input : IngestInput) : Bool :=
  config.deferInference && resolveInferFlag input config

/-- `{**body, "infer": True}`. -/
def backgroundBody (body : Items) : Items := Items.set body "infer" (.bool true)

/-- What `Mem0Provider.ingest` posts when its requests succeed: the request of `do_ingest`,
and that of `_fire_background_inference` after it. -/
def Provider.ingestPosts (p : Provider) (python : Python) (config : Config)
    (input : IngestInput) : List Items :=
  match p.ingest python config input with
  | .error _ => []
  | .ok call =>
    let body := call.request.json.getD []
    body :: if shouldDefer config input then [backgroundBody body] else []

/-- What the ingests of a sequence post; `close()` posts nothing. -/
def Provider.syncPosts (p : Provider) (python : Python) (config : Config)
    (inputs : List IngestInput) : List Items :=
  inputs.flatMap (p.ingestPosts python config)

theorem Provider.ingestPosts_deferred {p : Provider} {python : Python} {config : Config}
    {input : IngestInput} {call : Call IngestResult} (h : p.ingest python config input = .ok call)
    (hdefer : shouldDefer config input = true) :
    ∃ body, p.ingestPosts python config input = [body, backgroundBody body] ∧
      body.lookup "infer" = some (.bool false) ∧
      (backgroundBody body).lookup "infer" = some (.bool true) ∧
      ∀ key ≠ "infer", (backgroundBody body).lookup key = body.lookup key := by
  obtain ⟨inner, hinner, hrequest, -, -⟩ := runOperation_ok h
  unfold doIngest at hinner
  split at hinner
  · cases hinner
  obtain ⟨_, -, hinner⟩ := Except.bind_ok hinner
  cases hinner
  refine ⟨call.request.json.getD [], ?_, ?_, ?_, fun key hkey => ?_⟩
  · unfold ingestPosts
    rw [h]
    simp only [hdefer, if_true]
  · have hset : (config.deferInference && resolveInferFlag input config) = true := hdefer
    rw [hrequest]
    simp only [hset, if_true, Option.getD_some, Items.lookup_set]
  · rw [backgroundBody, Items.lookup_set, if_pos rfl]
  · rw [backgroundBody, Items.lookup_set, if_neg hkey]

end AtomicMemory.Mem0Provider

namespace AtomicMemory.AsyncMem0Provider

open Mem0Provider

/-- What the caller of the ingests and of `close()` awaits. -/
inductive Caller
  | running (todo : List IngestInput)
  /-- The response to an ingest's request. -/
  | posting (body : Items) (deferred : Bool) (todo : List IngestInput)
  /-- `aclose()`. -/
  | closing
  | closed

/-- The client in `_client`. -/
inductive ClientState
  | opened
  | closing

/-- `tasks` are the background tasks that have not run yet, by the bodies they were given;
`posted` are the bodies of the requests made so far. -/
structure State where
  caller : Caller
  client : Option ClientState
  tasks : List Items
  posted : List Items

inductive Label
  /-- The next ingest runs up to its request, or raises before it. -/
  | ingest
  /-- The ingest's response arrives. -/
  | respond
  /-- A waiting background task runs. -/
  | background (i : ℕ)
  /-- `close()` runs up to `aclose()`. -/
  | close
  /-- `aclose()` returns. -/
  | closed

/-- The HTTP client: whether it still sends requests while its `aclose()` is awaited. -/
structure HttpClient where
  sendsWhileClosing : Bool

def HttpClient.sends (http : HttpClient) : Option ClientState → Bool
  | none => false
  | some .opened => true
  | some .closing => http.sendsWhileClosing

section

variable (http : HttpClient) (python : Python) (config : Config) (p : Provider)

/-- `do_ingest`, up to its request. -/
def ingestStep (s : State) (input : IngestInput) (todo : List IngestInput) : State :=
  match { p with initialized := s.client.isSome }.ingest python config input with
  | .error _ => { s with caller := .running todo }
  | .ok call =>
    let body := call.request.json.getD []
    { s with
      caller := .posting body (shouldDefer config input) todo
      posted := s.posted ++ [body] }

/-- `_fire_background_inference`, which swallows what `_require_client` and the client
raise. -/
def backgroundStep (s : State) (body : Items) : State :=
  if http.sends s.client then { s with posted := s.posted ++ [backgroundBody body] } else s

def step (s : State) : Label → Option State
  | .ingest =>
    match s.caller with
    | .running (input :: todo) => some (ingestStep python config p s input todo)
    | _ => none
  | .respond =>
    match s.caller with
    | .posting body deferred todo =>
      some { s with
        caller := .running todo
        tasks := if deferred then s.tasks ++ [body] else s.tasks }
    | _ => none
  | .background i =>
    match s.tasks[i]? with
    | some body => some (backgroundStep http { s with tasks := s.tasks.eraseIdx i } body)
    | none => none
  | .close =>
    match s.caller with
    | .running [] =>
      match s.client with
      | some _ => some { s with caller := .closing, client := some .closing }
      | none => some { s with caller := .closed }
    | _ => none
  | .closed =>
    match s.caller with
    | .closing => some { s with caller := .closed, client := none }
    | _ => none

/-- A provider on which `inputs` are ingested one after another, and which is then
closed. -/
def machine (inputs : List IngestInput) : Machine State Label where
  init := ⟨.running inputs, if p.initialized then some .opened else none, [], []⟩
  step := step http python config p

end

def State.Done (s : State) : Prop := s.caller = .closed ∧ s.tasks = []

def TakesClient (http : HttpClient) (s : State) : Label → Prop
  | .background _ => http.sends s.client = true
  | _ => True

instance (http : HttpClient) (s : State) : (l : Label) → Decidable (TakesClient http s l)
  | .background _ => inferInstanceAs (Decidable (_ = true))
  | .ingest | .respond | .close | .closed => isTrue trivial

/-- What the background tasks that are waiting, or are about to, have to post. -/
def State.waiting (s : State) : List Items :=
  s.tasks.map backgroundBody ++
    match s.caller with
    | .posting body true _ => [backgroundBody body]
    | _ => []

section

variable (http : HttpClient) (python : Python) (config : Config) (p : Provider)

/-- What the ingests that have not begun have to post. -/
def State.toCome (s : State) : List Items :=
  match s.caller with
  | .running todo | .posting _ _ todo => p.syncPosts python config todo
  | .closing | .closed => []

/-- What the step has to post, and does not. -/
def lostBy (s : State) : Label → List Items
  | .background i =>
    if http.sends s.client then [] else (s.tasks[i]?.map backgroundBody).toList
  | _ => []

def lost (h : List (State × Label)) : List Items := h.flatMap fun q => lostBy http q.1 q.2

/-- Until `close()` the client is the one that the provider began with. -/
def ClientKept (s : State) : Prop :=
  match s.caller with
  | .running _ | .posting _ _ _ => s.client = if p.initialized then some .opened else none
  | .closing | .closed => True

end

section

variable {http : HttpClient} {python : Python} {config : Config} {p : Provider}
  {inputs : List IngestInput}

theorem clientKept_step {s s' : State} {l : Label} (hs : ClientKept p s)
    (h : step http python config p s l = some s') : ClientKept p s' := by
  cases l with
  | ingest =>
    simp only [step] at h
    split at h
    · rename_i input todo hcaller
      simp only [ClientKept, hcaller] at hs
      cases h
      unfold ingestStep
      split <;> exact hs
    · cases h
  | respond =>
    simp only [step] at h
    split at h
    · rename_i body deferred todo hcaller
      simp only [ClientKept, hcaller] at hs
      cases h
      exact hs
    · cases h
  | background i =>
    simp only [step] at h
    split at h
    · cases h
      unfold backgroundStep
      split <;> exact hs
    · cases h
  | close =>
    simp only [step] at h
    split at h
    · split at h <;> cases h <;> trivial
    · cases h
  | closed =>
    simp only [step] at h
    split at h
    · cases h
      trivial
    · cases h

theorem clientKept {s : State} (h : (machine http python config p inputs).Reachable s) :
    ClientKept p s := by
  have hinit : ClientKept p (machine http python config p inputs).init := rfl
  exact h.invariant hinit fun _ _ _ hs hstep => clientKept_step hs hstep

theorem provider_of_kept {s : State} {input : IngestInput} {todo : List IngestInput}
    (hcaller : s.caller = .running (input :: todo)) (hs : ClientKept p s) :
    { p with initialized := s.client.isSome } = p := by
  simp only [ClientKept, hcaller] at hs
  cases p with
  | mk pathPrefix initialized => cases initialized <;> rw [hs] <;> rfl

theorem posts_ingest {s : State} {input : IngestInput} {todo : List IngestInput}
    (hcaller : s.caller = .running (input :: todo)) (hkept : ClientKept p s) :
    ((ingestStep python config p s input todo).posted +
        (ingestStep python config p s input todo).waiting +
        (ingestStep python config p s input todo).toCome python config p : Multiset Items) =
      s.posted + s.waiting + s.toCome python config p := by
  have hcome : s.toCome python config p =
      p.ingestPosts python config input ++ p.syncPosts python config todo := by
    simp only [State.toCome, hcaller, Provider.syncPosts, List.flatMap_cons]
  have hwaiting : s.waiting = s.tasks.map backgroundBody := by
    simp only [State.waiting, hcaller, List.append_nil]
  rw [hcome, hwaiting]
  unfold ingestStep Provider.ingestPosts
  rw [provider_of_kept hcaller hkept]
  cases p.ingest python config input with
  | error e => simp only [State.waiting, State.toCome, List.append_nil, List.nil_append]
  | ok call =>
    cases shouldDefer config input with
    | false =>
      simp only [State.waiting, State.toCome, ← Multiset.coe_add, ← Multiset.cons_coe,
        ← Multiset.singleton_add, Bool.false_eq_true, if_false]
      simp only [Multiset.coe_nil]
      abel
    | true =>
      simp only [State.waiting, State.toCome, ← Multiset.coe_add, if_true,
        ← Multiset.cons_coe, ← Multiset.singleton_add, Multiset.coe_nil]
      abel

theorem posts_respond {s : State} {body : Items} {deferred : Bool} {todo : List IngestInput}
    (hcaller : s.caller = .posting body deferred todo) :
    State.waiting { s with
        caller := .running todo
        tasks := if deferred then s.tasks ++ [body] else s.tasks } = s.waiting := by
  cases deferred with
  | false => simp only [State.waiting, hcaller, Bool.false_eq_true, if_false]
  | true =>
    simp only [State.waiting, hcaller, if_true, List.map_append, List.map_cons, List.map_nil,
      List.append_nil]

theorem posts_background {s : State} {i : ℕ} {body : Items} (hi : s.tasks[i]? = some body) :
    ((backgroundStep http { s with tasks := s.tasks.eraseIdx i } body).posted +
        lostBy http s (.background i) +
        (backgroundStep http { s with tasks := s.tasks.eraseIdx i } body).waiting :
        Multiset Items) = s.posted + s.waiting := by
  have hperm : (s.tasks : Multiset Items) = {body} + (s.tasks.eraseIdx i : Multiset Items) := by
    obtain ⟨hlt, rfl⟩ := List.getElem?_eq_some_iff.mp hi
    rw [Multiset.singleton_add, Multiset.cons_coe, Multiset.coe_eq_coe]
    exact (List.getElem_cons_eraseIdx_perm hlt).symm
  have hmap : (s.tasks.map backgroundBody : Multiset Items) =
      {backgroundBody body} + ((s.tasks.eraseIdx i).map backgroundBody : Multiset Items) := by
    rw [← Multiset.map_coe, hperm, Multiset.map_add, Multiset.map_singleton, Multiset.map_coe]
  unfold backgroundStep lostBy
  simp only [hi]
  split
  · simp only [State.waiting, ← Multiset.coe_add, hmap, Multiset.coe_nil, Multiset.coe_singleton]
    abel
  · simp only [State.waiting, ← Multiset.coe_add, hmap, Option.map_some, Option.toList_some,
      Multiset.coe_singleton]
    abel

theorem posts_step {s s' : State} {l : Label} (hkept : ClientKept p s)
    (h : step http python config p s l = some s') :
    (s'.posted + lostBy http s l + s'.waiting + s'.toCome python config p : Multiset Items) =
      s.posted + s.waiting + s.toCome python config p := by
  cases l with
  | ingest =>
    simp only [step] at h
    split at h
    · rename_i input todo hcaller
      cases h
      simpa only [lostBy, Multiset.coe_nil, add_zero] using posts_ingest hcaller hkept
    · cases h
  | respond =>
    simp only [step] at h
    split at h
    · rename_i body deferred todo hcaller
      cases h
      rw [posts_respond hcaller]
      simp only [lostBy, State.toCome, hcaller, Multiset.coe_nil, add_zero]
    · cases h
  | background i =>
    simp only [step] at h
    split at h
    · rename_i body hi
      cases h
      rw [posts_background hi]
      unfold backgroundStep
      split <;> rfl
    · cases h
  | close =>
    simp only [step] at h
    split at h
    · rename_i hcaller
      split at h <;> cases h <;>
        simp only [lostBy, State.waiting, State.toCome, hcaller, Provider.syncPosts,
          List.flatMap_nil, Multiset.coe_nil, add_zero]
    · cases h
  | closed =>
    simp only [step] at h
    split at h
    · rename_i hcaller
      cases h
      simp only [lostBy, State.waiting, State.toCome, hcaller, Multiset.coe_nil, add_zero]
    · cases h

/-- Nothing is left out and nothing is made up: what is posted, lost, waiting and to come
is what the sync provider posts. -/
theorem posts_balanced {h : List (State × Label)} {s : State}
    (hex : (machine http python config p inputs).Execution h s) :
    (s.posted + lost http h + s.waiting + s.toCome python config p : Multiset Items) =
      p.syncPosts python config inputs := by
  induction hex with
  | start => simp only [machine, lost, State.waiting, State.toCome, List.flatMap_nil,
      List.map_nil, List.append_nil, Multiset.coe_nil, zero_add]
  | @next h s l s' hex hs ih =>
    have hstep := posts_step (clientKept ⟨h, hex⟩) hs
    have hlost : lost http ((s, l) :: h) = lostBy http s l ++ lost http h := rfl
    calc (s'.posted + lost http ((s, l) :: h) + s'.waiting + s'.toCome python config p :
            Multiset Items)
        = (s'.posted + lostBy http s l + s'.waiting + s'.toCome python config p) + lost http h := by
          rw [hlost, ← Multiset.coe_add]
          abel
      _ = s.posted + s.waiting + s.toCome python config p + lost http h := by rw [hstep]
      _ = s.posted + lost http h + s.waiting + s.toCome python config p := by abel
      _ = p.syncPosts python config inputs := ih

theorem lostBy_eq_nil_iff {s s' : State} {l : Label}
    (h : step http python config p s l = some s') : lostBy http s l = [] ↔ TakesClient http s l := by
  cases l with
  | background i =>
    simp only [step] at h
    split at h
    · rename_i body hi
      simp only [lostBy, TakesClient, hi]
      cases http.sends s.client <;> simp
    · cases h
  | ingest => simp only [lostBy, TakesClient]
  | respond => simp only [lostBy, TakesClient]
  | close => simp only [lostBy, TakesClient]
  | closed => simp only [lostBy, TakesClient]

theorem lost_eq_nil_iff {h : List (State × Label)} {s : State}
    (hex : (machine http python config p inputs).Execution h s) :
    lost http h = [] ↔ ∀ q ∈ h, TakesClient http q.1 q.2 := by
  induction hex with
  | start => simp [lost]
  | @next h s l s' hex hs ih =>
    have hlost : lost http ((s, l) :: h) = lostBy http s l ++ lost http h := rfl
    rw [hlost, List.append_eq_nil_iff, lostBy_eq_nil_iff hs, ih]
    simp only [List.mem_cons, forall_eq_or_imp]

/-- When all has run, the async provider has posted what the sync provider posts exactly
when every background task had a client to send its request. -/
theorem posts_eq_sync_iff {h : List (State × Label)} {s : State}
    (hex : (machine http python config p inputs).Execution h s) (hdone : s.Done) :
    (s.posted : Multiset Items) = p.syncPosts python config inputs ↔
      ∀ q ∈ h, TakesClient http q.1 q.2 := by
  obtain ⟨hcaller, htasks⟩ := hdone
  have hbalanced := posts_balanced hex
  have hwaiting : s.waiting = [] := by
    simp only [State.waiting, hcaller, htasks, List.map_nil, List.append_nil]
  have hcome : s.toCome python config p = [] := by simp only [State.toCome, hcaller]
  rw [hwaiting, hcome, Multiset.coe_nil, add_zero, add_zero] at hbalanced
  rw [← hbalanced, ← lost_eq_nil_iff hex, left_eq_add, Multiset.coe_eq_zero]

end

/-- A provider that defers the inference of one text; the HTTP client does not send while it
closes. -/
def deferring : Machine State Label :=
  machine ⟨false⟩ .reference ⟨true, true, none, none⟩ ⟨[], true⟩
    [⟨⟨some "u1", none, none, none⟩, none, none, none, .text "hi"⟩]

theorem posts_eq_sync_iff_drained :
    ∃ h s, deferring.record [.ingest, .respond, .background 0, .close, .closed] = some (h, s) ∧
      ((s.posted : Multiset Items) =
          Provider.syncPosts ⟨[], true⟩ .reference ⟨true, true, none, none⟩
            [⟨⟨some "u1", none, none, none⟩, none, none, none, .text "hi"⟩] ↔
        ∀ q ∈ h, TakesClient ⟨false⟩ q.1 q.2) := by
  have hrecord : (deferring.record [.ingest, .respond, .background 0, .close, .closed]).map
      (fun q => (q.2.caller, q.2.tasks)) = some (.closed, []) := rfl
  obtain ⟨⟨h, s⟩, hrecord, hdone⟩ := Option.map_eq_some_iff.mp hrecord
  rw [Prod.mk.injEq] at hdone
  exact ⟨h, s, hrecord, posts_eq_sync_iff (Machine.execution_record _ hrecord) hdone⟩

/-- The task that runs after `close()` finds no client, and its body is never posted. -/
theorem not_always_posts_eq_sync :
    ¬ ∀ (h : List (State × Label)) (s : State), deferring.Execution h s → s.Done →
      (s.posted : Multiset Items) =
        Provider.syncPosts ⟨[], true⟩ .reference ⟨true, true, none, none⟩
          [⟨⟨some "u1", none, none, none⟩, none, none, none, .text "hi"⟩] := by
  intro hclaim
  have hrecord : (deferring.record [.ingest, .respond, .close, .closed, .background 0]).map
      (fun q => (q.2.caller, q.2.tasks, q.2.posted.length)) = some (.closed, [], 1) := rfl
  obtain ⟨⟨h, s⟩, hrecord, heq⟩ := Option.map_eq_some_iff.mp hrecord
  rw [Prod.mk.injEq, Prod.mk.injEq] at heq
  obtain ⟨hcaller, htasks, hlength⟩ := heq
  have hposts := hclaim h s (Machine.execution_record _ hrecord) ⟨hcaller, htasks⟩
  have hcard := (Multiset.coe_eq_coe.mp hposts).length_eq
  rw [hlength] at hcard
  exact absurd hcard (by decide)

end AtomicMemory.AsyncMem0Provider
