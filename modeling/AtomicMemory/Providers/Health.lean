import AtomicMemory.Contract.Containment
import AtomicMemory.Core.ErrorHierarchy
import AtomicMemory.Providers.HindsightProvider
import AtomicMemory.Providers.Mem0Provider

-- `health()` of the Mem0 and Hindsight providers makes one request, and an `except` clause of two
-- classes stands around it.

open PyValue hiding none

namespace AtomicMemory

structure HealthStatus where
  ok : Bool
  latencyMs : Option ℚ
  version : Option String

/-- What `except (ProviderError, ValueError)` catches. -/
def PyError.isProbeFailure (e : PyError) : Bool :=
  e.exceptionClass.isSubclass .providerError || e.isValueError

/-- What the four `health` methods share: a request, and what is read of the decoded body. -/
def probeHealth (initialized : Bool) (request : HttpRequest)
    (read : PyValue → Except PyError (Bool × Option String)) (latencyMs : ℚ)
    (transport : HttpRequest → HttpOutcome) : Except PyError HealthStatus :=
  let attempt := do
    requireClient initialized
    let raw ← fetchJson (transport request)
    read raw
  match attempt with
  | .ok (ok, version) => .ok ⟨ok, some latencyMs, version⟩
  | .error e => if e.isProbeFailure then .ok ⟨false, some latencyMs, none⟩ else .error e

namespace Mem0Provider.Provider

variable (p : Provider)

/-- The request of `health`. -/
def healthRequest : HttpRequest :=
  ⟨"GET", p.path "/memories/?user_id=health-check&page_size=1".toList, none⟩

/-- `Mem0Provider.health`: the body is only decoded. -/
def health (latencyMs : ℚ) (transport : HttpRequest → HttpOutcome) :
    Except PyError HealthStatus :=
  probeHealth p.initialized p.healthRequest (fun _ => .ok (true, none)) latencyMs transport

/-- `AsyncMem0Provider.health`. -/
def asyncHealth (latencyMs : ℚ) (transport : HttpRequest → HttpOutcome) :
    Except PyError HealthStatus :=
  probeHealth p.initialized p.healthRequest (fun _ => .ok (true, none)) latencyMs transport

end Mem0Provider.Provider

namespace HindsightProvider

/-- `status in {None, "ok", "healthy"}`. -/
def statusIsHealthy (status : PyValue) : Except PyError Bool :=
  if Contract.hashable status then
    match status with
    | .none | .str "ok" | .str "healthy" => .ok true
    | _ => .ok false
  else .error .typeError

/-- `_is_healthy`. -/
def isHealthy : PyValue → Except PyError Bool
  | .dict raw =>
    match Items.get raw "ok" with
    | .bool ok => .ok ok
    | _ => statusIsHealthy (Items.get raw "status")
  | _ => .error (.valueError "Hindsight health response must be an object")

/-- What `health` makes of a decoded body. -/
def readHealth (raw : PyValue) : Except PyError (Bool × Option String) := do
  let ok ← isHealthy raw
  .ok (ok, (dict? raw).bind fun items => str? (Items.get items "version"))

def healthRequest : HttpRequest := ⟨"GET", "/health".toList, none⟩

/-- `HindsightProvider.health`. -/
def Provider.health (p : Provider) (latencyMs : ℚ) (transport : HttpRequest → HttpOutcome) :
    Except PyError HealthStatus :=
  probeHealth p.initialized healthRequest readHealth latencyMs transport

/-- `AsyncHindsightProvider.health`. -/
def Provider.asyncHealth (p : Provider) (latencyMs : ℚ) (transport : HttpRequest → HttpOutcome) :
    Except PyError HealthStatus :=
  probeHealth p.initialized healthRequest readHealth latencyMs transport

end HindsightProvider

def HttpOutcome.NoResponse (outcome : HttpOutcome) : Prop :=
  outcome = .timeout ∨ outcome = .requestError

def HttpOutcome.Succeeds (outcome : HttpOutcome) (body : PyValue) : Prop :=
  ∃ status, outcome = .response status (some body) ∧ 200 ≤ status ∧ status ≤ 299

/-- A JSON body is decoded, an absent response is a `NetworkError`, and all other failures are
of classes that the probes catch. -/
theorem fetchJson_cases (outcome : HttpOutcome) :
    (∃ body, outcome.Succeeds body ∧ fetchJson outcome = .ok body) ∨
      outcome.NoResponse ∧ fetchJson outcome = .error .networkError ∨
      (¬ outcome.NoResponse ∧ ∀ body, ¬ outcome.Succeeds body) ∧
        ∃ e, fetchJson outcome = .error e ∧ e.isProbeFailure = true := by
  cases outcome with
  | timeout => exact .inr (.inl ⟨.inl rfl, rfl⟩)
  | requestError => exact .inr (.inl ⟨.inr rfl, rfl⟩)
  | response status body =>
    have hresponse : ¬ (HttpOutcome.response status body).NoResponse := by
      rintro (h | h) <;> cases h
    by_cases hlimit : status = 429
    · refine .inr (.inr ⟨⟨hresponse, ?_⟩, .rateLimitError, ?_, rfl⟩)
      · rintro v ⟨_, h, -, hle⟩
        cases h
        omega
      · show (raiseForStatus status >>= fun _ => jsonBody body) = _
        rw [raiseForStatus, if_pos hlimit]
        rfl
    by_cases hstatus : 200 ≤ status ∧ status ≤ 299
    · have hfetch : fetchJson (.response status body) = jsonBody body := by
        show (raiseForStatus status >>= fun _ => jsonBody body) = _
        rw [raiseForStatus, if_neg hlimit, if_pos hstatus]
        rfl
      rw [hfetch]
      cases body with
      | some v => exact .inl ⟨v, ⟨status, rfl, hstatus⟩, rfl⟩
      | none =>
        refine .inr (.inr ⟨⟨hresponse, ?_⟩, _, rfl, rfl⟩)
        rintro v ⟨_, h, -⟩
        cases h
    · refine .inr (.inr ⟨⟨hresponse, ?_⟩, .providerError status, ?_, rfl⟩)
      · rintro v ⟨_, h, hrange⟩
        cases h
        exact hstatus hrange
      · show (raiseForStatus status >>= fun _ => jsonBody body) = _
        rw [raiseForStatus, if_neg hlimit, if_neg hstatus]
        rfl

theorem HttpOutcome.Succeeds.unique {outcome : HttpOutcome} {body body' : PyValue}
    (h : outcome.Succeeds body) (h' : outcome.Succeeds body') : body = body' := by
  obtain ⟨_, rfl, -⟩ := h
  obtain ⟨_, h', -⟩ := h'
  cases h'
  rfl

theorem HttpOutcome.Succeeds.not_noResponse {outcome : HttpOutcome} {body : PyValue}
    (h : outcome.Succeeds body) : ¬ outcome.NoResponse := by
  obtain ⟨_, rfl, -⟩ := h
  rintro (h | h) <;> cases h

/-- A probe that succeeds only with a body it can read. -/
def Honest (result : Except PyError HealthStatus) (received : Prop) : Prop :=
  ∃ status, result = .ok status ∧ (¬ received → status.ok = false)

section

variable (initialized : Bool) (request : HttpRequest)
  (read : PyValue → Except PyError (Bool × Option String)) (latencyMs : ℚ)
  (transport : HttpRequest → HttpOutcome)

/-- What stands inside the `try`. -/
def attemptHealth : Except PyError (Bool × Option String) := do
  requireClient initialized
  let raw ← fetchJson (transport request)
  read raw

variable {initialized request read latencyMs transport}

theorem attemptHealth_body {body : PyValue} (hfetch : fetchJson (transport request) = .ok body) :
    attemptHealth true request read transport = read body := by
  unfold attemptHealth
  rw [hfetch]
  rfl

theorem attemptHealth_error {e : PyError} (hfetch : fetchJson (transport request) = .error e) :
    attemptHealth true request read transport = .error e := by
  unfold attemptHealth
  rw [hfetch]
  rfl

theorem probeHealth_returned {ok : Bool} {version : Option String}
    (h : attemptHealth initialized request read transport = .ok (ok, version)) :
    probeHealth initialized request read latencyMs transport =
      .ok ⟨ok, some latencyMs, version⟩ := by
  unfold attemptHealth at h
  unfold probeHealth
  rw [h]

theorem probeHealth_raised {e : PyError}
    (h : attemptHealth initialized request read transport = .error e) (received : Prop) :
    Honest (probeHealth initialized request read latencyMs transport) received ↔
      e.isProbeFailure = true := by
  unfold attemptHealth at h
  unfold Honest probeHealth
  rw [h]
  dsimp only
  by_cases hcaught : e.isProbeFailure = true
  · rw [if_pos hcaught]
    exact ⟨fun _ => hcaught, fun _ => ⟨_, rfl, fun _ => rfl⟩⟩
  · rw [if_neg hcaught]
    exact ⟨fun ⟨_, h, _⟩ => (nomatch h), fun h => absurd h hcaught⟩

variable {WellFormed Escapes : PyValue → Prop}

theorem probeHealth_answered {received : Prop} {body : PyValue}
    (hfetch : fetchJson (transport request) = .ok body) (hreceived : WellFormed body → received)
    (hread : WellFormed body → ∃ result, read body = .ok result)
    (hraise : ¬ WellFormed body →
      ∃ e, read body = .error e ∧ (e.isProbeFailure = true ↔ ¬ Escapes body))
    (hescapes : Escapes body → ¬ WellFormed body) :
    Honest (probeHealth true request read latencyMs transport) received ↔ ¬ Escapes body := by
  have hattempt : attemptHealth true request read transport = read body :=
    attemptHealth_body hfetch
  by_cases hwell : WellFormed body
  · obtain ⟨⟨ok, version⟩, hresult⟩ := hread hwell
    exact iff_of_true
      ⟨_, probeHealth_returned (hattempt.trans hresult), fun h => absurd (hreceived hwell) h⟩
      fun h => hescapes h hwell
  · obtain ⟨e, herror, hcaught⟩ := hraise hwell
    rw [probeHealth_raised (hattempt.trans herror), hcaught]

/-- A probe fails its caller when no response comes, and on the bodies that raise what the
`except` clause does not name. -/
theorem probeHealth_honest_iff
    (hread : ∀ body, WellFormed body → ∃ result, read body = .ok result)
    (hraise : ∀ body, ¬ WellFormed body →
      ∃ e, read body = .error e ∧ (e.isProbeFailure = true ↔ ¬ Escapes body))
    (hescapes : ∀ body, Escapes body → ¬ WellFormed body) :
    Honest (probeHealth initialized request read latencyMs transport)
        (initialized = true ∧ ∃ body, (transport request).Succeeds body ∧ WellFormed body) ↔
      ¬ (initialized = true ∧ ((transport request).NoResponse ∨
        ∃ body, (transport request).Succeeds body ∧ Escapes body)) := by
  cases initialized with
  | false =>
    rw [probeHealth_raised (e := .missingClient) rfl]
    exact ⟨fun _ h => (nomatch h.1), fun _ => rfl⟩
  | true =>
    rcases fetchJson_cases (transport request) with ⟨body, hbody, hfetch⟩ | ⟨hnone, hfetch⟩ |
      ⟨⟨hnone, hbody⟩, e, hfetch, hcaught⟩
    · rw [probeHealth_answered hfetch (fun hwell => ⟨rfl, body, hbody, hwell⟩) (hread body)
        (hraise body) (hescapes body), not_iff_not]
      constructor
      · exact fun h => ⟨rfl, .inr ⟨body, hbody, h⟩⟩
      · rintro ⟨-, h | ⟨body', hbody', h⟩⟩
        · exact absurd h hbody.not_noResponse
        · exact hbody.unique hbody' ▸ h
    · rw [probeHealth_raised (attemptHealth_error hfetch)]
      exact iff_of_false (by decide) fun h => h ⟨rfl, .inl hnone⟩
    · rw [probeHealth_raised (attemptHealth_error hfetch)]
      refine iff_of_true hcaught ?_
      rintro ⟨-, h | ⟨body, h, -⟩⟩
      · exact hnone h
      · exact hbody body h

end

namespace HindsightProvider

/-- An object that says `ok` or has a status that is not a container. -/
def WellFormed (body : PyValue) : Prop :=
  ∃ raw, body = .dict raw ∧
    ((∃ ok, Items.get raw "ok" = .bool ok) ∨ Contract.hashable (Items.get raw "status") = true)

/-- An object that does not say `ok` and whose status is a list or an object. -/
def Unhashable (body : PyValue) : Prop :=
  ∃ raw, body = .dict raw ∧ (∀ ok, Items.get raw "ok" ≠ .bool ok) ∧
    Contract.hashable (Items.get raw "status") = false

theorem unhashable_not_wellFormed {body : PyValue} (h : Unhashable body) : ¬ WellFormed body := by
  rintro ⟨raw, rfl, hok | hstatus⟩
  · obtain ⟨_, h, hnot, -⟩ := h
    cases h
    obtain ⟨ok, hok⟩ := hok
    exact hnot ok hok
  · obtain ⟨_, h, -, hunhashable⟩ := h
    cases h
    rw [hstatus] at hunhashable
    cases hunhashable

theorem isHealthy_said {raw : Items} {ok : Bool} (h : Items.get raw "ok" = .bool ok) :
    isHealthy (.dict raw) = .ok ok := by
  simp only [isHealthy, h]

theorem isHealthy_status {raw : Items} (h : ∀ ok, Items.get raw "ok" ≠ .bool ok) :
    isHealthy (.dict raw) = statusIsHealthy (Items.get raw "status") := by
  unfold isHealthy
  dsimp only
  split
  · rename_i ok hok
    exact absurd hok (h ok)
  · rfl

theorem statusIsHealthy_hashable {status : PyValue} (h : Contract.hashable status = true) :
    ∃ ok, statusIsHealthy status = .ok ok := by
  unfold statusIsHealthy
  rw [if_pos h]
  split <;> exact ⟨_, rfl⟩

theorem statusIsHealthy_unhashable {status : PyValue} (h : Contract.hashable status = false) :
    statusIsHealthy status = .error .typeError := by
  unfold statusIsHealthy
  rw [if_neg (Bool.eq_false_iff.mp h)]

theorem readHealth_wellFormed {body : PyValue} (h : WellFormed body) :
    ∃ result, readHealth body = .ok result := by
  have hhealthy : ∃ ok, isHealthy body = .ok ok := by
    obtain ⟨raw, rfl, ⟨ok, hok⟩ | hstatus⟩ := h
    · exact ⟨ok, isHealthy_said hok⟩
    · by_cases hok : ∃ ok, Items.get raw "ok" = .bool ok
      · obtain ⟨ok, hok⟩ := hok
        exact ⟨ok, isHealthy_said hok⟩
      · rw [isHealthy_status (not_exists.mp hok)]
        exact statusIsHealthy_hashable hstatus
  obtain ⟨ok, hok⟩ := hhealthy
  unfold readHealth
  rw [hok]
  exact ⟨_, rfl⟩

theorem readHealth_raises {body : PyValue} (h : ¬ WellFormed body) :
    ∃ e, readHealth body = .error e ∧ (e.isProbeFailure = true ↔ ¬ Unhashable body) := by
  have hread {e : PyError} (h : isHealthy body = .error e) : readHealth body = .error e := by
    unfold readHealth
    rw [h]
    rfl
  by_cases hdict : ∃ raw, body = .dict raw
  · obtain ⟨raw, rfl⟩ := hdict
    have hok (ok : Bool) : Items.get raw "ok" ≠ .bool ok := fun hok => h ⟨raw, rfl, .inl ⟨ok, hok⟩⟩
    have hstatus : Contract.hashable (Items.get raw "status") = false :=
      Bool.eq_false_iff.mpr fun hstatus => h ⟨raw, rfl, .inr hstatus⟩
    refine ⟨.typeError, hread ?_,
      iff_of_false (by decide) fun hnot => hnot ⟨raw, rfl, hok, hstatus⟩⟩
    rw [isHealthy_status hok, statusIsHealthy_unhashable hstatus]
  · refine ⟨.valueError "Hindsight health response must be an object", hread ?_,
      iff_of_true rfl fun ⟨raw, hraw, _⟩ => hdict ⟨raw, hraw⟩⟩
    cases body with
    | dict raw => exact absurd ⟨raw, rfl⟩ hdict
    | _ => rfl

end HindsightProvider

/-- A provider whose `health` is called. -/
inductive Prober
  | mem0 (p : Mem0Provider.Provider)
  | asyncMem0 (p : Mem0Provider.Provider)
  | hindsight (p : HindsightProvider.Provider)
  | asyncHindsight (p : HindsightProvider.Provider)

namespace Prober

def health (latencyMs : ℚ) (transport : HttpRequest → HttpOutcome) :
    Prober → Except PyError HealthStatus
  | mem0 p => p.health latencyMs transport
  | asyncMem0 p => p.asyncHealth latencyMs transport
  | hindsight p => p.health latencyMs transport
  | asyncHindsight p => p.asyncHealth latencyMs transport

def initialized : Prober → Bool
  | mem0 p | asyncMem0 p => p.initialized
  | hindsight p | asyncHindsight p => p.initialized

def request : Prober → HttpRequest
  | mem0 p | asyncMem0 p => p.healthRequest
  | hindsight _ | asyncHindsight _ => HindsightProvider.healthRequest

def WellFormed (body : PyValue) : Prober → Prop
  | mem0 _ | asyncMem0 _ => True
  | hindsight _ | asyncHindsight _ => HindsightProvider.WellFormed body

/-- The bodies whose reading raises what no `except` clause of the probe names. -/
def Escapes (body : PyValue) : Prober → Prop
  | mem0 _ | asyncMem0 _ => False
  | hindsight _ | asyncHindsight _ => HindsightProvider.Unhashable body

def Received (prober : Prober) (transport : HttpRequest → HttpOutcome) : Prop :=
  prober.initialized = true ∧
    ∃ body, (transport prober.request).Succeeds body ∧ prober.WellFormed body

end Prober

/-- A probe returns a status, and a good one only for an answer, exactly when its request is
not sent or is answered with no status that Python cannot hash. -/
theorem health_honest_iff (prober : Prober) (latencyMs : ℚ)
    (transport : HttpRequest → HttpOutcome) :
    (∃ status, prober.health latencyMs transport = .ok status ∧
        (¬ prober.Received transport → status.ok = false)) ↔
      ¬ (prober.initialized = true ∧ ((transport prober.request).NoResponse ∨
        ∃ body, (transport prober.request).Succeeds body ∧ prober.Escapes body)) := by
  have hmem0 (p : Mem0Provider.Provider) :=
    @probeHealth_honest_iff p.initialized p.healthRequest (fun _ => .ok (true, none)) latencyMs
      transport (fun _ => True) (fun _ => False) (fun _ _ => ⟨_, rfl⟩)
      (fun _ h => absurd trivial h) (fun _ h => h.elim)
  have hhindsight (p : HindsightProvider.Provider) :=
    @probeHealth_honest_iff p.initialized HindsightProvider.healthRequest
      HindsightProvider.readHealth latencyMs transport _ _
      (fun _ => HindsightProvider.readHealth_wellFormed)
      (fun _ => HindsightProvider.readHealth_raises)
      (fun _ => HindsightProvider.unhashable_not_wellFormed)
  cases prober with
  | mem0 p => exact hmem0 p
  | asyncMem0 p => exact hmem0 p
  | hindsight p => exact hhindsight p
  | asyncHindsight p => exact hhindsight p

/-- A timeout is raised, and so is what Python makes of a status that is a list. -/
theorem health_raises :
    (Prober.mem0 ⟨[], true⟩).health 0 (fun _ => .timeout) = .error .networkError ∧
    (Prober.asyncMem0 ⟨[], true⟩).health 0 (fun _ => .requestError) = .error .networkError ∧
    (Prober.hindsight ⟨[], [], true⟩).health 0 (fun _ => .timeout) = .error .networkError ∧
    (Prober.asyncHindsight ⟨[], [], true⟩).health 0
      (fun _ => .response 200 (some (.dict [("status", .list [])]))) = .error .typeError :=
  ⟨rfl, rfl, rfl, rfl⟩

end AtomicMemory
