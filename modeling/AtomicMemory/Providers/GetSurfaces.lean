import AtomicMemory.Providers.RecordFields

-- `AtomicMemoryProvider.get` and `AtomicMemoryHandle.get` read the same route, which does not filter
-- by thread. The one keeps the caller's thread while it maps the record, the other takes it out.

open PyValue hiding none

namespace AtomicMemory

namespace AtomicMemoryProvider

variable {python : Python}

/-- What `get` returns for a response, or the exception behind the error that it raises, whose
text that error has. -/
def Provider.getOutcome (p : Provider) (python : Python) (ref : MemoryRef)
    (outcome : HttpOutcome) : Except PyError (Option (Memory PyValue)) := do
  let _ ← p.getMemory python ref
  let call ← p.doGet python ref
  call.receive outcome

/-- What `get` makes of the decoded body of a response. -/
def readFound (python : Python) (scope : Scope String) (raw : PyValue) :
    Except PyError (Option (Memory PyValue)) :=
  if raw.isNone then .ok none else (toMemory python scope 0 raw).map some

theorem readFound_other {v : PyValue} (hv : ∀ raw, v ≠ .dict raw) (scope : Scope String) :
    readFound python scope v = if v.isNone then .ok none else .error .attributeError := by
  have hmemory : toMemory python scope 0 v = .error .attributeError := by
    cases v with
    | dict raw => exact absurd rfl (hv raw)
    | _ => rfl
  unfold readFound
  rw [hmemory]
  rfl

theorem getOutcome_user {p : Provider} (hinit : p.initialized = true) {user : String}
    (huser : user ≠ "") (id : String) (thread : Option String) (outcome : HttpOutcome) :
    p.getOutcome python ⟨id, threadScope user thread⟩ outcome =
      fetchJsonOrNone outcome >>= readFound python (threadScope user thread) := by
  have hscope : missingScopeFields (threadScope user thread) requiredScope = [] := by
    refine List.filter_eq_nil_iff.mpr fun name hname => ?_
    rw [List.mem_singleton.mp hname, decide_eq_true_eq]
    exact huser
  have hget (scope : Scope String) : p.doGet python ⟨id, scope⟩ =
      .ok ⟨p.get (Provider.memoryPath ⟨id, scope⟩),
        fun outcome => fetchJsonOrNone outcome >>= readFound python scope⟩ := by
    unfold Provider.doGet
    rw [hinit]
    rfl
  obtain ⟨call, hcall, -⟩ := @runOperation_ready _ requiredScope "get" _ hscope
    ⟨p.get (Provider.memoryPath ⟨id, threadScope user thread⟩),
      fun outcome => fetchJsonOrNone outcome >>= readFound python (threadScope user thread)⟩
  refine Except.bind_intro (a := call) ?_ (Except.bind_intro (hget _) rfl)
  unfold Provider.getMemory
  rw [hget, hinit]
  exact hcall

theorem getOutcome_noUser {p : Provider} (hinit : p.initialized = true) (id : String)
    (thread : Option String) (outcome : HttpOutcome) :
    p.getOutcome python ⟨id, threadScope "" thread⟩ outcome =
      .error (.invalidScopeError ["user"] "get") := by
  have hmissing : missingScopeFields (threadScope "" thread) requiredScope = ["user"] := rfl
  have hgate : p.getMemory python ⟨id, threadScope "" thread⟩ =
      .error (.invalidScopeError ["user"] "get") := by
    unfold Provider.getMemory runOperation
    rw [hinit, if_neg Bool.noConfusion]
    exact if_pos (hmissing ▸ List.cons_ne_nil _ _)
  unfold Provider.getOutcome
  rw [hgate]
  rfl

end AtomicMemoryProvider

open AtomicMemoryProvider (threadScope ReachesThread readFound)

def HttpOutcome.Finds (outcome : HttpOutcome) (raw : Items) : Prop :=
  ∃ status, outcome = .response status (some (.dict raw)) ∧ 200 ≤ status ∧ status ≤ 299

theorem fetchJsonOrNone_dict {outcome : HttpOutcome} {raw : Items} :
    fetchJsonOrNone outcome = .ok (.dict raw) ↔ outcome.Finds raw := by
  constructor
  · intro h
    cases outcome with
    | timeout => cases h
    | requestError => cases h
    | response status body =>
      unfold fetchJsonOrNone at h
      dsimp only at h
      split at h
      · cases h
      · obtain ⟨_, hstatus, h⟩ := Except.bind_ok h
        unfold raiseForStatus at hstatus
        split at hstatus
        · cases hstatus
        split at hstatus
        · rename_i hrange
          cases body with
          | none => cases h
          | some v =>
            rw [Except.ok.inj h]
            exact ⟨status, rfl, hrange⟩
        · cases hstatus
  · rintro ⟨status, rfl, hrange⟩
    unfold fetchJsonOrNone raiseForStatus
    dsimp only
    rw [if_neg (by omega), if_neg (by omega), if_pos hrange]
    rfl

section

variable (p : AtomicMemoryProvider.Provider) (handle : AtomicMemoryHandle.Handle)
  (python : Python) (py : Pydantic) (id user thread : String) (outcome : HttpOutcome)

/-- What `AtomicMemoryProvider.get` makes of the response, for a thread or without one. -/
def providerGet (thread : Option String) : Except PyError (Option (Memory PyValue)) :=
  p.getOutcome python ⟨id, threadScope user thread⟩ outcome

/-- What `AtomicMemoryHandle.get` makes of it. -/
def handleGet : Except PyError (Option AtomicMemoryHandle.AtomicMemoryMemory) :=
  (handle.get python py id (.user user (some thread))).receive outcome

/-- The thread makes no difference to the provider, and the handle returns the same memory. -/
structure GetsAgree : Prop where
  unthreaded : providerGet p python id user outcome (some thread) =
    providerGet p python id user outcome none
  returns : (∃ m, providerGet p python id user outcome (some thread) = .ok (some m)) ↔
    ∃ m, handleGet handle python py id user thread outcome = .ok (some m)
  fields : ∀ m m', providerGet p python id user outcome (some thread) = .ok (some m) →
    handleGet handle python py id user thread outcome = .ok (some m') →
    m.id = m'.id ∧ m.content = m'.content ∧ m.scope.thread = m'.scope.thread

/-- A record that both surfaces read alike: it is of the thread, unless a field fails before
that is asked, and its fields are either good for both or bad for both. -/
structure ReadAlike (raw : Items) : Prop where
  session : user ≠ "" → ReachesThread python raw →
    thread ≠ "" ∧ Items.get raw "session_id" = .str thread
  fields : user ≠ "" ∧ ProviderFields python raw ↔ HandleFields python py raw

end

/-- A memory that both surfaces make of a record has the same id, content and thread. -/
theorem made_alike {python : Python} {py : Pydantic} {user thread : String} {raw : Items}
    {m : Memory PyValue} {m' : AtomicMemoryHandle.AtomicMemoryMemory}
    (h : AtomicMemoryProvider.toMemory python (threadScope user (some thread)) 0 (.dict raw) =
      .ok m)
    (h' : AtomicMemoryHandle.toAtomicMemory python py (.dict raw) (.user user none) = .ok m') :
    m.id = m'.id ∧ m.content = m'.content ∧ m.scope.thread = m'.scope.thread := by
  have hcontent := AtomicMemoryProvider.toMemory_content h
  obtain ⟨items, hitems, hid, hlabels⟩ := AtomicMemoryProvider.toMemory_ok python h
  cases hitems
  obtain ⟨-, hsession, hlabels⟩ := AtomicMemoryProvider.buildScope_ok hlabels
  obtain ⟨hne, hsession⟩ := hsession thread rfl
  have htruthy : (Items.get raw "session_id").truthy = true := by
    rw [hsession]
    exact decide_eq_true hne
  unfold AtomicMemoryHandle.toAtomicMemory at h'
  dsimp only at h'
  rw [AtomicMemoryHandle.buildMemoryScope_unfiltered] at h'
  obtain ⟨id, hid', h'⟩ := Except.bind_ok h'
  obtain ⟨scope, hscope, h'⟩ := Except.bind_ok h'
  obtain ⟨createdAt, -, h'⟩ := Except.bind_ok h'
  obtain ⟨updatedAt, -, h'⟩ := Except.bind_ok h'
  obtain ⟨htext, hscope', hcontent'⟩ :=
    AtomicMemoryHandle.AtomicMemoryMemory.ofItems_eq_some (modelValidate_ok h')
  refine ⟨?_, ?_, ?_⟩
  · have hsame := (item_ok hid').symm.trans hid
    rw [Option.some.inj hsame] at htext
    exact Option.some.inj htext
  · have hget : Items.get raw "content" = .str m.content := by
      unfold Items.get
      rw [hcontent]
      rfl
    rw [hget] at hcontent'
    by_cases hempty : m.content = ""
    · rw [hempty] at hcontent' ⊢
      exact Option.some.inj hcontent'
    · rw [if_pos (show (PyValue.str m.content).truthy = true from decide_eq_true hempty)]
        at hcontent'
      exact Option.some.inj hcontent'
  · rw [hlabels, hscope', ← Except.ok.inj hscope]
    simp only [htruthy, if_true]
    rfl

section

variable {p : AtomicMemoryProvider.Provider} {handle : AtomicMemoryHandle.Handle}
  {python : Python} {py : Pydantic} {id user thread : String} {outcome : HttpOutcome} {raw : Items}

theorem providerGet_found (hinit : p.initialized = true) (huser : user ≠ "")
    (hfinds : outcome.Finds raw) (thread : Option String) :
    providerGet p python id user outcome thread =
      (AtomicMemoryProvider.toMemory python (threadScope user thread) 0 (.dict raw)).map some := by
  unfold providerGet
  rw [AtomicMemoryProvider.getOutcome_user hinit huser, fetchJsonOrNone_dict.mpr hfinds]
  rfl

theorem handleGet_found (hfinds : outcome.Finds raw) :
    handleGet handle python py id user thread outcome =
      (AtomicMemoryHandle.toAtomicMemory python py (.dict raw) (.user user none)).map some := by
  change (fetchJsonOrNone outcome >>= _) = _
  rw [fetchJsonOrNone_dict.mpr hfinds]
  rfl

theorem providerGet_lost (hinit : p.initialized = true) (huser : user ≠ "")
    (hfinds : ∀ raw, ¬ outcome.Finds raw) (thread : Option String) :
    providerGet p python id user outcome thread = providerGet p python id user outcome none ∧
      ∀ m, providerGet p python id user outcome thread ≠ .ok (some m) := by
  unfold providerGet
  rw [AtomicMemoryProvider.getOutcome_user hinit huser,
    AtomicMemoryProvider.getOutcome_user hinit huser]
  cases hfetch : fetchJsonOrNone outcome with
  | error e =>
    refine ⟨rfl, fun m h => ?_⟩
    cases h
  | ok v =>
    have hv (scope : Scope String) : readFound python scope v =
        if v.isNone then .ok none else .error .attributeError :=
      AtomicMemoryProvider.readFound_other (fun raw h =>
        hfinds raw (fetchJsonOrNone_dict.mp (h ▸ hfetch))) scope
    change readFound python _ v = readFound python _ v ∧ ∀ m, readFound python _ v ≠ _
    rw [hv, hv]
    refine ⟨rfl, fun m h => ?_⟩
    split at h
    · cases h
    · cases h

theorem handleGet_lost (hfinds : ∀ raw, ¬ outcome.Finds raw)
    (m : AtomicMemoryHandle.AtomicMemoryMemory) :
    handleGet handle python py id user thread outcome ≠ .ok (some m) := by
  intro h
  obtain ⟨v, hfetch, h⟩ := Except.bind_ok h
  by_cases hnone : v.isNone = true
  · rw [if_pos hnone] at h
    cases h
  · rw [if_neg hnone] at h
    obtain ⟨_, hmemory, -⟩ := Except.of_map_ok h
    obtain ⟨raw, rfl, -⟩ := AtomicMemoryHandle.toAtomicMemory_ok hmemory
    exact hfinds raw (fetchJsonOrNone_dict.mp hfetch)

theorem HttpOutcome.Finds.unique {raw' : Items} (h : outcome.Finds raw)
    (h' : outcome.Finds raw') : raw = raw' := by
  obtain ⟨_, rfl, -⟩ := h
  obtain ⟨_, h', -⟩ := h'
  cases h'
  rfl

theorem exists_map_some {α ε : Type} {x : Except ε α} :
    (∃ a, x.map some = .ok (some a)) ↔ ∃ a, x = .ok a := by
  constructor
  · rintro ⟨a, h⟩
    obtain ⟨b, hb, -⟩ := Except.of_map_ok h
    exact ⟨b, hb⟩
  · rintro ⟨a, rfl⟩
    exact ⟨a, rfl⟩

theorem map_some_injective {α ε : Type} {x y : Except ε α}
    (h : x.map some = y.map some) : x = y := by
  cases x with
  | error e =>
    cases y with
    | error e' => exact congrArg Except.error (Except.error.inj h)
    | ok b => cases h
  | ok a =>
    cases y with
    | error e' => cases h
    | ok b => exact congrArg Except.ok (Option.some.inj (Except.ok.inj h))

theorem handleGet_isSome (hfinds : outcome.Finds raw) :
    (∃ m, handleGet handle python py id user thread outcome = .ok (some m)) ↔
      HandleFields python py raw := by
  rw [handleGet_found hfinds, exists_map_some, AtomicMemoryHandle.toAtomicMemory_isOk]

/-- Without a user the provider asks nothing, so the handle must not return a memory either. -/
theorem gets_agree_noUser (hinit : p.initialized = true) :
    GetsAgree p handle python py id "" thread outcome ↔
      ¬ ∃ m, handleGet handle python py id "" thread outcome = .ok (some m) := by
  have hrefused (thread : Option String) : providerGet p python id "" outcome thread =
      .error (.invalidScopeError ["user"] "get") :=
    AtomicMemoryProvider.getOutcome_noUser hinit id thread outcome
  have hnone (m : Memory PyValue) :
      providerGet p python id "" outcome (some thread) ≠ .ok (some m) := by
    intro h
    rw [hrefused] at h
    cases h
  constructor
  · intro h hm
    obtain ⟨m, hm⟩ := h.returns.mpr hm
    exact hnone m hm
  · intro h
    exact ⟨(hrefused _).trans (hrefused _).symm,
      ⟨fun ⟨m, hm⟩ => absurd hm (hnone m), fun hm => absurd hm h⟩,
      fun m _ hm => absurd hm (hnone m)⟩

theorem gets_agree_found (hinit : p.initialized = true) (huser : user ≠ "")
    (hfinds : outcome.Finds raw) :
    GetsAgree p handle python py id user thread outcome ↔
      (ReachesThread python raw → thread ≠ "" ∧ Items.get raw "session_id" = .str thread) ∧
      (ProviderFields python raw ↔ HandleFields python py raw) := by
  have hprovider : (∃ m, providerGet p python id user outcome none = .ok (some m)) ↔
      ProviderFields python raw := by
    rw [providerGet_found hinit huser hfinds, exists_map_some, AtomicMemoryProvider.toMemory_isOk]
  have hsession : providerGet p python id user outcome (some thread) =
        providerGet p python id user outcome none ↔
      (ReachesThread python raw → thread ≠ "" ∧ Items.get raw "session_id" = .str thread) := by
    rw [providerGet_found hinit huser hfinds, providerGet_found hinit huser hfinds,
      ← AtomicMemoryProvider.toMemory_thread_iff user thread]
    exact ⟨map_some_injective, fun h => by rw [h]⟩
  rw [← hsession, ← hprovider, ← handleGet_isSome hfinds]
  constructor
  · intro h
    refine ⟨h.unthreaded, ?_⟩
    rw [← h.unthreaded]
    exact h.returns
  · rintro ⟨hsame, hreturns⟩
    refine ⟨hsame, hsame ▸ hreturns, fun m m' hm hm' => ?_⟩
    rw [providerGet_found hinit huser hfinds] at hm
    rw [handleGet_found hfinds] at hm'
    obtain ⟨_, hmemory, hsome⟩ := Except.of_map_ok hm
    obtain ⟨_, hmemory', hsome'⟩ := Except.of_map_ok hm'
    cases hsome
    cases hsome'
    exact made_alike hmemory hmemory'

theorem gets_agree_lost (hinit : p.initialized = true) (huser : user ≠ "")
    (hfinds : ∀ raw, ¬ outcome.Finds raw) :
    GetsAgree p handle python py id user thread outcome := by
  obtain ⟨hsame, hnone⟩ := @providerGet_lost p python id user outcome hinit huser hfinds
    (some thread)
  exact ⟨hsame, ⟨fun ⟨m, hm⟩ => absurd hm (hnone m), fun ⟨m, hm⟩ =>
    absurd hm (handleGet_lost hfinds m)⟩, fun m _ hm => absurd hm (hnone m)⟩

/-- The two surfaces agree, whatever the thread, on exactly the responses that bring no record or
one that both read alike. -/
theorem gets_agree_iff (hinit : p.initialized = true) :
    GetsAgree p handle python py id user thread outcome ↔
      ∀ raw, outcome.Finds raw → ReadAlike python py user thread raw := by
  by_cases hfinds : ∃ raw, outcome.Finds raw
  · obtain ⟨raw, hfinds⟩ := hfinds
    have hrecord : (∀ raw', outcome.Finds raw' → ReadAlike python py user thread raw') ↔
        ReadAlike python py user thread raw :=
      ⟨fun h => h raw hfinds, fun h raw' hfinds' => hfinds.unique hfinds' ▸ h⟩
    rw [hrecord]
    by_cases huser : user = ""
    · subst huser
      rw [gets_agree_noUser hinit, handleGet_isSome hfinds]
      exact ⟨fun h => ⟨fun hne => absurd rfl hne, fun hne => absurd rfl hne.1,
          fun hm => absurd hm h⟩,
        fun h hm => absurd rfl (h.fields.mpr hm).1⟩
    · rw [gets_agree_found hinit huser hfinds]
      exact ⟨fun ⟨hsession, hfields⟩ => ⟨fun _ => hsession,
          ⟨fun hm => hfields.mp hm.2, fun hm => ⟨huser, hfields.mpr hm⟩⟩⟩,
        fun h => ⟨h.session huser,
          ⟨fun hm => h.fields.mp ⟨huser, hm⟩, fun hm => (h.fields.mpr hm).2⟩⟩⟩
  · have hlost := not_exists.mp hfinds
    refine iff_of_true ?_ fun raw h => absurd h (hlost raw)
    by_cases huser : user = ""
    · subst huser
      exact (gets_agree_noUser hinit).mpr fun ⟨m, hm⟩ => handleGet_lost hlost m hm
    · exact gets_agree_lost hinit huser hlost

end

/-- A record of the thread that is asked for. -/
theorem gets_agree_iff_same_thread :
    GetsAgree ⟨[], true, none⟩ ⟨[]⟩ Python.reference Pydantic.reference "1" "u" "t"
      (.response 200 (some (.dict
        [("id", .str "1"), ("content", .str "x"), ("session_id", .str "t")]))) := by
  refine (gets_agree_iff rfl).mpr fun raw hfinds => ?_
  obtain ⟨_, hresponse, -⟩ := hfinds
  cases hresponse
  have hcommon : CommonFields Python.reference
      [("id", .str "1"), ("content", .str "x"), ("session_id", .str "t")] :=
    ⟨⟨"1", rfl⟩, ⟨none, rfl⟩, .inl rfl, .inl rfl⟩
  exact
    { session := fun _ _ => ⟨by decide, rfl⟩
      fields := iff_of_true ⟨by decide, hcommon, "x", rfl⟩
        ⟨hcommon, fun _ => ⟨"x", rfl⟩, nofun, .inl rfl, .inl rfl, .inl rfl, .inl rfl⟩ }

/-- A record without a session is a memory of its user, but an error once a thread is named. -/
theorem gets_disagree :
    (∃ m, providerGet ⟨[], true, none⟩ Python.reference "1" "u"
      (.response 200 (some (.dict [("id", .str "1"), ("content", .str "x")]))) none =
        .ok (some m)) ∧
    ¬ GetsAgree ⟨[], true, none⟩ ⟨[]⟩ Python.reference Pydantic.reference "1" "u" "t"
      (.response 200 (some (.dict [("id", .str "1"), ("content", .str "x")]))) := by
  refine ⟨⟨_, rfl⟩, fun h => ?_⟩
  obtain ⟨m, hm⟩ := h.returns.mpr ⟨_, rfl⟩
  cases hm

end AtomicMemory
