import AtomicMemory.Providers.AtomicMemoryProvider

-- What the four reading routes of `AtomicMemoryProvider` send for a thread, and what they
-- let through of a response.

open Calendar
open PercentEncoding
open PyValue hiding none

namespace AtomicMemory.AtomicMemoryProvider

inductive Read
  | search (request : SearchRequest)
  | list (request : ListRequest)
  | package (request : PackageRequest)
  | searchAsOf (request : SearchRequest) (asOf : DateTime)

def Read.scope : Read → Scope String
  | search request => request.scope
  | list request => request.scope
  | package request => request.scope
  | searchAsOf request _ => request.scope

def RequestsThread (p : Provider) (request : HttpRequest) (thread : String) : Prop :=
  match request.json with
  | some body => body.lookup "session_id" = some (.str thread)
  | none => ∃ query, request.path = p.route ("/memories/list?".toList ++ query) ∧ '#' ∉ query ∧
      (formDecode query).filter (fun pair => pair.1 = utf8 "session_id".toList) =
        [(utf8 "session_id".toList, utf8 thread.toList)]

theorem lookup_buildSearchBody (request : SearchRequest) :
    (buildSearchBody request).lookup "session_id" = request.scope.thread.map .str := by
  simp [buildSearchBody, Items.lookup_cons, Items.lookup_append, lookup_optItem]

theorem buildListPath_thread {scope : Scope String} {thread : String}
    (hthread : scope.thread = some thread) (limit offset : ℤ) :
    ∃ query, buildListPath scope limit offset = "/memories/list?".toList ++ query ∧ '#' ∉ query ∧
      (formDecode query).filter (fun pair => pair.1 = utf8 "session_id".toList) =
        [(utf8 "session_id".toList, utf8 thread.toList)] := by
  unfold buildListPath
  rw [hthread]
  refine ⟨_, rfl, hash_not_mem_urlencode _, ?_⟩
  rw [formDecode_urlencode]
  simp only [List.cons_append, List.nil_append, List.map_cons, List.map_nil]
  have huser : utf8 "user_id".toList ≠ utf8 "session_id".toList := by decide
  have hlimit : utf8 "limit".toList ≠ utf8 "session_id".toList := by decide
  have hoffset : utf8 "offset".toList ≠ utf8 "session_id".toList := by decide
  simp only [List.filter_cons, decide_eq_true_eq, if_neg huser, if_neg hlimit, if_neg hoffset,
    if_true, List.filter_nil]

section

variable (p : Provider) (python : Python) (py : Pydantic)

def Read.call : Read → Except PyError (Call (List (Memory PyValue)))
  | search request => (p.search python py request).map (·.map fun page => page.results.map (·.memory))
  | list request => (p.list python request).map (·.map (·.memories))
  | package request =>
    (p.package python py request).map (·.map fun page => page.results.map (·.memory))
  | searchAsOf request asOf =>
    (p.searchAsOf python py request asOf).map (·.map fun page => page.results.map (·.memory))

/-- Every record of the response was mapped for the scope, and the memories are some of
the results. -/
def MappedFrom (scope : Scope String) (outcome : HttpOutcome) (memories : List (Memory PyValue)) :
    Prop :=
  ∃ status body mapped, outcome = .response status (some body) ∧
    List.Forall₂ (fun row m => ∃ k, toMemory python scope k row = .ok m) (records body) mapped ∧
    memories.Sublist mapped

/-- The call asks for the scope's thread, and maps the response for the scope. -/
structure ReadsScope (scope : Scope String) (call : Call (List (Memory PyValue))) : Prop where
  request : ∀ thread, scope.thread = some thread → RequestsThread p call.request thread
  receive : ∀ outcome memories, call.receive outcome = .ok memories →
    MappedFrom python scope outcome memories

theorem searchResults_ok {scope : Scope String} {raw : PyValue}
    {results : List (SearchResult PyValue)} (h : searchResults python py scope raw = .ok results) :
    List.Forall₂ (fun row m => ∃ k, toMemory python scope k row = .ok m) (records raw)
      (results.map (·.memory)) := by
  obtain ⟨v, hv, h⟩ := Except.bind_ok h
  obtain ⟨rows, hrows, h⟩ := Except.bind_ok h
  rw [records_eq hv hrows, List.forall₂_map_right_iff]
  refine (comprehension_ok h).imp ?_
  rintro row r ⟨k, hr⟩
  exact ⟨k, toSearchResult_ok python py hr⟩

theorem applyMetaFactFilter_sublist (results : List (SearchResult PyValue)) :
    (p.applyMetaFactFilter results).Sublist results := by
  unfold Provider.applyMetaFactFilter
  split
  · exact List.Sublist.refl _
  · exact List.filter_sublist

theorem mappedFrom_filtered {scope : Scope String} {status : ℕ} {raw : PyValue}
    {results : List (SearchResult PyValue)} (h : searchResults python py scope raw = .ok results) :
    MappedFrom python scope (.response status (some raw))
      ((p.applyMetaFactFilter results).map (·.memory)) :=
  ⟨status, raw, _, rfl, searchResults_ok python py h, (applyMetaFactFilter_sublist p results).map _⟩

theorem mappedFrom_toPage {scope : Scope String} {status : ℕ} {raw : PyValue}
    {page : SearchResultPage PyValue} (h : p.toPage python py scope raw = .ok page) :
    MappedFrom python scope (.response status (some raw)) (page.results.map (·.memory)) := by
  obtain ⟨results, hresults, h⟩ := Except.bind_ok h
  obtain ⟨retrieval, -, h⟩ := Except.bind_ok h
  cases h
  exact mappedFrom_filtered p python py hresults

theorem readsScope_search {request : SearchRequest} {call : Call (SearchResultPage PyValue)}
    (h : p.search python py request = .ok call) :
    ReadsScope p python request.scope (call.map fun page => page.results.map (·.memory)) := by
  obtain ⟨inner, hinner, hrequest, -, hreceive⟩ := runOperation_ok h
  obtain ⟨_, -, hinner⟩ := Except.bind_ok hinner
  cases hinner
  refine ⟨fun thread hthread => ?_, fun outcome memories hmemories => ?_⟩
  · rw [Call.map_request, hrequest]
    show (buildSearchBody request).lookup "session_id" = _
    rw [lookup_buildSearchBody, hthread]
    rfl
  · obtain ⟨page, hpage, rfl⟩ := Except.of_map_ok hmemories
    obtain ⟨raw, hraw, htoPage⟩ := Except.bind_ok ((hreceive outcome page).mp hpage)
    obtain ⟨status, rfl⟩ := fetchJson_ok hraw
    exact mappedFrom_toPage p python py htoPage

theorem readsScope_searchAsOf {request : SearchRequest} {asOf : DateTime}
    {call : Call (SearchResultPage PyValue)}
    (h : p.searchAsOf python py request asOf = .ok call) :
    ReadsScope p python request.scope (call.map fun page => page.results.map (·.memory)) := by
  obtain ⟨_, -, h⟩ := Except.bind_ok h
  cases h
  refine ⟨fun thread hthread => ?_, fun outcome memories hmemories => ?_⟩
  · show (buildSearchBody request ++ [("as_of", _)]).lookup "session_id" = _
    rw [Items.lookup_append, lookup_buildSearchBody, hthread]
    rfl
  · obtain ⟨page, hpage, rfl⟩ := Except.of_map_ok hmemories
    obtain ⟨raw, hraw, htoPage⟩ := Except.bind_ok hpage
    obtain ⟨status, rfl⟩ := fetchJson_ok hraw
    exact mappedFrom_toPage p python py htoPage

theorem readsScope_package {request : PackageRequest} {call : Call (ContextPackage PyValue)}
    (h : p.package python py request = .ok call) :
    ReadsScope p python request.scope (call.map fun page => page.results.map (·.memory)) := by
  obtain ⟨_, -, h⟩ := Except.bind_ok h
  cases h
  refine ⟨fun thread hthread => ?_, fun outcome memories hmemories => ?_⟩
  · show (buildPackageBody request).lookup "session_id" = _
    rw [buildPackageBody, List.append_assoc, List.append_assoc, Items.lookup_append,
      lookup_buildSearchBody, hthread]
    rfl
  · obtain ⟨page, hpage, rfl⟩ := Except.of_map_ok hmemories
    obtain ⟨raw, hraw, hpackage⟩ := Except.bind_ok hpage
    obtain ⟨status, rfl⟩ := fetchJson_ok hraw
    obtain ⟨results, hresults, hpackage⟩ := Except.bind_ok hpackage
    obtain ⟨budget, -, hpackage⟩ := Except.bind_ok hpackage
    cases budget with
    | bool b =>
      obtain ⟨text, -, hpackage⟩ := Except.bind_ok hpackage
      obtain ⟨tokens, -, hpackage⟩ := Except.bind_ok hpackage
      rw [ContextPackage.create_ok hpackage]
      exact mappedFrom_filtered p python py hresults
    | _ => cases hpackage

theorem readsScope_list {request : ListRequest} {call : Call (ListResultPage PyValue)}
    (h : p.list python request = .ok call) :
    ReadsScope p python request.scope (call.map (·.memories)) := by
  obtain ⟨offset, -, hrequest, hreceive⟩ := Provider.list_ok h
  refine ⟨fun thread hthread => ?_, fun outcome memories hmemories => ?_⟩
  · obtain ⟨query, hpath, hquery⟩ :=
      buildListPath_thread hthread (request.limit.getD 20) offset
    rw [Call.map_request, hrequest]
    exact ⟨query, congrArg p.route hpath, hquery⟩
  · obtain ⟨page, hpage, rfl⟩ := Except.of_map_ok hmemories
    obtain ⟨status, body, rfl, hmapped⟩ := hreceive outcome page hpage
    exact ⟨status, body, page.memories, rfl, hmapped, List.Sublist.refl _⟩

theorem readsScope_call {read : Read} {call : Call (List (Memory PyValue))}
    (h : read.call p python py = .ok call) : ReadsScope p python read.scope call := by
  cases read with
  | search request =>
    obtain ⟨inner, hinner, rfl⟩ := Except.of_map_ok h
    exact readsScope_search p python py hinner
  | list request =>
    obtain ⟨inner, hinner, rfl⟩ := Except.of_map_ok h
    exact readsScope_list p python hinner
  | package request =>
    obtain ⟨inner, hinner, rfl⟩ := Except.of_map_ok h
    exact readsScope_package p python py hinner
  | searchAsOf request asOf =>
    obtain ⟨inner, hinner, rfl⟩ := Except.of_map_ok h
    exact readsScope_searchAsOf p python py hinner

/-- The record reports the thread, and a thread that is not empty. -/
def ReportsThread (record : PyValue) (thread : String) : Prop :=
  ∃ items, record = .dict items ∧ Items.get items "session_id" = .str thread ∧ thread ≠ ""

/-- The memory is the record's, and is labelled with the thread and the scope's user. -/
def LabelledFrom (scope : Scope String) (thread : String) (record : PyValue)
    (m : Memory PyValue) : Prop :=
  (∃ items, record = .dict items ∧ items.lookup "id" = some (.str m.id)) ∧
    m.scope.thread = some (.str thread) ∧ m.scope.user = scope.user.map .str

theorem toMemory_thread {scope : Scope String} {thread : String}
    (hthread : scope.thread = some thread) {k : ℕ} {record : PyValue} {m : Memory PyValue}
    (h : toMemory python scope k record = .ok m) :
    ReportsThread record thread ∧ LabelledFrom scope thread record m := by
  obtain ⟨items, rfl, hid, hscope⟩ := toMemory_ok python h
  obtain ⟨-, hreports, hlabels⟩ := buildScope_ok hscope
  obtain ⟨hne, hsession⟩ := hreports thread hthread
  have htruthy : (PyValue.str thread).truthy = true := decide_eq_true hne
  refine ⟨⟨items, rfl, hsession, hne⟩, ⟨items, rfl, hid⟩, ?_, ?_⟩
  · rw [hlabels]
    show (if _ then _ else _) = _
    rw [hsession, if_pos htruthy]
  · rw [hlabels]
    rfl

theorem mappedFrom_record {scope : Scope String} {status : ℕ} {body : PyValue}
    {memories : List (Memory PyValue)}
    (h : MappedFrom python scope (.response status (some body)) memories) {record : PyValue}
    (hrecord : record ∈ records body) : ∃ k m, toMemory python scope k record = .ok m := by
  obtain ⟨status', body', mapped, heq, hmapped, -⟩ := h
  cases heq
  obtain ⟨m, -, k, hm⟩ := mem_of_forall₂ hmapped.flip hrecord
  exact ⟨k, m, hm⟩

/-- A route that is asked for a thread asks the backend for it and lets nothing else
through; and no route lets a response through with a record of another namespace. -/
theorem thread_isolation {read : Read} {call : Call (List (Memory PyValue))}
    (h : read.call p python py = .ok call) :
    (∀ thread, read.scope.thread = some thread →
      RequestsThread p call.request thread ∧
      ∀ outcome memories, call.receive outcome = .ok memories →
        ∃ status body, outcome = .response status (some body) ∧
          (∀ record ∈ records body, ReportsThread record thread) ∧
          ∀ m ∈ memories, ∃ record ∈ records body, LabelledFrom read.scope thread record m) ∧
    ∀ requested, read.scope.nameSpace = some requested → ∀ status body items,
      .dict items ∈ records body → Items.get items "namespace" ≠ .none →
        Items.get items "namespace" ≠ .str requested →
          ∃ e, call.receive (.response status (some body)) = .error e := by
  have hreads := readsScope_call p python py h
  refine ⟨fun thread hthread => ⟨hreads.request thread hthread, ?_⟩, ?_⟩
  · intro outcome memories hmemories
    obtain ⟨status, body, mapped, rfl, hmapped, hsub⟩ := hreads.receive _ _ hmemories
    refine ⟨status, body, rfl, fun record hrecord => ?_, fun m hm => ?_⟩
    · obtain ⟨m, -, k, hm⟩ := mem_of_forall₂ hmapped.flip hrecord
      exact (toMemory_thread python hthread hm).1
    · obtain ⟨record, hrecord, k, hmap⟩ := mem_of_forall₂ hmapped (hsub.mem hm)
      exact ⟨record, hrecord, (toMemory_thread python hthread hmap).2⟩
  · intro requested hrequested status body items hitems hreported hne
    -- a page that was mapped maps this record too, whose namespace `buildScope` refuses
    cases hresult : call.receive (.response status (some body)) with
    | error e => exact ⟨e, rfl⟩
    | ok memories =>
      obtain ⟨k, m, hm⟩ := mappedFrom_record python (hreads.receive _ _ hresult) hitems
      obtain ⟨items', heq, -, hscope⟩ := toMemory_ok python hm
      cases heq
      obtain ⟨hnamespace, -, -⟩ := buildScope_ok hscope
      rcases hnamespace requested hrequested with hnone | htext
      · exact absurd hnone hreported
      · exact absurd htext hne

end

def listedThread : Read := .list ⟨⟨some "u1", none, none, some "t1"⟩, none, none⟩

def listedBody : PyValue :=
  .dict [("memories", .list [.dict [("id", .str "m1"), ("content", .str "text"),
    ("session_id", .str "t1")]])]

/-- A thread is listed, and its one record comes back under its label. -/
theorem thread_isolation_list :
    ∃ call, listedThread.call ⟨"/v1".toList, true, none⟩ .reference .reference = .ok call ∧
      RequestsThread ⟨"/v1".toList, true, none⟩ call.request "t1" ∧
      ∃ m, call.receive (.response 200 (some listedBody)) = .ok [m] ∧
        m.scope.thread = some (.str "t1") := by
  have hcall : listedThread.call ⟨"/v1".toList, true, none⟩ .reference .reference = .ok _ := rfl
  obtain ⟨hrequest, hreceive⟩ := (thread_isolation _ _ _ hcall).1 "t1" rfl
  refine ⟨_, hcall, hrequest, _, rfl, ?_⟩
  obtain ⟨_, _, -, -, hlabelled⟩ := hreceive (.response 200 (some listedBody)) _ rfl
  obtain ⟨_, -, -, hthread, -⟩ := hlabelled _ List.mem_cons_self
  exact hthread

end AtomicMemory.AtomicMemoryProvider
