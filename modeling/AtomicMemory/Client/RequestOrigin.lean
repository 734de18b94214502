import AtomicMemory.Core.Url
import AtomicMemory.Entities.ResponseContainment
import AtomicMemory.Lib.UrlAuthority
import AtomicMemory.Providers.HandleRequests
import AtomicMemory.Providers.Health
import AtomicMemory.Providers.ScopeGate
import AtomicMemory.Providers.ScopeTags
import AtomicMemory.Storage.ResponseContainment

-- The clients put their paths behind the URL that `validate_api_url` has accepted. What the guard
-- has checked is the scheme and the location of that URL, and a request keeps them unless its path
-- goes on with the location.

open PyText UrlSplit

namespace AtomicMemory

/-- `api_url.rstrip("/")`. -/
def withoutSlashes (apiUrl : String) : List Char := apiUrl.toList.rdropWhile (· = '/')

/-- `f"{self._api_url}{path}"`. -/
def requestUrl (apiUrl : String) (path : List Char) : String :=
  String.ofList (withoutSlashes apiUrl ++ path)

/-- `urlsplit` finds the scheme and the location of the one URL in the other. -/
def SameOrigin (u : Unicode) (url url' : String) : Prop :=
  ∃ p p', urlsplit u url.toList = .ok p ∧ urlsplit u url'.toList = .ok p' ∧
    p'.scheme = p.scheme ∧ p'.netloc = p.netloc

def HasPath (url : String) : Prop :=
  ∃ scheme netloc tail, Located (cleaned (withoutSlashes url)) scheme netloc tail ∧ tail ≠ []

section

variable {u : Unicode} {value url : String} {allow : Bool}

theorem validateApiUrl_ok (h : validateApiUrl u value allow = .ok url) :
    ∃ p, urlsplit u (strip value) = .ok p ∧ p.scheme ∈ allowedSchemes ∧ p.netloc ≠ [] ∧
      url = String.ofList (strip value) := by
  unfold validateApiUrl at h
  dsimp only at h
  cases hp : urlsplit u (strip value) with
  | error e =>
    rw [hp] at h
    cases h
  | ok p =>
    simp only [hp] at h
    split at h
    · cases h
    rename_i hallowed
    obtain ⟨hscheme, hnetloc⟩ := not_or.mp hallowed
    refine ⟨p, rfl, not_not.mp hscheme, hnetloc, ?_⟩
    cases hhost : hostname u p.netloc with
    | none =>
      simp only [hhost] at h
      cases h
    | some host =>
      cases hip : parseIp host with
      | none =>
        simp only [hhost, hip] at h
        exact (Except.ok.inj h).symm
      | some ip =>
        simp only [hhost, hip] at h
        split at h
        · cases h
        split at h
        · cases h
        · exact (Except.ok.inj h).symm

theorem accepts_congr {value' : String} {p p' : SplitResult}
    (hp : urlsplit u (strip value) = .ok p) (hp' : urlsplit u (strip value') = .ok p')
    (hscheme : p'.scheme = p.scheme) (hnetloc : p'.netloc = p.netloc)
    (h : Accepts u value allow) : Accepts u value' allow := by
  obtain ⟨url, hurl⟩ := h
  unfold Accepts validateApiUrl
  unfold validateApiUrl at hurl
  simp only [hp] at hurl
  simp only [hp', hscheme, hnetloc]
  split at hurl
  · cases hurl
  rename_i hallowed
  rw [if_neg hallowed]
  cases hhost : hostname u p.netloc with
  | none =>
    simp only [hhost] at hurl
    cases hurl
  | some host =>
    cases hip : parseIp host with
    | none =>
      simp only
      rw [hip]
      exact ⟨_, rfl⟩
    | some ip =>
      simp only [hhost, hip] at hurl ⊢
      split at hurl
      · cases hurl
      rename_i hlocal
      rw [if_neg hlocal]
      split at hurl
      · cases hurl
      rename_i hpublic
      rw [if_neg hpublic]
      exact ⟨_, rfl⟩

end

theorem eq_replicate_append (text : List Char) :
    ∃ n, text = text.rdropWhile (· = '/') ++ List.replicate n '/' := by
  refine ⟨(text.rtakeWhile (· = '/')).length, ?_⟩
  have hslash : ∀ c ∈ text.rtakeWhile (· = '/'), c = '/' := fun c hc => by
    simpa using List.mem_rtakeWhile_imp hc
  conv_lhs => rw [← List.rdropWhile_append_rtakeWhile (p := (· = '/')) (l := text)]
  rw [← List.eq_replicate_of_mem hslash]

theorem located_withoutSlashes {url : String} {scheme netloc tail : List Char}
    (h : Located (cleaned url.toList) scheme netloc tail) (hnetloc : netloc ≠ []) :
    ∃ tail', Located (cleaned (withoutSlashes url)) scheme netloc tail' := by
  obtain ⟨n, hn⟩ := eq_replicate_append url.toList
  -- the colon is before the slashes
  have hcolon : ':' ∈ url.toList := by
    obtain ⟨raw, htext, -⟩ := h.spelled
    apply mem_of_mem_cleaned
    rw [htext]
    exact List.mem_append_right raw List.mem_cons_self
  have hbase : ':' ∈ withoutSlashes url := by
    rw [hn] at hcolon
    rcases List.mem_append.mp hcolon with hcolon | hcolon
    · exact hcolon
    · cases List.eq_of_mem_replicate hcolon
  have hne : cleaned (withoutSlashes url) ≠ [] :=
    List.ne_nil_of_mem (mem_cleaned hbase (by decide) (by decide))
  have hslashes : safeText (List.replicate n '/') = List.replicate n '/' := by
    apply List.filter_eq_self.mpr
    intro c hc
    rw [List.eq_of_mem_replicate hc]
    rfl
  have hcleaned := cleaned_append hne (List.replicate n '/')
  rw [hslashes] at hcleaned
  have hurl : cleaned url.toList = cleaned (withoutSlashes url) ++ List.replicate n '/' := by
    rw [← hcleaned, withoutSlashes, ← hn]
  rw [hurl] at h
  exact h.of_append_slashes hnetloc

/-- The scheme and the location that the guard has found, before the path of a request. -/
structure Checked (u : Unicode) (url : String) (p : SplitResult) (tail : List Char) : Prop where
  split : urlsplit u url.toList = .ok p
  scheme_ne : p.scheme ≠ []
  netloc_ne : p.netloc ≠ []
  located : Located (cleaned (withoutSlashes url)) p.scheme p.netloc tail

section

variable {u : Unicode} {value url : String} {allow : Bool}

theorem checked_of_validateApiUrl (h : validateApiUrl u value allow = .ok url) :
    ∃ p tail, Checked u url p tail := by
  obtain ⟨p, hp, hscheme, hnetloc, hurl⟩ := validateApiUrl_ok h
  have hsplit : urlsplit u url.toList = .ok p := by
    rw [hurl, String.toList_ofList]
    exact hp
  have hscheme_ne : p.scheme ≠ [] := by
    have hall : ∀ scheme ∈ allowedSchemes, scheme ≠ [] := by decide
    exact hall p.scheme hscheme
  obtain ⟨tail, hlocated⟩ := located_of_urlsplit hsplit hscheme_ne hnetloc
  obtain ⟨tail', hlocated'⟩ := located_withoutSlashes hlocated hnetloc
  exact ⟨p, tail', hsplit, hscheme_ne, hnetloc, hlocated'⟩

variable {p : SplitResult} {tail : List Char}

theorem Checked.hasPath_iff (h : Checked u url p tail) : HasPath url ↔ tail ≠ [] := by
  constructor
  · intro hpath
    obtain ⟨scheme, netloc, tail', hlocated, hne⟩ := hpath
    obtain ⟨-, -, rfl⟩ := h.located.unique hlocated
    exact hne
  · intro hne
    exact ⟨p.scheme, p.netloc, tail, h.located, hne⟩

theorem Checked.cleaned_append (h : Checked u url p tail) (path : List Char) :
    cleaned (withoutSlashes url ++ path) = cleaned (withoutSlashes url) ++ safeText path :=
  UrlSplit.cleaned_append h.located.ne_nil path

theorem Checked.urlsplit_append (h : Checked u url p tail) {path : List Char}
    (hpath : tail ≠ [] ∨ Delimited (safeText path)) :
    ∃ p', urlsplit u (withoutSlashes url ++ path) = .ok p' ∧ p'.scheme = p.scheme ∧
      p'.netloc = p.netloc := by
  have hlocated := h.located.append hpath
  rw [← h.cleaned_append] at hlocated
  obtain ⟨tail', hwhole⟩ := located_of_urlsplit h.split h.scheme_ne h.netloc_ne
  obtain ⟨p', hp'⟩ := (hlocated.urlsplit u).mpr ((hwhole.urlsplit u).mp ⟨p, h.split⟩)
  exact ⟨p', hp', hlocated.urlsplit_ok hp'⟩

theorem Checked.sameOrigin_iff (h : Checked u url p tail) (path : List Char) :
    SameOrigin u url (requestUrl url path) ↔ HasPath url ∨ Delimited (safeText path) := by
  unfold SameOrigin requestUrl
  rw [h.hasPath_iff, String.toList_ofList]
  constructor
  · intro hsame
    obtain ⟨q, q', hq, hq', hscheme, hnetloc⟩ := hsame
    obtain rfl := Except.ok.inj (h.split.symm.trans hq)
    obtain ⟨tail', hlocated⟩ := located_of_urlsplit hq' (hscheme ▸ h.scheme_ne)
      (hnetloc ▸ h.netloc_ne)
    rw [hscheme, hnetloc, h.cleaned_append] at hlocated
    exact (h.located.append_iff _).mp ⟨tail', hlocated⟩
  · intro hpath
    obtain ⟨p', hp', hsame⟩ := h.urlsplit_append hpath
    exact ⟨p, p', h.split, hp', hsame⟩

end

theorem rdropWhile_append {α : Type} {p : α → Bool} (xs : List α) {ys : List α}
    (h : ∃ y ∈ ys, p y = false) : (xs ++ ys).rdropWhile p = xs ++ ys.rdropWhile p := by
  have hne : ys.reverse.dropWhile p ≠ [] := by
    intro hnil
    obtain ⟨y, hy, hfalse⟩ := h
    have htrue := List.dropWhile_eq_nil_iff.mp hnil y (List.mem_reverse.mpr hy)
    rw [hfalse] at htrue
    cases htrue
  unfold List.rdropWhile
  rw [List.reverse_append, List.dropWhile_append, if_neg (by simpa using hne),
    List.reverse_append, List.reverse_reverse]

theorem delimited_of_isPrefix {text text' : List Char} (h : text' <+: text)
    (hdelimited : Delimited text) : Delimited text' := by
  intro c hc
  obtain ⟨more, rfl⟩ := h
  cases text' with
  | nil => cases hc
  | cons d text' => exact hdelimited c hc

theorem strip_append (value : String) {base path : List Char}
    (hbase : base <+: strip value) (hne : base ≠ []) (htext : ∃ c ∈ path, isSpace c = false) :
    strip (String.ofList (base ++ path)) = base ++ path.rdropWhile isSpace := by
  obtain ⟨c, base', rfl⟩ := List.exists_cons_of_ne_nil hne
  have hhead : isSpace c = false := by
    obtain ⟨more, hmore⟩ := hbase.trans (List.rdropWhile_prefix _ _)
    have hnot := List.head?_dropWhile_not isSpace value.toList
    rw [← hmore] at hnot
    simpa using hnot
  rw [strip, String.toList_ofList, List.cons_append, List.dropWhile_cons_of_neg (by simp [hhead])]
  exact rdropWhile_append (c :: base') htext

section

variable {u : Unicode} {value url : String} {allow : Bool}

theorem accepts_requestUrl (h : validateApiUrl u value allow = .ok url) {path : List Char}
    (hpath : HasPath url ∨ Delimited (safeText path)) (htext : ∃ c ∈ path, isSpace c = false) :
    Accepts u (requestUrl url path) allow := by
  obtain ⟨p, tail, hchecked⟩ := checked_of_validateApiUrl h
  obtain ⟨q, hq, -, -, hurl⟩ := validateApiUrl_ok h
  have hstrip : strip (requestUrl url path) = withoutSlashes url ++ path.rdropWhile isSpace := by
    refine strip_append value ?_ ?_ htext
    · have hbase := List.rdropWhile_prefix (· = '/') url.toList
      rw [hurl, String.toList_ofList] at hbase
      rwa [withoutSlashes, hurl, String.toList_ofList]
    · intro hnil
      apply hchecked.located.ne_nil
      rw [hnil]
      rfl
  have hprefix : safeText (path.rdropWhile isSpace) <+: safeText path :=
    List.IsPrefix.filter _ (List.rdropWhile_prefix _ _)
  have hkept : tail ≠ [] ∨ Delimited (safeText (path.rdropWhile isSpace)) :=
    hpath.imp hchecked.hasPath_iff.mp (delimited_of_isPrefix hprefix)
  obtain ⟨p', hp', hscheme, hnetloc⟩ := hchecked.urlsplit_append hkept
  rw [← hstrip] at hp'
  have hsplit := hchecked.split
  rw [hurl, String.toList_ofList] at hsplit
  exact accepts_congr hsplit hp' hscheme hnetloc ⟨url, h⟩

end

/-- The request of the AtomicMemory provider's `health`. -/
def AtomicMemoryProvider.Provider.healthRequest (p : AtomicMemoryProvider.Provider) : HttpRequest :=
  p.get "/memories/health".toList

namespace HindsightProvider.Provider

variable (p : HindsightProvider.Provider)

/-- The request of `_list_operations`. -/
def operationsRequest (scope : Scope String) : HttpRequest :=
  ⟨"GET", p.bankPath scope ++ "/operations".toList, none⟩

/-- The request of `_get_operation`. -/
def operationRequest (scope : Scope String) (operationId : String) : HttpRequest :=
  ⟨"GET", p.bankPath scope ++ "/operations/".toList ++ PercentEncoding.quote operationId.toList, none⟩

end HindsightProvider.Provider

structure Services where
  atomicMemory : AtomicMemoryProvider.Provider
  handle : AtomicMemoryHandle.Handle
  mem0 : Mem0Provider.Provider
  mem0Config : Mem0Provider.Config
  hindsight : HindsightProvider.Provider
  hindsightConfig : HindsightProvider.Config
  python : Python
  pydantic : Pydantic
  bool : PyValue → Option Bool
  float : PyValue → Except PyError ℚ
  normalized : ∃ apiVersion,
    atomicMemory.apiPrefix = AtomicMemoryProvider.normalizeApiVersion apiVersion

inductive CoreCall
  | ingest (input : IngestInput)
  | search (request : SearchRequest)
  | get (ref : MemoryRef)
  | delete (ref : MemoryRef)
  | list (request : ListRequest)

inductive ServiceCall
  | atomicMemory (op : AtomicMemoryProvider.Operation)
  | atomicMemoryHealth
  | handle (call : AtomicMemoryHandle.HandleCall)
  | mem0 (call : CoreCall)
  | mem0Health
  | hindsight (call : CoreCall)
  | hindsightPackage (request : PackageRequest)
  | hindsightReflect (query : String) (scope : Scope String)
  | hindsightRetain (input : IngestInput)
  | hindsightOperations (scope : Scope String)
  | hindsightOperation (scope : Scope String) (operationId : String)
  | hindsightHealth
  | storage (client : StorageClient.Client) (op : StorageClient.StorageOperation)
  | storageContent (ref : StorageClient.ArtifactRef)
  | storageHead (ref : StorageClient.ArtifactRef)
  | entities (op : EntitiesClient.EntitiesOperation)

namespace ServiceCall

section

variable (s : Services)

def mem0Request : CoreCall → Except PyError HttpRequest
  | .ingest input => sent (s.mem0.ingest s.python s.mem0Config input)
  | .search request => sent (s.mem0.search s.float s.python s.pydantic s.mem0Config request)
  | .get ref => sent (s.mem0.get s.python ref)
  | .delete ref => sent (s.mem0.delete ref)
  | .list request => sent (s.mem0.list s.python request)

def hindsightRequest : CoreCall → Except PyError HttpRequest
  | .ingest input => sent (s.hindsight.ingest s.pydantic s.bool input)
  | .search request => sent (s.hindsight.search s.python s.pydantic s.hindsightConfig request)
  | .get ref => sent (s.hindsight.get s.python ref)
  | .delete ref => sent (s.hindsight.delete ref)
  | .list request => sent (s.hindsight.list s.python request)

def path : ServiceCall → Option (List Char)
  | atomicMemory op => (s.atomicMemory.send s.python s.pydantic op).toOption.map (·.path)
  | atomicMemoryHealth => some s.atomicMemory.healthRequest.path
  | handle call => (call.request s.handle s.python s.pydantic s.bool).map (·.path)
  | mem0 call => (mem0Request s call).toOption.map (·.path)
  | mem0Health => some s.mem0.healthRequest.path
  | hindsight call => (hindsightRequest s call).toOption.map (·.path)
  | hindsightPackage request =>
    (sent (s.hindsight.package s.python s.pydantic s.hindsightConfig request)).toOption.map (·.path)
  | hindsightReflect query scope => (sent (s.hindsight.reflect query scope)).toOption.map (·.path)
  | hindsightRetain input =>
    (sent (s.hindsight.retain s.pydantic s.bool input)).toOption.map (·.path)
  | hindsightOperations scope => some (s.hindsight.operationsRequest scope).path
  | hindsightOperation scope operationId =>
    some (s.hindsight.operationRequest scope operationId).path
  | hindsightHealth => some HindsightProvider.healthRequest.path
  | storage client op => (op.request client).toOption.map (·.path)
  | storageContent ref => (StorageClient.getContent ref).toOption.map (·.path)
  | storageHead ref => (StorageClient.head ref).toOption.map (·.path)
  | entities op => op.request.toOption.map (·.path)

end

/-- The calls whose path begins with the `path_prefix` of the Mem0 provider. -/
def isPrefixed : ServiceCall → Bool
  | mem0 (.search _) => false
  | mem0 _ | mem0Health => true
  | _ => false

def Begins (s : Services) (call : ServiceCall) (path : List Char) : Prop :=
  ∃ rest, path = if call.isPrefixed then s.mem0.pathPrefix ++ '/' :: rest else '/' :: rest

end ServiceCall

theorem sent_runOperation {α : Type} {initialized : Bool} {required : List String}
    {operation : String} {scope : Scope String} {method : Except PyError (Call α)}
    {r : HttpRequest} (h : sent (runOperation initialized required operation scope method) = .ok r) :
    ∃ call, method = .ok call ∧ r = call.request := by
  obtain ⟨call, hcall, rfl⟩ := Except.of_map_ok h
  obtain ⟨inner, hinner, hrequest, -⟩ := runOperation_ok hcall
  exact ⟨inner, hinner, hrequest⟩

theorem requireClient_ok {α : Type} {initialized : Bool} {call call' : α}
    (h : (do requireClient initialized; .ok call) = (.ok call' : Except PyError α)) :
    call' = call := by
  obtain ⟨_, -, h⟩ := Except.bind_ok h
  exact (Except.ok.inj h).symm

theorem atomicMemory_path {p : AtomicMemoryProvider.Provider} {python : Python} {py : Pydantic}
    {op : AtomicMemoryProvider.Operation} {r : HttpRequest} (h : p.send python py op = .ok r) :
    ∃ rest, r.path = p.apiPrefix ++ '/' :: rest := by
  cases op with
  | ingest input =>
    obtain ⟨call, hcall, rfl⟩ := sent_runOperation h
    obtain rfl := requireClient_ok hcall
    show ∃ rest, p.apiPrefix ++ String.toList (if input.isVerbatim then _ else _) = _
    split <;> exact ⟨_, rfl⟩
  | search request =>
    obtain ⟨call, hcall, rfl⟩ := sent_runOperation h
    obtain rfl := requireClient_ok hcall
    exact ⟨_, rfl⟩
  | get ref =>
    obtain ⟨call, hcall, rfl⟩ := sent_runOperation h
    obtain rfl := requireClient_ok hcall
    exact ⟨_, rfl⟩
  | delete ref =>
    obtain ⟨call, hcall, rfl⟩ := sent_runOperation h
    obtain rfl := requireClient_ok hcall
    exact ⟨_, rfl⟩
  | list request =>
    obtain ⟨call, hcall, rfl⟩ := sent_runOperation h
    obtain ⟨offset, -, hcall⟩ := Except.bind_ok hcall
    obtain rfl := requireClient_ok hcall
    exact ⟨_, rfl⟩
  | package request =>
    obtain ⟨call, hcall, rfl⟩ := Except.of_map_ok h
    obtain rfl := requireClient_ok hcall
    exact ⟨_, rfl⟩
  | searchAsOf request asOf =>
    obtain ⟨call, hcall, rfl⟩ := Except.of_map_ok h
    obtain rfl := requireClient_ok hcall
    exact ⟨_, rfl⟩
  | history ref =>
    obtain ⟨call, hcall, rfl⟩ := Except.of_map_ok h
    obtain rfl := requireClient_ok hcall
    exact ⟨_, rfl⟩

theorem handle_path {h : AtomicMemoryHandle.Handle} {python : Python} {py : Pydantic}
    {bool : PyValue → Option Bool} {call : AtomicMemoryHandle.HandleCall} {r : HttpRequest}
    (hr : call.request h python py bool = some r) :
    ∃ rest, r.path = AtomicMemoryProvider.normalizeApiVersion h.apiVersion ++ '/' :: rest := by
  cases call with
  | ingestFull input scope | ingestQuick input scope skipExtraction =>
    obtain ⟨call, hcall, rfl⟩ := Option.map_eq_some_iff.mp hr
    obtain ⟨_, -, hcall⟩ := Except.bind_ok (PathCall.toOption_ok hcall)
    cases hcall
    exact ⟨_, rfl⟩
  | list scope options =>
    obtain ⟨call, hcall, rfl⟩ := Option.map_eq_some_iff.mp hr
    obtain ⟨_, -, hcall⟩ := Except.bind_ok (PathCall.toOption_ok hcall)
    obtain ⟨_, -, hcall⟩ := Except.bind_ok hcall
    cases hcall
    exact ⟨_, rfl⟩
  | admin call userId =>
    cases hr
    cases call with
    | auditRecent limit => cases limit <;> exact ⟨_, rfl⟩
    | _ => exact ⟨_, rfl⟩
  | _ =>
    cases hr
    exact ⟨_, rfl⟩

theorem mem0_path {s : Services} {call : CoreCall} {r : HttpRequest}
    (h : ServiceCall.mem0Request s call = .ok r) : (ServiceCall.mem0 call).Begins s r.path := by
  cases call with
  | ingest input =>
    obtain ⟨call, hcall, rfl⟩ := sent_runOperation h
    unfold Mem0Provider.Provider.doIngest at hcall
    split at hcall
    · cases hcall
    · obtain rfl := requireClient_ok hcall
      exact ⟨_, rfl⟩
  | search request =>
    obtain ⟨call, hcall, rfl⟩ := sent_runOperation h
    obtain rfl := requireClient_ok hcall
    show ∃ rest, s.mem0.searchPath = '/' :: rest
    unfold Mem0Provider.Provider.searchPath
    split <;> exact ⟨_, rfl⟩
  | get ref | delete ref =>
    obtain ⟨call, hcall, rfl⟩ := sent_runOperation h
    obtain rfl := requireClient_ok hcall
    exact ⟨_, rfl⟩
  | list request =>
    obtain ⟨call, hcall, rfl⟩ := sent_runOperation h
    obtain ⟨offset, -, hcall⟩ := Except.bind_ok hcall
    obtain ⟨page, -, hcall⟩ := Except.bind_ok hcall
    obtain rfl := requireClient_ok hcall
    exact ⟨_, rfl⟩

theorem hindsight_path {s : Services} {call : CoreCall} {r : HttpRequest}
    (h : ServiceCall.hindsightRequest s call = .ok r) : ∃ rest, r.path = '/' :: rest := by
  cases call with
  | ingest input =>
    obtain ⟨call, hcall, rfl⟩ := sent_runOperation h
    unfold HindsightProvider.Provider.doIngest at hcall
    split at hcall
    · cases hcall
    · obtain rfl := requireClient_ok hcall
      exact ⟨_, rfl⟩
  | search request =>
    obtain ⟨call, hcall, rfl⟩ := sent_runOperation h
    obtain rfl := requireClient_ok hcall
    exact ⟨_, rfl⟩
  | get ref =>
    obtain ⟨call, hcall, rfl⟩ := sent_runOperation h
    obtain rfl := requireClient_ok hcall
    exact ⟨_, rfl⟩
  | delete ref =>
    obtain ⟨call, hcall, rfl⟩ := sent_runOperation h
    obtain rfl := requireClient_ok hcall
    exact ⟨_, rfl⟩
  | list request =>
    obtain ⟨call, hcall, rfl⟩ := sent_runOperation h
    obtain ⟨offset, -, hcall⟩ := Except.bind_ok hcall
    obtain rfl := requireClient_ok hcall
    exact ⟨_, rfl⟩

theorem storage_path {client : StorageClient.Client} {op : StorageClient.StorageOperation}
    {r : StorageClient.StorageRequest} (h : op.request client = .ok r) :
    ∃ rest, r.path = '/' :: rest := by
  cases op with
  | capabilities =>
    cases h
    exact ⟨_, rfl⟩
  | put input =>
    cases h
    cases input <;> exact ⟨_, rfl⟩
  | get ref | verify ref =>
    obtain ⟨request, hrequest, rfl⟩ := Except.of_map_ok h
    obtain ⟨id, -, hrequest⟩ := Except.bind_ok hrequest
    cases hrequest
    exact ⟨_, rfl⟩
  | delete ref policy =>
    cases client <;> obtain ⟨request, hrequest, rfl⟩ := Except.of_map_ok h <;>
      obtain ⟨id, -, hrequest⟩ := Except.bind_ok hrequest <;> cases hrequest <;>
      cases policy <;> exact ⟨_, rfl⟩

theorem entities_path {op : EntitiesClient.EntitiesOperation} {r : HttpRequest}
    (h : op.request = .ok r) : ∃ rest, r.path = '/' :: rest := by
  cases op with
  | list entityType page pageSize =>
    cases h
    exact ⟨_, rfl⟩
  | merge =>
    obtain ⟨_, -, h⟩ := Except.bind_ok h
    obtain ⟨_, -, h⟩ := Except.bind_ok h
    cases h
    exact ⟨_, rfl⟩
  | _ =>
    obtain ⟨entityType, -, h⟩ := Except.bind_ok h
    cases h
    exact ⟨_, rfl⟩

theorem begins_of_path {s : Services} {call : ServiceCall} {path : List Char}
    (h : call.path s = some path) : call.Begins s path := by
  obtain ⟨apiVersion, hversion⟩ := s.normalized
  have hrooted (version rest : List Char) :
      ∃ rest', AtomicMemoryProvider.normalizeApiVersion version ++ '/' :: rest = '/' :: rest' := by
    obtain hnil | ⟨rest', hcons⟩ := PathCall.rooted_normalizeApiVersion version
    · exact ⟨rest, by rw [hnil]; rfl⟩
    · exact ⟨rest' ++ '/' :: rest, by rw [hcons]; rfl⟩
  cases call with
  | atomicMemory op =>
    obtain ⟨r, hr, rfl⟩ := Option.map_eq_some_iff.mp h
    obtain ⟨rest, hrest⟩ := atomicMemory_path (PathCall.toOption_ok hr)
    rw [hversion] at hrest
    obtain ⟨rest', hrest'⟩ := hrooted apiVersion rest
    exact ⟨rest', hrest.trans hrest'⟩
  | atomicMemoryHealth =>
    cases h
    show ∃ rest, s.atomicMemory.apiPrefix ++ "/memories/health".toList = '/' :: rest
    rw [hversion]
    exact hrooted apiVersion "memories/health".toList
  | handle call =>
    obtain ⟨r, hr, rfl⟩ := Option.map_eq_some_iff.mp h
    obtain ⟨rest, hrest⟩ := handle_path hr
    obtain ⟨rest', hrest'⟩ := hrooted s.handle.apiVersion rest
    exact ⟨rest', hrest.trans hrest'⟩
  | mem0 call =>
    obtain ⟨r, hr, rfl⟩ := Option.map_eq_some_iff.mp h
    exact mem0_path (PathCall.toOption_ok hr)
  | mem0Health =>
    cases h
    exact ⟨_, rfl⟩
  | hindsight call =>
    obtain ⟨r, hr, rfl⟩ := Option.map_eq_some_iff.mp h
    exact hindsight_path (PathCall.toOption_ok hr)
  | hindsightPackage | hindsightReflect | hindsightRetain =>
    obtain ⟨r, hr, rfl⟩ := Option.map_eq_some_iff.mp h
    obtain ⟨call, hcall, rfl⟩ := sent_runOperation (PathCall.toOption_ok hr)
    obtain rfl := requireClient_ok hcall
    exact ⟨_, rfl⟩
  | hindsightOperations | hindsightOperation | hindsightHealth =>
    cases h
    exact ⟨_, rfl⟩
  | storage client op =>
    obtain ⟨r, hr, rfl⟩ := Option.map_eq_some_iff.mp h
    exact storage_path (PathCall.toOption_ok hr)
  | storageContent ref | storageHead ref =>
    obtain ⟨r, hr, rfl⟩ := Option.map_eq_some_iff.mp h
    obtain ⟨id, -, hr⟩ := Except.bind_ok (PathCall.toOption_ok hr)
    cases hr
    exact ⟨_, rfl⟩
  | entities op =>
    obtain ⟨r, hr, rfl⟩ := Option.map_eq_some_iff.mp h
    exact entities_path (PathCall.toOption_ok hr)

theorem ServiceCall.Begins.delimited_iff {s : Services} {call : ServiceCall} {path : List Char}
    (h : call.Begins s path) :
    Delimited (safeText path) ↔
      (call.isPrefixed = true → Delimited (safeText s.mem0.pathPrefix)) := by
  obtain ⟨rest, rfl⟩ := h
  have hslash : safeText ('/' :: rest) = '/' :: safeText rest := rfl
  have hstop : Delimited ('/' :: safeText rest) := by
    intro c hc
    rw [← Option.some.inj hc]
    decide
  cases hprefixed : call.isPrefixed with
  | false =>
    rw [if_neg Bool.noConfusion, hslash]
    exact iff_of_true hstop fun hcontra => by cases hcontra
  | true =>
    rw [if_pos rfl]
    have happend : safeText (s.mem0.pathPrefix ++ '/' :: rest) =
        safeText s.mem0.pathPrefix ++ '/' :: safeText rest := by
      rw [safeText, List.filter_append]
      rfl
    rw [happend]
    cases safeText s.mem0.pathPrefix with
    | nil => exact iff_of_true hstop fun _ c hc => by cases hc
    | cons d more => exact ⟨fun hdelimited _ => hdelimited, fun hdelimited => hdelimited rfl⟩

theorem ServiceCall.Begins.exists_not_space {s : Services} {call : ServiceCall} {path : List Char}
    (h : call.Begins s path) : ∃ c ∈ path, isSpace c = false := by
  obtain ⟨rest, rfl⟩ := h
  refine ⟨'/', ?_, by decide⟩
  split
  · exact List.mem_append_right _ List.mem_cons_self
  · exact List.mem_cons_self

/-- Every request goes to the scheme and the location that the guard has checked, and the guard
accepts its URL, unless a `path_prefix` of the Mem0 provider goes on with the location. -/
theorem origin_kept_iff {u : Unicode} {value url : String} {allow : Bool} {s : Services}
    {call : ServiceCall} {path : List Char} (hurl : validateApiUrl u value allow = .ok url)
    (hpath : call.path s = some path) :
    (SameOrigin u url (requestUrl url path) ↔
      (call.isPrefixed = true → HasPath url ∨ Delimited (safeText s.mem0.pathPrefix))) ∧
    (SameOrigin u url (requestUrl url path) → Accepts u (requestUrl url path) allow) := by
  have hbegins := begins_of_path hpath
  obtain ⟨p, tail, hchecked⟩ := checked_of_validateApiUrl hurl
  have hsame := hchecked.sameOrigin_iff path
  constructor
  · rw [hsame, hbegins.delimited_iff]
    constructor
    · rintro (hurlPath | hdelimited) hprefixed
      · exact .inl hurlPath
      · exact .inr (hdelimited hprefixed)
    · intro h
      by_cases hprefixed : call.isPrefixed = true
      · exact (h hprefixed).imp_right fun hdelimited _ => hdelimited
      · exact .inr fun hcontra => absurd hcontra hprefixed
  · intro horigin
    exact accepts_requestUrl hurl (hsame.mp horigin) hbegins.exists_not_space

/-- Clients of which only Mem0's is configured with more than its defaults. -/
def Services.reference (pathPrefix : List Char) : Services where
  atomicMemory := ⟨AtomicMemoryProvider.normalizeApiVersion "v1".toList, true, none⟩
  handle := ⟨"v1".toList⟩
  mem0 := ⟨pathPrefix, true⟩
  mem0Config := ⟨true, false, none, none⟩
  hindsight := ⟨"v1".toList, "default".toList, true⟩
  hindsightConfig := ⟨none, none⟩
  python := Python.reference
  pydantic := Pydantic.reference
  bool := fun _ => none
  float := fun _ => .error .typeError
  normalized := ⟨"v1".toList, rfl⟩

/-- A prefix that goes on with the location takes the probe to another host. -/
theorem origin_kept_iff_moved :
    ∃ path, ServiceCall.mem0Health.path (.reference "@other.test".toList) = some path ∧
      ¬SameOrigin .ascii "https://mem0.test" (requestUrl "https://mem0.test" path) := by
  have hurl : validateApiUrl .ascii "https://mem0.test" false = .ok "https://mem0.test" := by
    decide +kernel
  have hlocated : Located (cleaned (withoutSlashes "https://mem0.test")) "https".toList
      "mem0.test".toList [] := by
    have hchars : "mem0.test".toList.all (· ∉ stops) = true := rfl
    refine ⟨⟨"https".toList, by decide +kernel, rfl, rfl, rfl⟩, ?_, fun c hc => by cases hc⟩
    exact fun c hc => of_decide_eq_true (List.all_eq_true.mp hchars c hc)
  refine ⟨_, rfl, fun hsame => ?_⟩
  have hpath : ServiceCall.mem0Health.path (.reference "@other.test".toList) =
      some "@other.test/memories/?user_id=health-check&page_size=1".toList := rfl
  have hkept := (origin_kept_iff hurl hpath).1.mp hsame rfl
  rcases hkept with hpath | hdelimited
  · obtain ⟨scheme, netloc, tail, hlocated', hne⟩ := hpath
    obtain ⟨-, -, rfl⟩ := hlocated.unique hlocated'
    exact hne rfl
  · revert hdelimited
    decide

end AtomicMemory
