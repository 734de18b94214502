import AtomicMemory.Lib.DotSegments
import AtomicMemory.Providers.ScopeLabels

-- A user's memories are in a bank of their own, and the other fields of a scope are tags on them.
-- A backend shows a memory to a request when it has all the tags that the request asks for.

open PercentEncoding
open PyValue hiding none

namespace AtomicMemory.HindsightProvider

structure Insight where
  content : String
  confidence : ℚ
  supportingMemoryIds : List String

/-- `_package_type_label`. -/
def packageTypeLabel (python : Python) (memory : Memory String) : String :=
  let hindsightType := Items.get (memory.metadata.getD []) "hindsightType"
  if hindsightType.truthy then python.str hindsightType
  else (memory.kind.map MemoryKind.text).getD "memory"

/-- `_format_package_text`. -/
def formatPackageText (python : Python) (memories : List (Memory String)) : String :=
  if memories.isEmpty then ""
  else
    "\n".intercalate ("Relevant memories:" ::
      memories.map fun memory => "- [" ++ packageTypeLabel python memory ++ "] " ++ memory.content)

/-- `estimate_tokens`. -/
def estimateTokens (text : String) : ℤ := if text = "" then 0 else (text.length + 3) / 4

/-- `build_reflect_request`. -/
def buildReflectRequest (query : String) (scope : Scope String) : Items :=
  let tags := tagsForScope scope
  ("query", .str query) ::
    if tags = [] then []
    else [("tags", .list (tags.map .str)), ("tags_match", .str "all_strict")]

/-- `_supporting_ids`. -/
def supportingIds (raw : Items) : List String :=
  match Items.get raw "based_on" with
  | .dict basedOn =>
    match Items.get basedOn "memories" with
    | .list memories => memories.filterMap fun memory =>
        (dict? memory).bind fun items => str? (Items.get items "id")
    | _ => []
  | _ => []

/-- `_to_insight`. -/
def toInsight (raw : PyValue) : Except PyError Insight :=
  match raw with
  | .dict items =>
    match Items.get items "text" with
    | .str text => .ok ⟨text, 0, supportingIds items⟩
    | _ => .error (.valueError "Hindsight reflect response missing text")
  | _ => .error (.valueError "Hindsight reflect response missing text")

namespace Provider

variable (p : Provider)

/-- `_package`. -/
def doPackage (python : Python) (py : Pydantic) (config : Config) (request : PackageRequest) :
    Except PyError (Call (ContextPackage String)) := do
  requireClient p.initialized
  .ok
    { request := ⟨"POST", p.bankPath request.scope ++ "/memories/recall".toList,
        some (buildRecallRequest request.query request.scope config request.tokenBudget)⟩
      receive := fun outcome => do
        let raw ← fetchJson outcome
        let rows ← unwrapResults raw
        let results ← comprehension (fun _ => toSearchResult python py request.scope) 0 rows
        let text := formatPackageText python (results.map SearchResult.memory)
        .ok ⟨text, results, estimateTokens text, false⟩ }

/-- `_reflect`. -/
def doReflect (query : String) (scope : Scope String) : Except PyError (Call (List Insight)) := do
  requireClient p.initialized
  .ok
    { request := ⟨"POST", p.bankPath scope ++ "/reflect".toList,
        some (buildReflectRequest query scope)⟩
      receive := fun outcome => do
        let raw ← fetchJson outcome
        let insight ← toInsight raw
        .ok [insight] }

/-- `_retain`, which the extension of this name calls for inputs of every mode. -/
def doRetain (py : Pydantic) (bool : PyValue → Option Bool) (input : IngestInput) :
    Except PyError (Call RetainResponse) := do
  requireClient p.initialized
  .ok
    { request := ⟨"POST", p.bankPath input.scope ++ "/memories".toList,
        some (buildRetainRequest input)⟩
      receive := fun outcome => do
        let raw ← fetchJson outcome
        let retained ←
          modelValidate "HindsightRetainResponse"
            ((dict? raw).bind (RetainResponse.ofItems py bool))
        assertRetainSucceeded retained
        .ok retained }

def package (python : Python) (py : Pydantic) (config : Config) (request : PackageRequest) :
    Except PyError (Call (ContextPackage String)) :=
  runOperation p.initialized requiredScope "package" request.scope
    (p.doPackage python py config request)

def reflect (query : String) (scope : Scope String) : Except PyError (Call (List Insight)) :=
  runOperation p.initialized requiredScope "reflect" scope (p.doReflect query scope)

def retain (py : Pydantic) (bool : PyValue → Option Bool) (input : IngestInput) :
    Except PyError (Call RetainResponse) :=
  runOperation p.initialized requiredScope "hindsight.retain" input.scope
    (p.doRetain py bool input)

end Provider

/-- What `tags_for_scope` writes before a label. -/
def tagHead : Label → String
  | .agent => "agent:"
  | .nameSpace => "namespace:"
  | .thread => "thread:"

def initial : Label → Char
  | .agent => 'a'
  | .nameSpace => 'n'
  | .thread => 't'

/-- Each label of `a` that is not empty is that of `b`. -/
def Refines (b a : Scope String) : Prop :=
  ∀ label text, nonEmpty (a.at label) = some text → b.at label = some text

def requestedTags (body : Items) : List PyValue :=
  match Items.get body "tags" with
  | .list tags => tags
  | _ => []

def storedTags (body : Items) : List PyValue :=
  match Items.get body "items" with
  | .list items => items.flatMap fun item => requestedTags ((dict? item).getD [])
  | _ => []

theorem nonEmpty_eq_some {value : Option String} {text : String} :
    nonEmpty value = some text ↔ value = some text ∧ text ≠ "" := by
  unfold nonEmpty
  rw [Option.filter_eq_some_iff, decide_eq_true_eq]

theorem mem_labelTag {head tag : String} {value : Option String} :
    tag ∈ (match nonEmpty value with
      | some value => [head ++ value]
      | none => []) ↔ ∃ text, nonEmpty value = some text ∧ tag = head ++ text := by
  cases hvalue : nonEmpty value with
  | none => exact ⟨nofun, fun ⟨_, h, _⟩ => nomatch h⟩
  | some text =>
    rw [List.mem_singleton]
    exact ⟨fun h => ⟨text, rfl, h⟩, fun ⟨_, htext, h⟩ => Option.some.inj htext ▸ h⟩

theorem mem_tagsForScope {scope : Scope String} {tag : String} :
    tag ∈ tagsForScope scope ↔
      ∃ label text, nonEmpty (scope.at label) = some text ∧ tag = tagHead label ++ text := by
  unfold tagsForScope
  rw [List.mem_append, List.mem_append]
  constructor
  · rintro ((h | h) | h)
    · exact ⟨.agent, mem_labelTag.mp h⟩
    · exact ⟨.nameSpace, mem_labelTag.mp h⟩
    · exact ⟨.thread, mem_labelTag.mp h⟩
  · rintro ⟨label, h⟩
    cases label with
    | agent => exact .inl (.inl (mem_labelTag.mpr h))
    | nameSpace => exact .inl (.inr (mem_labelTag.mpr h))
    | thread => exact .inr (mem_labelTag.mpr h)

theorem head?_tag (label : Label) (text : String) :
    (tagHead label ++ text).toList.head? = some (initial label) := by
  rw [String.toList_append]
  cases label <;> rfl

theorem initial_injective {label label' : Label} (h : initial label = initial label') :
    label = label' := by
  revert h
  cases label <;> cases label' <;> decide

/-- A tag is read back in one way, whatever the values are: no two labels begin alike. -/
theorem tag_injective {label label' : Label} {text text' : String}
    (h : tagHead label ++ text = tagHead label' ++ text') : label = label' ∧ text = text' := by
  have hfirst := congrArg (fun tag => tag.toList.head?) h
  rw [head?_tag, head?_tag] at hfirst
  obtain rfl := initial_injective (Option.some.inj hfirst)
  have hlist := congrArg String.toList h
  rw [String.toList_append, String.toList_append] at hlist
  exact ⟨rfl, String.toList_injective (List.append_cancel_left hlist)⟩

theorem tagsForScope_subset {a b : Scope String} :
    tagsForScope a ⊆ tagsForScope b ↔ Refines b a := by
  constructor
  · intro h label text htext
    obtain ⟨label', text', htext', heq⟩ :=
      mem_tagsForScope.mp (h (mem_tagsForScope.mpr ⟨label, text, htext, rfl⟩))
    obtain ⟨rfl, rfl⟩ := tag_injective heq
    exact (nonEmpty_eq_some.mp htext').1
  · intro h tag htag
    obtain ⟨label, text, htext, rfl⟩ := mem_tagsForScope.mp htag
    have hb := nonEmpty_eq_some.mpr ⟨h label text htext, (nonEmpty_eq_some.mp htext).2⟩
    exact mem_tagsForScope.mpr ⟨label, text, hb, rfl⟩

theorem requestedTags_append {items : Items} {tags : List String}
    (h : items.lookup "tags" = none) :
    requestedTags (items ++ if tags = [] then []
      else [("tags", .list (tags.map .str)), ("tags_match", .str "all_strict")]) =
      tags.map .str := by
  unfold requestedTags Items.get
  rw [Items.lookup_append, h]
  by_cases htags : tags = []
  · rw [if_pos htags, htags]
    rfl
  · rw [if_neg htags]
    rfl

theorem requestedTags_recall (query : String) (scope : Scope String) (config : Config)
    (maxTokens : Option ℤ) :
    requestedTags (buildRecallRequest query scope config maxTokens) =
      (tagsForScope scope).map .str := by
  refine requestedTags_append ?_
  rw [Items.lookup_append, lookup_optItem]
  rfl

theorem requestedTags_reflect (query : String) (scope : Scope String) :
    requestedTags (buildReflectRequest query scope) = (tagsForScope scope).map .str :=
  @requestedTags_append [("query", .str query)] _ rfl

theorem storedTags_retain (input : IngestInput) :
    storedTags (buildRetainRequest input) = (tagsForScope input.scope).map .str :=
  List.append_nil _

inductive Reading
  | search (request : SearchRequest)
  | package (request : PackageRequest)
  | reflect (query : String) (scope : Scope String)

inductive Writing
  | ingest (input : IngestInput) (hmode : input.isVerbatim = false)
  | retain (input : IngestInput)

def Reading.scope : Reading → Scope String
  | search request => request.scope
  | package request => request.scope
  | reflect _ scope => scope

def Writing.scope : Writing → Scope String
  | ingest input _ => input.scope
  | retain input => input.scope

section

variable (p : Provider)

def Reading.request (python : Python) (py : Pydantic) (config : Config) :
    Reading → Except PyError HttpRequest
  | search request => (p.search python py config request).map Call.request
  | package request => (p.package python py config request).map Call.request
  | reflect query scope => (p.reflect query scope).map Call.request

def Writing.request (py : Pydantic) (bool : PyValue → Option Bool) :
    Writing → Except PyError HttpRequest
  | ingest input _ => (p.ingest py bool input).map Call.request
  | retain input => (p.retain py bool input).map Call.request

end

def readSuffixes : List (List Char) := ["/memories/recall".toList, "/reflect".toList]

/-- A backend that matches a memory when it carries all the tags that are asked for shows what
the one request stores to the other. -/
def Sees (read write : HttpRequest) : Prop :=
  ∃ bank, ∃ suffix ∈ readSuffixes, ∃ asked stored,
    read = ⟨"POST", bank ++ suffix, some asked⟩ ∧
    write = ⟨"POST", bank ++ "/memories".toList, some stored⟩ ∧
    ∀ tag ∈ requestedTags asked, tag ∈ storedTags stored

variable {p : Provider}

theorem missing_requiredScope {scope : Scope String} (huser : nonEmpty scope.user ≠ none) :
    missingScopeFields scope requiredScope = [] := by
  obtain ⟨user, hsome⟩ := Option.ne_none_iff_exists'.mp huser
  obtain ⟨hsome, hne⟩ := nonEmpty_eq_some.mp hsome
  have hlabel : (scope.label "user").getD "" = user := congrArg (Option.getD · "") hsome
  refine List.filter_eq_nil_iff.mpr fun name hname => ?_
  rw [List.mem_singleton.mp hname, decide_eq_true_eq, hlabel]
  exact hne

theorem bankIdForScope_injective {a b : Scope String} (ha : nonEmpty a.user ≠ none)
    (hb : nonEmpty b.user ≠ none) (h : bankIdForScope a = bankIdForScope b) :
    a.user = b.user := by
  obtain ⟨user, hsome⟩ := Option.ne_none_iff_exists'.mp ha
  obtain ⟨user', hsome'⟩ := Option.ne_none_iff_exists'.mp hb
  have ha := (nonEmpty_eq_some.mp hsome).1
  have hb := (nonEmpty_eq_some.mp hsome').1
  unfold bankIdForScope at h
  rw [ha, hb] at h
  rw [ha, hb]
  exact congrArg some h

theorem bankPath_eq_iff {a b : Scope String} (ha : nonEmpty a.user ≠ none)
    (hb : nonEmpty b.user ≠ none) : p.bankPath a = p.bankPath b ↔ a.user = b.user := by
  constructor
  · intro h
    have hquote := List.append_cancel_left (List.append_cancel_left (List.cons.inj h).2)
    exact bankIdForScope_injective ha hb (String.toList_injective (quote_injective hquote))
  · intro h
    unfold Provider.bankPath bankIdForScope
    rw [h]

/-- A method that needs only the client sends its request once the operation is let through. -/
theorem request_runOperation {α : Type} (hinit : p.initialized = true) {operation : String}
    {scope : Scope String} (huser : nonEmpty scope.user ≠ none) (inner : Call α) :
    (runOperation p.initialized requiredScope operation scope (do
      requireClient p.initialized
      .ok inner)).map Call.request = .ok inner.request := by
  rw [hinit]
  obtain ⟨call, hcall, hrequest, -⟩ :=
    @runOperation_ready _ requiredScope operation _ (missing_requiredScope huser) inner
  rw [← hrequest]
  exact congrArg (Except.map Call.request) hcall

theorem request_reading (hinit : p.initialized = true) (python : Python) (py : Pydantic)
    (config : Config) {reading : Reading} (huser : nonEmpty reading.scope.user ≠ none) :
    ∃ suffix ∈ readSuffixes, ∃ asked, reading.request p python py config =
        .ok ⟨"POST", p.bankPath reading.scope ++ suffix, some asked⟩ ∧
      requestedTags asked = (tagsForScope reading.scope).map .str := by
  cases reading with
  | search request =>
    exact ⟨_, .head _, _, request_runOperation hinit huser _,
      requestedTags_recall request.query request.scope config none⟩
  | package request =>
    exact ⟨_, .head _, _, request_runOperation hinit huser _,
      requestedTags_recall request.query request.scope config request.tokenBudget⟩
  | reflect query scope =>
    exact ⟨_, .tail _ (.head _), _, request_runOperation hinit huser _,
      requestedTags_reflect query scope⟩

theorem request_writing (hinit : p.initialized = true) (py : Pydantic)
    (bool : PyValue → Option Bool) {writing : Writing}
    (huser : nonEmpty writing.scope.user ≠ none) :
    ∃ stored, writing.request p py bool =
        .ok ⟨"POST", p.bankPath writing.scope ++ "/memories".toList, some stored⟩ ∧
      storedTags stored = (tagsForScope writing.scope).map .str := by
  cases writing with
  | ingest input hmode =>
    refine ⟨buildRetainRequest input, ?_, storedTags_retain input⟩
    change (runOperation _ _ _ _ (p.doIngest py bool input)).map _ = _
    unfold Provider.doIngest
    rw [if_neg (Bool.eq_false_iff.mp hmode)]
    exact request_runOperation hinit huser _
  | retain input => exact ⟨_, request_runOperation hinit huser _, storedTags_retain input⟩

theorem readSuffixes_unique {bank bank' suffix suffix' : List Char} (h : suffix ∈ readSuffixes)
    (h' : suffix' ∈ readSuffixes) (heq : bank ++ suffix = bank' ++ suffix') : bank = bank' := by
  have hlast : ∀ s ∈ readSuffixes, ∀ t ∈ readSuffixes, s.getLast? = t.getLast? → s = t := by
    decide
  have hne : ∀ s ∈ readSuffixes, s ≠ [] := by decide
  have hend := congrArg List.getLast? heq
  rw [List.getLast?_append_of_ne_nil _ (hne suffix h),
    List.getLast?_append_of_ne_nil _ (hne suffix' h')] at hend
  rw [hlast suffix h suffix' h' hend] at heq
  exact List.append_cancel_right heq

theorem str_tags_subset {s t : List String} :
    (∀ tag ∈ s.map PyValue.str, tag ∈ t.map PyValue.str) ↔ s ⊆ t := by
  rw [List.forall_mem_map]
  exact forall₂_congr fun tag _ => List.mem_map_of_injective fun _ _ h => PyValue.str.inj h

/-- What a reading call and a storing call send for scopes with users: the same bank exactly for
the same user, and tags all stored exactly for a scope that refines the reading one. -/
theorem reading_sees_iff (hinit : p.initialized = true) (python : Python) (py : Pydantic)
    (config : Config) (bool : PyValue → Option Bool) (reading : Reading) (writing : Writing)
    (hreading : nonEmpty reading.scope.user ≠ none)
    (hwriting : nonEmpty writing.scope.user ≠ none) :
    ∃ suffix ∈ readSuffixes, ∃ asked stored read write,
      reading.request p python py config = .ok read ∧ writing.request p py bool = .ok write ∧
      read = ⟨"POST", p.bankPath reading.scope ++ suffix, some asked⟩ ∧
      write = ⟨"POST", p.bankPath writing.scope ++ "/memories".toList, some stored⟩ ∧
      (p.bankPath reading.scope = p.bankPath writing.scope ↔
        reading.scope.user = writing.scope.user) ∧
      ((∀ tag ∈ requestedTags asked, tag ∈ storedTags stored) ↔
        Refines writing.scope reading.scope) ∧
      (Sees read write ↔
        reading.scope.user = writing.scope.user ∧ Refines writing.scope reading.scope) := by
  obtain ⟨suffix, hsuffix, asked, hread, hasked⟩ := request_reading hinit python py config hreading
  obtain ⟨stored, hwrite, hstored⟩ := request_writing hinit py bool hwriting
  have hbank := bankPath_eq_iff (p := p) hreading hwriting
  have htags : (∀ tag ∈ requestedTags asked, tag ∈ storedTags stored) ↔
      Refines writing.scope reading.scope := by
    rw [hasked, hstored, str_tags_subset, tagsForScope_subset]
  refine ⟨suffix, hsuffix, asked, stored, _, _, hread, hwrite, rfl, rfl, hbank, htags, ?_⟩
  constructor
  · rintro ⟨bank, suffix', hsuffix', asked', stored', hread', hwrite', h⟩
    obtain ⟨-, hreadPath, hasked'⟩ := HttpRequest.mk.inj hread'
    obtain ⟨-, hwritePath, hstored'⟩ := HttpRequest.mk.inj hwrite'
    rw [← Option.some.inj hasked', ← Option.some.inj hstored'] at h
    have hsame : p.bankPath reading.scope = p.bankPath writing.scope :=
      (readSuffixes_unique hsuffix hsuffix' hreadPath).trans
        (List.append_cancel_right hwritePath).symm
    exact ⟨hbank.mp hsame, htags.mp h⟩
  · rintro ⟨huser, hrefines⟩
    refine ⟨p.bankPath reading.scope, suffix, hsuffix, asked, stored, rfl, ?_, htags.mpr hrefines⟩
    rw [hbank.mpr huser]

/-- A reflection on a thread of a user is shown what an agent retains in it. -/
theorem reading_sees_iff_thread :
    ∃ read write,
      (Reading.reflect "q" ⟨some "u", none, none, some "t"⟩).request ⟨[], [], true⟩
        Python.reference Pydantic.reference ⟨none, none⟩ = .ok read ∧
      (Writing.retain ⟨⟨some "u", some "thread:t", none, some "t"⟩, none, none, none,
        .text "x"⟩).request ⟨[], [], true⟩ Pydantic.reference (fun _ => none) = .ok write ∧
      Sees read write := by
  obtain ⟨-, -, -, -, read, write, hread, hwrite, -, -, -, -, hsees⟩ :=
    reading_sees_iff (p := ⟨[], [], true⟩) rfl Python.reference Pydantic.reference ⟨none, none⟩
      (fun _ => none) (.reflect "q" ⟨some "u", none, none, some "t"⟩)
      (.retain ⟨⟨some "u", some "thread:t", none, some "t"⟩, none, none, none, .text "x"⟩)
      (by decide) (by decide)
  refine ⟨read, write, hread, hwrite, hsees.mpr ⟨rfl, fun label text h => ?_⟩⟩
  cases label with
  | agent => cases h
  | nameSpace => cases h
  | thread => exact h

end AtomicMemory.HindsightProvider
