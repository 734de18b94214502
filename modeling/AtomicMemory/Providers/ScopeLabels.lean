import AtomicMemory.Providers.AtomicMemoryProvider
import AtomicMemory.Providers.HindsightProvider
import AtomicMemory.Providers.RequestTargets

-- Where the labels of listed memories come from: a filter that was sent, the backend's
-- record, or only the caller's own scope.

open PercentEncoding
open AtomicMemory.Route (decoded userParam numberParam threadParams pageParams mem0Rest)
open PyValue hiding none

namespace AtomicMemory

inductive Label
  | agent
  | nameSpace
  | thread
  deriving DecidableEq

def Scope.at {α : Type} (scope : Scope α) : Label → Option α
  | .agent => scope.agent
  | .nameSpace => scope.nameSpace
  | .thread => scope.thread

@[simp] theorem Scope.map_at {α β : Type} (f : α → β) (scope : Scope α) (label : Label) :
    (scope.map f).at label = (scope.at label).map f := by
  cases label <;> rfl

/-- A provider whose `list` is called. -/
inductive Lister
  | atomicMemory (p : AtomicMemoryProvider.Provider)
  | mem0 (p : Mem0Provider.Provider)
  | hindsight (p : HindsightProvider.Provider)

namespace Lister

/-- `list`, with the scopes that the returned memories carry. -/
def list (python : Python) (request : ListRequest) :
    Lister → Except PyError (Call (List (Scope PyValue)))
  | atomicMemory p => (p.list python request).map (·.map fun page => page.memories.map (·.scope))
  | mem0 p =>
    (p.list python request).map (·.map fun page => page.memories.map (·.scope.map .str))
  | hindsight p =>
    (p.list python request).map (·.map fun page => page.memories.map (·.scope.map .str))

def records (body : PyValue) : Lister → List PyValue
  | atomicMemory _ => AtomicMemoryProvider.records body
  | mem0 _ => Mem0Provider.unwrapMem0Array body
  | hindsight _ =>
    match getD body "items" .none with
    | .ok (.list rows) => rows
    | _ => []

/-- The query field that asks a backend for a label. The hindsight backend takes tags, and
no name is known for mem0's namespace but the label's own. -/
def filterField (label : Label) (value : String) : Lister → String × String
  | atomicMemory _ =>
    match label with
    | .agent => ("agent_id", value)
    | .nameSpace => ("namespace_scope", value)
    | .thread => ("session_id", value)
  | mem0 _ =>
    match label with
    | .agent => ("agent_id", value)
    | .nameSpace => ("namespace", value)
    | .thread => ("run_id", value)
  | hindsight _ =>
    match label with
    | .agent => ("tags", "agent:" ++ value)
    | .nameSpace => ("tags", "namespace:" ++ value)
    | .thread => ("tags", "thread:" ++ value)

def listRoot (scope : Scope String) : Lister → List Char
  | atomicMemory p => p.route "/memories/list?".toList
  | mem0 p => p.path "/memories/?".toList
  | hindsight p => p.bankPath scope ++ "/memories/list?".toList

def HasField (query : List Char) (field : String × String) : Prop :=
  (utf8 field.1.toList, utf8 field.2.toList) ∈ formDecode (query.takeWhile (· ≠ '#'))

def Sent (lister : Lister) (scope : Scope String) (request : HttpRequest) (label : Label)
    (v : PyValue) : Prop :=
  ∃ value query, v = .str value ∧ request.path = lister.listRoot scope ++ query ∧
    HasField query (lister.filterField label value)

def recordField (label : Label) : Lister → String
  | atomicMemory _ =>
    match label with
    | .agent => "agent_id"
    | .nameSpace => "namespace"
    | .thread => "session_id"
  | mem0 _ =>
    match label with
    | .agent => "agent_id"
    | .nameSpace => "namespace"
    | .thread => "run_id"
  | hindsight _ => "tags"

def Reports (lister : Lister) (record : PyValue) (label : Label) (v : PyValue) : Prop :=
  ∃ items, record = .dict items ∧
    match lister with
    | hindsight _ => ∃ value tags, v = .str value ∧ items.lookup "tags" = some (.list tags) ∧
        .str (lister.filterField label value).2 ∈ tags
    | _ => items.lookup (lister.recordField label) = some v

/-- Every label that is set was sent in the request or is the record's own. -/
def Honest (lister : Lister) (scope : Scope String) (request : HttpRequest) (record : PyValue)
    (labels : Scope PyValue) : Prop :=
  ∀ label v, labels.at label = some v →
    lister.Sent scope request label v ∨ lister.Reports record label v

/-- A user that puts the field into mem0's query, where it goes as it is. -/
def Smuggles (user : String) (field : String × String) : Prop :=
  (utf8 field.1.toList, utf8 field.2.toList) ∈
    formDecode ("user_id=".toList ++ user.toList.takeWhile (· ≠ '#'))

instance (user : String) (field : String × String) : Decidable (Smuggles user field) :=
  inferInstanceAs (Decidable (_ ∈ _))

/-- The request has the label as a filter: only the thread, and only for AtomicMemory, or
by way of a user that spells it out. -/
def Filters (scope : Scope String) (label : Label) (value : String) : Lister → Prop
  | atomicMemory _ => label = .thread
  | lister@(mem0 _) => Smuggles (scope.user.getD "") (lister.filterField label value)
  | hindsight _ => False

def Backed (lister : Lister) (scope : Scope String) (body : PyValue) : Prop :=
  ∀ label value, scope.at label = some value → lister.Filters scope label value ∨
    ∀ record ∈ lister.records body, lister.Reports record label (.str value)

def LabelledBy (lister : Lister) (scope : Scope String) (record : PyValue)
    (labels : Scope PyValue) : Prop :=
  ∃ items, record = .dict items ∧
    match lister with
    | atomicMemory _ => AtomicMemoryProvider.buildScope items scope = .ok labels
    | _ => labels = scope.map .str

section

variable {python : Python} {request : ListRequest}

/-- Every memory of a page comes from its own record, with labels of that record and the
scope. -/
theorem list_labelled {lister : Lister} {call : Call (List (Scope PyValue))}
    (h : lister.list python request = .ok call) {outcome : HttpOutcome}
    {scopes : List (Scope PyValue)} (hscopes : call.receive outcome = .ok scopes) :
    ∃ status body, outcome = .response status (some body) ∧
      List.Forall₂ (lister.LabelledBy request.scope) (lister.records body) scopes := by
  cases lister with
  | atomicMemory p =>
    obtain ⟨inner, hinner, rfl⟩ := Except.of_map_ok h
    obtain ⟨page, hpage, rfl⟩ := Except.of_map_ok hscopes
    obtain ⟨offset, -, -, hreceive⟩ := AtomicMemoryProvider.Provider.list_ok hinner
    obtain ⟨status, body, rfl, hmapped⟩ := hreceive outcome page hpage
    refine ⟨status, body, rfl, List.forall₂_map_right_iff.mpr (hmapped.imp ?_)⟩
    rintro record m ⟨k, hm⟩
    obtain ⟨items, rfl, -, hlabels⟩ := AtomicMemoryProvider.toMemory_ok python hm
    exact ⟨items, rfl, hlabels⟩
  | mem0 p =>
    obtain ⟨inner, hinner, rfl⟩ := Except.of_map_ok h
    obtain ⟨page, hpage, rfl⟩ := Except.of_map_ok hscopes
    obtain ⟨offset, number, -, -, -, hreceive⟩ := Mem0Provider.Provider.list_ok hinner
    obtain ⟨status, body, rfl, hmapped⟩ := hreceive outcome page hpage
    refine ⟨status, body, rfl, List.forall₂_map_right_iff.mpr (hmapped.imp ?_)⟩
    rintro record m ⟨k, hm⟩
    obtain ⟨items, rfl, hlabels⟩ := Mem0Provider.toMemory_ok hm
    exact ⟨items, rfl, by rw [hlabels]⟩
  | hindsight p =>
    obtain ⟨inner, hinner, rfl⟩ := Except.of_map_ok h
    obtain ⟨page, hpage, rfl⟩ := Except.of_map_ok hscopes
    obtain ⟨offset, -, hreceive⟩ := HindsightProvider.Provider.list_ok hinner
    obtain ⟨status, body, rows, rfl, hrows, hmapped⟩ := hreceive outcome page hpage
    have hrecords : (hindsight p).records body = rows := by simp only [records, hrows]
    refine ⟨status, body, rfl, hrecords ▸ List.forall₂_map_right_iff.mpr (hmapped.imp ?_)⟩
    intro record m hm
    obtain ⟨items, rfl, hlabels⟩ := HindsightProvider.toMemory_ok hm
    exact ⟨items, rfl, by rw [hlabels]⟩

end

theorem not_mem_decoded {name value : List Char} {params : List (List Char × List Char)}
    (h : ∀ param ∈ params, utf8 name ≠ utf8 param.1) :
    (utf8 name, utf8 value) ∉ decoded params := by
  intro hmem
  obtain ⟨param, hparam, heq⟩ := List.mem_map.mp hmem
  exact h param hparam (Prod.mk.inj heq).1.symm

theorem hasField_urlencode (params : List (List Char × List Char)) (field : String × String) :
    HasField (urlencode params) field ↔
      (utf8 field.1.toList, utf8 field.2.toList) ∈ decoded params := by
  have htake : (urlencode params).takeWhile (· ≠ '#') = urlencode params := by
    rw [List.takeWhile_eq_self_iff]
    intro c hc
    rw [decide_eq_true_eq]
    rintro rfl
    exact hash_not_mem_urlencode params hc
  rw [HasField, htake, formDecode_urlencode]
  rfl

theorem sent_iff_hasField {lister : Lister} {scope : Scope String} {request : HttpRequest}
    {query : List Char} (hpath : request.path = lister.listRoot scope ++ query) (label : Label)
    (value : String) : lister.Sent scope request label (.str value) ↔
      HasField query (lister.filterField label value) := by
  constructor
  · rintro ⟨value', query', hvalue, hpath', hfield⟩
    cases hvalue
    rw [hpath] at hpath'
    rwa [List.append_cancel_left hpath']
  · exact fun hfield => ⟨value, query, rfl, hpath, hfield⟩

theorem atomicMemory_hasField_iff {p : AtomicMemoryProvider.Provider} {scope : Scope String}
    (limit offset : ℤ) {label : Label} {value : String} (hvalue : scope.at label = some value) :
    HasField (urlencode ([userParam scope, numberParam "limit" limit,
        numberParam "offset" offset] ++ threadParams scope))
      ((atomicMemory p).filterField label value) ↔ label = .thread := by
  have hother (name : String) (h : ∀ known ∈ ["user_id", "limit", "offset", "session_id"],
      utf8 name.toList ≠ utf8 known.toList) :
      ¬ HasField (urlencode ([userParam scope, numberParam "limit" limit,
        numberParam "offset" offset] ++ threadParams scope)) (name, value) := by
    rw [hasField_urlencode]
    refine not_mem_decoded fun param hparam => ?_
    have hthread : param ∈ threadParams scope → param.1 = "session_id".toList := by
      unfold threadParams
      split
      · intro h
        rw [List.mem_singleton.mp h]
      · exact nofun
    simp only [List.mem_append, List.mem_cons, List.not_mem_nil, or_false] at hparam
    rcases hparam with (rfl | rfl | rfl) | hparam
    · exact h "user_id" (by decide)
    · exact h "limit" (by decide)
    · exact h "offset" (by decide)
    · rw [hthread hparam]
      exact h "session_id" (by decide)
  -- of the labels only the thread is a parameter
  cases label with
  | agent => exact ⟨fun h => absurd h (hother "agent_id" (by decide)), nofun⟩
  | nameSpace => exact ⟨fun h => absurd h (hother "namespace_scope" (by decide)), nofun⟩
  | thread =>
    have hthread : scope.thread = some value := hvalue
    refine ⟨fun _ => rfl, fun _ => ?_⟩
    rw [hasField_urlencode, threadParams, hthread]
    exact List.mem_map.mpr ⟨("session_id".toList, value.toList), by simp, rfl⟩

theorem hindsight_not_hasField {p : HindsightProvider.Provider} (limit offset : ℤ) (label : Label)
    (value : String) : ¬ HasField (HindsightProvider.Provider.listQuery limit offset)
      ((hindsight p).filterField label value) := by
  have hname : ((hindsight p).filterField label value).1 = "tags" := by
    cases label <;> rfl
  rw [HindsightProvider.Provider.listQuery, hasField_urlencode, hname]
  refine not_mem_decoded fun param hparam => ?_
  simp only [List.mem_cons, List.not_mem_nil, or_false] at hparam
  rcases hparam with rfl | rfl
  · exact (by decide : utf8 "tags".toList ≠ utf8 "limit".toList)
  · exact (by decide : utf8 "tags".toList ≠ utf8 "offset".toList)

theorem mem0_hasField_iff (user : String) (limit : ℤ) (page : Option ℤ) (name value : String)
    (hsize : utf8 name.toList ≠ utf8 "page_size".toList)
    (hpage : utf8 name.toList ≠ utf8 "page".toList) :
    HasField ("user_id=".toList ++ (user.toList ++ '&' :: mem0Rest limit page)) (name, value) ↔
      Smuggles user (name, value) := by
  have hname : ∀ c ∈ "user_id=".toList, decide (c ≠ '#') = true := by
    have hhash : '#' ∉ "user_id=".toList := by decide
    intro c hc
    rw [decide_eq_true_eq]
    rintro rfl
    exact hhash hc
  unfold HasField Smuggles
  rw [List.takeWhile_append_of_pos hname]
  -- a `#` in the user id ends the query, and the other parameters with it
  by_cases hall : ∀ c ∈ user.toList, decide (c ≠ '#') = true
  · have hrest : (mem0Rest limit page).takeWhile (· ≠ '#') = mem0Rest limit page := by
      rw [List.takeWhile_eq_self_iff]
      intro c hc
      rw [decide_eq_true_eq]
      rintro rfl
      exact Route.hash_not_mem_mem0Rest limit page hc
    have hnot : (utf8 name.toList, utf8 value.toList) ∉ formDecode (mem0Rest limit page) := by
      rw [Route.formDecode_mem0Rest]
      refine not_mem_decoded fun param hparam => ?_
      rcases List.mem_cons.mp hparam with rfl | hparam
      · exact hsize
      · cases page with
        | none => cases hparam
        | some n =>
          rw [List.mem_singleton.mp hparam]
          exact hpage
    rw [List.takeWhile_append_of_pos hall, List.takeWhile_cons_of_pos (by decide), hrest,
      List.takeWhile_eq_self_iff.mpr hall, ← List.append_assoc, formDecode_amp, List.mem_append]
    exact or_iff_left hnot
  · rw [takeWhile_append_of_exists (by simpa using hall)]

/-- A request has a label of its scope as a filter just when `Filters` says so. -/
theorem sent_iff {python : Python} {request : ListRequest} {lister : Lister}
    {call : Call (List (Scope PyValue))} (h : lister.list python request = .ok call)
    {label : Label} {value : String} (hvalue : request.scope.at label = some value) :
    lister.Sent request.scope call.request label (.str value) ↔
      lister.Filters request.scope label value := by
  cases lister with
  | atomicMemory p =>
    obtain ⟨inner, hinner, rfl⟩ := Except.of_map_ok h
    obtain ⟨offset, -, hrequest, -⟩ := AtomicMemoryProvider.Provider.list_ok hinner
    have hpath : (inner.map fun page => page.memories.map (·.scope)).request.path =
        (atomicMemory p).listRoot request.scope ++ urlencode ([userParam request.scope,
          numberParam "limit" (request.limit.getD 20), numberParam "offset" offset] ++
            threadParams request.scope) := by
      have hroot : "/memories/list?".toList = "/memories/list".toList ++ ['?'] := by decide
      have heq := Route.buildListPath_eq request.scope (request.limit.getD 20) offset
      rw [Call.map_request, hrequest, listRoot, AtomicMemoryProvider.Provider.route, hroot]
      simp only [AtomicMemoryProvider.Provider.get, AtomicMemoryProvider.Provider.route, heq,
        List.append_assoc, List.singleton_append]
    rw [sent_iff_hasField hpath]
    exact atomicMemory_hasField_iff _ _ hvalue
  | mem0 p =>
    obtain ⟨inner, hinner, rfl⟩ := Except.of_map_ok h
    obtain ⟨offset, page, -, -, hrequest, -⟩ := Mem0Provider.Provider.list_ok hinner
    have hpath : (inner.map fun page => page.memories.map (·.scope.map PyValue.str)).request.path =
        (mem0 p).listRoot request.scope ++ ("user_id=".toList ++
          ((request.scope.user.getD "").toList ++
            '&' :: mem0Rest (request.limit.getD 20) page)) := by
      have hroot : "/memories/?".toList = "/memories/".toList ++ ['?'] := by decide
      have hname : "user_id=".toList = "user_id".toList ++ ['='] := by decide
      have heq := Route.listPath_eq request.scope (request.limit.getD 20) page
      rw [Call.map_request, hrequest, listRoot, Mem0Provider.Provider.path, hroot, hname]
      simp only [Mem0Provider.Provider.path, heq, List.append_assoc, List.cons_append,
        List.nil_append]
    rw [sent_iff_hasField hpath]
    cases label with
    | agent => exact mem0_hasField_iff _ _ _ "agent_id" value (by decide) (by decide)
    | nameSpace => exact mem0_hasField_iff _ _ _ "namespace" value (by decide) (by decide)
    | thread => exact mem0_hasField_iff _ _ _ "run_id" value (by decide) (by decide)
  | hindsight p =>
    obtain ⟨inner, hinner, rfl⟩ := Except.of_map_ok h
    obtain ⟨offset, hrequest, -⟩ := HindsightProvider.Provider.list_ok hinner
    have hpath : (inner.map fun page => page.memories.map (·.scope.map PyValue.str)).request.path =
        (hindsight p).listRoot request.scope ++
          HindsightProvider.Provider.listQuery (HindsightProvider.Provider.limitOf request)
            offset := by
      rw [Call.map_request, hrequest]
      rfl
    rw [sent_iff_hasField hpath]
    exact iff_of_false (hindsight_not_hasField _ _ label value) id

theorem forall₂_iff {α β : Type} {r p : α → β → Prop} {q : α → Prop} {xs : List α} {ys : List β}
    (h : List.Forall₂ r xs ys) (hpq : ∀ x y, r x y → (p x y ↔ q x)) :
    List.Forall₂ p xs ys ↔ ∀ x ∈ xs, q x := by
  induction h with
  | nil => simp
  | cons hr _ ih => rw [List.forall₂_cons, List.forall_mem_cons, hpq _ _ hr, ih]

theorem truthy_ne_none {v : PyValue} (h : v.truthy = true) : v ≠ .none := by
  rintro rfl
  cases h

theorem atomicMemory_honest_iff {p : AtomicMemoryProvider.Provider} {scope : Scope String}
    {request : HttpRequest} {items : Items} {labels : Scope PyValue}
    (h : AtomicMemoryProvider.buildScope items scope = .ok labels)
    (hsent : ∀ label value, scope.at label = some value →
      ((atomicMemory p).Sent scope request label (.str value) ↔
        (atomicMemory p).Filters scope label value)) :
    (atomicMemory p).Honest scope request (.dict items) labels ↔
      ∀ label value, scope.at label = some value → (atomicMemory p).Filters scope label value ∨
        (atomicMemory p).Reports (.dict items) label (.str value) := by
  obtain ⟨hnamespace, hthread, rfl⟩ := AtomicMemoryProvider.buildScope_ok h
  have hreports {label : Label} {v : PyValue}
      (hv : Items.get items ((atomicMemory p).recordField label) = v) (hne : v ≠ .none) :
      (atomicMemory p).Reports (.dict items) label v := ⟨items, rfl, Items.lookup_of_get hv hne⟩
  constructor
  · intro hhonest label value hvalue
    rw [← hsent label value hvalue]
    cases label with
    | agent => exact hhonest .agent (.str value) (congrArg (Option.map PyValue.str) hvalue)
    | nameSpace =>
      -- a label that the record has is reported, and the requested one otherwise
      by_cases htruthy : (Items.get items "namespace").truthy = true
      · rcases hnamespace value hvalue with hnone | htext
        · rw [hnone] at htruthy
          cases htruthy
        · exact .inr (hreports htext nofun)
      · refine hhonest .nameSpace (.str value) ((if_neg htruthy).trans ?_)
        exact congrArg (Option.map PyValue.str) hvalue
    | thread => exact .inl ((hsent .thread value hvalue).mpr rfl)
  · intro hbacked label v hv
    have hscope (hlabel : (scope.at label).map PyValue.str = some v) :
        (atomicMemory p).Sent scope request label v ∨
          (atomicMemory p).Reports (.dict items) label v := by
      obtain ⟨value, hvalue, rfl⟩ := Option.map_eq_some_iff.mp hlabel
      rw [hsent label value hvalue]
      exact hbacked label value hvalue
    cases label with
    | agent => exact hscope hv
    | nameSpace =>
      by_cases htruthy : (Items.get items "namespace").truthy = true
      · have hget := Option.some.inj ((if_pos htruthy).symm.trans hv)
        exact .inr (hreports hget (hget ▸ truthy_ne_none htruthy))
      · exact hscope ((if_neg htruthy).symm.trans hv)
    | thread =>
      by_cases htruthy : (Items.get items "session_id").truthy = true
      · have hget := Option.some.inj ((if_pos htruthy).symm.trans hv)
        exact .inr (hreports hget (hget ▸ truthy_ne_none htruthy))
      · exact hscope ((if_neg htruthy).symm.trans hv)

theorem honest_record_iff {lister : Lister} {scope : Scope String} {request : HttpRequest}
    {record : PyValue} {labels : Scope PyValue} (h : lister.LabelledBy scope record labels)
    (hsent : ∀ label value, scope.at label = some value →
      (lister.Sent scope request label (.str value) ↔ lister.Filters scope label value)) :
    lister.Honest scope request record labels ↔
      ∀ label value, scope.at label = some value → lister.Filters scope label value ∨
        lister.Reports record label (.str value) := by
  have hcopied (hlabels : labels = scope.map .str) : lister.Honest scope request record labels ↔
      ∀ label value, scope.at label = some value → lister.Filters scope label value ∨
        lister.Reports record label (.str value) := by
    subst hlabels
    constructor
    · intro hhonest label value hvalue
      rw [← hsent label value hvalue]
      exact hhonest label (.str value) (by rw [Scope.map_at, hvalue, Option.map_some])
    · intro hbacked label v hv
      rw [Scope.map_at] at hv
      obtain ⟨value, hvalue, rfl⟩ := Option.map_eq_some_iff.mp hv
      rw [hsent label value hvalue]
      exact hbacked label value hvalue
  obtain ⟨items, rfl, hlabels⟩ := h
  cases lister with
  | atomicMemory p => exact atomicMemory_honest_iff hlabels hsent
  | mem0 p => exact hcopied hlabels
  | hindsight p => exact hcopied hlabels

/-- The memories of a page carry honest labels exactly when each label of the scope is a
filter of the request or is every record's own. -/
theorem honest_iff_backed {python : Python} {request : ListRequest} {lister : Lister}
    {call : Call (List (Scope PyValue))} (h : lister.list python request = .ok call)
    {status : ℕ} {body : PyValue} {scopes : List (Scope PyValue)}
    (hscopes : call.receive (.response status (some body)) = .ok scopes) :
    List.Forall₂ (lister.Honest request.scope call.request) (lister.records body) scopes ↔
      lister.Backed request.scope body := by
  obtain ⟨status', body', heq, hlabelled⟩ := list_labelled h hscopes
  cases heq
  have hrecords : List.Forall₂ (lister.Honest request.scope call.request) (lister.records body)
      scopes ↔ ∀ record ∈ lister.records body, ∀ label value, request.scope.at label = some value →
        lister.Filters request.scope label value ∨ lister.Reports record label (.str value) :=
    forall₂_iff hlabelled fun record labels hrecord =>
      honest_record_iff hrecord fun label value hvalue => sent_iff h hvalue
  rw [hrecords]
  constructor
  · intro hall label value hvalue
    by_cases hfilters : lister.Filters request.scope label value
    · exact .inl hfilters
    · right
      intro record hrecord
      exact (hall record hrecord label value hvalue).resolve_left hfilters
  · intro hbacked record hrecord label value hvalue
    exact (hbacked label value hvalue).imp_right fun hreports => hreports record hrecord

def threadRequest : ListRequest := ⟨⟨some "u1", none, none, some "t1"⟩, none, none⟩

def coreBody : PyValue :=
  .dict [("memories", .list [.dict [("id", .str "m1"), ("content", .str "text"),
    ("session_id", .str "t1")]])]

/-- AtomicMemory filters by the thread, and the record reports it too. -/
theorem honest_iff_backed_thread :
    ∃ call scopes, (atomicMemory ⟨"/v1".toList, true, none⟩).list .reference threadRequest =
        .ok call ∧ call.receive (.response 200 (some coreBody)) = .ok scopes ∧ scopes ≠ [] ∧
      List.Forall₂ ((atomicMemory ⟨"/v1".toList, true, none⟩).Honest threadRequest.scope call.request)
        ((atomicMemory ⟨"/v1".toList, true, none⟩).records coreBody) scopes := by
  have hcall : (atomicMemory ⟨"/v1".toList, true, none⟩).list .reference threadRequest = .ok _ := rfl
  refine ⟨_, _, hcall, rfl, nofun, (@honest_iff_backed _ _ _ _ hcall 200 coreBody _ rfl).mpr ?_⟩
  intro label value hvalue
  cases label with
  | agent => cases hvalue
  | nameSpace => cases hvalue
  | thread => exact .inl rfl

def mem0Body : PyValue := .list [.dict [("id", .str "m1"), ("memory", .str "text")]]

/-- Mem0 is not asked for the thread, and the memory it returns is labelled with it. -/
theorem not_always_honest :
    ∃ call scopes, (mem0 ⟨"/v1".toList, true⟩).list .reference threadRequest = .ok call ∧
      call.receive (.response 200 (some mem0Body)) = .ok scopes ∧
      ¬ List.Forall₂ ((mem0 ⟨"/v1".toList, true⟩).Honest threadRequest.scope call.request)
        ((mem0 ⟨"/v1".toList, true⟩).records mem0Body) scopes := by
  have hcall : (mem0 ⟨"/v1".toList, true⟩).list .reference threadRequest = .ok _ := rfl
  refine ⟨_, _, hcall, rfl, fun h => ?_⟩
  rcases (List.forall₂_cons.mp h).1 .thread (.str "t1") rfl with hsent | ⟨items, heq, hreports⟩
  · rw [sent_iff hcall rfl] at hsent
    exact absurd hsent (by decide : ¬ Smuggles "u1" ("run_id", "t1"))
  · cases heq
    cases hreports

end Lister

end AtomicMemory
