import AtomicMemory.Providers.AtomicMemoryProvider
import AtomicMemory.Providers.Mem0Provider

-- What the targets that the AtomicMemory and Mem0 providers build say to whoever splits and
-- decodes them.

open PercentEncoding

namespace AtomicMemory

inductive Route
  | atomicMemoryGet (ref : MemoryRef)
  | atomicMemoryDelete (ref : MemoryRef)
  | atomicMemoryHistory (ref : MemoryRef)
  | atomicMemoryList (request : ListRequest)
  | mem0Get (ref : MemoryRef)
  | mem0Delete (ref : MemoryRef)
  | mem0List (request : ListRequest)

structure Providers where
  atomicMemory : AtomicMemoryProvider.Provider
  mem0 : Mem0Provider.Provider
  python : Python

namespace Route

section

variable (ps : Providers)

def target : Route → Except PyError (List Char)
  | atomicMemoryGet ref => (ps.atomicMemory.getMemory ps.python ref).map (·.request.path)
  | atomicMemoryDelete ref => (ps.atomicMemory.delete ref).map (·.request.path)
  | atomicMemoryHistory ref => (ps.atomicMemory.history ps.python ref).map (·.request.path)
  | atomicMemoryList request => (ps.atomicMemory.list ps.python request).map (·.request.path)
  | mem0Get ref => (ps.mem0.get ps.python ref).map (·.request.path)
  | mem0Delete ref => (ps.mem0.delete ref).map (·.request.path)
  | mem0List request => (ps.mem0.list ps.python request).map (·.request.path)

end

def decoded (params : List (List Char × List Char)) : List (List UInt8 × List UInt8) :=
  params.map fun pair => (utf8 pair.1, utf8 pair.2)

/-- The id is one segment between two parts of the path, and the query has these fields
and no others. -/
def MemoryTarget (target before id after : List Char) (params : List (List Char × List Char)) :
    Prop :=
  HasSegment target before after id ∧ formQuery target = decoded params

/-- The path is this one, and the query has these fields and no others. -/
def ListTarget (target path : List Char) (params : List (List Char × List Char)) : Prop :=
  targetPath target = path ∧ formQuery target = decoded params

def userParam (scope : Scope String) : List Char × List Char :=
  ("user_id".toList, (scope.user.getD "").toList)

def numberParam (name : String) (n : ℤ) : List Char × List Char :=
  (name.toList, (toString n).toList)

def threadParams (scope : Scope String) : List (List Char × List Char) :=
  match scope.thread with
  | some thread => [("session_id".toList, thread.toList)]
  | none => []

def pageParams : Option ℤ → List (List Char × List Char)
  | some page => [numberParam "page" page]
  | none => []

section

variable (ps : Providers)

def Intact (target : List Char) : Route → Prop
  | atomicMemoryGet ref | atomicMemoryDelete ref =>
    MemoryTarget target (ps.atomicMemory.apiPrefix ++ "/memories/".toList) ref.id.toList []
      [userParam ref.scope]
  | atomicMemoryHistory ref =>
    MemoryTarget target (ps.atomicMemory.apiPrefix ++ "/memories/".toList) ref.id.toList
      "/audit".toList [userParam ref.scope]
  | atomicMemoryList request => ∃ offset, startOffset ps.python request.cursor = .ok offset ∧
    ListTarget target (ps.atomicMemory.apiPrefix ++ "/memories/list".toList)
      ([userParam request.scope, numberParam "limit" (request.limit.getD 20),
        numberParam "offset" offset] ++ threadParams request.scope)
  | mem0Get ref | mem0Delete ref =>
    MemoryTarget target (ps.mem0.pathPrefix ++ "/memories/".toList) ref.id.toList ['/'] []
  | mem0List request => ∃ offset page, startOffset ps.python request.cursor = .ok offset ∧
    Mem0Provider.Provider.pageOf offset (request.limit.getD 20) = .ok page ∧
    ListTarget target (ps.mem0.pathPrefix ++ "/memories/".toList)
      ([userParam request.scope, numberParam "page_size" (request.limit.getD 20)] ++
        pageParams page)

/-- What goes into the target as it is holds nothing that a target is split at, and no
escape. -/
def Plain : Route → Prop
  | atomicMemoryGet ref | atomicMemoryDelete ref | atomicMemoryHistory ref =>
    PathText ps.atomicMemory.apiPrefix ∧ PlainSegment ref.id.toList
  | atomicMemoryList _ => PathText ps.atomicMemory.apiPrefix
  | mem0Get ref | mem0Delete ref => PathText ps.mem0.pathPrefix ∧ PlainSegment ref.id.toList
  | mem0List request =>
    PathText ps.mem0.pathPrefix ∧ PlainFormValue (request.scope.user.getD "").toList

end

theorem pathText_root (root : List Char) {rest : List Char} (h : PathText rest) :
    PathText (root ++ rest) ↔ PathText root :=
  pathText_append.trans ⟨And.left, fun hroot => ⟨hroot, h⟩⟩

theorem memoryTarget_iff {before after query : List Char} (id : List Char)
    {params : List (List Char × List Char)} (hafter : PathText after) (hquery : '#' ∉ query)
    (hparams : formDecode query = decoded params) :
    MemoryTarget (before ++ id ++ after ++ '?' :: query) before id after params ↔
      PathText before ∧ PlainSegment id := by
  have hsegment := hasSegment_raw_iff before id hafter (.inr ⟨query, rfl⟩)
  refine ⟨fun h => hsegment.mp h.1, fun h => ⟨hsegment.mpr h, ?_⟩⟩
  have hpath : PathText (before ++ id ++ after) :=
    pathText_append.mpr ⟨pathText_append.mpr ⟨h.1, h.2.2.1⟩, hafter⟩
  rw [formQuery_eq hpath hquery, hparams]

theorem memoryTarget_nil_iff {before after : List Char} (id : List Char) (hafter : PathText after) :
    MemoryTarget (before ++ id ++ after) before id after [] ↔
      PathText before ∧ PlainSegment id := by
  have hsegment := hasSegment_raw_iff before id hafter (.inl rfl)
  rw [List.append_nil] at hsegment
  refine ⟨fun h => hsegment.mp h.1, fun h => ⟨hsegment.mpr h, ?_⟩⟩
  exact formQuery_nil (pathText_append.mpr ⟨pathText_append.mpr ⟨h.1, h.2.2.1⟩, hafter⟩)

theorem formText_qs (user : Option String) :
    formText (AtomicMemoryProvider.qs user) = utf8 (user.getD "").toList := by
  cases user with
  | none => rfl
  | some value =>
    unfold AtomicMemoryProvider.qs
    dsimp only
    split
    · rename_i hvalue
      rw [hvalue]
      rfl
    · exact formText_quote _

theorem not_mem_qs (user : Option String) {c : Char} (hu : isUnreserved c = false) (hc : c ≠ '%') :
    c ∉ AtomicMemoryProvider.qs user := by
  unfold AtomicMemoryProvider.qs
  split
  · split
    · exact List.not_mem_nil
    · exact not_mem_quote _ hu hc
  · exact List.not_mem_nil

theorem formDecode_qs (scope : Scope String) :
    formDecode ("user_id=".toList ++ AtomicMemoryProvider.qs scope.user) =
      decoded [userParam scope] := by
  have hsplit : "user_id=".toList ++ AtomicMemoryProvider.qs scope.user =
      "user_id".toList ++ '=' :: AtomicMemoryProvider.qs scope.user := rfl
  have hamp : '&' ∉ "user_id".toList ++ '=' :: AtomicMemoryProvider.qs scope.user := by
    simp only [List.mem_append, List.mem_cons, not_or]
    exact ⟨by decide, by decide, not_mem_qs _ (by decide) (by decide)⟩
  rw [hsplit, formDecode_single (by simp) hamp, formPair_append (by decide), formText_qs]
  rfl

theorem hash_not_mem_user (scope : Scope String) :
    '#' ∉ "user_id=".toList ++ AtomicMemoryProvider.qs scope.user := by
  rw [List.mem_append, not_or]
  exact ⟨by decide, not_mem_qs _ (by decide) (by decide)⟩

theorem listTarget_urlencode_iff (path : List Char) (params : List (List Char × List Char)) :
    ListTarget (path ++ '?' :: urlencode params) path params ↔ PathText path := by
  refine ⟨fun h => pathText_of_targetPath h.1, fun h => ⟨targetPath_append h _, ?_⟩⟩
  rw [formQuery_eq h (hash_not_mem_urlencode params), formDecode_urlencode]
  rfl

theorem buildListPath_eq (scope : Scope String) (limit offset : ℤ) :
    AtomicMemoryProvider.buildListPath scope limit offset =
      "/memories/list".toList ++ '?' :: urlencode ([userParam scope, numberParam "limit" limit,
        numberParam "offset" offset] ++ threadParams scope) := by
  unfold AtomicMemoryProvider.buildListPath threadParams
  cases scope.thread <;> rfl

theorem mem_number {n : ℤ} {c : Char} (h : c ∈ (toString n).toList) :
    c.isDigit = true ∨ c = '-' := by
  have hnat (k : ℕ) (hk : c ∈ k.repr.toList) : c.isDigit = true := by
    rw [Nat.repr, String.toList_ofList] at hk
    exact Nat.isDigit_of_mem_toDigits (by decide) (by decide) hk
  rw [Int.toString_eq_repr, Int.repr_eq_if] at h
  split at h
  · exact .inl (hnat _ h)
  · rw [String.toList_append, List.mem_append] at h
    rcases h with h | h
    · exact .inr (by simpa using h)
    · exact .inl (hnat _ h)

theorem not_mem_number (n : ℤ) {c : Char} (hdigit : c.isDigit = false) (hc : c ≠ '-') :
    c ∉ (toString n).toList := by
  intro h
  rcases mem_number h with h | h
  · rw [h] at hdigit
    cases hdigit
  · exact hc h

theorem formText_number (n : ℤ) : formText (toString n).toList = utf8 (toString n).toList :=
  (formText_eq_utf8_iff _).mpr ⟨not_mem_number n (by decide) (by decide),
    hasEscape_eq_false (not_mem_number n (by decide) (by decide))⟩

def mem0Rest (limit : ℤ) (page : Option ℤ) : List Char :=
  "page_size=".toList ++ (toString limit).toList ++ Mem0Provider.Provider.pageParameter page

def numberPiece (name : String) (n : ℤ) : List Char := name.toList ++ '=' :: (toString n).toList

theorem mem0Rest_none (limit : ℤ) : mem0Rest limit none = numberPiece "page_size" limit := by
  unfold mem0Rest numberPiece Mem0Provider.Provider.pageParameter
  generalize (toString limit).toList = text
  exact List.append_nil _

theorem mem0Rest_some (limit page : ℤ) :
    mem0Rest limit (some page) =
      numberPiece "page_size" limit ++ '&' :: numberPiece "page" page := by
  have hpage : Mem0Provider.Provider.pageParameter (some page) =
      "&page=".toList ++ (toString page).toList := rfl
  unfold mem0Rest numberPiece
  rw [hpage]
  generalize (toString limit).toList = limitText
  generalize (toString page).toList = pageText
  simp

theorem formDecode_numberPiece (name : String) (hname : '=' ∉ name.toList ∧ '&' ∉ name.toList)
    (hplain : formText name.toList = utf8 name.toList) (n : ℤ) :
    formDecode (numberPiece name n) = decoded [numberParam name n] ∧
      ∀ rest, formDecode (numberPiece name n ++ '&' :: rest) =
        decoded [numberParam name n] ++ formDecode rest := by
  have hne : numberPiece name n ≠ [] := by simp [numberPiece]
  have hamp : '&' ∉ numberPiece name n := by
    rw [numberPiece, List.mem_append, List.mem_cons, not_or, not_or]
    exact ⟨hname.2, by decide, not_mem_number n (by decide) (by decide)⟩
  have hpair : formPair (numberPiece name n) = (utf8 name.toList, utf8 (toString n).toList) := by
    rw [numberPiece, formPair_append hname.1, formText_number, hplain]
  refine ⟨?_, fun rest => ?_⟩
  · rw [formDecode_single hne hamp, hpair]
    rfl
  · rw [formDecode_append hne hamp, hpair]
    rfl

theorem formDecode_mem0Rest (limit : ℤ) (page : Option ℤ) :
    formDecode (mem0Rest limit page) =
      decoded (numberParam "page_size" limit :: pageParams page) := by
  have hsize := formDecode_numberPiece "page_size" (by decide) (by decide) limit
  cases page with
  | none => rw [mem0Rest_none, hsize.1, pageParams]
  | some page =>
    have hpage := formDecode_numberPiece "page" (by decide) (by decide) page
    rw [mem0Rest_some, hsize.2, hpage.1]
    rfl

theorem hash_not_mem_numberPiece {name : String} (hname : '#' ∉ name.toList) (n : ℤ) :
    '#' ∉ numberPiece name n := by
  rw [numberPiece, List.mem_append, List.mem_cons, not_or, not_or]
  exact ⟨hname, by decide, not_mem_number n (by decide) (by decide)⟩

theorem hash_not_mem_mem0Rest (limit : ℤ) (page : Option ℤ) : '#' ∉ mem0Rest limit page := by
  have hsize : '#' ∉ numberPiece "page_size" limit := hash_not_mem_numberPiece (by decide) limit
  cases page with
  | none => rwa [mem0Rest_none]
  | some page =>
    rw [mem0Rest_some, List.mem_append, List.mem_cons, not_or, not_or]
    exact ⟨hsize, by decide, hash_not_mem_numberPiece (by decide) page⟩

theorem listTarget_raw_iff (path user : List Char) (limit : ℤ) (page : Option ℤ) :
    ListTarget (path ++ '?' :: ("user_id".toList ++ '=' :: (user ++ '&' :: mem0Rest limit page)))
        path ([("user_id".toList, user), numberParam "page_size" limit] ++ pageParams page) ↔
      PathText path ∧ PlainFormValue user := by
  have hname : formText "user_id".toList = utf8 "user_id".toList := by decide
  have hparams : decoded ([("user_id".toList, user), numberParam "page_size" limit] ++
      pageParams page) =
        (formText "user_id".toList, utf8 user) :: formDecode (mem0Rest limit page) := by
    rw [formDecode_mem0Rest, hname]
    rfl
  have hquery (hpath : PathText path) := query_raw_iff user hpath
    (by decide : '=' ∉ "user_id".toList) (by decide) (by decide)
    (hash_not_mem_mem0Rest limit page)
  constructor
  · rintro ⟨hpath, hform⟩
    have hpath := pathText_of_targetPath hpath
    refine ⟨hpath, (hquery hpath).mp ⟨_, targetQuery_append hpath _, ?_⟩⟩
    rw [← hparams, ← hform]
    simp only [formQuery, targetQuery_append hpath]
  · rintro ⟨hpath, hplain⟩
    obtain ⟨query, htarget, hform⟩ := (hquery hpath).mpr hplain
    refine ⟨targetPath_append hpath _, ?_⟩
    rw [hparams, ← hform]
    simp only [formQuery, htarget]

theorem listPath_eq (scope : Scope String) (limit : ℤ) (page : Option ℤ) :
    Mem0Provider.Provider.listPath scope limit page = "/memories/".toList ++ '?' ::
      ("user_id".toList ++ '=' :: ((scope.user.getD "").toList ++ '&' :: mem0Rest limit page)) := by
  unfold Mem0Provider.Provider.listPath mem0Rest
  generalize (toString limit).toList = limitText
  generalize (scope.user.getD "").toList = user
  generalize Mem0Provider.Provider.pageParameter page = pageText
  simp

theorem path_of_runOperation {α : Type} {initialized : Bool} {required : List String}
    {operation : String} {scope : Scope String} {method : Except PyError (Call α)}
    {target : List Char}
    (h : (runOperation initialized required operation scope method).map (·.request.path) =
      .ok target) : method.map (·.request.path) = .ok target := by
  obtain ⟨call, hcall, rfl⟩ := Except.of_map_ok h
  obtain ⟨inner, rfl, hrequest, -, -⟩ := runOperation_ok hcall
  rw [hrequest]
  rfl

theorem path_of_requireClient {α : Type} {initialized : Bool} {call : Call α} {target : List Char}
    (h : (do requireClient initialized; .ok call : Except PyError (Call α)).map (·.request.path) =
      .ok target) : call.request.path = target := by
  obtain ⟨inner, hinner, rfl⟩ := Except.of_map_ok h
  obtain ⟨_, -, hinner⟩ := Except.bind_ok hinner
  rw [Except.ok.inj hinner]

theorem memoryPath_eq (root : List Char) (ref : MemoryRef) :
    root ++ AtomicMemoryProvider.Provider.memoryPath ref =
      (root ++ "/memories/".toList) ++ ref.id.toList ++ [] ++
        '?' :: ("user_id=".toList ++ AtomicMemoryProvider.qs ref.scope.user) := by
  have hquery : "?user_id=".toList = '?' :: "user_id=".toList := by decide
  unfold AtomicMemoryProvider.Provider.memoryPath
  rw [hquery]
  simp only [List.append_assoc, List.cons_append, List.nil_append]

theorem auditPath_eq (root : List Char) (ref : MemoryRef) :
    root ++ AtomicMemoryProvider.Provider.auditPath ref =
      (root ++ "/memories/".toList) ++ ref.id.toList ++ "/audit".toList ++
        '?' :: ("user_id=".toList ++ AtomicMemoryProvider.qs ref.scope.user) := by
  have hquery : "/audit?user_id=".toList = "/audit".toList ++ '?' :: "user_id=".toList := by decide
  unfold AtomicMemoryProvider.Provider.auditPath
  rw [hquery]
  simp only [List.append_assoc, List.cons_append]

theorem mem0MemoryPath_eq (root : List Char) (ref : MemoryRef) :
    root ++ Mem0Provider.Provider.memoryPath ref =
      (root ++ "/memories/".toList) ++ ref.id.toList ++ ['/'] := by
  unfold Mem0Provider.Provider.memoryPath
  rw [List.append_assoc, List.append_assoc, List.append_assoc]

theorem pathText_memories : PathText "/memories/".toList := by decide

section

variable {ps : Providers} {target : List Char}

theorem memory_intact_iff (root : List Char) (ref : MemoryRef) :
    MemoryTarget (root ++ AtomicMemoryProvider.Provider.memoryPath ref)
        (root ++ "/memories/".toList) ref.id.toList [] [userParam ref.scope] ↔
      PathText root ∧ PlainSegment ref.id.toList := by
  rw [memoryPath_eq, memoryTarget_iff _ (by decide) (hash_not_mem_user ref.scope)
    (formDecode_qs ref.scope), pathText_root root pathText_memories]

theorem audit_intact_iff (root : List Char) (ref : MemoryRef) :
    MemoryTarget (root ++ AtomicMemoryProvider.Provider.auditPath ref)
        (root ++ "/memories/".toList) ref.id.toList "/audit".toList [userParam ref.scope] ↔
      PathText root ∧ PlainSegment ref.id.toList := by
  rw [auditPath_eq, memoryTarget_iff _ (by decide) (hash_not_mem_user ref.scope)
    (formDecode_qs ref.scope), pathText_root root pathText_memories]

theorem mem0Memory_intact_iff (root : List Char) (ref : MemoryRef) :
    MemoryTarget (root ++ Mem0Provider.Provider.memoryPath ref)
        (root ++ "/memories/".toList) ref.id.toList ['/'] [] ↔
      PathText root ∧ PlainSegment ref.id.toList := by
  rw [mem0MemoryPath_eq, memoryTarget_nil_iff _ (by decide), pathText_root root pathText_memories]

theorem list_intact_iff {request : ListRequest}
    (h : (atomicMemoryList request).target ps = .ok target) :
    (atomicMemoryList request).Intact ps target ↔ (atomicMemoryList request).Plain ps := by
  obtain ⟨call, hcall, rfl⟩ := Except.of_map_ok h
  obtain ⟨offset, hoffset, hrequest, -⟩ := AtomicMemoryProvider.Provider.list_ok hcall
  have hpath : call.request.path = (ps.atomicMemory.apiPrefix ++ "/memories/list".toList) ++
      '?' :: urlencode ([userParam request.scope, numberParam "limit" (request.limit.getD 20),
        numberParam "offset" offset] ++ threadParams request.scope) := by
    rw [hrequest, List.append_assoc]
    have heq := buildListPath_eq request.scope (request.limit.getD 20) offset
    exact congrArg (fun path => ps.atomicMemory.apiPrefix ++ path) heq
  rw [hpath]
  have hiff := (listTarget_urlencode_iff (ps.atomicMemory.apiPrefix ++
    "/memories/list".toList) ([userParam request.scope, numberParam "limit"
      (request.limit.getD 20), numberParam "offset" offset] ++ threadParams request.scope)).trans
    (pathText_root _ (by decide))
  refine ⟨?_, fun hplain => ⟨offset, hoffset, hiff.mpr hplain⟩⟩
  rintro ⟨offset', hoffset', hintact⟩
  rw [hoffset] at hoffset'
  cases hoffset'
  exact hiff.mp hintact

theorem mem0List_intact_iff {request : ListRequest}
    (h : (mem0List request).target ps = .ok target) :
    (mem0List request).Intact ps target ↔ (mem0List request).Plain ps := by
  obtain ⟨call, hcall, rfl⟩ := Except.of_map_ok h
  obtain ⟨offset, page, hoffset, hpage, hrequest, -⟩ := Mem0Provider.Provider.list_ok hcall
  have hpath : call.request.path = (ps.mem0.pathPrefix ++ "/memories/".toList) ++
      '?' :: ("user_id".toList ++ '=' :: ((request.scope.user.getD "").toList ++
        '&' :: mem0Rest (request.limit.getD 20) page)) := by
    rw [hrequest, List.append_assoc]
    exact congrArg (ps.mem0.pathPrefix ++ ·) (listPath_eq _ _ page)
  rw [hpath]
  have hiff := (listTarget_raw_iff (ps.mem0.pathPrefix ++ "/memories/".toList)
    (request.scope.user.getD "").toList (request.limit.getD 20) page).trans
    (and_congr_left' (pathText_root _ pathText_memories))
  refine ⟨?_, fun hplain => ⟨offset, page, hoffset, hpage, hiff.mpr hplain⟩⟩
  rintro ⟨offset', page', hoffset', hpage', hintact⟩
  rw [hoffset] at hoffset'
  cases hoffset'
  rw [hpage] at hpage'
  cases hpage'
  exact hiff.mp hintact

/-- A target says what its route is meant to ask for exactly when what goes into it as it
is, is plain. -/
theorem intact_iff_plain {route : Route} (h : route.target ps = .ok target) :
    route.Intact ps target ↔ route.Plain ps := by
  cases route with
  | atomicMemoryGet ref =>
    rw [← path_of_requireClient (path_of_runOperation h)]
    exact memory_intact_iff _ ref
  | atomicMemoryDelete ref =>
    rw [← path_of_requireClient (path_of_runOperation h)]
    exact memory_intact_iff _ ref
  | atomicMemoryHistory ref =>
    rw [← path_of_requireClient h]
    exact audit_intact_iff _ ref
  | atomicMemoryList request => exact list_intact_iff h
  | mem0Get ref =>
    rw [← path_of_requireClient (path_of_runOperation h)]
    exact mem0Memory_intact_iff _ ref
  | mem0Delete ref =>
    rw [← path_of_requireClient (path_of_runOperation h)]
    exact mem0Memory_intact_iff _ ref
  | mem0List request => exact mem0List_intact_iff h

end

def hosted : Providers := ⟨⟨"/v1".toList, true, none⟩, ⟨"/v1".toList, true⟩, .reference⟩

/-- An ordinary id of an ordinary user. -/
theorem intact_iff_plain_delete :
    ∃ target, (atomicMemoryDelete ⟨"m1", ⟨some "u1", none, none, none⟩⟩).target hosted = .ok target ∧
      (atomicMemoryDelete ⟨"m1", ⟨some "u1", none, none, none⟩⟩).Intact hosted target := by
  refine ⟨_, rfl, (intact_iff_plain rfl).mpr ?_⟩
  exact (by decide : PathText "/v1".toList ∧ PlainSegment "m1".toList)

/-- An id that turns a deletion in one user's scope into one in another's. -/
theorem not_always_intact :
    ∃ target, (atomicMemoryDelete ⟨"m1?user_id=victim#", ⟨some "u1", none, none, none⟩⟩).target
        hosted = .ok target ∧
      targetPath target = "/v1/memories/m1".toList ∧
      formQuery target = decoded [("user_id".toList, "victim".toList)] ∧
      ¬ (atomicMemoryDelete ⟨"m1?user_id=victim#", ⟨some "u1", none, none, none⟩⟩).Intact
        hosted target := by
  refine ⟨_, rfl, by decide, by decide, fun h => ?_⟩
  exact absurd h.2 (by decide)

end Route

end AtomicMemory
