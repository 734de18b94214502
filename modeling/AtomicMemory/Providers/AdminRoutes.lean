import AtomicMemory.Providers.AtomicMemoryHandle
import AtomicMemory.Providers.RequestTargets

-- The requests of the handle's lifecycle, audit, lessons and agents categories that carry the
-- user in their query. The sync and the async classes build the same texts.

open PercentEncoding

namespace AtomicMemory

namespace AtomicMemoryHandle.Handle

variable (h : Handle)

def getRequest (path : List Char) : HttpRequest := ⟨"GET", h.route path, none⟩

-- `AtomicMemoryLifecycle`

/-- `cap`. -/
def cap (userId : String) : HttpRequest :=
  h.getRequest ("/memories/cap?user_id=".toList ++ userId.toList)

/-- `stats`. -/
def stats (userId : String) : HttpRequest :=
  h.getRequest ("/memories/stats?user_id=".toList ++ userId.toList)

/-- `reconcile_status`. -/
def reconcileStatus (userId : String) : HttpRequest :=
  h.getRequest ("/memories/reconcile/status?user_id=".toList ++ userId.toList)

-- `AtomicMemoryAudit`

/-- `summary`. -/
def auditSummary (userId : String) : HttpRequest :=
  h.getRequest ("/memories/audit/summary?user_id=".toList ++ quote userId.toList)

/-- `recent`. -/
def auditRecent (userId : String) (limit : Option ℤ) : HttpRequest :=
  let url := "/memories/audit/recent?user_id=".toList ++ quote userId.toList
  let url :=
    match limit with
    | some limit => url ++ ("&limit=".toList ++ (toString limit).toList)
    | none => url
  h.getRequest url

/-- `trail`. -/
def auditTrail (memoryId userId : String) : HttpRequest :=
  h.getRequest ("/memories/".toList ++ quote memoryId.toList ++ "/audit?user_id=".toList ++
    quote userId.toList)

-- `AtomicMemoryLessons`

/-- `list`. -/
def lessonsList (userId : String) : HttpRequest :=
  h.getRequest ("/memories/lessons?user_id=".toList ++ quote userId.toList)

/-- `stats`. -/
def lessonsStats (userId : String) : HttpRequest :=
  h.getRequest ("/memories/lessons/stats?user_id=".toList ++ quote userId.toList)

/-- `delete`. -/
def lessonsDelete (lessonId userId : String) : HttpRequest :=
  ⟨"DELETE", h.route ("/memories/lessons/".toList ++ quote lessonId.toList ++
    "?user_id=".toList ++ quote userId.toList), none⟩

-- `AtomicMemoryAgents`

/-- `get_trust`. -/
def getTrust (userId agentId : String) : HttpRequest :=
  h.getRequest ("/agents/trust?user_id=".toList ++ quote userId.toList ++ "&agent_id=".toList ++
    quote agentId.toList)

/-- `conflicts`. -/
def conflicts (userId : String) : HttpRequest :=
  h.getRequest ("/agents/conflicts?user_id=".toList ++ quote userId.toList)

end AtomicMemoryHandle.Handle

inductive AdminCall
  | cap
  | stats
  | reconcileStatus
  | auditSummary
  | auditRecent (limit : Option ℤ)
  | auditTrail (memoryId : String)
  | lessonsList
  | lessonsStats
  | lessonsDelete (lessonId : String)
  | getTrust (agentId : String)
  | conflicts

namespace AdminCall

open Route

variable (h : AtomicMemoryHandle.Handle)

def request (userId : String) : AdminCall → HttpRequest
  | cap => h.cap userId
  | stats => h.stats userId
  | reconcileStatus => h.reconcileStatus userId
  | auditSummary => h.auditSummary userId
  | auditRecent limit => h.auditRecent userId limit
  | auditTrail memoryId => h.auditTrail memoryId userId
  | lessonsList => h.lessonsList userId
  | lessonsStats => h.lessonsStats userId
  | lessonsDelete lessonId => h.lessonsDelete lessonId userId
  | getTrust agentId => h.getTrust userId agentId
  | conflicts => h.conflicts userId

def path : AdminCall → List Char
  | cap => "/memories/cap".toList
  | stats => "/memories/stats".toList
  | reconcileStatus => "/memories/reconcile/status".toList
  | auditSummary => "/memories/audit/summary".toList
  | auditRecent _ => "/memories/audit/recent".toList
  | auditTrail memoryId => "/memories/".toList ++ quote memoryId.toList ++ "/audit".toList
  | lessonsList => "/memories/lessons".toList
  | lessonsStats => "/memories/lessons/stats".toList
  | lessonsDelete lessonId => "/memories/lessons/".toList ++ quote lessonId.toList
  | getTrust _ => "/agents/trust".toList
  | conflicts => "/agents/conflicts".toList

def textParam (name value : String) : List Char × List Char := (name.toList, value.toList)

def moreParams : AdminCall → List (List Char × List Char)
  | auditRecent (some limit) => [numberParam "limit" limit]
  | getTrust agentId => [textParam "agent_id" agentId]
  | _ => []

/-- The path is the route's, and the query is the user and the route's other pairs. -/
def Integrity (call : AdminCall) (userId : String) : Prop :=
  ListTarget (call.request h userId).path (h.route call.path)
    (textParam "user_id" userId :: call.moreParams)

def isRaw : AdminCall → Bool
  | cap | stats | reconcileStatus => true
  | _ => false

def quotedPiece (name value : String) : List Char := name.toList ++ '=' :: quote value.toList

def moreQuery : AdminCall → List Char
  | auditRecent (some limit) => '&' :: numberPiece "limit" limit
  | getTrust agentId => '&' :: quotedPiece "agent_id" agentId
  | _ => []

theorem formDecode_quotedPiece (name : String) (hname : '=' ∉ name.toList ∧ '&' ∉ name.toList)
    (hplain : formText name.toList = utf8 name.toList) (value : String) :
    formDecode (quotedPiece name value) = decoded [textParam name value] ∧
      ∀ rest, formDecode (quotedPiece name value ++ '&' :: rest) =
        decoded [textParam name value] ++ formDecode rest := by
  have hne : quotedPiece name value ≠ [] := by simp [quotedPiece]
  have hamp : '&' ∉ quotedPiece name value := by
    rw [quotedPiece, List.mem_append, List.mem_cons, not_or, not_or]
    exact ⟨hname.2, by decide, not_mem_quote _ (by decide) (by decide)⟩
  have hpair : formPair (quotedPiece name value) = (utf8 name.toList, utf8 value.toList) := by
    rw [quotedPiece, formPair_append hname.1, formText_quote, hplain]
  refine ⟨?_, fun rest => ?_⟩
  · rw [formDecode_single hne hamp, hpair]
    rfl
  · rw [formDecode_append hne hamp, hpair]
    rfl

theorem hash_not_mem_quotedPiece {name : String} (hname : '#' ∉ name.toList) (value : String) :
    '#' ∉ quotedPiece name value := by
  rw [quotedPiece, List.mem_append, List.mem_cons, not_or, not_or]
  exact ⟨hname, by decide, not_mem_quote _ (by decide) (by decide)⟩

theorem formDecode_query (call : AdminCall) (userId : String) :
    formDecode (quotedPiece "user_id" userId ++ call.moreQuery) =
      decoded (textParam "user_id" userId :: call.moreParams) := by
  have huser := formDecode_quotedPiece "user_id" (by decide) (by decide) userId
  cases call with
  | auditRecent limit =>
    cases limit with
    | none => exact (congrArg formDecode (List.append_nil _)).trans huser.1
    | some limit =>
      have hlimit := formDecode_numberPiece "limit" (by decide) (by decide) limit
      exact (huser.2 _).trans (congrArg _ hlimit.1)
  | getTrust agentId =>
    have hagent := formDecode_quotedPiece "agent_id" (by decide) (by decide) agentId
    exact (huser.2 _).trans (congrArg _ hagent.1)
  | _ => exact (congrArg formDecode (List.append_nil _)).trans huser.1

theorem hash_not_mem_query (call : AdminCall) (userId : String) :
    '#' ∉ quotedPiece "user_id" userId ++ call.moreQuery := by
  refine fun hmem => (List.mem_append.mp hmem).elim (hash_not_mem_quotedPiece (by decide) _) ?_
  cases call with
  | auditRecent limit =>
    cases limit with
    | none => exact List.not_mem_nil
    | some limit =>
      exact List.not_mem_cons_of_ne_of_not_mem (by decide) (hash_not_mem_numberPiece (by decide) _)
  | getTrust agentId =>
    exact List.not_mem_cons_of_ne_of_not_mem (by decide) (hash_not_mem_quotedPiece (by decide) _)
  | _ => exact List.not_mem_nil

theorem pathText_path (call : AdminCall) : PathText call.path := by
  cases call with
  | auditTrail memoryId =>
    exact pathText_append.mpr ⟨pathText_append.mpr ⟨by decide, pathText_quote _⟩, by decide⟩
  | lessonsDelete lessonId => exact pathText_append.mpr ⟨by decide, pathText_quote _⟩
  | auditRecent limit => exact (by decide : PathText "/memories/audit/recent".toList)
  | getTrust agentId => exact (by decide : PathText "/agents/trust".toList)
  | _ => decide

/-- A text whose literal part ends with `?user_id=`. -/
theorem route_user {text path : List Char} (htext : text = path ++ "?user_id=".toList)
    (rest : List Char) :
    h.route (text ++ rest) = h.route path ++ '?' :: ("user_id".toList ++ '=' :: rest) := by
  have hliteral : "?user_id=".toList = '?' :: ("user_id".toList ++ ['=']) := rfl
  rw [htext, hliteral]
  generalize "user_id".toList = name
  simp [AtomicMemoryHandle.Handle.route]

theorem request_path_raw {call : AdminCall} (hraw : call.isRaw = true) (userId : String) :
    (call.request h userId).path =
      h.route call.path ++ '?' :: ("user_id".toList ++ '=' :: userId.toList) := by
  cases call with
  | cap | stats | reconcileStatus =>
    refine route_user h ?_ _
    rfl
  | _ => cases hraw

theorem request_path_quoted {call : AdminCall} (hraw : call.isRaw = false) (userId : String) :
    (call.request h userId).path =
      h.route call.path ++ '?' :: (quotedPiece "user_id" userId ++ call.moreQuery) := by
  have hassoc (rest : List Char) : quotedPiece "user_id" userId ++ rest =
      "user_id".toList ++ '=' :: (quote userId.toList ++ rest) := List.append_assoc ..
  rw [hassoc]
  cases call with
  | cap | stats | reconcileStatus => cases hraw
  | auditSummary | lessonsList | lessonsStats | conflicts =>
    simp only [moreQuery, List.append_nil]
    refine route_user h ?_ _
    rfl
  | auditRecent limit =>
    cases limit with
    | none =>
      simp only [moreQuery, List.append_nil]
      refine route_user h ?_ _
      rfl
    | some limit =>
      refine (congrArg h.route (List.append_assoc ..)).trans (route_user h ?_ _)
      rfl
  | auditTrail memoryId =>
    simp only [moreQuery, List.append_nil]
    refine route_user h ?_ _
    have hliteral : "/audit?user_id=".toList = "/audit".toList ++ "?user_id=".toList := rfl
    rw [hliteral, ← List.append_assoc]
    rfl
  | lessonsDelete lessonId =>
    simp only [moreQuery, List.append_nil]
    exact route_user h rfl _
  | getTrust agentId =>
    have hagent : "&agent_id=".toList = '&' :: ("agent_id".toList ++ ['=']) := rfl
    have hquery : "/agents/trust?user_id=".toList ++ quote userId.toList ++ "&agent_id=".toList ++
        quote agentId.toList = "/agents/trust?user_id=".toList ++
          (quote userId.toList ++ '&' :: quotedPiece "agent_id" agentId) := by
      rw [hagent, quotedPiece]
      generalize "agent_id".toList = name
      simp only [List.append_assoc, List.cons_append, List.nil_append]
    refine (congrArg h.route hquery).trans (route_user h ?_ _)
    rfl

/-- An admin call keeps the integrity of its target exactly when the version is text of a
path and the user is plain wherever it is put into the query as it is. -/
theorem integrity_iff_plain (call : AdminCall) (userId : String) :
    call.Integrity h userId ↔
      PathText (AtomicMemoryProvider.normalizeApiVersion h.apiVersion) ∧
        (call.isRaw = true → PlainFormValue userId.toList) := by
  have hroot : PathText (h.route call.path) ↔
      PathText (AtomicMemoryProvider.normalizeApiVersion h.apiVersion) :=
    pathText_root _ (pathText_path call)
  unfold Integrity ListTarget
  cases hraw : call.isRaw with
  | true =>
    have hparams : decoded (textParam "user_id" userId :: call.moreParams) =
        [(formText "user_id".toList, utf8 userId.toList)] := by
      have hname : formText "user_id".toList = utf8 "user_id".toList := by decide
      cases call <;> cases hraw <;> rw [hname] <;> rfl
    rw [request_path_raw h hraw, hparams, ← hroot]
    constructor
    · rintro ⟨hpath, hform⟩
      have htext := pathText_of_targetPath hpath
      refine ⟨htext, fun _ => ?_⟩
      exact (formQuery_raw_iff _ htext (by decide) (by decide) (by decide)).mp hform
    · rintro ⟨htext, hplain⟩
      refine ⟨targetPath_append htext _, ?_⟩
      exact (formQuery_raw_iff _ htext (by decide) (by decide) (by decide)).mpr (hplain rfl)
  | false =>
    rw [request_path_quoted h hraw, ← hroot]
    constructor
    · rintro ⟨hpath, -⟩
      exact ⟨pathText_of_targetPath hpath, nofun⟩
    · rintro ⟨htext, -⟩
      refine ⟨targetPath_append htext _, ?_⟩
      rw [formQuery_eq htext (hash_not_mem_query call userId), formDecode_query]

/-- A user whose name selects the statistics of another. -/
theorem not_always_integrity_stats :
    let target := (stats.request ⟨"v1".toList⟩ "u1&user_id=victim").path
    targetPath target = "/v1/memories/stats".toList ∧
      formQuery target =
        decoded [textParam "user_id" "u1", textParam "user_id" "victim"] ∧
      ¬ stats.Integrity ⟨"v1".toList⟩ "u1&user_id=victim" := by
  refine ⟨by decide, by decide, fun h => ?_⟩
  exact absurd h.2 (by decide)

end AdminCall

end AtomicMemory
