import AtomicMemory.Core.Python
import AtomicMemory.Memory.Types
import Mathlib.Algebra.Order.Ring.Nat
import Mathlib.Order.Lattice

-- The strict models that the arguments of a model's tool call are validated with, and the
-- bounded output of a search.

open PyValue hiding none

namespace AtomicMemory.Tools

def maxUserLength : ℕ := 256

def maxQueryLength : ℕ := 4096

def maxContentLength : ℕ := 32768

def maxSearchLimit : ℤ := 20

def maxHitContent : ℕ := 4096

def maxTotalContent : ℕ := 16384

/-- A text of the length that a field allows, with something in it that is not a space. -/
structure AcceptedText (maxLength : ℕ) (value : String) : Prop where
  minLength : 1 ≤ value.length
  maxLength : value.length ≤ maxLength
  nonblank : strip value ≠ []

structure AcceptedUser (value : String) : Prop extends AcceptedText maxUserLength value where
  noProject : ¬"project:".toList <+: strip value

instance (maxLength : ℕ) (value : String) : Decidable (AcceptedText maxLength value) :=
  decidable_of_iff (1 ≤ value.length ∧ value.length ≤ maxLength ∧ strip value ≠ [])
    ⟨fun ⟨h, h', h''⟩ => ⟨h, h', h''⟩, fun h => ⟨h.minLength, h.maxLength, h.nonblank⟩⟩

instance (value : String) : Decidable (AcceptedUser value) :=
  decidable_of_iff (AcceptedText maxUserLength value ∧ ¬"project:".toList <+: strip value)
    ⟨fun ⟨h, h'⟩ => ⟨h, h'⟩, fun h => ⟨h.toAcceptedText, h.noProject⟩⟩

/-- A field whose value has to pass a check, and is kept as it is. -/
def checked {α : Type} (f : PyValue → Option α) (P : α → Prop) [DecidablePred P] (v : PyValue) :
    Option (Subtype P) :=
  (f v).bind fun a => if h : P a then some ⟨a, h⟩ else none

theorem checked_eq_some {α : Type} {f : PyValue → Option α} {P : α → Prop} [DecidablePred P]
    {v : PyValue} {x : Subtype P} : checked f P v = some x ↔ f v = some x.val := by
  unfold checked
  constructor
  · intro h
    obtain ⟨a, ha, h⟩ := Option.bind_eq_some_iff.mp h
    split at h
    · rw [ha, ← Option.some.inj h]
    · cases h
  · intro h
    rw [h, Option.bind_some, dif_pos x.property]

theorem str?_eq_some {v : PyValue} {text : String} : str? v = some text ↔ v = .str text := by
  cases v with
  | str s =>
    exact ⟨fun h => congrArg _ (Option.some.inj h), fun h => congrArg _ (PyValue.str.inj h)⟩
  | _ => exact ⟨nofun, nofun⟩

/-- The values of a strict `int` field: a boolean is none of them. -/
def strictInt? : PyValue → Option ℤ
  | .int n => some n
  | _ => none

theorem strictInt?_eq_some {v : PyValue} {n : ℤ} : strictInt? v = some n ↔ v = .int n := by
  cases v with
  | int k =>
    exact ⟨fun h => congrArg _ (Option.some.inj h), fun h => congrArg _ (PyValue.int.inj h)⟩
  | _ => exact ⟨nofun, nofun⟩

structure ToolScope where
  user : Subtype AcceptedUser

def ToolScope.ofItems : Items → Option ToolScope :=
  forbidExtra ["user"] fun items => do
    let user ← field (checked str? AcceptedUser) items "user"
    some ⟨user⟩

structure IngestArguments where
  content : Subtype (AcceptedText maxContentLength)

def IngestArguments.ofItems : Items → Option IngestArguments :=
  forbidExtra ["content"] fun items => do
    let content ← field (checked str? (AcceptedText maxContentLength)) items "content"
    some ⟨content⟩

def SearchLimit (n : ℤ) : Prop := 1 ≤ n ∧ n ≤ maxSearchLimit

instance (n : ℤ) : Decidable (SearchLimit n) := inferInstanceAs (Decidable (_ ∧ _))

structure SearchArguments where
  query : Subtype (AcceptedText maxQueryLength)
  limit : Subtype SearchLimit

def SearchArguments.ofItems : Items → Option SearchArguments :=
  forbidExtra ["query", "limit"] fun items => do
    let query ← field (checked str? (AcceptedText maxQueryLength)) items "query"
    let limit ← defaultField (checked strictInt? SearchLimit) ⟨5, by decide⟩ items "limit"
    some ⟨query, limit⟩

theorem forbidExtra_eq_some {α : Type} {allowed : List String} {f : Items → Option α}
    {items : Items} {m : α} :
    forbidExtra allowed f items = some m ↔
      (∀ key ∈ Items.keys items, key ∈ allowed) ∧ f items = some m := by
  constructor
  · exact forbidExtra_ok
  · rintro ⟨hkeys, hf⟩
    rw [forbidExtra_eq hkeys, hf]

theorem field_checked_str {P : String → Prop} [DecidablePred P] {items : Items} {key : String}
    {x : Subtype P} :
    field (checked str? P) items key = some x ↔ items.lookup key = some (.str x) := by
  unfold field
  rw [Option.bind_eq_some_iff]
  constructor
  · rintro ⟨v, hlookup, hv⟩
    rw [hlookup, str?_eq_some.mp (checked_eq_some.mp hv)]
  · intro hlookup
    exact ⟨_, hlookup, checked_eq_some.mpr rfl⟩

theorem ToolScope.ofItems_user {v : PyValue} {scope : ToolScope} :
    ToolScope.ofItems [("user", v)] = some scope ↔ v = .str scope.user := by
  unfold ToolScope.ofItems
  rw [forbidExtra_eq_some]
  constructor
  · rintro ⟨-, h⟩
    obtain ⟨user, huser, h⟩ := Option.bind_eq_some_iff.mp h
    cases h
    simpa [Items.lookup_cons] using field_checked_str.mp huser
  · rintro rfl
    have huser : field (checked str? AcceptedUser) [("user", .str scope.user)] "user" =
        some scope.user := field_checked_str.mpr rfl
    refine ⟨fun key hkey => hkey, ?_⟩
    rw [huser]
    rfl

theorem IngestArguments.ofItems_eq_some {items : Items} {arguments : IngestArguments} :
    IngestArguments.ofItems items = some arguments ↔
      (∀ key ∈ Items.keys items, key = "content") ∧
        items.lookup "content" = some (.str arguments.content) := by
  unfold IngestArguments.ofItems
  rw [forbidExtra_eq_some]
  simp only [List.mem_singleton]
  refine and_congr_right fun _ => ?_
  rw [← field_checked_str]
  constructor
  · intro h
    obtain ⟨content, hcontent, h⟩ := Option.bind_eq_some_iff.mp h
    cases h
    exact hcontent
  · intro h
    rw [h]
    rfl

theorem limit_eq_some {items : Items} {limit : Subtype SearchLimit} :
    defaultField (checked strictInt? SearchLimit) ⟨5, by decide⟩ items "limit" = some limit ↔
      items.lookup "limit" = none ∧ limit.val = 5 ∨
        items.lookup "limit" = some (.int limit) := by
  unfold defaultField
  cases items.lookup "limit" with
  | none =>
    constructor
    · intro h
      exact .inl ⟨rfl, congrArg Subtype.val (Option.some.inj h).symm⟩
    · rintro (⟨-, h⟩ | h)
      · exact congrArg some (Subtype.ext h.symm)
      · cases h
  | some v =>
    constructor
    · intro h
      exact .inr (congrArg some (strictInt?_eq_some.mp (checked_eq_some.mp h)))
    · rintro (⟨h, -⟩ | h)
      · cases h
      · exact checked_eq_some.mpr (strictInt?_eq_some.mpr (Option.some.inj h))

theorem SearchArguments.ofItems_eq_some {items : Items} {arguments : SearchArguments} :
    SearchArguments.ofItems items = some arguments ↔
      (∀ key ∈ Items.keys items, key = "query" ∨ key = "limit") ∧
        items.lookup "query" = some (.str arguments.query) ∧
        (items.lookup "limit" = none ∧ arguments.limit.val = 5 ∨
          items.lookup "limit" = some (.int arguments.limit)) := by
  unfold SearchArguments.ofItems
  rw [forbidExtra_eq_some]
  simp only [List.mem_cons, List.not_mem_nil, or_false]
  refine and_congr_right fun _ => ?_
  rw [← field_checked_str, ← limit_eq_some]
  constructor
  · intro h
    obtain ⟨query, hquery, h⟩ := Option.bind_eq_some_iff.mp h
    obtain ⟨limit, hlimit, h⟩ := Option.bind_eq_some_iff.mp h
    cases h
    exact ⟨hquery, hlimit⟩
  · rintro ⟨hquery, hlimit⟩
    rw [hquery, hlimit]
    rfl

structure MemorySearchHit where
  id : String
  content : String
  score : ℚ
  truncated : Bool
  similarity : Option ℚ
  rankingScore : Option ℚ
  relevance : Option ℚ
  versionId : Option String
  observedAt : Option String

structure MemorySearchOutput where
  results : List MemorySearchHit
  truncated : Bool
  retrieval : Option RetrievalReceipt
  cursor : Option String

/-- `text[:n]`. -/
def textPrefix (text : String) (n : ℕ) : String := String.ofList (text.toList.take n)

def projectHit {α : Type} (remaining : ℕ) (hit : SearchResult α) :
    Except PyError MemorySearchHit :=
  let content := textPrefix hit.memory.content (min maxHitContent remaining)
  if hit.memory.id = "" then .error (.validationError "MemorySearchHit")
  else .ok
    { id := hit.memory.id
      content := content
      score := hit.score
      truncated := content.length < hit.memory.content.length
      similarity := hit.similarity
      rankingScore := hit.rankingScore
      relevance := hit.relevance
      versionId := hit.versionId
      observedAt := hit.observedAt }

/-- The loop of `project_search`. -/
def projectHits {α : Type} : ℕ → List (SearchResult α) → Except PyError (List MemorySearchHit)
  | _, [] => .ok []
  | remaining, hit :: hits => do
    let first ← projectHit remaining hit
    let rest ← projectHits (remaining - first.content.length) hits
    .ok (first :: rest)

/-- `project_search`. -/
def projectSearch {α : Type} (page : SearchResultPage α) (limit : ℤ) :
    Except PyError MemorySearchOutput := do
  let results ← projectHits maxTotalContent (page.results.take limit.toNat)
  .ok
    { results := results
      truncated := results.length < page.results.length || results.any (·.truncated)
      retrieval := page.retrieval
      cursor := page.cursor }

theorem length_textPrefix (text : String) (n : ℕ) :
    (textPrefix text n).length = min n text.length := by
  rw [textPrefix, String.length_ofList, List.length_take, String.length_toList]

theorem projectHit_ok {α : Type} {remaining : ℕ} {hit : SearchResult α} {first : MemorySearchHit}
    (h : projectHit remaining hit = .ok first) :
    first.content.length ≤ maxHitContent ∧ first.content.length ≤ remaining ∧
      first.content.toList <+: hit.memory.content.toList := by
  unfold projectHit at h
  split at h
  · cases h
  · cases h
    refine ⟨?_, ?_, ?_⟩
    · rw [length_textPrefix]
      omega
    · rw [length_textPrefix]
      omega
    · rw [textPrefix, String.toList_ofList]
      exact List.take_prefix _ _

/-- Each hit shows the beginning of its memory, and all hits together fit in the room. -/
theorem projectHits_ok {α : Type} {remaining : ℕ} {hits : List (SearchResult α)}
    {results : List MemorySearchHit} (h : projectHits remaining hits = .ok results) :
    List.Forall₂ (fun hit result => result.content.length ≤ maxHitContent ∧
      result.content.toList <+: hit.memory.content.toList) hits results ∧
      (results.map (·.content.length)).sum ≤ remaining := by
  induction hits generalizing remaining results with
  | nil =>
    cases h
    exact ⟨.nil, Nat.zero_le _⟩
  | cons hit hits ih =>
    obtain ⟨first, hfirst, h⟩ := Except.bind_ok h
    obtain ⟨rest, hrest, h⟩ := Except.bind_ok h
    cases h
    obtain ⟨hmax, hremaining, hcontent⟩ := projectHit_ok hfirst
    obtain ⟨hrows, hsum⟩ := ih hrest
    refine ⟨.cons ⟨hmax, hcontent⟩ hrows, ?_⟩
    rw [List.map_cons, List.sum_cons]
    omega

theorem projectSearch_bounds {α : Type} {page : SearchResultPage α} {limit : ℤ}
    {output : MemorySearchOutput} (h : projectSearch page limit = .ok output) :
    output.results.length ≤ limit.toNat ∧
      (∀ hit ∈ output.results, hit.content.length ≤ maxHitContent) ∧
      (output.results.map (·.content.length)).sum ≤ maxTotalContent := by
  obtain ⟨results, hresults, h⟩ := Except.bind_ok h
  cases h
  obtain ⟨hrows, hsum⟩ := projectHits_ok hresults
  refine ⟨?_, fun hit hhit => ?_, hsum⟩
  · have hlength := hrows.length_eq
    rw [List.length_take] at hlength
    show results.length ≤ _
    omega
  · obtain ⟨row, -, hmax, -⟩ := mem_of_forall₂ hrows hhit
    exact hmax

end AtomicMemory.Tools
