import AtomicMemory.Core.Errors
import AtomicMemory.Lib.CallTree
import Mathlib.Algebra.Ring.Int.Defs
import Mathlib.Algebra.Order.Ring.Int
import Mathlib.Data.List.Forall2
import Mathlib.Order.Bounds.Basic

-- Hits that describe the conversation are dropped after retrieval, and each is reported to a
-- callback whose exceptions are swallowed.

namespace AtomicMemory

abbrev Pattern := String → Bool

/-- The texts of `DEFAULT_META_FACT_PATTERNS`. -/
def defaultMetaFactTexts : List String :=
  [r"^\s*the user (asked|requested|said|is asking|is me)\b",
    r"^\s*as of [^,]+,\s+.+\s+is a term mentioned in the conversation\.?$",
    r"^\s*a name was mentioned\b",
    r"^\s*the conversation involves the user\b",
    r"^\s*the user has started a conversation\b"]

inductive FilterMode
  | replace
  | extend
  deriving DecidableEq

structure MetaFactFilterConfig where
  enabled : Bool
  patterns : Option (List Pattern)
  mode : FilterMode
  /-- Whether there is an `on_drop`. -/
  onDrop : Bool

inductive Content (ω : Type)
  | str (text : String)
  | other (object : ω)

/-- A call of `on_drop`. -/
structure OnDrop where
  content : String
  patternIndex : ℤ
  deriving DecidableEq

section

-- what `re.compile` makes of a text, ignoring case
variable (compile : String → Pattern)

def defaultMetaFactPatterns : List Pattern := defaultMetaFactTexts.map compile

def resolveMetaFactPatterns (config : MetaFactFilterConfig) : List Pattern :=
  match config.patterns with
  | none => defaultMetaFactPatterns compile
  | some patterns =>
    if config.mode = .extend then patterns ++ defaultMetaFactPatterns compile else patterns

end

section

variable {α ω : Type}

def isMetaFact (content : Content ω) (patterns : List Pattern) : Bool :=
  match content with
  | .str text => if text = "" then false else patterns.any fun pattern => pattern text
  | .other _ => false

/-- The index of the first pattern that finds something, from this one on, or -1. -/
def searchFrom (text : String) : List Pattern → ℤ → ℤ
  | [], _ => -1
  | pattern :: patterns, index =>
    if pattern text = true then index else searchFrom text patterns (index + 1)

def matchedIndex (patterns : List Pattern) : Content ω → ℤ
  | .str text => if text = "" then -1 else searchFrom text patterns 0
  | .other _ => -1

abbrev FilterCalls (β : Type) := CallTree OnDrop (fun _ => Except PyError Unit) β

def filterFrom (patterns : List Pattern) (getContent : α → Content ω) (onDrop : Bool) :
    List α → List α → FilterCalls (Except PyError (List α))
  | [], kept => .ends (.ok kept)
  | item :: items, kept =>
    let matched := matchedIndex patterns (getContent item)
    if 0 ≤ matched then
      match getContent item with
      | .str text =>
        if onDrop = true then .calls ⟨text, matched⟩ fun
          | .ok _ => filterFrom patterns getContent onDrop items kept
          | .error e =>
            if e.isException then filterFrom patterns getContent onDrop items kept
            else .ends (.error e)
        else filterFrom patterns getContent onDrop items kept
      | .other _ => filterFrom patterns getContent onDrop items kept
    else filterFrom patterns getContent onDrop items (kept ++ [item])

def filterMetaFacts (compile : String → Pattern) (items : List α) (getContent : α → Content ω)
    (config : MetaFactFilterConfig) : FilterCalls (Except PyError (List α)) :=
  if config.enabled = false then .ends (.ok items)
  else
    let patterns := resolveMetaFactPatterns compile config
    if patterns = [] then .ends (.ok items)
    else filterFrom patterns getContent config.onDrop items []

theorem searchFrom_eq (text : String) (patterns : List Pattern) (index : ℤ) :
    searchFrom text patterns index =
      match patterns.findIdx? fun pattern => pattern text with
      | some i => index + i
      | none => -1 := by
  induction patterns generalizing index with
  | nil => rfl
  | cons pattern patterns ih =>
    rw [searchFrom, List.findIdx?_cons]
    cases hpattern : pattern text with
    | true => simp
    | false =>
      simp only [Bool.false_eq_true, if_false, ih]
      cases patterns.findIdx? fun pattern => pattern text with
      | none => rfl
      | some i =>
        rw [Option.map_some]
        push_cast
        omega

def FirstMatch (patterns : List Pattern) (text : String) (index : ℤ) : Prop :=
  ∃ i : ℕ, index = i ∧ IsLeast {i | ∃ pattern ∈ patterns[i]?, pattern text = true} i

theorem firstMatch_searchFrom {text : String} {patterns : List Pattern}
    (h : patterns.any (fun pattern => pattern text) = true) :
    FirstMatch patterns text (searchFrom text patterns 0) := by
  cases hfind : patterns.findIdx? fun pattern => pattern text with
  | none =>
    rw [List.findIdx?_eq_none_iff] at hfind
    obtain ⟨pattern, hmem, hmatch⟩ := List.any_eq_true.mp h
    rw [hfind pattern hmem] at hmatch
    cases hmatch
  | some i =>
    rw [searchFrom_eq, hfind]
    obtain ⟨hlt, hmatch, hbefore⟩ := List.findIdx?_eq_some_iff_getElem.mp hfind
    refine ⟨i, Int.zero_add _, ⟨patterns[i], List.getElem?_eq_getElem hlt, hmatch⟩, ?_⟩
    rintro j ⟨pattern, hpattern, hfound⟩
    by_contra hji
    rw [Nat.not_le] at hji
    obtain ⟨hj, hget⟩ := List.getElem?_eq_some_iff.mp hpattern
    rw [← hget] at hfound
    exact hbefore j hji hfound

/-- The loop finds a match in what `is_meta_fact` takes for a meta-fact. -/
theorem matchedIndex_nonneg (patterns : List Pattern) (content : Content ω) :
    0 ≤ matchedIndex patterns content ↔ isMetaFact content patterns = true := by
  cases content with
  | other object => simp [matchedIndex, isMetaFact]
  | str text =>
    rw [matchedIndex, isMetaFact]
    by_cases hempty : text = ""
    · simp [hempty]
    · rw [if_neg hempty, if_neg hempty]
      constructor
      · intro h
        by_contra hany
        have hnone : (patterns.findIdx? fun pattern => pattern text) = none := by
          rw [List.findIdx?_eq_none_iff]
          intro pattern hmem
          exact Bool.eq_false_iff.mpr fun hmatch => hany (List.any_eq_true.mpr ⟨_, hmem, hmatch⟩)
        rw [searchFrom_eq, hnone] at h
        exact absurd h (by decide)
      · intro h
        obtain ⟨i, hindex, -⟩ := firstMatch_searchFrom h
        omega

/-- The call reports the item, with the index of the first pattern that matches. -/
def Reports (getContent : α → Content ω) (patterns : List Pattern) (item : α) (call : OnDrop) :
    Prop :=
  getContent item = .str call.content ∧ FirstMatch patterns call.content call.patternIndex

theorem reports_matched {getContent : α → Content ω} {patterns : List Pattern} {item : α}
    (h : isMetaFact (getContent item) patterns = true) :
    ∃ text, getContent item = .str text ∧
      Reports getContent patterns item ⟨text, matchedIndex patterns (getContent item)⟩ := by
  cases hcontent : getContent item with
  | other object =>
    rw [hcontent] at h
    cases h
  | str text =>
    refine ⟨text, rfl, hcontent, ?_⟩
    rw [hcontent, isMetaFact] at h
    split at h
    · cases h
    · rename_i hempty
      rw [matchedIndex, if_neg hempty]
      exact firstMatch_searchFrom h

abbrev Callback := List (Sigma fun _ : OnDrop => Except PyError Unit) → OnDrop → Except PyError Unit

/-- The callback raises `Exception`s at most. -/
def Callback.Tame (callback : Callback) : Prop :=
  ∀ before call e, callback before call = .error e → e.isException = true

theorem perform_filterFrom {callback : Callback} (h : callback.Tame) (patterns : List Pattern)
    (getContent : α → Content ω) (onDrop : Bool) (items kept : List α)
    (before : List (Sigma fun _ : OnDrop => Except PyError Unit)) :
    ∃ trace, (filterFrom patterns getContent onDrop items kept).perform callback before =
        (trace, .ok (kept ++ items.filter fun x => !isMetaFact (getContent x) patterns)) ∧
      (onDrop = false → trace = []) ∧
      (onDrop = true → List.Forall₂ (Reports getContent patterns)
        (items.filter fun x => isMetaFact (getContent x) patterns) (trace.map Sigma.fst)) := by
  induction items generalizing kept before with
  | nil => exact ⟨[], by simp [filterFrom, CallTree.perform], fun _ => rfl, fun _ => .nil⟩
  | cons item items ih =>
    rw [filterFrom]
    cases hmeta : isMetaFact (getContent item) patterns with
    | false =>
      have hneg : ¬0 ≤ matchedIndex patterns (getContent item) := by
        rw [matchedIndex_nonneg, hmeta]
        exact Bool.false_ne_true
      simp only [if_neg hneg, List.filter_cons, hmeta]
      simpa using ih (kept ++ [item]) before
    | true =>
      obtain ⟨text, hcontent, hreports⟩ := reports_matched hmeta
      simp only [if_pos ((matchedIndex_nonneg _ _).mpr hmeta), List.filter_cons, hmeta]
      cases onDrop with
      | false => simpa [hcontent] using ih kept before
      | true =>
        simp only [hcontent, if_true, CallTree.perform]
        set call : OnDrop := ⟨text, matchedIndex patterns (.str text)⟩ with hcall
        -- whatever the callback does, the loop goes on with the same items
        obtain ⟨trace, hrun, -, hcalls⟩ := ih kept (before ++ [⟨call, callback before call⟩])
        refine ⟨⟨call, callback before call⟩ :: trace, ?_, fun hnone => Bool.noConfusion hnone,
          fun _ => ?_⟩
        · cases hanswer : callback before call with
          | ok _ =>
            rw [hanswer] at hrun
            simp [hrun]
          | error e =>
            rw [hanswer] at hrun
            simp [hrun, h before call e hanswer]
        · rw [hcontent] at hreports
          exact .cons hreports (hcalls rfl)

def keeps (compile : String → Pattern) (getContent : α → Content ω) (config : MetaFactFilterConfig)
    (item : α) : Bool :=
  !config.enabled || !isMetaFact (getContent item) (resolveMetaFactPatterns compile config)

theorem isMetaFact_nil (content : Content ω) : isMetaFact content [] = false := by
  cases content with
  | str text => simp [isMetaFact]
  | other object => rfl

theorem perform_filterMetaFacts {callback : Callback} (h : callback.Tame)
    (compile : String → Pattern) (items : List α) (getContent : α → Content ω)
    (config : MetaFactFilterConfig)
    (before : List (Sigma fun _ : OnDrop => Except PyError Unit)) :
    ∃ trace, (filterMetaFacts compile items getContent config).perform callback before =
        (trace, .ok (items.filter (keeps compile getContent config))) ∧
      (config.onDrop = false → trace = []) ∧
      (config.onDrop = true → List.Forall₂
        (Reports getContent (resolveMetaFactPatterns compile config))
        (items.filter fun x => !keeps compile getContent config x) (trace.map Sigma.fst)) := by
  unfold filterMetaFacts
  by_cases hactive : config.enabled = true ∧ resolveMetaFactPatterns compile config ≠ []
  · obtain ⟨henabled, hpatterns⟩ := hactive
    rw [if_neg (by simp [henabled]), if_neg hpatterns]
    have hkeeps : keeps compile getContent config = fun x =>
        !isMetaFact (getContent x) (resolveMetaFactPatterns compile config) := by
      funext x
      simp [keeps, henabled]
    simpa [hkeeps] using perform_filterFrom h (resolveMetaFactPatterns compile config) getContent
      config.onDrop items [] before
  · -- without patterns there is nothing to drop, as when the filter is disabled
    have hkeeps : keeps compile getContent config = fun _ => true := by
      funext x
      rcases not_and_or.mp hactive with hdisabled | hnone
      · simp [keeps, hdisabled]
      · rw [keeps, not_not.mp hnone, isMetaFact_nil, Bool.not_false, Bool.or_true]
    have hends : (if config.enabled = false then .ends (.ok items) else
        if resolveMetaFactPatterns compile config = [] then .ends (.ok items)
        else filterFrom (resolveMetaFactPatterns compile config) getContent config.onDrop items [] :
          FilterCalls (Except PyError (List α))) = .ends (.ok items) := by
      rcases not_and_or.mp hactive with hdisabled | hnone
      · rw [if_pos (Bool.not_eq_true _ ▸ hdisabled)]
      · rw [if_pos (not_not.mp hnone), ite_self]
    simp only [hends]
    refine ⟨[], ?_, fun _ => rfl, fun _ => ?_⟩
    · simp [CallTree.perform, hkeeps]
    · simp [hkeeps]

/-- Exactly the items that are no meta-facts are kept, the others are reported to the callback
once each, and nothing more is dropped or reported when the result is filtered again. -/
theorem filterMetaFacts_law {callback : Callback} (h : callback.Tame)
    (compile : String → Pattern) (items : List α) (getContent : α → Content ω)
    (config : MetaFactFilterConfig) :
    ∃ trace kept, (filterMetaFacts compile items getContent config).perform callback [] =
        (trace, .ok kept) ∧
      kept = items.filter (fun x => !config.enabled ||
        !isMetaFact (getContent x) (resolveMetaFactPatterns compile config)) ∧
      (config.onDrop = false → trace = []) ∧
      (config.onDrop = true → List.Forall₂
        (Reports getContent (resolveMetaFactPatterns compile config))
        (items.filter fun x => config.enabled &&
          isMetaFact (getContent x) (resolveMetaFactPatterns compile config))
        (trace.map Sigma.fst)) ∧
      (filterMetaFacts compile kept getContent config).perform callback trace = ([], .ok kept) := by
  obtain ⟨trace, hrun, hsilent, hcalls⟩ :=
    perform_filterMetaFacts h compile items getContent config []
  obtain ⟨trace', hrun', hsilent', hcalls'⟩ := perform_filterMetaFacts h compile
    (items.filter (keeps compile getContent config)) getContent config trace
  have hdropped : (fun x => !keeps compile getContent config x) = fun x => config.enabled &&
      isMetaFact (getContent x) (resolveMetaFactPatterns compile config) := by
    funext x
    simp [keeps]
  have htrace : trace' = [] := by
    cases hdrop : config.onDrop with
    | false => exact hsilent' hdrop
    | true =>
      have hnil := hcalls' hdrop
      simp only [List.filter_filter, Bool.not_and_self, List.filter_false] at hnil
      exact List.map_eq_nil_iff.mp (List.forall₂_nil_left_iff.mp hnil)
  refine ⟨trace, _, hrun, rfl, hsilent, ?_, ?_⟩
  · rw [← hdropped]
    exact hcalls
  · rw [hrun', htrace, List.filter_filter]
    simp only [Bool.and_self]

/-- The callback raises, and the item is dropped all the same. -/
theorem filterMetaFacts_law_raising :
    let callback : Callback := fun _ _ => .error (.exception 0)
    let pattern : Pattern := fun text => text = "a name was mentioned"
    let config : MetaFactFilterConfig := ⟨true, some [pattern], .replace, true⟩
    let getContent : String → Content Unit := .str
    ∃ trace kept, (filterMetaFacts (fun _ _ => false) ["a name was mentioned", "tea"] getContent
      config).perform callback [] = (trace, .ok kept) ∧ kept = ["tea"] ∧
      (filterMetaFacts (fun _ _ => false) kept getContent config).perform callback trace =
        ([], .ok kept) := by
  intro callback pattern config getContent
  have htame : callback.Tame := by
    rintro before call e ⟨⟩
    rfl
  obtain ⟨trace, kept, hrun, hkept, -, -, hagain⟩ :=
    filterMetaFacts_law htame (fun _ _ => false) ["a name was mentioned", "tea"] getContent config
  exact ⟨trace, kept, hrun, hkept.trans (by decide), hagain⟩

end

end AtomicMemory
