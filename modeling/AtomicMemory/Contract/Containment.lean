import AtomicMemory.Contract.WireForm

-- The decoders index and iterate what they are given before a model validates it. Which
-- exceptions leave them depends on what stands in the place of the results of a page.

open PyValue hiding none

namespace AtomicMemory

/-- `isinstance(e, ValueError)`: Pydantic's `ValidationError` is one. -/
def PyError.isValueError : PyError → Bool
  | valueError _ | wireKeys _ _ _ | validationError _ => true
  | _ => false

namespace Contract

/-- The call returns, or raises `ValueError`. -/
def Contained {α : Type} (result : Except PyError α) : Prop :=
  ∀ e, result = .error e → e.isValueError = true

section

variable {α β : Type}

theorem contained_ok (a : α) : Contained (Except.ok a : Except PyError α) := Except.raises_ok a

theorem contained_error {e : PyError} :
    Contained (Except.error e : Except PyError α) ↔ e.isValueError = true :=
  Except.raises_error_iff

theorem contained_bind {x : Except PyError α} {f : α → Except PyError β} (hx : Contained x)
    (hf : ∀ a, x = .ok a → Contained (f a)) : Contained (x >>= f) :=
  Except.raises_bind hx hf

theorem Contained.of_bind {x : Except PyError α} {f : α → Except PyError β}
    (h : Contained (x >>= f)) : Contained x :=
  Except.raises_of_bind h

theorem contained_modelValidate (model : String) (result : Option α) :
    Contained (modelValidate model result) := by
  cases result with
  | none => exact contained_error.mpr rfl
  | some m => exact contained_ok m

end

/-- `sorted` compares these keys. -/
def sortable (keys : List PyValue) : Bool := (keys.mapM str?).isSome || comparable keys

/-- The shapes that a guard can look through: a string, an object, or an array without
arrays and objects in it whose unknown elements can be sorted. -/
def guardable (allowed : List String) : PyValue → Bool
  | .str _ | .dict _ => true
  | .list xs => xs.all hashable && sortable (xs.filter fun x => !isKey allowed x)
  | _ => false

theorem mapM_strs (texts : List String) : (texts.map PyValue.str).mapM str? = some texts :=
  mapM_map (f := str?) (g := .str) (fun _ => rfl) texts

theorem sortable_strs (texts : List String) (allowed : List String) :
    sortable ((texts.map PyValue.str).filter fun x => !isKey allowed x) = true := by
  rw [List.filter_map, sortable, mapM_strs]
  rfl

theorem contained_wireKeysError (unknown : List PyValue) (allowed : List String)
    (typeName : String) :
    (wireKeysError unknown allowed typeName).isValueError = sortable unknown := by
  unfold wireKeysError sortable
  cases unknown.mapM str? with
  | some keys => rfl
  | none =>
    cases hcompare : comparable unknown with
    | true => simp [PyError.isValueError]
    | false => simp [PyError.isValueError]

theorem contained_guard {wire : PyValue} {keys : List PyValue} (hiter : iterate wire = .ok keys)
    (allowed : List String) (typeName : String) :
    Contained (requireWireKeys wire allowed typeName) ↔
      (keys.all hashable && sortable (keys.filter fun x => !isKey allowed x)) = true := by
  unfold requireWireKeys setOf
  rw [hiter]
  cases hhash : keys.all hashable with
  | false =>
    simp only [bind, Except.bind, hhash, Bool.false_eq_true, if_false, Bool.false_and, iff_false]
    exact fun h => absurd (contained_error.mp h) nofun
  | true =>
    simp only [bind, Except.bind, hhash, if_true, Bool.true_and]
    split
    · rename_i hempty
      rw [List.isEmpty_iff] at hempty
      rw [hempty]
      exact iff_of_true (contained_ok ()) rfl
    · rw [contained_error, contained_wireKeysError]

theorem contained_requireWireKeys (wire : PyValue) (allowed : List String) (typeName : String) :
    Contained (requireWireKeys wire allowed typeName) ↔ guardable allowed wire = true := by
  have htexts (texts : List String) (hiter : iterate wire = .ok (texts.map .str)) :
      Contained (requireWireKeys wire allowed typeName) := by
    rw [contained_guard hiter, sortable_strs, Bool.and_true]
    simp [hashable]
  cases wire with
  | list xs => exact contained_guard rfl allowed typeName
  | dict items => exact iff_of_true (htexts (Items.keys items) rfl) rfl
  | str s =>
    refine iff_of_true (htexts (s.toList.map String.singleton) ?_) rfl
    rw [List.map_map]
    rfl
  | none | bool _ | int _ | float _ | datetime _ => exact contained_error

theorem contained_comprehension {α β : Type} {f : ℕ → α → Except PyError β} {xs : List α}
    (h : ∀ n, ∀ x ∈ xs, Contained (f n x)) (n : ℕ) : Contained (comprehension f n xs) := by
  induction xs generalizing n with
  | nil => exact contained_ok _
  | cons x xs ih =>
    refine contained_bind (h n x List.mem_cons_self) fun y _ => ?_
    refine contained_bind (ih (fun n x' hx' => h n x' (List.mem_cons_of_mem x hx')) (n + 1)) ?_
    exact fun ys _ => contained_ok _

theorem contained_dictOf {wire : PyValue} {allowed : List String} {typeName : String}
    (h : requireWireKeys wire allowed typeName = .ok ()) : Contained (dictOf wire) := by
  obtain ⟨keys, hkeys, hallowed⟩ := requireWireKeys_ok h
  have hpair (n : ℕ) (key : PyValue) (hkey : key ∈ keys) : Contained (pairOf n key) := by
    have hkey := hallowed key hkey
    cases key with
    | str s =>
      unfold pairOf
      dsimp only
      split
      · exact contained_ok _
      · exact contained_error.mpr rfl
    | _ => cases hkey
  by_cases hwire : ∃ items, wire = .dict items
  · obtain ⟨items, rfl⟩ := hwire
    exact contained_ok items
  · rw [dictOf_eq hkeys fun items heq => hwire ⟨items, heq⟩]
    exact contained_comprehension hpair 0

theorem contained_guarded {α : Type} {wire : PyValue} {allowed : List String} {typeName : String}
    {rest : Items → Except PyError α} (hrest : ∀ data, Contained (rest data)) :
    Contained (do
      requireWireKeys wire allowed typeName
      let data ← dictOf wire
      rest data) ↔ guardable allowed wire = true := by
  refine ⟨fun h => (contained_requireWireKeys wire allowed typeName).mp h.of_bind, fun h => ?_⟩
  refine contained_bind ((contained_requireWireKeys wire allowed typeName).mpr h) fun _ hguard => ?_
  exact contained_bind (contained_dictOf hguard) fun data _ => hrest data

theorem contained_decodeAt {α : Type} {key : String} {decode : PyValue → Except PyError α}
    {dump : α → Items} (h : ∀ items, Contained (decode (.dict items))) (data : Items) :
    Contained (decodeAt key decode dump data) := by
  unfold decodeAt
  split
  · exact contained_bind (h _) fun _ _ => contained_ok _
  · exact contained_ok data

theorem contained_decodeProvenance (wire : PyValue) :
    Contained (decodeProvenance wire) ↔ guardable provenanceWireKeys wire = true := by
  refine contained_guarded fun data => ?_
  exact contained_modelValidate "Provenance" _

section

variable (py : Pydantic)

theorem contained_decodeMemory (wire : PyValue) :
    Contained (decodeMemory py wire) ↔ guardable memoryWireKeys wire = true := by
  refine contained_guarded fun data => ?_
  refine contained_bind (contained_decodeAt (fun items => ?_) _) fun _ _ => ?_
  · exact (contained_decodeProvenance (.dict items)).mpr rfl
  · exact contained_modelValidate "Memory" _

theorem contained_decodeSearchResult (wire : PyValue) :
    Contained (decodeSearchResult py wire) ↔ guardable searchResultWireKeys wire = true := by
  refine contained_guarded fun data => ?_
  refine contained_bind (contained_decodeAt (fun items => ?_) _) fun _ _ => ?_
  · exact (contained_decodeMemory py (.dict items)).mpr rfl
  · exact contained_modelValidate "SearchResult" _

/-- Every element can be looked through, up to and with the first that is no search
result. -/
def resultsGuardable : List PyValue → Bool
  | [] => true
  | x :: xs =>
    guardable searchResultWireKeys x &&
      ((ofDict (readSearchResult py) x).isNone || resultsGuardable xs)

theorem contained_decodeResults (n : ℕ) (xs : List PyValue) :
    Contained (decodeResults py n xs) ↔ resultsGuardable py xs = true := by
  induction xs generalizing n with
  | nil => exact iff_of_true (contained_ok []) rfl
  | cons x xs ih =>
    have hfirst : Contained (do
        let result ← decodeSearchResult py x
        .ok (PyValue.dict (result.dump pythonMode))) ↔ guardable searchResultWireKeys x = true := by
      rw [← contained_decodeSearchResult py x]
      exact ⟨Contained.of_bind, fun h => contained_bind h fun _ _ => contained_ok _⟩
    rw [resultsGuardable, Bool.and_eq_true, Bool.or_eq_true, Option.isNone_iff_eq_none, ← ih (n + 1)]
    constructor
    · intro h
      refine ⟨hfirst.mp h.of_bind, ?_⟩
      by_cases hread : ofDict (readSearchResult py) x = none
      · exact .inl hread
      · obtain ⟨r, hr⟩ := Option.ne_none_iff_exists'.mp hread
        refine .inr ?_
        unfold decodeResults comprehension at h
        rw [(decodeSearchResult_iff py x r).mpr hr] at h
        exact Contained.of_bind h
    · rintro ⟨hguard, hrest⟩
      refine contained_bind (hfirst.mpr hguard) fun dump hdump => ?_
      obtain ⟨r, hr, -⟩ := Except.bind_ok hdump
      have hread := (decodeSearchResult_iff py x r).mp hr
      rcases hrest with hnone | hrest
      · rw [hread] at hnone
        cases hnone
      · exact contained_bind hrest fun _ _ => contained_ok _

/-- The keys are not those of a page, or its results are absent, a string, an object, or an
array whose elements can be looked through. -/
def pageGuardable (wire : Items) : Bool :=
  !((Items.keys wire).all fun key => decide (key ∈ searchResultPageWireKeys)) ||
    match wire.lookup "results" with
    | none | some (.str _) | some (.dict _) => true
    | some (.list xs) => resultsGuardable py xs
    | some _ => false

theorem resultsGuardable_strs (texts : List String) :
    resultsGuardable py (texts.map .str) = true := by
  cases texts with
  | nil => rfl
  | cons text texts => rfl

theorem contained_decodeSearchResultPage (wire : Items) :
    Contained (decodeSearchResultPage py wire) ↔ pageGuardable py wire = true := by
  have hguard : Contained (requireWireKeys (.dict wire) searchResultPageWireKeys
      "SearchResultPage") := (contained_requireWireKeys _ _ _).mpr rfl
  have hkeys := requireWireKeys_dict wire searchResultPageWireKeys "SearchResultPage"
  have hall : ((Items.keys wire).all fun key => decide (key ∈ searchResultPageWireKeys)) = true ↔
      ∀ key ∈ Items.keys wire, key ∈ searchResultPageWireKeys := by
    simp only [List.all_eq_true, decide_eq_true_eq]
  rw [← hall] at hkeys
  unfold decodeSearchResultPage pageGuardable
  cases hunknown : (Items.keys wire).all fun key => decide (key ∈ searchResultPageWireKeys) with
  | false =>
    refine iff_of_true (contained_bind hguard fun _ hok => ?_) rfl
    rw [hkeys.mp hok] at hunknown
    cases hunknown
  | true =>
    rw [hkeys.mpr hunknown, Bool.not_true, Bool.false_or]
    -- what is left is the comprehension over what the results iterate to
    have hresults (xs : List PyValue) : Contained (do
        let results ← decodeResults py 0 xs
        modelValidate "SearchResultPage"
          (SearchResultPage.ofItems py (wire.set "results" (.list results)))) ↔
        resultsGuardable py xs = true := by
      rw [← contained_decodeResults py 0 xs]
      refine ⟨Contained.of_bind, fun h => contained_bind h fun _ _ => ?_⟩
      exact contained_modelValidate "SearchResultPage" _
    cases wire.lookup "results" with
    | none => exact hresults []
    | some v =>
      cases v with
      | list xs => exact hresults xs
      | str s =>
        have hchars := resultsGuardable_strs py (s.toList.map String.singleton)
        rw [List.map_map] at hchars
        exact iff_of_true ((hresults _).mpr hchars) rfl
      | dict items =>
        exact iff_of_true ((hresults _).mpr (resultsGuardable_strs py (Items.keys items))) rfl
      | none | bool _ | int _ | float _ | datetime _ =>
        exact iff_of_false (fun h => absurd (contained_error.mp h) nofun) nofun

end

/-- The decoders raise nothing but `ValueError` exactly on the objects whose results, read
as those of a page, can be looked through. -/
theorem decoders_contained_iff (py : Pydantic) (wire : Items) :
    Contained (decodeSearchResultPage py wire) ∧ Contained (decodeSearchResult py (.dict wire)) ∧
        Contained (decodeMemory py (.dict wire)) ∧ Contained (decodeProvenance (.dict wire)) ∧
        Contained (decodeIngestResult wire) ↔
      pageGuardable py wire = true := by
  rw [← contained_decodeSearchResultPage]
  refine ⟨And.left, fun h => ⟨h, ?_, ?_, ?_, ?_⟩⟩
  · exact (contained_decodeSearchResult py (.dict wire)).mpr rfl
  · exact (contained_decodeMemory py (.dict wire)).mpr rfl
  · exact (contained_decodeProvenance (.dict wire)).mpr rfl
  · refine contained_bind ((contained_requireWireKeys _ _ _).mpr rfl) fun _ _ => ?_
    exact contained_modelValidate "IngestResult" _

/-- The results of a page are `null`. -/
theorem not_always_contained :
    ¬Contained (decodeSearchResultPage Pydantic.reference [("results", .none)]) := by
  have herror : decodeSearchResultPage Pydantic.reference [("results", .none)] =
      .error .typeError := rfl
  rw [herror, contained_error]
  decide

end Contract

end AtomicMemory
