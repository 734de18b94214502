import AtomicMemory.Contract.IngestCodec
import AtomicMemory.Memory.Filters

-- The codec of search requests, whose filters are trees: what the encoder writes is read back
-- with each datetime operand as a text, and every node of a filter satisfies one branch of its
-- schema.

open Calendar
open PyValue hiding none
open Schema

namespace AtomicMemory

def Operand.iso : Operand → Operand
  | datetime d => str d.zText
  | o => o

def FieldFilter.iso (f : FieldFilter) : FieldFilter := { f with value := f.value.map Operand.iso }

mutual
def FilterExpr.iso : FilterExpr → FilterExpr
  | .and exprs => .and (isoFilters exprs)
  | .or exprs => .or (isoFilters exprs)
  | .not expr => .not expr.iso
  | .field f => .field f.iso

def isoFilters : List FilterExpr → List FilterExpr
  | [] => []
  | e :: es => e.iso :: isoFilters es
end

def FilteredSearchRequest.iso (r : FilteredSearchRequest) : FilteredSearchRequest :=
  { r with filter := r.filter.map FilterExpr.iso }

theorem FilterOp.ofValue_text (op : FilterOp) : FilterOp.ofValue (.str op.text) = some op := by
  cases op <;> rfl

theorem FieldFilter.keys_dump (f : FieldFilter) :
    ∀ key ∈ Items.keys f.dump, key ∈ fieldFilterKeys := by
  intro key hkey
  simp only [FieldFilter.dump, keys_append, List.mem_append] at hkey
  rcases hkey with hkey | hkey
  · exact List.mem_append_left ["value"] hkey
  · rw [keys_optItem hkey]
    decide

theorem Operand.dump_ne_none (o : Operand) : o.dump ≠ .none := by
  cases o <;> exact nofun

theorem FilterExpr.dump_ne_none (e : FilterExpr) : e.dump ≠ .none := by
  cases e <;> exact nofun

section

variable (py : UnionPydantic)

theorem FieldFilter.ofItems_dump (f : FieldFilter) : FieldFilter.ofItems py f.dump = some f := by
  unfold FieldFilter.ofItems
  rw [forbidExtra_eq f.keys_dump, field_eq (a := f.field) (v := .str f.field) rfl rfl,
    field_eq (v := .str f.op.text) rfl f.op.ofValue_text,
    optField_map (x := f.value) (g := Operand.dump) _ fun o _ =>
      ⟨o.dump_ne_none, py.operand_dump o⟩]
  · rfl
  · simp [FieldFilter.dump, Items.lookup_cons, lookup_optItem]

theorem filterNode_field (f : FieldFilter) (readings : List (String × FilterReading)) :
    filterNode py f.dump readings = some (.field f) := by
  have hmem : "field" ∈ Items.keys f.dump := by simp [FieldFilter.dump, Items.keys]
  have hnode (key : String) (hkey : "field" ≠ key) (read : Items → Option FilterExpr) :
      forbidExtra [key] read f.dump = none :=
    if_neg fun h => hkey (List.mem_singleton.mp (h "field" hmem))
  unfold filterNode
  simp only [hnode "and" (by decide), hnode "or" (by decide), hnode "not" (by decide),
    f.ofItems_dump py, Option.map_some]
  rfl

mutual
theorem FilterExpr.fold_dump :
    ∀ e : FilterExpr, fold (filterAlgebra py) e.dump = ⟨some e, none⟩
  | .and exprs => by
    have hlist : fold (filterAlgebra py) (.list (dumpFilters exprs)) = ⟨none, some exprs⟩ :=
      congrArg (FilterReading.mk none) (foldList_dump exprs)
    rw [FilterExpr.dump, fold, foldItems, foldItems, hlist]
    rfl
  | .or exprs => by
    have hlist : fold (filterAlgebra py) (.list (dumpFilters exprs)) = ⟨none, some exprs⟩ :=
      congrArg (FilterReading.mk none) (foldList_dump exprs)
    rw [FilterExpr.dump, fold, foldItems, foldItems, hlist]
    rfl
  | .not expr => by
    rw [FilterExpr.dump, fold, foldItems, foldItems, expr.fold_dump]
    rfl
  | .field f => congrArg (fun e => FilterReading.mk e none) (filterNode_field py f _)

theorem foldList_dump : ∀ es : List FilterExpr,
    (foldList (filterAlgebra py) (dumpFilters es)).mapM FilterReading.expr = some es
  | [] => rfl
  | e :: es => by
    rw [dumpFilters, foldList, List.mapM_cons, e.fold_dump, foldList_dump es]
    rfl
end

theorem FilteredSearchRequest.keys_dump (r : FilteredSearchRequest) :
    ∀ key ∈ Items.keys r.dump, key ∈ searchRequestKeys := by
  intro key hkey
  simp only [FilteredSearchRequest.dump, keys_append, List.mem_append] at hkey
  rcases hkey with (((hkey | hkey) | hkey) | hkey) | hkey
  · exact List.mem_append_left ["limit", "threshold", "filter", "reranker"] hkey
  all_goals
    rw [keys_optItem hkey]
    decide

theorem FilteredSearchRequest.ofItems_dump (r : FilteredSearchRequest) :
    FilteredSearchRequest.ofItems py r.dump = some r := by
  have hfilter (e : FilterExpr) : FilterExpr.ofValue py e.dump = some e :=
    congrArg FilterReading.expr (e.fold_dump py)
  unfold FilteredSearchRequest.ofItems
  rw [forbidExtra_eq r.keys_dump, field_eq (a := r.query) (v := .str r.query) rfl rfl,
    field_eq (a := r.scope) (v := .dict r.scope.dump) rfl (Scope.ofItems_dump r.scope),
    optField_map (x := r.limit) (g := .int) _ fun n _ => ⟨nofun, py.int_int n⟩,
    optField_map (x := r.threshold) (g := .float) _ fun q _ => ⟨nofun, py.float_float q⟩,
    optField_map (x := r.filter) (g := FilterExpr.dump) _ fun e _ => ⟨e.dump_ne_none, hfilter e⟩,
    optField_map (x := r.reranker) (g := .str) _ fun text _ => ⟨nofun, rfl⟩]
  · rfl
  all_goals
    simp [FilteredSearchRequest.dump, Items.lookup_cons, Items.lookup_append, lookup_optItem]

end

namespace Contract

def encodeSearchRequest (request : FilteredSearchRequest) : Except PyError PyValue :=
  jsonify (.dict request.dump)

def decodeSearchRequest (py : UnionPydantic) (wire : PyValue) :
    Except PyError FilteredSearchRequest :=
  modelValidate "SearchRequest" ((dict? wire).bind (FilteredSearchRequest.ofItems py))

theorem itemsIsoForm_append (xs ys : Items) :
    itemsIsoForm (xs ++ ys) = itemsIsoForm xs ++ itemsIsoForm ys := by
  induction xs with
  | nil => rfl
  | cons x xs ih =>
    obtain ⟨key, v⟩ := x
    rw [List.cons_append, itemsIsoForm, itemsIsoForm, ih, List.cons_append]

theorem itemsIsoForm_optItem {α : Type} {key : String} {x : Option α} {f g : α → PyValue}
    (h : ∀ a, isoForm (f a) = g a) : itemsIsoForm (optItem key x f) = optItem key x g := by
  cases x with
  | none => rfl
  | some a => rw [optItem, itemsIsoForm, itemsIsoForm, h, optItem]

theorem optItem_map {α β : Type} (key : String) (x : Option α) (h : α → β) (f : β → PyValue) :
    optItem key (x.map h) f = optItem key x (f ∘ h) := by
  cases x <;> rfl

theorem isoForm_listOperands (xs : List ListOperand) :
    listIsoForm (xs.map ListOperand.dump) = xs.map ListOperand.dump := by
  induction xs with
  | nil => rfl
  | cons x xs ih =>
    rw [List.map_cons, listIsoForm, ih]
    cases x <;> rfl

theorem isoForm_operand (o : Operand) : isoForm o.dump = o.iso.dump := by
  cases o with
  | list xs => exact congrArg PyValue.list (isoForm_listOperands xs)
  | _ => rfl

theorem isoForm_fieldFilter (f : FieldFilter) : itemsIsoForm f.dump = f.iso.dump := by
  unfold FieldFilter.dump
  rw [itemsIsoForm_append, itemsIsoForm_optItem isoForm_operand]
  simp only [FieldFilter.iso, optItem_map]
  rfl

mutual
theorem isoForm_filter : ∀ e : FilterExpr, isoForm e.dump = e.iso.dump
  | .and exprs => congrArg (fun xs => PyValue.dict [("and", .list xs)]) (isoForm_filters exprs)
  | .or exprs => congrArg (fun xs => PyValue.dict [("or", .list xs)]) (isoForm_filters exprs)
  | .not expr => congrArg (fun v => PyValue.dict [("not", v)]) (isoForm_filter expr)
  | .field f => congrArg PyValue.dict (isoForm_fieldFilter f)

theorem isoForm_filters :
    ∀ es : List FilterExpr, listIsoForm (dumpFilters es) = dumpFilters (isoFilters es)
  | [] => rfl
  | e :: es => congrArg₂ List.cons (isoForm_filter e) (isoForm_filters es)
end

theorem isoForm_scope (s : Scope String) : itemsIsoForm s.dump = s.dump := by
  have htext (key : String) (x : Option String) :
      itemsIsoForm (optItem key x .str) = optItem key x .str :=
    itemsIsoForm_optItem fun _ => rfl
  simp only [Scope.dump, itemsIsoForm_append, htext]

theorem isoForm_request (r : FilteredSearchRequest) : itemsIsoForm r.dump = r.iso.dump := by
  have hhead : itemsIsoForm [("query", .str r.query), ("scope", .dict r.scope.dump)] =
      [("query", .str r.query), ("scope", .dict r.scope.dump)] := by
    simp only [itemsIsoForm, isoForm, isoForm_scope]
  have hlimit : itemsIsoForm (optItem "limit" r.limit .int) = optItem "limit" r.limit .int :=
    itemsIsoForm_optItem fun _ => rfl
  have hthreshold : itemsIsoForm (optItem "threshold" r.threshold .float) =
      optItem "threshold" r.threshold .float := itemsIsoForm_optItem fun _ => rfl
  have hreranker : itemsIsoForm (optItem "reranker" r.reranker .str) =
      optItem "reranker" r.reranker .str := itemsIsoForm_optItem fun _ => rfl
  unfold FilteredSearchRequest.dump
  simp only [itemsIsoForm_append, hhead, hlimit, hthreshold, hreranker,
    itemsIsoForm_optItem isoForm_filter, FilteredSearchRequest.iso, optItem_map]
  rfl

theorem encodeSearchRequest_eq {r : FilteredSearchRequest} (h : itemsInRange r.dump = true) :
    encodeSearchRequest r = .ok (.dict r.iso.dump) := by
  unfold encodeSearchRequest
  rw [jsonify_inRange (.dict r.dump) h, isoForm, isoForm_request]

theorem decodeSearchRequest_dump (py : UnionPydantic) (r : FilteredSearchRequest) :
    decodeSearchRequest py (.dict r.dump) = .ok r := by
  unfold decodeSearchRequest
  rw [dict?, Option.bind_some, r.ofItems_dump py]
  rfl

theorem encodeSearchRequest_iso (r : FilteredSearchRequest) :
    encodeSearchRequest r.iso = .ok (.dict r.iso.dump) := by
  have hjson : (PyValue.dict r.iso.dump).isJson = true := by
    rw [← isoForm_request]
    exact isJson_isoForm (.dict r.dump)
  exact jsonify_eq _ hjson

def isString : PyValue → Bool
  | .str _ => true
  | _ => false

def isBoolean : PyValue → Bool
  | .bool _ => true
  | _ => false

def isJsonNumber : PyValue → Bool
  | .int _ | .float _ => true
  | _ => false

def isArrayOf (items : PyValue → Bool) : PyValue → Bool
  | .list xs => xs.all items
  | _ => false

/-- `oneOf`, by what the branches say. -/
def exactlyOne (branches : List Bool) : Bool := branches.count true == 1

def operandBranches (v : PyValue) : List Bool :=
  [isString v, isJsonNumber v, isBoolean v, isArrayOf (fun x => isString x || isJsonNumber x) v]

def filterOpTexts : List String :=
  ["eq", "neq", "gt", "gte", "lt", "lte", "in", "contains", "exists"]

def isText (texts : List String) : PyValue → Bool
  | .str s => s ∈ texts
  | _ => false

def onlyProperties (properties : List (String × (PyValue → Bool))) (items : Items) : Bool :=
  (Items.keys items).all (· ∈ properties.map Prod.fst) &&
    properties.all fun property => ((items.lookup property.1).map property.2).getD true

def hasProperties (required : List String) (items : Items) : Bool :=
  required.all (· ∈ Items.keys items)

def fieldFilterValid (items : Items) : Bool :=
  hasProperties ["field", "op"] items &&
    onlyProperties [("field", isString), ("op", isText filterOpTexts),
      ("value", fun v => exactlyOne (operandBranches v))] items

/-- Whether a value satisfies `FilterExpr`, and whether it is an array of such values. -/
structure FilterVerdict where
  expr : Bool
  exprs : Bool

/-- The branches of `FilterExpr`, by the verdicts on the values in an object. -/
def filterBranches (items : Items) (verdicts : List (String × FilterVerdict)) : List Bool :=
  let only (key : String) (ok : FilterVerdict → Bool) : Bool :=
    (Items.keys items).all (· = key) && (verdicts.lookup key).any ok
  [only "and" FilterVerdict.exprs, only "or" FilterVerdict.exprs, only "not" FilterVerdict.expr,
    fieldFilterValid items]

def filterVerdicts : Algebra FilterVerdict where
  list verdicts := ⟨false, verdicts.all FilterVerdict.expr⟩
  dict items verdicts := ⟨exactlyOne (filterBranches items verdicts), false⟩
  scalar _ := ⟨false, false⟩

/-- The value satisfies exactly one branch of `FilterExpr`, and so does every node in it. -/
def filterExprValid (v : PyValue) : Bool := (fold filterVerdicts v).expr

theorem exactlyOne_operand (o : Operand) : exactlyOne (operandBranches o.iso.dump) = true := by
  cases o with
  | list xs =>
    have hitems : isArrayOf (fun x => isString x || isJsonNumber x)
        (.list (xs.map ListOperand.dump)) = true := by
      rw [isArrayOf, List.all_map, List.all_eq_true]
      intro x _
      cases x <;> rfl
    unfold operandBranches
    rw [Operand.iso, Operand.dump, hitems]
    · rfl
    · exact nofun
  | _ => rfl

theorem fieldFilterValid_dump (f : FieldFilter) : fieldFilterValid f.iso.dump = true := by
  have hop : isText filterOpTexts (.str f.op.text) = true := by
    cases f.op <;> decide
  unfold fieldFilterValid FieldFilter.dump FieldFilter.iso
  cases f.value with
  | none =>
    simp [hasProperties, onlyProperties, optItem, Items.keys, Items.lookup_cons, hop, isString]
  | some o =>
    have ho := exactlyOne_operand o
    simp [hasProperties, onlyProperties, optItem, Items.keys, Items.lookup_cons, hop, isString, ho]

theorem filterBranches_field (f : FieldFilter) (verdicts : List (String × FilterVerdict)) :
    filterBranches f.iso.dump verdicts = [false, false, false, true] := by
  unfold filterBranches
  rw [fieldFilterValid_dump]
  rfl

mutual
theorem filterVerdicts_dump : ∀ e : FilterExpr, fold filterVerdicts e.iso.dump = ⟨true, false⟩
  | .and exprs => by
    have hlist : fold filterVerdicts (.list (dumpFilters (isoFilters exprs))) = ⟨false, true⟩ :=
      congrArg (FilterVerdict.mk false) (filterVerdicts_dumpFilters exprs)
    rw [FilterExpr.iso, FilterExpr.dump, fold, foldItems, foldItems, hlist]
    rfl
  | .or exprs => by
    have hlist : fold filterVerdicts (.list (dumpFilters (isoFilters exprs))) = ⟨false, true⟩ :=
      congrArg (FilterVerdict.mk false) (filterVerdicts_dumpFilters exprs)
    rw [FilterExpr.iso, FilterExpr.dump, fold, foldItems, foldItems, hlist]
    rfl
  | .not expr => by
    rw [FilterExpr.iso, FilterExpr.dump, fold, foldItems, foldItems, filterVerdicts_dump expr]
    rfl
  | .field f => by
    rw [FilterExpr.iso, FilterExpr.dump, fold]
    exact congrArg (fun bs => FilterVerdict.mk (exactlyOne bs) false) (filterBranches_field f _)

theorem filterVerdicts_dumpFilters : ∀ es : List FilterExpr,
    (foldList filterVerdicts (dumpFilters (isoFilters es))).all FilterVerdict.expr = true
  | [] => rfl
  | e :: es => by
    rw [isoFilters, dumpFilters, foldList, List.all_cons, filterVerdicts_dump e,
      filterVerdicts_dumpFilters es]
    rfl
end

/-- `SearchRequest`, its filter left open. -/
def searchRequestSchema : Schema :=
  .object [("query", .string), ("scope", scopeSchema), ("limit", .integer 0),
    ("threshold", .number none none), ("filter", .object [] [] true), ("reranker", .string)]
    ["query", "scope"] false

structure SearchRequestValid (items : Items) : Prop where
  request : searchRequestSchema.Valid (.dict items)
  filter : ∀ v, items.lookup "filter" = some v → filterExprValid v = true

theorem valid_filter (e : FilterExpr) : (Schema.object [] [] true).Valid e.dump := by
  cases e <;> exact ⟨⟨nofun, nofun⟩, trivial⟩

theorem lookup_isoRequest (r : FilteredSearchRequest) (key : String) :
    r.iso.dump.lookup key =
      if key = "query" then some (.str r.query)
      else if key = "scope" then some (.dict r.scope.dump)
      else if key = "limit" then r.limit.map .int
      else if key = "threshold" then r.threshold.map .float
      else if key = "filter" then r.filter.map fun e => e.iso.dump
      else if key = "reranker" then r.reranker.map .str
      else none := by
  unfold FilteredSearchRequest.dump FilteredSearchRequest.iso
  by_cases hkey : key ∈ searchRequestKeys
  · simp only [searchRequestKeys, List.mem_cons, List.not_mem_nil, or_false] at hkey
    rcases hkey with rfl | rfl | rfl | rfl | rfl | rfl <;>
      simp [Items.lookup_append, Items.lookup_cons, lookup_optItem, Function.comp_def]
  · simp only [searchRequestKeys, List.mem_cons, List.not_mem_nil, or_false, not_or] at hkey
    simp [Items.lookup_append, Items.lookup_cons, lookup_optItem, hkey]

theorem searchRequestValid_iso {r : FilteredSearchRequest} (hlimit : ∀ n ∈ r.limit, 0 ≤ n) :
    SearchRequestValid r.iso.dump := by
  have hlookup := lookup_isoRequest r
  have hquery : r.iso.dump.lookup "query" = some (.str r.query) := hlookup "query"
  have hscope : r.iso.dump.lookup "scope" = some (.dict r.scope.dump) := hlookup "scope"
  constructor
  · refine ⟨⟨?_, fun _ => r.iso.keys_dump⟩, valid_of_some hquery trivial,
      valid_of_some hscope (valid_scope _), ?_,
      valid_of_map (x := r.threshold) (g := .float) ?_ fun q => ⟨nofun, nofun⟩,
      valid_of_map (x := r.filter) (g := fun e => e.iso.dump) ?_ fun e => valid_filter e.iso,
      valid_of_map (x := r.reranker) (g := .str) ?_ fun _ => trivial, trivial⟩
    · simp [Items.mem_keys_of_lookup hquery, Items.mem_keys_of_lookup hscope]
    · intro v hv
      rw [hlookup] at hv
      obtain ⟨n, hn, rfl⟩ := Option.map_eq_some_iff.mp (by simpa using hv)
      exact hlimit n hn
    all_goals simp [hlookup]
  · intro v hv
    obtain ⟨e, -, rfl⟩ := Option.map_eq_some_iff.mp ((hlookup "filter").symm.trans hv)
    exact congrArg FilterVerdict.expr (filterVerdicts_dump e)

/-- With datetime operands that have a UTC form in years 1 to 9999, what is encoded is decoded
to the request with these operands as texts and encoded again to itself, and it satisfies the
schema unless the limit is negative. -/
theorem search_request_codec (py : UnionPydantic) (r : FilteredSearchRequest)
    (hrange : itemsInRange r.dump = true) :
    ∃ wire, encodeSearchRequest r = .ok (.dict wire) ∧
      decodeSearchRequest py (.dict wire) = .ok r.iso ∧
      encodeSearchRequest r.iso = .ok (.dict wire) ∧
      ((∀ n ∈ r.limit, 0 ≤ n) → SearchRequestValid wire) :=
  ⟨r.iso.dump, encodeSearchRequest_eq hrange, decodeSearchRequest_dump py r.iso,
    encodeSearchRequest_iso r, searchRequestValid_iso⟩

def sampleFilter : FilterExpr :=
  .and [.not (.field ⟨"kind", .isIn, some (.list [.str "fact", .int 1])⟩),
    .or [.field ⟨"at", .gt, some (.datetime firstDatetime)⟩,
      .field ⟨"pinned", .eq, some (.bool true)⟩, .field ⟨"source", .exists, none⟩]]

def sampleRequest : FilteredSearchRequest :=
  ⟨⟨"q", ⟨some "u1", none, none, none⟩, some 0, some (1 / 2)⟩, some sampleFilter, none⟩

theorem search_request_codec_sample :
    itemsInRange sampleRequest.dump = true ∧
      ∃ wire, encodeSearchRequest sampleRequest = .ok (.dict wire) ∧
        decodeSearchRequest UnionPydantic.reference (.dict wire) = .ok sampleRequest.iso ∧
        encodeSearchRequest sampleRequest.iso = .ok (.dict wire) ∧
        ((∀ n ∈ sampleRequest.limit, 0 ≤ n) → SearchRequestValid wire) := by
  have hrange : itemsInRange sampleRequest.dump = true := by decide
  exact ⟨hrange, search_request_codec UnionPydantic.reference sampleRequest hrange⟩

/-- A datetime operand that has no UTC form in years 1 to 9999. -/
theorem not_always_search_request_encoded :
    encodeSearchRequest
        ⟨⟨"q", ⟨none, none, none, none⟩, none, none⟩,
          some (.not (.field ⟨"at", .gt, some (.datetime earlyDatetime)⟩)), none⟩ =
      .error .overflowError :=
  rfl

end Contract

end AtomicMemory
