import AtomicMemory.Lib.PyText
import AtomicMemory.Lib.PyValue
import Mathlib.Data.List.Forall2

-- A model is a list of fields, each found in the dict under its alias or its name, and a check
-- of the whole once every field is accepted. What is rejected is reported line by line, each
-- line with the input it is about. For two dicts that differ in the value of one accepted
-- field: the reports differ in nothing but the lines that are about the whole dict.

open PyText
open PyValue hiding none

namespace PydanticModel

structure LineError where
  type : String
  loc : List PyValue
  msg : String
  input : PyValue
  ctx : Option PyValue

/-- A line of an error that was raised below `key`. -/
def LineError.under (e : LineError) (key : String) : LineError :=
  { e with loc := .str key :: e.loc }

def missing (key : String) (items : Items) : LineError :=
  { type := "missing", loc := [.str key], msg := "Field required", input := .dict items,
    ctx := none }

def extraForbidden (key : String) (v : PyValue) : LineError :=
  { type := "extra_forbidden", loc := [.str key], msg := "Extra inputs are not permitted",
    input := v, ctx := none }

/-- The line of a `ValueError` that a validator raises. -/
def valueError (message : String) (v : PyValue) : LineError :=
  { type := "value_error", loc := [], msg := "Value error, " ++ message, input := v,
    ctx := some (.dict [("error", .str message)]) }

/-- An entry of `errors()`. -/
def LineError.toItems (url : String → String) (e : LineError) : Items :=
  [("type", .str e.type), ("loc", .list e.loc), ("msg", .str e.msg), ("input", e.input)] ++
    e.ctx.toList.map (fun ctx => ("ctx", ctx)) ++ [("url", .str (url e.type))]

structure ModelField where
  name : String
  aliasKey : Option String
  default : Option PyValue
  validate : PyValue → Except (List LineError) PyValue
  ne_nil : ∀ v, validate v ≠ .error []

def ModelField.keys (f : ModelField) : List String := f.aliasKey.toList ++ [f.name]

def ModelField.given (f : ModelField) (items : Items) : Option (String × PyValue) :=
  f.keys.findSome? fun key => (items.lookup key).map fun v => (key, v)

def ModelField.run (f : ModelField) (items : Items) : Except (List LineError) PyValue :=
  match f.given items with
  | some (key, v) => (f.validate v).mapError (·.map (·.under key))
  | none =>
    match f.default with
    | some v => .ok v
    | none => .error [missing (f.aliasKey.getD f.name) items]

def errorsOf {α : Type} : Except (List LineError) α → List LineError
  | .ok _ => []
  | .error es => es

def fieldErrors (fields : List ModelField) (items : Items) : List LineError :=
  fields.flatMap fun f => errorsOf (f.run items)

def usedKeys (fields : List ModelField) (items : Items) : List String :=
  fields.filterMap fun f => (f.given items).map Prod.fst

def extraErrors (fields : List ModelField) (items : Items) : List LineError :=
  (items.filter fun item => item.1 ∉ usedKeys fields items).map fun item =>
    extraForbidden item.1 item.2

def lineErrors (fields : List ModelField) (items : Items) : List LineError :=
  fieldErrors fields items ++ extraErrors fields items

def values (fields : List ModelField) (items : Items) : Items :=
  fields.filterMap fun f => (f.run items).toOption.map fun v => (f.name, v)

/-- `model_validate`: `check` sees the attributes when there is nothing to report, and what
it raises is about the whole dict. -/
def validateModel (fields : List ModelField) (check : Items → Except String Items)
    (items : Items) : Except (List LineError) Items :=
  match lineErrors fields items with
  | [] => (check (values fields items)).mapError fun message => [valueError message (.dict items)]
  | e :: es => .error (e :: es)

theorem validateModel_ne_nil (fields : List ModelField) (check : Items → Except String Items)
    (items : Items) : validateModel fields check items ≠ .error [] := by
  unfold validateModel
  split
  · cases check (values fields items) <;> simp [Except.mapError]
  · simp

theorem validateModel_of_ne_nil {fields : List ModelField}
    {check : Items → Except String Items} {items : Items} (h : lineErrors fields items ≠ []) :
    validateModel fields check items = .error (lineErrors fields items) := by
  unfold validateModel
  split
  · rename_i hnil
    exact absurd hnil h
  · rename_i hcons
    rw [hcons]

theorem validateModel_of_nil {fields : List ModelField} {check : Items → Except String Items}
    {items : Items} (h : lineErrors fields items = []) :
    validateModel fields check items =
      (check (values fields items)).mapError fun message =>
        [valueError message (.dict items)] := by
  unfold validateModel
  rw [h]

structure ReprStyle where
  unicode : Unicode
  float : ℚ → List Char
  datetime : Calendar.DateTime → List Char

mutual
/-- `repr`. -/
def reprValue (style : ReprStyle) : PyValue → List Char
  | .none => "None".toList
  | .bool true => "True".toList
  | .bool false => "False".toList
  | .int n => (toString n).toList
  | .float q => style.float q
  | .str s => repr style.unicode s.toList
  | .list xs => '[' :: reprList style xs ++ [']']
  | .dict items => '\x7b' :: reprItems style items ++ ['\x7d']
  | .datetime d => style.datetime d

def reprList (style : ReprStyle) : List PyValue → List Char
  | [] => []
  | [x] => reprValue style x
  | x :: xs => reprValue style x ++ ", ".toList ++ reprList style xs

def reprItems (style : ReprStyle) : List (String × PyValue) → List Char
  | [] => []
  | [(k, v)] => repr style.unicode k.toList ++ ": ".toList ++ reprValue style v
  | (k, v) :: items =>
    repr style.unicode k.toList ++ ": ".toList ++ reprValue style v ++ ", ".toList ++
      reprItems style items
end

def typeName : PyValue → String
  | .none => "NoneType"
  | .bool _ => "bool"
  | .int _ => "int"
  | .float _ => "float"
  | .str _ => "str"
  | .list _ => "list"
  | .dict _ => "dict"
  | .datetime _ => "datetime"

structure LineHead where
  type : String
  loc : List PyValue
  msg : String
  inputType : String

def LineError.head (e : LineError) : LineHead :=
  { type := e.type, loc := e.loc, msg := e.msg, inputType := typeName e.input }

structure ReportStyle extends ReprStyle where
  header : String → ℕ → List Char
  before : LineHead → List Char
  after : LineHead → List Char
  url : String → String

/-- A line of `str(exc)`, with the `repr` of its input. -/
def lineText (style : ReportStyle) (e : LineError) : List Char :=
  style.before e.head ++ reprValue style.toReprStyle e.input ++ style.after e.head

/-- `str(exc)`. -/
def reportText (style : ReportStyle) (title : String) (es : List LineError) : List Char :=
  style.header title es.length ++ es.flatMap (lineText style)

/-- The report is about the parts of the dict only: no required field is missing, and there is
a rejected value or a key that is no field. -/
structure Diagnosed (fields : List ModelField) (items : Items) : Prop where
  required : ∀ f ∈ fields, f.default = none → (f.given items).isSome
  rejected : (∃ f ∈ fields, ∃ key v es, f.given items = some (key, v) ∧
    f.validate v = .error es) ∨ ∃ key ∈ items.keys, key ∉ usedKeys fields items

section Run

variable {f : ModelField} {items : Items} {key : String} {v w : PyValue} {es : List LineError}

theorem run_accepted (hgiven : f.given items = some (key, v)) (hv : f.validate v = .ok w) :
    f.run items = .ok w := by
  simp only [ModelField.run, hgiven, hv, Except.mapError]

theorem run_rejected (hgiven : f.given items = some (key, v)) (hv : f.validate v = .error es) :
    f.run items = .error (es.map (·.under key)) := by
  simp only [ModelField.run, hgiven, hv, Except.mapError]

theorem run_default (hgiven : f.given items = none) (hdefault : f.default = some v) :
    f.run items = .ok v := by
  simp only [ModelField.run, hgiven, hdefault]

theorem run_missing (hgiven : f.given items = none) (hdefault : f.default = none) :
    f.run items = .error [missing (f.aliasKey.getD f.name) items] := by
  simp only [ModelField.run, hgiven, hdefault]

end Run

theorem fieldErrors_eq_nil {fields : List ModelField} {items : Items} :
    fieldErrors fields items = [] ↔ ∀ f ∈ fields,
      (f.default = none → (f.given items).isSome) ∧
        ∀ key v es, f.given items = some (key, v) → f.validate v ≠ .error es := by
  unfold fieldErrors
  rw [List.flatMap_eq_nil_iff]
  refine forall_congr' fun f => imp_congr_right fun _ => ?_
  cases hgiven : f.given items with
  | some x =>
    obtain ⟨key, v⟩ := x
    cases hv : f.validate v with
    | ok w =>
      rw [run_accepted hgiven hv, errorsOf]
      refine iff_of_true rfl ⟨fun _ => rfl, ?_⟩
      intro key' v' es hx hes
      cases hx
      rw [hv] at hes
      cases hes
    | error es =>
      rw [run_rejected hgiven hv, errorsOf, List.map_eq_nil_iff]
      -- a rejected value has a line, so neither side holds
      refine iff_of_false ?_ fun hall => hall.2 key v es rfl hv
      rintro rfl
      exact f.ne_nil v hv
  | none =>
    cases hdefault : f.default with
    | some v =>
      rw [run_default hgiven hdefault, errorsOf]
      refine iff_of_true rfl ⟨?_, ?_⟩
      · exact fun h => by cases h
      · exact fun _ _ _ h => by cases h
    | none =>
      rw [run_missing hgiven hdefault, errorsOf]
      refine iff_of_false (List.cons_ne_nil _ _) fun hall => ?_
      have := hall.1 rfl
      cases this

theorem extraErrors_eq_nil {fields : List ModelField} {items : Items} :
    extraErrors fields items = [] ↔ ∀ key ∈ items.keys, key ∈ usedKeys fields items := by
  unfold extraErrors Items.keys
  rw [List.map_eq_nil_iff, List.filter_eq_nil_iff, List.forall_mem_map]
  simp only [decide_eq_true_eq, not_not]

theorem lineErrors_ne_nil {fields : List ModelField} {items : Items}
    (hreq : ∀ f ∈ fields, f.default = none → (f.given items).isSome) :
    lineErrors fields items ≠ [] ↔ Diagnosed fields items := by
  unfold lineErrors
  rw [ne_eq, List.append_eq_nil_iff, fieldErrors_eq_nil, extraErrors_eq_nil]
  constructor
  · intro hne
    refine ⟨hreq, ?_⟩
    by_contra hnone
    rw [not_or] at hnone
    apply hne
    refine ⟨fun f hf => ⟨hreq f hf, ?_⟩, ?_⟩
    · exact fun key v es hgiven hv => hnone.1 ⟨f, hf, key, v, es, hgiven, hv⟩
    · intro key hkey
      by_contra hunused
      exact hnone.2 ⟨key, hkey, hunused⟩
  · rintro ⟨-, hrejected⟩ ⟨hfields, hkeys⟩
    obtain ⟨f, hf, key, v, es, hgiven, hv⟩ | ⟨key, hkey, hunused⟩ := hrejected
    · exact (hfields f hf).2 key v es hgiven hv
    · exact hunused (hkeys key hkey)

def named (fields : List ModelField) (ws : List PyValue) : Items :=
  List.zipWith (fun f w => (f.name, w)) fields ws

theorem run_ne_nil (f : ModelField) (items : Items) : f.run items ≠ .error [] := by
  intro h
  cases hgiven : f.given items with
  | some x =>
    obtain ⟨key, v⟩ := x
    cases hv : f.validate v with
    | ok w =>
      rw [run_accepted hgiven hv] at h
      cases h
    | error es =>
      rw [run_rejected hgiven hv] at h
      have hnil := List.map_eq_nil_iff.mp (Except.error.inj h)
      exact f.ne_nil v (hnil ▸ hv)
  | none =>
    cases hdefault : f.default with
    | some v =>
      rw [run_default hgiven hdefault] at h
      cases h
    | none =>
      rw [run_missing hgiven hdefault] at h
      cases h

theorem run_ok {f : ModelField} {items : Items} {w : PyValue} (h : f.run items = .ok w) :
    (∃ v, f.validate v = .ok w) ∨ f.default = some w := by
  cases hgiven : f.given items with
  | some x =>
    obtain ⟨key, v⟩ := x
    cases hv : f.validate v with
    | ok w' =>
      rw [run_accepted hgiven hv] at h
      exact .inl ⟨v, Except.ok.inj h ▸ hv⟩
    | error es =>
      rw [run_rejected hgiven hv] at h
      cases h
  | none =>
    cases hdefault : f.default with
    | some v =>
      rw [run_default hgiven hdefault] at h
      exact .inr (congrArg some (Except.ok.inj h))
    | none =>
      rw [run_missing hgiven hdefault] at h
      cases h

section Accepted

variable {fields : List ModelField} {items : Items}

theorem fieldErrors_eq_nil_iff :
    fieldErrors fields items = [] ↔
      ∃ ws, List.Forall₂ (fun f w => f.run items = .ok w) fields ws := by
  unfold fieldErrors
  rw [List.flatMap_eq_nil_iff]
  constructor
  · intro h
    induction fields with
    | nil => exact ⟨[], .nil⟩
    | cons f fields ih =>
      obtain ⟨hf, hfields⟩ := List.forall_mem_cons.mp h
      obtain ⟨ws, hws⟩ := ih hfields
      cases hrun : f.run items with
      | ok w => exact ⟨w :: ws, .cons hrun hws⟩
      | error es =>
        rw [hrun, errorsOf] at hf
        exact absurd (hf ▸ hrun) (run_ne_nil f items)
  · rintro ⟨ws, hws⟩ f hf
    induction hws with
    | nil => cases hf
    | cons hrun _ ih =>
      rcases List.mem_cons.mp hf with rfl | hf
      · rw [hrun]
        rfl
      · exact ih hf

theorem values_eq {ws : List PyValue}
    (h : List.Forall₂ (fun f w => f.run items = .ok w) fields ws) :
    values fields items = named fields ws := by
  induction h with
  | nil => rfl
  | cons hrun _ ih =>
    rw [values, List.filterMap_cons, hrun]
    exact congrArg _ ih

/-- A model is made of a dict when every field has a value, every key is of a field, and the
check accepts the attributes. -/
theorem validateModel_ok_iff {check : Items → Except String Items} {result : Items} :
    validateModel fields check items = .ok result ↔
      (∃ ws, List.Forall₂ (fun f w => f.run items = .ok w) fields ws ∧
        check (named fields ws) = .ok result) ∧
      ∀ key ∈ items.keys, key ∈ usedKeys fields items := by
  constructor
  · intro h
    by_cases hnil : lineErrors fields items = []
    · obtain ⟨hfields, hextra⟩ := List.append_eq_nil_iff.mp hnil
      obtain ⟨ws, hws⟩ := fieldErrors_eq_nil_iff.mp hfields
      rw [validateModel_of_nil hnil, values_eq hws] at h
      refine ⟨⟨ws, hws, ?_⟩, extraErrors_eq_nil.mp hextra⟩
      cases hcheck : check (named fields ws) with
      | error e =>
        rw [hcheck] at h
        cases h
      | ok values =>
        rw [hcheck] at h
        cases h
        rfl
    · rw [validateModel_of_ne_nil hnil] at h
      cases h
  · rintro ⟨⟨ws, hws, hcheck⟩, hkeys⟩
    have hnil : lineErrors fields items = [] :=
      List.append_eq_nil_iff.mpr ⟨fieldErrors_eq_nil_iff.mpr ⟨ws, hws⟩, extraErrors_eq_nil.mpr hkeys⟩
    rw [validateModel_of_nil hnil, values_eq hws, hcheck]
    rfl

end Accepted

structure AgreeOff (key : String) (items items' : Items) : Prop where
  keys : items.keys = items'.keys
  erase : items.erase key = items'.erase key

def AcceptedAt (key : String) (fields : List ModelField) (items : Items) : Prop :=
  ∀ f ∈ fields, ∀ v, f.given items = some (key, v) → ∃ w, f.validate v = .ok w

section Agree

variable {key : String} {items items' : Items} {fields : List ModelField}

theorem AgreeOff.lookup (h : AgreeOff key items items') {other : String} (hne : other ≠ key) :
    items.lookup other = items'.lookup other := by
  have hlookup := congrArg (List.lookup other) h.erase
  rwa [Items.lookup_erase, Items.lookup_erase, if_neg hne, if_neg hne] at hlookup

theorem AgreeOff.lookup_none (h : AgreeOff key items items') (other : String) :
    items.lookup other = none ↔ items'.lookup other = none := by
  rw [Items.lookup_eq_none_iff, Items.lookup_eq_none_iff, h.keys]

/-- A field is found under the same key, with the same value unless it is the one that
differs. -/
theorem AgreeOff.given (h : AgreeOff key items items') (f : ModelField) :
    f.given items = f.given items' ∨
      ∃ v v', f.given items = some (key, v) ∧ f.given items' = some (key, v') := by
  unfold ModelField.given
  induction f.keys with
  | nil => exact .inl rfl
  | cons k ks ih =>
    rw [List.findSome?_cons, List.findSome?_cons]
    have hnone := h.lookup_none k
    cases hk : items.lookup k with
    | none =>
      rw [hnone.mp hk]
      exact ih
    | some v =>
      by_cases hkey : k = key
      · cases hk' : items'.lookup k with
        | none =>
          rw [hnone.mpr hk'] at hk
          cases hk
        | some v' => exact .inr ⟨v, v', by rw [hkey]; exact ⟨rfl, rfl⟩⟩
      · rw [← h.lookup hkey, hk]
        exact .inl rfl

/-- A field that is missing is missing from both dicts, and any other reports the same on
both. -/
theorem AgreeOff.run (h : AgreeOff key items items') {f : ModelField} (hf : f ∈ fields)
    (hacc : AcceptedAt key fields items) (hacc' : AcceptedAt key fields items') :
    (f.given items = none ∧ f.default = none ∧ ∃ k,
      f.run items = .error [missing k items] ∧ f.run items' = .error [missing k items']) ∨
    ¬(f.given items = none ∧ f.default = none) ∧
      errorsOf (f.run items) = errorsOf (f.run items') := by
  obtain hgiven | ⟨v, v', hv, hv'⟩ := h.given f
  · cases hfound : f.given items with
    | some x =>
      refine .inr ⟨by simp, ?_⟩
      unfold ModelField.run
      rw [← hgiven, hfound]
    | none =>
      rw [hfound] at hgiven
      cases hdefault : f.default with
      | some v =>
        refine .inr ⟨by simp, ?_⟩
        rw [run_default hfound hdefault, run_default hgiven.symm hdefault]
      | none =>
        exact .inl ⟨rfl, rfl, _, run_missing hfound hdefault, run_missing hgiven.symm hdefault⟩
  · obtain ⟨w, hw⟩ := hacc f hf v hv
    obtain ⟨w', hw'⟩ := hacc' f hf v' hv'
    refine .inr ⟨by simp [hv], ?_⟩
    rw [run_accepted hv hw, run_accepted hv' hw', errorsOf, errorsOf]

theorem AgreeOff.usedKeys (h : AgreeOff key items items') :
    usedKeys fields items = usedKeys fields items' := by
  apply List.filterMap_congr
  intro f _
  obtain hgiven | ⟨v, v', hv, hv'⟩ := h.given f
  · rw [hgiven]
  · rw [hv, hv']
    rfl

theorem AgreeOff.extraErrors (h : AgreeOff key items items')
    (hkey : key ∈ PydanticModel.usedKeys fields items) :
    extraErrors fields items = extraErrors fields items' := by
  have hfilter : ∀ xs : Items,
      (xs.filter fun item => item.1 ∉ PydanticModel.usedKeys fields items) =
        (xs.erase key).filter fun item => item.1 ∉ PydanticModel.usedKeys fields items := by
    intro xs
    rw [Items.erase, List.filter_filter]
    apply List.filter_congr
    intro item _
    by_cases hitem : item.1 = key
    · simp [hitem, hkey]
    · simp [hitem]
  unfold PydanticModel.extraErrors
  rw [← h.usedKeys, hfilter items, hfilter items', h.erase]

end Agree

def size (style : ReportStyle) (items : Items) : ℕ :=
  (reprValue style.toReprStyle (.dict items)).length

/-- Two reports that differ in their inputs only, where the inputs that differ are the two
dicts, and do under the condition. -/
structure Alike (style : ReportStyle) (items items' : Items) (differ : Prop)
    (es es' : List LineError) : Prop where
  heads : es.map LineError.head = es'.map LineError.head
  same : ¬differ → es = es'
  le : size style items ≤ size style items' →
    (es.flatMap (lineText style)).length ≤ (es'.flatMap (lineText style)).length
  lt : differ → size style items < size style items' →
    (es.flatMap (lineText style)).length < (es'.flatMap (lineText style)).length

section Alike

variable {style : ReportStyle} {items items' : Items} {p q : Prop} {es es' fs fs' : List LineError}

theorem Alike.refl (es : List LineError) : Alike style items items' False es es :=
  ⟨rfl, fun _ => rfl, fun _ => le_rfl, fun h => h.elim⟩

theorem Alike.append (h : Alike style items items' p es es')
    (h' : Alike style items items' q fs fs') :
    Alike style items items' (p ∨ q) (es ++ fs) (es' ++ fs') where
  heads := by rw [List.map_append, List.map_append, h.heads, h'.heads]
  same := by
    intro hnone
    rw [not_or] at hnone
    rw [h.same hnone.1, h'.same hnone.2]
  le := by
    intro hle
    rw [List.flatMap_append, List.flatMap_append, List.length_append, List.length_append]
    exact Nat.add_le_add (h.le hle) (h'.le hle)
  lt := by
    intro hdiffer hlt
    rw [List.flatMap_append, List.flatMap_append, List.length_append, List.length_append]
    cases hdiffer with
    | inl hp => exact Nat.add_lt_add_of_lt_of_le (h.lt hp hlt) (h'.le hlt.le)
    | inr hq => exact Nat.add_lt_add_of_le_of_lt (h.le hlt.le) (h'.lt hq hlt)

theorem Alike.congr (h : Alike style items items' p es es') (hpq : p ↔ q) :
    Alike style items items' q es es' :=
  propext hpq ▸ h

theorem alike_whole {e e' : LineError} (hhead : e.head = e'.head)
    (hinput : e.input = .dict items) (hinput' : e'.input = .dict items') :
    Alike style items items' True [e] [e'] := by
  have hline : (lineText style e').length + size style items =
      (lineText style e).length + size style items' := by
    unfold lineText size
    rw [hhead, hinput, hinput']
    simp only [List.length_append]
    omega
  refine ⟨by simp [hhead], fun h => absurd trivial h, fun hle => ?_, fun _ hlt => ?_⟩
  · rw [List.flatMap_singleton, List.flatMap_singleton]
    omega
  · rw [List.flatMap_singleton, List.flatMap_singleton]
    omega

theorem Alike.length_eq (h : Alike style items items' p es es') : es.length = es'.length := by
  have hlength := congrArg List.length h.heads
  rwa [List.length_map, List.length_map] at hlength

theorem Alike.nil_iff (h : Alike style items items' p es es') : es = [] ↔ es' = [] := by
  rw [← List.length_eq_zero_iff, ← List.length_eq_zero_iff, h.length_eq]

theorem Alike.reportText_lt (h : Alike style items items' p es es') (hp : p)
    (hlt : size style items < size style items') (title : String) :
    (reportText style title es).length < (reportText style title es').length := by
  unfold reportText
  rw [List.length_append, List.length_append, h.length_eq]
  exact Nat.add_lt_add_left (h.lt hp hlt) _

end Alike

section Agree

variable {key : String} {items items' : Items} {fields : List ModelField}

theorem AgreeOff.fieldErrors (h : AgreeOff key items items') (style : ReportStyle)
    (hacc : AcceptedAt key fields items) (hacc' : AcceptedAt key fields items') :
    Alike style items items' (∃ f ∈ fields, f.given items = none ∧ f.default = none)
      (fieldErrors fields items) (fieldErrors fields items') := by
  suffices hall : ∀ fs ⊆ fields,
      Alike style items items' (∃ f ∈ fs, f.given items = none ∧ f.default = none)
        (PydanticModel.fieldErrors fs items) (PydanticModel.fieldErrors fs items') from
    hall fields fun _ hf => hf
  intro fs hfs
  induction fs with
  | nil => exact (Alike.refl []).congr (by simp)
  | cons f fs ih =>
    have hrest := ih fun g hg => hfs (List.mem_cons_of_mem f hg)
    have hfirst : Alike style items items' (f.given items = none ∧ f.default = none)
        (errorsOf (f.run items)) (errorsOf (f.run items')) := by
      obtain ⟨hgiven, hdefault, k, hk, hk'⟩ | ⟨hgiven, heq⟩ :=
        h.run (hfs List.mem_cons_self) hacc hacc'
      · rw [hk, hk']
        have hhead : (missing k items).head = (missing k items').head := rfl
        exact (alike_whole hhead rfl rfl).congr (iff_of_true trivial ⟨hgiven, hdefault⟩)
      · rw [heq]
        exact (Alike.refl _).congr (iff_of_false id hgiven)
    unfold PydanticModel.fieldErrors at hrest ⊢
    rw [List.flatMap_cons, List.flatMap_cons]
    refine (hfirst.append hrest).congr ?_
    rw [List.exists_mem_cons_iff]

theorem values_lookup_cons (f : ModelField) (fields : List ModelField) (items : Items)
    (name : String) :
    (values (f :: fields) items).lookup name =
      if name = f.name then (f.run items).toOption.or ((values fields items).lookup name)
      else (values fields items).lookup name := by
  unfold values
  rw [List.filterMap_cons]
  cases (f.run items).toOption with
  | none => simp
  | some v =>
    rw [Option.map_some, Items.lookup_cons]
    rfl

theorem AgreeOff.values_lookup (h : AgreeOff key items items') {name : String}
    (hname : ∀ f ∈ fields, ∀ v, f.given items = some (key, v) → f.name ≠ name) :
    (values fields items).lookup name = (values fields items').lookup name := by
  induction fields with
  | nil => rfl
  | cons f fs ih =>
    have hrest := ih fun g hg => hname g (List.mem_cons_of_mem f hg)
    have hf : f.name ≠ name ∨ (f.run items).toOption = (f.run items').toOption := by
      obtain hgiven | ⟨v, v', hv, -⟩ := h.given f
      · right
        unfold ModelField.run
        rw [← hgiven]
        cases f.given items with
        | some x => rfl
        | none => cases f.default <;> rfl
      · exact .inl (hname f List.mem_cons_self v hv)
    rw [values_lookup_cons, values_lookup_cons, hrest]
    cases hf with
    | inl hne => rw [if_neg (Ne.symm hne), if_neg (Ne.symm hne)]
    | inr heq => rw [heq]

theorem AgreeOff.lineErrors (h : AgreeOff key items items') (style : ReportStyle)
    (hacc : AcceptedAt key fields items) (hacc' : AcceptedAt key fields items')
    (hused : key ∈ PydanticModel.usedKeys fields items) :
    Alike style items items' (∃ f ∈ fields, f.given items = none ∧ f.default = none)
      (lineErrors fields items) (lineErrors fields items') := by
  unfold PydanticModel.lineErrors
  rw [← h.extraErrors hused]
  refine ((h.fieldErrors style hacc hacc').append (Alike.refl _)).congr ?_
  rw [or_false]

theorem lineErrors_of_missing
    (hmissing : ∃ f ∈ fields, f.given items = none ∧ f.default = none) :
    lineErrors fields items ≠ [] ∧ ¬Diagnosed fields items := by
  obtain ⟨f, hf, hgiven, hdefault⟩ := hmissing
  have hsome : ¬(f.default = none → (f.given items).isSome) := by
    intro hall
    have := hall hdefault
    rw [hgiven] at this
    cases this
  constructor
  · intro hnil
    exact hsome (fieldErrors_eq_nil.mp (List.append_eq_nil_iff.mp hnil).1 f hf).1
  · exact fun hdiagnosed => hsome (hdiagnosed.required f hf)

theorem validateModel_whole {style : ReportStyle} {check : Items → Except String Items}
    (hnil : lineErrors fields items = []) (hnil' : lineErrors fields items' = [])
    (hcheck : ∀ message, check (values fields items) = .error message →
      check (values fields items') = .error message)
    {es : List LineError} (hes : validateModel fields check items = .error es) :
    ∃ es', validateModel fields check items' = .error es' ∧
      Alike style items items' True es es' := by
  rw [validateModel_of_nil hnil] at hes
  cases hvalues : check (values fields items) with
  | ok vs =>
    rw [hvalues] at hes
    cases hes
  | error message =>
    rw [hvalues] at hes
    cases hes
    have hhead : (valueError message (.dict items)).head =
        (valueError message (.dict items')).head := rfl
    refine ⟨[valueError message (.dict items')], ?_, alike_whole hhead rfl rfl⟩
    rw [validateModel_of_nil hnil', hcheck message hvalues]
    rfl

/-- What is reported on both dicts: nothing but the lines about the whole dict differs, and
they do unless the report is about the parts only. -/
theorem AgreeOff.validateModel (h : AgreeOff key items items') (style : ReportStyle)
    {check : Items → Except String Items} (hacc : AcceptedAt key fields items)
    (hacc' : AcceptedAt key fields items') (hused : key ∈ PydanticModel.usedKeys fields items)
    (hcheck : ∀ message, check (values fields items) = .error message →
      check (values fields items') = .error message)
    {es : List LineError} (hes : validateModel fields check items = .error es) :
    ∃ es', PydanticModel.validateModel fields check items' = .error es' ∧
      Alike style items items' (¬Diagnosed fields items) es es' := by
  have halike := h.lineErrors style hacc hacc' hused
  by_cases hmissing : ∃ f ∈ fields, f.given items = none ∧ f.default = none
  · obtain ⟨hne, hundiagnosed⟩ := lineErrors_of_missing hmissing
    have hne' : PydanticModel.lineErrors fields items' ≠ [] := mt halike.nil_iff.mpr hne
    rw [validateModel_of_ne_nil hne] at hes
    cases hes
    exact ⟨_, validateModel_of_ne_nil hne', halike.congr (iff_of_true hmissing hundiagnosed)⟩
  · have hreq : ∀ f ∈ fields, f.default = none → (f.given items).isSome := by
      intro f hf hdefault
      rw [Option.isSome_iff_ne_none]
      exact fun hgiven => hmissing ⟨f, hf, hgiven, hdefault⟩
    -- no line of a field or of an unknown key is about the whole dict
    have hsame := halike.same hmissing
    have hdiagnosed := lineErrors_ne_nil hreq
    by_cases hnil : PydanticModel.lineErrors fields items = []
    · obtain ⟨es', hes', hwhole⟩ := validateModel_whole hnil (hsame ▸ hnil) hcheck hes
      have hundiagnosed : ¬Diagnosed fields items := fun hd => hdiagnosed.mpr hd hnil
      exact ⟨es', hes', hwhole.congr (iff_of_true trivial hundiagnosed)⟩
    · rw [validateModel_of_ne_nil hnil] at hes
      cases hes
      refine ⟨_, validateModel_of_ne_nil (hsame ▸ hnil), ?_⟩
      rw [← hsame]
      exact (Alike.refl _).congr (iff_of_false id (not_not.mpr (hdiagnosed.mp hnil)))

end Agree

theorem given_mem {f : ModelField} {items : Items} {key : String} {v : PyValue}
    (h : f.given items = some (key, v)) : key ∈ f.keys ∧ items.lookup key = some v := by
  obtain ⟨k, hk, hv⟩ := List.exists_of_findSome?_eq_some h
  obtain ⟨w, hw, heq⟩ := Option.map_eq_some_iff.mp hv
  cases heq
  exact ⟨hk, hw⟩

theorem agreeOff_replace (key : String) (v v' : PyValue) (pre post : Items) :
    AgreeOff key (pre ++ (key, v) :: post) (pre ++ (key, v') :: post) where
  keys := by simp [Items.keys]
  erase := by simp [Items.erase]

theorem AgreeOff.diagnosed {key : String} {items items' : Items} {fields : List ModelField}
    (h : AgreeOff key items items') (hacc : AcceptedAt key fields items)
    (hdiagnosed : Diagnosed fields items) : Diagnosed fields items' where
  required := by
    intro f hf hdefault
    have hsome := hdiagnosed.required f hf hdefault
    obtain hgiven | ⟨v, v', -, hv'⟩ := h.given f
    · rwa [hgiven] at hsome
    · rw [hv']
      rfl
  rejected := by
    obtain ⟨f, hf, k, v, es, hgiven, hes⟩ | ⟨k, hk, hunused⟩ := hdiagnosed.rejected
    · obtain heq | ⟨w, w', hw, -⟩ := h.given f
      · exact .inl ⟨f, hf, k, v, es, heq ▸ hgiven, hes⟩
      · obtain ⟨x, hx⟩ := hacc f hf w hw
        rw [hw] at hgiven
        cases hgiven
        rw [hx] at hes
        cases hes
    · refine .inr ⟨k, h.keys ▸ hk, ?_⟩
      rwa [← h.usedKeys]

theorem reprItems_cons (style : ReprStyle) (k : String) (v : PyValue) {items : Items}
    (hne : items ≠ []) :
    reprItems style ((k, v) :: items) =
      repr style.unicode k.toList ++ ": ".toList ++ reprValue style v ++ ", ".toList ++
        reprItems style items := by
  rw [reprItems]
  exact hne

theorem length_reprItems (style : ReprStyle) (key : String) (v v' : PyValue) (pre post : Items) :
    (reprItems style (pre ++ (key, v) :: post)).length + (reprValue style v').length =
      (reprItems style (pre ++ (key, v') :: post)).length + (reprValue style v).length := by
  induction pre with
  | nil =>
    cases post with
    | nil =>
      simp only [List.nil_append, reprItems, List.length_append]
      omega
    | cons x post =>
      simp only [List.nil_append, reprItems, List.length_append]
      omega
  | cons x pre ih =>
    obtain ⟨k, w⟩ := x
    rw [List.cons_append, List.cons_append, reprItems_cons style k w (by simp),
      reprItems_cons style k w (by simp)]
    simp only [List.length_append]
    omega

theorem size_replace (style : ReportStyle) (key : String) {v v' : PyValue} (pre post : Items)
    (h : (reprValue style.toReprStyle v).length < (reprValue style.toReprStyle v').length) :
    size style (pre ++ (key, v) :: post) < size style (pre ++ (key, v') :: post) := by
  have := length_reprItems style.toReprStyle key v v' pre post
  unfold size
  simp only [reprValue, List.length_append, List.length_cons]
  omega

end PydanticModel
