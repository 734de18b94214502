import AtomicMemory.Lib.PyFold
import AtomicMemory.Memory.Types

-- The recursive filter models of `memory/filters.py` and the search request that carries one,
-- how they are validated and how they are dumped.

open Calendar
open PyValue hiding none

namespace AtomicMemory

/-- `FieldFilterOp`. -/
inductive FilterOp
  | eq
  | neq
  | gt
  | gte
  | lt
  | lte
  | isIn
  | contains
  | exists
  deriving DecidableEq

def FilterOp.text : FilterOp → String
  | eq => "eq"
  | neq => "neq"
  | gt => "gt"
  | gte => "gte"
  | lt => "lt"
  | lte => "lte"
  | isIn => "in"
  | contains => "contains"
  | «exists» => "exists"

def FilterOp.ofValue : PyValue → Option FilterOp
  | .str "eq" => some eq
  | .str "neq" => some neq
  | .str "gt" => some gt
  | .str "gte" => some gte
  | .str "lt" => some lt
  | .str "lte" => some lte
  | .str "in" => some isIn
  | .str "contains" => some contains
  | .str "exists" => some «exists»
  | _ => none

inductive ListOperand
  | str (s : String)
  | int (n : ℤ)
  | float (q : ℚ)

/-- `FieldFilterValue`, but for `None`. -/
inductive Operand
  | str (s : String)
  | int (n : ℤ)
  | float (q : ℚ)
  | bool (b : Bool)
  | datetime (d : DateTime)
  | list (xs : List ListOperand)

structure FieldFilter where
  field : String
  op : FilterOp
  value : Option Operand

/-- `FilterExpr`: the fields of its nodes are `and_`, `or_` and `not_`, by their aliases. -/
inductive FilterExpr
  | and (exprs : List FilterExpr)
  | or (exprs : List FilterExpr)
  | not (expr : FilterExpr)
  | field (f : FieldFilter)

/-- `SearchRequest` with the fields that no backend is sent. -/
structure FilteredSearchRequest extends SearchRequest where
  filter : Option FilterExpr
  reranker : Option String

def ListOperand.dump : ListOperand → PyValue
  | str s => .str s
  | int n => .int n
  | float q => .float q

def Operand.dump : Operand → PyValue
  | str s => .str s
  | int n => .int n
  | float q => .float q
  | bool b => .bool b
  | datetime d => .datetime d
  | list xs => .list (xs.map ListOperand.dump)

def FieldFilter.dump (f : FieldFilter) : Items :=
  [("field", .str f.field), ("op", .str f.op.text)] ++ optItem "value" f.value Operand.dump

mutual
/-- `model_dump(mode="python", by_alias=True, exclude_none=True)`. -/
def FilterExpr.dump : FilterExpr → PyValue
  | .and exprs => .dict [("and", .list (dumpFilters exprs))]
  | .or exprs => .dict [("or", .list (dumpFilters exprs))]
  | .not expr => .dict [("not", expr.dump)]
  | .field f => .dict f.dump

def dumpFilters : List FilterExpr → List PyValue
  | [] => []
  | e :: es => e.dump :: dumpFilters es
end

def FilteredSearchRequest.dump (r : FilteredSearchRequest) : Items :=
  [("query", .str r.query), ("scope", .dict r.scope.dump)] ++ optItem "limit" r.limit .int ++
    optItem "threshold" r.threshold .float ++ optItem "filter" r.filter FilterExpr.dump ++
    optItem "reranker" r.reranker .str

/-- Pydantic with its union of operands, which keeps a value whose exact type is a member. -/
structure UnionPydantic extends Pydantic where
  operand : PyValue → Option Operand
  operand_dump : ∀ o : Operand, operand o.dump = some o

section

variable (py : UnionPydantic)

def fieldFilterKeys : List String := ["field", "op", "value"]

def FieldFilter.ofItems : Items → Option FieldFilter :=
  forbidExtra fieldFilterKeys fun items => do
    let field ← AtomicMemory.field str? items "field"
    let op ← AtomicMemory.field FilterOp.ofValue items "op"
    let value ← optField py.operand items "value"
    some ⟨field, op, value⟩

/-- What a value is validated to, as a filter expression and as a list of them. -/
structure FilterReading where
  expr : Option FilterExpr
  exprs : Option (List FilterExpr)

def filterNode (items : Items) (readings : List (String × FilterReading)) : Option FilterExpr :=
  let node (key : String) (read : FilterReading → Option FilterExpr) : Option FilterExpr :=
    forbidExtra [key] (fun _ => (readings.lookup key).bind read) items
  node "and" (fun r => r.exprs.map .and) <|> node "or" (fun r => r.exprs.map .or) <|>
    node "not" (fun r => r.expr.map .not) <|> (FieldFilter.ofItems py items).map .field

def filterAlgebra : Algebra FilterReading where
  list readings := ⟨none, readings.mapM FilterReading.expr⟩
  dict items readings := ⟨filterNode py items readings, none⟩
  scalar _ := ⟨none, none⟩

/-- `FilterExpr.model_validate`. -/
def FilterExpr.ofValue (v : PyValue) : Option FilterExpr := (fold (filterAlgebra py) v).expr

def searchRequestKeys : List String :=
  ["query", "scope", "limit", "threshold", "filter", "reranker"]

def FilteredSearchRequest.ofItems : Items → Option FilteredSearchRequest :=
  forbidExtra searchRequestKeys fun items => do
    let query ← field str? items "query"
    let scope ← field Scope.ofValue items "scope"
    let limit ← optField py.int items "limit"
    let threshold ← optField py.float items "threshold"
    let filter ← optField (FilterExpr.ofValue py) items "filter"
    let reranker ← optField str? items "reranker"
    some ⟨⟨query, scope, limit, threshold⟩, filter, reranker⟩

end

/-- The elements of a list operand, of which a boolean is read as a number. -/
def listOperand : PyValue → Option ListOperand
  | .str s => some (.str s)
  | .int n => some (.int n)
  | .float q => some (.float q)
  | .bool b => some (.int (if b then 1 else 0))
  | _ => none

def UnionPydantic.reference : UnionPydantic where
  toPydantic := Pydantic.reference
  operand
    | .str s => some (.str s)
    | .int n => some (.int n)
    | .float q => some (.float q)
    | .bool b => some (.bool b)
    | .datetime d => some (.datetime d)
    | .list xs => (xs.mapM listOperand).map .list
    | _ => none
  operand_dump o := by
    cases o with
    | list xs =>
      have hitem (x : ListOperand) : listOperand x.dump = some x := by
        cases x <;> rfl
      exact congrArg (Option.map Operand.list) (mapM_map hitem xs)
    | _ => rfl

end AtomicMemory
