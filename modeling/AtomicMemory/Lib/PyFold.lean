import AtomicMemory.Lib.PyValue

-- A result for every value, made from those of the values right inside it.

universe u

namespace PyValue

structure Algebra (β : Type u) where
  list : List β → β
  dict : Items → List (String × β) → β
  scalar : PyValue → β

variable {β : Type u}

mutual
def fold (alg : Algebra β) : PyValue → β
  | list xs => alg.list (foldList alg xs)
  | dict items => alg.dict items (foldItems alg items)
  | v => alg.scalar v

def foldList (alg : Algebra β) : List PyValue → List β
  | [] => []
  | x :: xs => fold alg x :: foldList alg xs

def foldItems (alg : Algebra β) : List (String × PyValue) → List (String × β)
  | [] => []
  | (key, v) :: items => (key, fold alg v) :: foldItems alg items
end

end PyValue
