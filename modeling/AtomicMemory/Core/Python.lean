import AtomicMemory.Core.Errors
import AtomicMemory.Lib.JsonText
import AtomicMemory.Lib.PyValue
import AtomicMemory.Lib.Raises
import Mathlib.Data.List.DropRight

-- The operations that decoding a response applies to an arbitrary JSON value, with the
-- exceptions they raise.

open Calendar
open PyValue hiding none

namespace AtomicMemory

/-- What the modelled code uses of Python's `int`, `str` and `datetime`, whose exact
grammars play no part. `clock` is what the `n`th reading of the time in a call gives. -/
structure Python where
  int : String → Option ℤ
  str : PyValue → String
  fromisoformat : List Char → Option DateTime
  isoformat : DateTime → String
  clock : ℕ → DateTime

/-- `int(text)`. -/
def Python.parseInt (python : Python) (text : String) : Except PyError ℤ :=
  match python.int text with
  | some n => .ok n
  | none => .error (.valueError "invalid literal for int() with base 10")

/-- `datetime.fromisoformat` of a text whose `Z`s are replaced when it ends with one. -/
def Python.parseIsoText (python : Python) (s : String) : Except PyError DateTime :=
  let text :=
    if s.toList.getLast? = some 'Z' then
      s.toList.flatMap fun c => if c = 'Z' then "+00:00".toList else [c]
    else s.toList
  match python.fromisoformat text with
  | some d => .ok d
  | none => .error (.valueError "Invalid isoformat string")

/-- `str.isspace` of one character. -/
def isSpace (c : Char) : Bool :=
  let n := c.toNat
  (0x9 ≤ n && n ≤ 0xd) || (0x1c ≤ n && n ≤ 0x20) || n = 0x85 || n = 0xa0 || n = 0x1680 ||
    (0x2000 ≤ n && n ≤ 0x200a) || n = 0x2028 || n = 0x2029 || n = 0x202f || n = 0x205f || n = 0x3000

/-- `value.strip()`. -/
def strip (value : String) : List Char :=
  (value.toList.dropWhile isSpace).rdropWhile isSpace

/-- `s.replace(old, new)`; `skip` characters of an occurrence of `old` are still to come. -/
def replaceFrom (old new : List Char) : ℕ → List Char → List Char
  | _, [] => []
  | skip + 1, _ :: s => replaceFrom old new skip s
  | 0, c :: s =>
    if old.isPrefixOf (c :: s) then new ++ replaceFrom old new (old.length - 1) s
    else c :: replaceFrom old new 0 s

theorem replaceFrom_skip (old new s : List Char) : replaceFrom old new s.length s = [] := by
  induction s with
  | nil => rfl
  | cons c s ih => exact ih

theorem replaceFrom_append {c : Char} {old new s : List Char} (h : c ∉ s) :
    replaceFrom (c :: old) new 0 (s ++ c :: old) = s ++ new := by
  induction s with
  | nil =>
    rw [List.nil_append, replaceFrom, if_pos (by simp), List.length_cons, Nat.add_sub_cancel,
      replaceFrom_skip, List.append_nil]
    rfl
  | cons d s ih =>
    have hd : c ≠ d := fun heq => h (heq ▸ List.mem_cons_self)
    have hs : c ∉ s := fun hmem => h (List.mem_cons_of_mem d hmem)
    have hno : (c :: old).isPrefixOf (d :: (s ++ c :: old)) = false := by
      simp [List.isPrefixOf, hd]
    rw [List.cons_append, replaceFrom, if_neg (by simp [hno]), ih hs]
    rfl

/-- `v.get(key, default)`. -/
def getD (v : PyValue) (key : String) (default : PyValue) : Except PyError PyValue :=
  match v with
  | .dict items => .ok ((items.lookup key).getD default)
  | _ => .error .attributeError

/-- `items[key]`. -/
def item (items : Items) (key : String) : Except PyError PyValue :=
  match items.lookup key with
  | some v => .ok v
  | none => .error (.keyError key)

theorem item_ok {items : Items} {key : String} {v : PyValue} (h : item items key = .ok v) :
    items.lookup key = some v := by
  unfold item at h
  split at h
  · rename_i hv
    rw [hv, Except.ok.inj h]
  · cases h

/-- The values a `for` loop goes through. -/
def iterate : PyValue → Except PyError (List PyValue)
  | .list xs => .ok xs
  | .dict items => .ok ((Items.keys items).map .str)
  | .str s => .ok (s.toList.map fun c => .str (String.singleton c))
  | _ => .error .typeError

/-- `[f(x) for x in xs]`, where `f` is also told how many calls came before it. -/
def comprehension {α β : Type} (f : ℕ → α → Except PyError β) :
    ℕ → List α → Except PyError (List β)
  | _, [] => .ok []
  | n, x :: xs => do
    let y ← f n x
    let ys ← comprehension f (n + 1) xs
    .ok (y :: ys)

/-- A comprehension that ends has called `f` on every element. -/
theorem comprehension_ok {α β : Type} {f : ℕ → α → Except PyError β} {n : ℕ} {xs : List α}
    {ys : List β} (h : comprehension f n xs = .ok ys) :
    List.Forall₂ (fun x y => ∃ k, f k x = .ok y) xs ys := by
  induction xs generalizing n ys with
  | nil =>
    cases h
    exact .nil
  | cons x xs ih =>
    obtain ⟨y, hy, h⟩ := Except.bind_ok h
    obtain ⟨ys', hys, h⟩ := Except.bind_ok h
    cases h
    exact .cons ⟨n, hy⟩ (ih hys)

/-- A comprehension ends when no call of `f` raises. -/
theorem comprehension_total {α β : Type} {f : ℕ → α → Except PyError β} {xs : List α}
    (h : ∀ x ∈ xs, ∀ k, ∃ y, f k x = .ok y) (n : ℕ) : ∃ ys, comprehension f n xs = .ok ys := by
  induction xs generalizing n with
  | nil => exact ⟨[], rfl⟩
  | cons x xs ih =>
    obtain ⟨y, hy⟩ := h x List.mem_cons_self n
    obtain ⟨ys, hys⟩ := ih (fun x' hx' => h x' (List.mem_cons_of_mem x hx')) (n + 1)
    exact ⟨y :: ys, Except.bind_intro hy (Except.bind_intro hys rfl)⟩

def writeError : JsonText.WriteError → PyError
  | .typeError => .typeError
  | .tooManyDigits => .valueError "Exceeds the limit (4300 digits) for integer string conversion"

/-- `RecursionError` is not told apart, and what has no `PyValue` raises nothing in Python. -/
def readError : JsonText.ReadError → PyError
  | .jsonDecodeError => .valueError "Expecting value"
  | .tooManyDigits => .valueError "Exceeds the limit (4300 digits) for integer string conversion"
  | .tooDeep | .beyond => .exception 0

/-- `json.dumps(value)`, with `separators` when they are given. -/
def jsonDumps (floats : JsonText.FloatText) (sep : JsonText.Separators) (value : PyValue) :
    Except PyError (List Char) :=
  (JsonText.dumps floats sep value).mapError writeError

/-- `json.loads(text)`. -/
def jsonLoads (floats : JsonText.FloatText) (text : List Char) : Except PyError PyValue :=
  (JsonText.loads floats text).mapError readError

theorem jsonLoads_jsonDumps {floats : JsonText.FloatText} {sep : JsonText.Separators}
    {value : PyValue} {text : List Char} (hvalue : JsonText.Proper floats value)
    (h : jsonDumps floats sep value = .ok text) : jsonLoads floats text = .ok value := by
  rw [jsonLoads, JsonText.loads_dumps (Except.ok_of_mapError h) hvalue]
  rfl

def Python.reference : Python where
  int := String.toInt?
  str
    | .str s => s
    | .int n => toString n
    | .bool b => if b then "True" else "False"
    | .none => "None"
    | _ => ""
  fromisoformat := parseRfc3339
  isoformat d := String.ofList d.isoMillis
  clock _ := DateTime.utc 0 (by decide)

theorem mem_of_forall₂ {α β : Type} {r : α → β → Prop} {xs : List α} {ys : List β}
    (h : List.Forall₂ r xs ys) {y : β} (hy : y ∈ ys) : ∃ x ∈ xs, r x y := by
  induction h with
  | nil => cases hy
  | cons hr _ ih =>
    rcases List.mem_cons.mp hy with rfl | hy
    · exact ⟨_, List.mem_cons_self, hr⟩
    · obtain ⟨x, hx, hr⟩ := ih hy
      exact ⟨x, List.mem_cons_of_mem _ hx, hr⟩

end AtomicMemory
