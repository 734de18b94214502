import AtomicMemory.Core.Python
import AtomicMemory.Memory.Types

-- What `httpx` returns of a request, how a body is parsed as JSON, and the ways in which the
-- parser fails.

open PyValue hiding none

namespace AtomicMemory

structure RawResponse where
  status : ℕ
  headers : List (String × String)
  content : List UInt8

/-- `response.is_success`. -/
def RawResponse.isSuccess (response : RawResponse) : Bool :=
  200 ≤ response.status && response.status ≤ 299

/-- The exceptions of `json.loads`, all of them `ValueError`s, with their texts. -/
inductive JsonFailure
  | jsonDecodeError (message : String)
  | unicodeDecodeError (message : String)
  /-- A `ValueError` of no subclass, as for an integer of too many digits. -/
  | valueError (message : String)
  deriving DecidableEq

/-- `isinstance(exc, json.JSONDecodeError)`. -/
def JsonFailure.isJsonDecodeError : JsonFailure → Bool
  | jsonDecodeError _ => true
  | unicodeDecodeError _ | valueError _ => false

/-- `str(exc)`. -/
def JsonFailure.message : JsonFailure → String
  | jsonDecodeError message | unicodeDecodeError message | valueError message => message

/-- What the clients use of `httpx` and `json`. -/
structure Httpx where
  /-- How bytes are decoded before they are parsed, or the text of the `UnicodeDecodeError`. -/
  decode : List UInt8 → Except String String
  /-- `json.loads` of a text. -/
  loads : String → Except JsonFailure PyValue
  /-- `response.text`, which replaces what it cannot decode. -/
  text : RawResponse → String

/-- `response.json()`. -/
def Httpx.json (httpx : Httpx) (response : RawResponse) : Except JsonFailure PyValue :=
  match httpx.decode response.content with
  | .ok text => httpx.loads text
  | .error message => .error (.unicodeDecodeError message)

structure ResponsePydantic extends Pydantic where
  bool : PyValue → Option Bool
  bool_bool : ∀ b, bool (.bool b) = some b

def modelOf {α : Type} (ofItems : Items → Option α) (v : PyValue) : Option α :=
  (dict? v).bind ofItems

def ResponsePydantic.reference : ResponsePydantic where
  toPydantic := .reference
  bool
    | .bool b => some b
    | _ => none
  bool_bool _ := rfl

/-- ASCII bytes, and the two texts `null` and the empty one. -/
def Httpx.reference : Httpx where
  decode content :=
    if content.all (· < 0x80) then .ok (String.ofList (content.map fun b => Char.ofNat b.toNat))
    else .error "'utf-8' codec can't decode byte"
  loads text := if text = "null" then .ok .none else .error (.jsonDecodeError "Expecting value")
  text response := String.ofList (response.content.map fun b =>
    if b < 0x80 then Char.ofNat b.toNat else Char.ofNat 0xfffd)

end AtomicMemory
