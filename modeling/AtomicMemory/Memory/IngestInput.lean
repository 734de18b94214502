import AtomicMemory.Memory.Types

-- The discriminated union `IngestInput`, and the texts its providers make of it.

open PyValue hiding none

namespace AtomicMemory

inductive MessageRole
  | user
  | assistant
  | system
  | tool
  deriving DecidableEq

def MessageRole.text : MessageRole → String
  | user => "user"
  | assistant => "assistant"
  | system => "system"
  | tool => "tool"

structure Message where
  role : MessageRole
  content : String
  name : Option String

inductive ContentClass
  | summary
  | redacted
  | raw
  deriving DecidableEq

def ContentClass.text : ContentClass → String
  | summary => "summary"
  | redacted => "redacted"
  | raw => "raw"

/-- What distinguishes `TextIngest`, `MessageIngest` and `VerbatimIngest`, by their `mode`. -/
inductive IngestContent
  | text (content : String)
  | messages (messages : List Message)
  | verbatim (content : String) (kind : Option MemoryKind)

structure IngestInput where
  scope : Scope String
  provenance : Option Provenance
  metadata : Option Items
  contentClass : Option ContentClass
  content : IngestContent

def IngestInput.isVerbatim (input : IngestInput) : Bool :=
  match input.content with
  | .verbatim _ _ => true
  | _ => false

/-- `text` where it is truthy. -/
def nonEmpty (text : Option String) : Option String := text.filter (· ≠ "")

/-- `"\n".join(f"{m.role}: {m.content}" for m in messages)`. -/
def transcript (messages : List Message) : String :=
  "\n".intercalate (messages.map fun m => m.role.text ++ ": " ++ m.content)

def IngestInput.conversation (input : IngestInput) : String :=
  match input.content with
  | .text content | .verbatim content _ => content
  | .messages messages => transcript messages

end AtomicMemory
