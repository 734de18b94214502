import AtomicMemory.Lib.Base64
import AtomicMemory.Lib.JsonText
import AtomicMemory.Storage.ResponseContainment

-- The headers and the bytes of a storage request, and that the request of a `put` tells everything
-- that is put.

open JsonText Base64 PercentEncoding
open PyValue hiding none

namespace AtomicMemory.StorageClient

/-- What `_headers` uses of the configuration. -/
structure Credentials where
  apiKey : List Char
  userId : List Char

structure WireRequest where
  method : String
  path : List Char
  headers : List (String × List Char)
  content : Option (List UInt8)

def metadataHeader : String := "X-AtomicMemory-Metadata"

/-- `json.dumps(value, separators=(",", ":")).encode()`. -/
def jsonBytes (floats : FloatText) (value : Items) : Except PyError (List UInt8) :=
  (jsonDumps floats .compact (.dict value)).map utf8

/-- `_encode_metadata_header`. -/
def encodeMetadataHeader (floats : FloatText) (metadata : Items) : Except PyError (List Char) :=
  (jsonBytes floats metadata).map b64encode

/-- The headers that a request adds to those of `_headers`. -/
def extraHeaders (floats : FloatText) (request : StorageRequest) :
    Except PyError (List (String × List Char)) := do
  let contentType := (request.contentType.map fun s => ("Content-Type", s.toList)).toList
  let contentLength :=
    (request.content.map fun body => ("Content-Length", Nat.toDigits 10 body.length)).toList
  let metadata ← match request.metadata with
    | none => .ok []
    | some metadata =>
      (encodeMetadataHeader floats metadata).map fun text => [(metadataHeader, text)]
  .ok (contentType ++ contentLength ++ metadata)

def headers (credentials : Credentials) (extra : List (String × List Char)) :
    List (String × List Char) :=
  [("Authorization", "Bearer ".toList ++ credentials.apiKey),
    ("X-AtomicMemory-User-Id", credentials.userId)] ++ extra

/-- What `_request` hands to `httpx`. -/
def StorageRequest.wire (floats : FloatText) (credentials : Credentials)
    (request : StorageRequest) : Except PyError WireRequest := do
  let extra ← extraHeaders floats request
  let content ← match request.json with
    | some payload => (jsonBytes floats payload).map some
    | none => .ok request.content
  .ok ⟨request.method, request.path, headers credentials extra, content⟩

def ofAscii (bytes : List UInt8) : Option (List Char) :=
  if bytes.all (· < 0x80) then some (bytes.map fun b => Char.ofNat b.toNat) else none

def objectOf (floats : FloatText) (bytes : List UInt8) : Option Items :=
  (ofAscii bytes).bind fun text =>
    match loads floats text with
    | .ok (.dict items) => some items
    | _ => none

def headerMetadata (floats : FloatText) (headers : List (String × List Char)) :
    Option (Option Items) :=
  match headers.lookup metadataHeader with
  | none => some none
  | some text => ((b64decode text).bind (objectOf floats)).map some

def readPointer (payload : Items) : Option PutPointerInput := do
  let uri ← str? (payload.get "uri")
  let contentType ← str? (payload.get "content_type")
  .some {
    uri, contentType
    sizeBytes := (payload.lookup "size_bytes").bind int?
    contentHash := (payload.lookup "content_hash").bind str?
    metadata := (payload.lookup "metadata").bind dict? }

def readManaged (floats : FloatText) (discloseContentHash : Bool) (request : WireRequest) :
    Option PutManagedInput := do
  let body ← request.content
  let contentType ← request.headers.lookup "Content-Type"
  let metadata ← headerMetadata floats request.headers
  .some ⟨body, String.ofList contentType, discloseContentHash, metadata⟩

/-- The input that a server makes out in the request of a `put`. -/
def readPut (floats : FloatText) (request : WireRequest) : Option PutArtifactInput :=
  if request.path = managedPath false then (readManaged floats false request).map .managed
  else if request.path = managedPath true then (readManaged floats true request).map .managed
  else ((request.content.bind (objectOf floats)).bind readPointer).map .pointer

theorem utf8_ascii {c : Char} (h : c.toNat < 0x80) :
    String.utf8EncodeChar c = [UInt8.ofNat c.toNat] := by
  have hall : ∀ n < 0x80, String.utf8EncodeChar (Char.ofNat n) = [UInt8.ofNat n] := by decide
  have hc := hall c.toNat h
  rwa [Char.ofNat_toNat] at hc

theorem utf8_printable {text : List Char} (h : Printable text) :
    utf8 text = text.map fun c => UInt8.ofNat c.toNat := by
  induction text with
  | nil => rfl
  | cons c text ih =>
    have hc : c.toNat < 0x80 := Nat.lt_of_lt_of_le (h c List.mem_cons_self).2 (by decide)
    rw [utf8_cons, utf8_ascii hc, ih fun d hd => h d (List.mem_cons_of_mem c hd)]
    rfl

theorem ofAscii_utf8 {text : List Char} (h : Printable text) : ofAscii (utf8 text) = some text := by
  have hsmall : ∀ c ∈ text, (UInt8.ofNat c.toNat).toNat = c.toNat := by
    intro c hc
    have := (h c hc).2
    rw [UInt8.toNat_ofNat']
    omega
  rw [utf8_printable h, ofAscii, if_pos, List.map_map]
  · refine congrArg some ((List.map_congr_left fun c hc => ?_).trans (List.map_id text))
    rw [Function.comp_apply, hsmall c hc, Char.ofNat_toNat, id]
  · rw [List.all_map, List.all_eq_true]
    intro c hc
    rw [Function.comp_apply, decide_eq_true_eq, UInt8.lt_iff_toNat_lt, hsmall c hc]
    exact Nat.lt_of_lt_of_le (h c hc).2 (by decide)

variable {floats : FloatText}

theorem objectOf_jsonBytes {value : Items} {bytes : List UInt8}
    (hvalue : Proper floats (.dict value)) (h : jsonBytes floats value = .ok bytes) :
    objectOf floats bytes = some value := by
  obtain ⟨text, htext, rfl⟩ := Except.of_map_ok h
  have hdumps := Except.ok_of_mapError htext
  rw [objectOf, ofAscii_utf8 (dumps_printable _ text hdumps), Option.bind_some,
    loads_dumps hdumps hvalue]

theorem jsonBytes_ok_iff (value : Items) :
    (∃ bytes, jsonBytes floats value = .ok bytes) ↔ Writable (.dict value) := by
  rw [← @dumps_ok_iff floats .compact]
  unfold jsonBytes jsonDumps
  cases dumps floats .compact (.dict value) with
  | ok text => exact ⟨fun _ => ⟨text, rfl⟩, fun _ => ⟨_, rfl⟩⟩
  | error e =>
    constructor
    · rintro ⟨bytes, h⟩
      cases h
    · rintro ⟨text, h⟩
      cases h

theorem readPointer_pointerPayload (input : PutPointerInput) :
    readPointer (pointerPayload input) = some input := by
  have hlookup (key : String) : (pointerPayload input).lookup key =
      (List.lookup key [("mode", .str "pointer"), ("uri", .str input.uri),
        ("content_type", .str input.contentType)]).or
      ((List.lookup key (optItem "size_bytes" input.sizeBytes .int)).or
      ((List.lookup key (optItem "content_hash" input.contentHash .str)).or
      (List.lookup key (optItem "metadata" input.metadata .dict)))) := by
    rw [pointerPayload, Items.lookup_append, Items.lookup_append, Items.lookup_append,
      Option.or_assoc, Option.or_assoc]
  simp only [readPointer, Items.get, hlookup, lookup_optItem]
  obtain ⟨uri, contentType, sizeBytes, contentHash, metadata⟩ := input
  cases sizeBytes <;> cases contentHash <;> cases metadata <;> rfl

theorem mem_optItem {α : Type} {key : String} {x : Option α} {f : α → PyValue}
    {item : String × PyValue} (h : item ∈ optItem key x f) : ∃ a ∈ x, item = (key, f a) := by
  cases x with
  | none => cases h
  | some a => exact ⟨a, rfl, List.mem_singleton.mp h⟩

theorem encodeMetadataHeader_ok {metadata : Items} {text : List Char}
    (hmetadata : Proper floats (.dict metadata))
    (h : encodeMetadataHeader floats metadata = .ok text) :
    (b64decode text).bind (objectOf floats) = some metadata ∧ ∀ c ∈ text, isBase64 c = true := by
  obtain ⟨bytes, hbytes, rfl⟩ := Except.of_map_ok h
  rw [b64decode_b64encode, Option.bind_some, objectOf_jsonBytes hmetadata hbytes]
  exact ⟨rfl, b64encode_alphabet bytes⟩

/-- The metadata header: present exactly when there is metadata, and read as the metadata. -/
structure CarriesMetadata (floats : FloatText) (headers : List (String × List Char))
    (metadata : Option Items) : Prop where
  reads : headerMetadata floats headers = some metadata
  safe : ∀ text ∈ headers.lookup metadataHeader, ∀ c ∈ text, isBase64 c = true

theorem wire_managed {credentials : Credentials} {input : PutManagedInput} {w : WireRequest}
    (hmetadata : ∀ m ∈ input.metadata, Proper floats (.dict m))
    (h : (put (.managed input)).wire floats credentials = .ok w) :
    w.path = managedPath input.discloseContentHash ∧ w.content = some input.body ∧
      w.headers.lookup "Content-Type" = some input.contentType.toList ∧
      w.headers.lookup "Content-Length" = some (Nat.toDigits 10 input.body.length) ∧
      CarriesMetadata floats w.headers input.metadata := by
  obtain ⟨body, contentType, discloseContentHash, metadata⟩ := input
  obtain ⟨extra, hextra, h⟩ := Except.bind_ok h
  obtain ⟨content, hcontent, h⟩ := Except.bind_ok h
  cases hcontent
  cases h
  cases metadata with
  | none =>
    cases hextra
    exact ⟨rfl, rfl, rfl, rfl, rfl, fun text htext => by cases htext⟩
  | some m =>
    obtain ⟨added, hadded, hextra⟩ := Except.bind_ok hextra
    obtain ⟨text, htext, rfl⟩ := Except.of_map_ok hadded
    obtain ⟨hreads, hsafe⟩ := encodeMetadataHeader_ok (hmetadata m rfl) htext
    cases hextra
    refine ⟨rfl, rfl, rfl, rfl, ?_, ?_⟩
    · show ((b64decode text).bind (objectOf floats)).map some = some (some m)
      rw [hreads]
      rfl
    · intro text' htext'
      obtain rfl : text = text' := Option.some.inj htext'
      exact hsafe

theorem readPut_managed (disclose : Bool) {w : WireRequest} (h : w.path = managedPath disclose) :
    readPut floats w = (readManaged floats disclose w).map .managed := by
  have hne : managedPath true ≠ managedPath false := by decide
  unfold readPut
  rw [h]
  cases disclose with
  | false => exact if_pos rfl
  | true => exact (if_neg hne).trans (if_pos rfl)

theorem pointerPayload_proper {input : PutPointerInput}
    (hmetadata : ∀ m ∈ input.metadata, Proper floats (.dict m)) :
    Proper floats (.dict (pointerPayload input)) := by
  obtain ⟨uri, contentType, sizeBytes, contentHash, metadata⟩ := input
  constructor
  · cases sizeBytes <;> cases contentHash <;> cases metadata <;>
      simp [pointerPayload, optItem, Items.keys]
  · rw [properMembers_iff]
    intro item hitem
    simp only [pointerPayload, List.mem_append, List.mem_cons, List.not_mem_nil, or_false] at hitem
    rcases hitem with (((rfl | rfl | rfl) | h) | h) | h
    · exact trivial
    · exact trivial
    · exact trivial
    · obtain ⟨n, -, rfl⟩ := mem_optItem h
      exact trivial
    · obtain ⟨s, -, rfl⟩ := mem_optItem h
      exact trivial
    · obtain ⟨m, hm, rfl⟩ := mem_optItem h
      exact hmetadata m hm

theorem wire_pointer {credentials : Credentials} {input : PutPointerInput} {w : WireRequest}
    (hmetadata : ∀ m ∈ input.metadata, Proper floats (.dict m))
    (h : (put (.pointer input)).wire floats credentials = .ok w) :
    w.path = "/v1/storage/artifacts".toList ∧
      w.content.bind (objectOf floats) = some (pointerPayload input) ∧
      w.headers = headers credentials [("Content-Type", "application/json".toList)] := by
  obtain ⟨extra, hextra, h⟩ := Except.bind_ok h
  obtain ⟨content, hcontent, h⟩ := Except.bind_ok h
  obtain ⟨bytes, hbytes, rfl⟩ := Except.of_map_ok hcontent
  cases hextra
  cases h
  exact ⟨rfl, objectOf_jsonBytes (pointerPayload_proper hmetadata) hbytes, rfl⟩

theorem readPut_pointer {w : WireRequest} (h : w.path = "/v1/storage/artifacts".toList) :
    readPut floats w = ((w.content.bind (objectOf floats)).bind readPointer).map .pointer := by
  have hne : ∀ disclose, "/v1/storage/artifacts".toList ≠ managedPath disclose := by decide
  unfold readPut
  rw [h, if_neg (hne false), if_neg (hne true)]

def PutArtifactInput.metadata : PutArtifactInput → Option Items
  | pointer input => input.metadata
  | managed input => input.metadata

def PutArtifactInput.SizeWritable : PutArtifactInput → Prop
  | pointer input => ∀ n ∈ input.sizeBytes, Writable (.int n)
  | managed _ => True

theorem pointerPayload_writable_iff (input : PutPointerInput) :
    Writable (.dict (pointerPayload input)) ↔
      (∀ m ∈ input.metadata, Writable (.dict m)) ∧ ∀ n ∈ input.sizeBytes, Writable (.int n) := by
  rw [Writable, writableMembers_iff]
  constructor
  · intro h
    constructor
    · intro m hm
      apply h ("metadata", .dict m)
      rw [pointerPayload, hm]
      simp [optItem]
    · intro n hn
      apply h ("size_bytes", .int n)
      rw [pointerPayload, hn]
      simp [optItem]
  · rintro ⟨hmetadata, hsize⟩ item hitem
    simp only [pointerPayload, List.mem_append, List.mem_cons, List.not_mem_nil, or_false] at hitem
    rcases hitem with (((rfl | rfl | rfl) | h) | h) | h
    · exact trivial
    · exact trivial
    · exact trivial
    · obtain ⟨n, hn, rfl⟩ := mem_optItem h
      exact hsize n hn
    · obtain ⟨s, -, rfl⟩ := mem_optItem h
      exact trivial
    · obtain ⟨m, hm, rfl⟩ := mem_optItem h
      exact hmetadata m hm

theorem wire_ok_iff (credentials : Credentials) (input : PutArtifactInput) :
    (∃ w, (put input).wire floats credentials = .ok w) ↔
      (∀ m ∈ input.metadata, Writable (.dict m)) ∧ input.SizeWritable := by
  cases input with
  | pointer input =>
    rw [PutArtifactInput.metadata, PutArtifactInput.SizeWritable,
      ← pointerPayload_writable_iff, ← @jsonBytes_ok_iff floats]
    constructor
    · rintro ⟨w, h⟩
      obtain ⟨extra, -, h⟩ := Except.bind_ok h
      obtain ⟨content, hcontent, -⟩ := Except.bind_ok h
      obtain ⟨bytes, hbytes, -⟩ := Except.of_map_ok hcontent
      exact ⟨bytes, hbytes⟩
    · rintro ⟨bytes, hbytes⟩
      refine ⟨_, Except.bind_intro rfl (Except.bind_intro (a := some bytes) ?_ rfl)⟩
      show (jsonBytes floats (pointerPayload input)).map some = _
      rw [hbytes]
      rfl
  | managed input =>
    obtain ⟨body, contentType, discloseContentHash, metadata⟩ := input
    cases metadata with
    | none =>
      have hnone : ∀ m ∈ (none : Option Items), Writable (.dict m) := by
        intro m hm
        cases hm
      exact ⟨fun _ => ⟨hnone, trivial⟩, fun _ => ⟨_, rfl⟩⟩
    | some m =>
      have hwritable : (∀ m' ∈ some m, Writable (.dict m')) ↔ Writable (.dict m) := by
        simp only [Option.mem_def, Option.some.injEq, forall_eq']
      rw [PutArtifactInput.metadata, PutArtifactInput.SizeWritable, and_true, hwritable,
        ← @jsonBytes_ok_iff floats]
      constructor
      · rintro ⟨w, h⟩
        obtain ⟨extra, hextra, -⟩ := Except.bind_ok h
        obtain ⟨added, hadded, -⟩ := Except.bind_ok hextra
        obtain ⟨text, htext, -⟩ := Except.of_map_ok hadded
        obtain ⟨bytes, hbytes, -⟩ := Except.of_map_ok htext
        exact ⟨bytes, hbytes⟩
      · rintro ⟨bytes, hbytes⟩
        have hadded : (encodeMetadataHeader floats m).map (fun text => [(metadataHeader, text)]) =
            .ok [(metadataHeader, b64encode bytes)] := by
          rw [encodeMetadataHeader, hbytes]
          rfl
        exact ⟨_, Except.bind_intro (Except.bind_intro hadded rfl) (Except.bind_intro rfl rfl)⟩

/-- The request of a `put` tells everything that is put, and its metadata header is base64. -/
theorem put_lossless (credentials : Credentials) (input : PutArtifactInput)
    (hmetadata : ∀ m ∈ input.metadata, Proper floats (.dict m)) :
    ((∃ w, (put input).wire floats credentials = .ok w) ↔
        (∀ m ∈ input.metadata, Writable (.dict m)) ∧ input.SizeWritable) ∧
      ∀ w, (put input).wire floats credentials = .ok w →
        readPut floats w = some input ∧
          ∀ text ∈ w.headers.lookup metadataHeader, ∀ c ∈ text, isBase64 c = true := by
  refine ⟨wire_ok_iff credentials input, fun w h => ?_⟩
  cases input with
  | pointer input =>
    obtain ⟨hpath, hcontent, hheaders⟩ := wire_pointer hmetadata h
    rw [readPut_pointer hpath, hcontent, Option.bind_some, readPointer_pointerPayload, hheaders]
    exact ⟨rfl, fun text htext => by cases htext⟩
  | managed input =>
    obtain ⟨hpath, hcontent, htype, -, hcarries⟩ := wire_managed hmetadata h
    rw [readPut_managed _ hpath, readManaged, hcontent, htype]
    refine ⟨?_, hcarries.safe⟩
    show ((headerMetadata floats w.headers).bind _).map _ = _
    rw [hcarries.reads]
    show some (PutArtifactInput.managed ⟨input.body, String.ofList input.contentType.toList,
      input.discloseContentHash, input.metadata⟩) = _
    rw [String.ofList_toList]

def reportUpload : PutArtifactInput :=
  .managed ⟨[0x25, 0x50, 0x44, 0x46], "application/pdf", true,
    some [("title", .str "Ü\r\nX-Injected: 1"), ("pages", .int 12), ("ratio", .float (-5 / 2)),
      ("draft", .bool false)]⟩

theorem put_lossless_report :
    ∃ w, (put reportUpload).wire .tenths ⟨"key".toList, "alice".toList⟩ = .ok w ∧
      readPut .tenths w = some reportUpload := by
  have hproper : ∀ m ∈ reportUpload.metadata, Proper .tenths (.dict m) := by
    intro m hm
    cases hm
    exact ⟨by decide, trivial, trivial, FloatText.tenths_exact, trivial, trivial⟩
  have hput := put_lossless ⟨"key".toList, "alice".toList⟩ reportUpload hproper
  have hwritable :
      (∀ m ∈ reportUpload.metadata, Writable (.dict m)) ∧ reportUpload.SizeWritable := by
    refine ⟨fun m hm => ?_, trivial⟩
    cases hm
    have hpages : (natText 12).length ≤ maxDigits := by decide
    exact ⟨trivial, hpages, trivial, trivial, trivial⟩
  obtain ⟨w, hw⟩ := hput.1.mpr hwritable
  exact ⟨w, hw, (hput.2 w hw).1⟩

end AtomicMemory.StorageClient
