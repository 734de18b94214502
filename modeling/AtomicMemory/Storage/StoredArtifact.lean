import AtomicMemory.Storage.Mapping

-- `map_stored_artifact` accepts exactly the valid artifacts and keeps every field.

open PyValue hiding none

namespace AtomicMemory.StorageClient

section

variable {body : Items} {field : String}

theorem optionalField_ok_iff {α : Type} {absent a : α} {check : PyValue → Except String α} :
    optionalField absent check body field = .ok a ↔
      (body.get field = .none ∧ a = absent) ∨
        (body.get field ≠ .none ∧ check (body.get field) = .ok a) := by
  by_cases h : body.get field = .none
  · rw [optionalField_none absent check h, Except.ok.injEq]
    simp [h, eq_comm]
  · rw [optionalField_some absent check h]
    cases check (body.get field) with
    | ok b => simp [h, Except.mapError]
    | error wrong => simp [h, Except.mapError]

theorem requireObject_ok_iff {raw : PyValue} {typeName : String} {items : Items} :
    requireObject raw typeName = .ok items ↔ raw = .dict items := by
  cases raw <;> simp [requireObject]

theorem requireWireString_ok_iff {s : String} :
    requireWireString body field = .ok s ↔ body.get field = .str s ∧ s ≠ "" := by
  unfold requireWireString
  cases hv : body.get field with
  | str value =>
    by_cases hempty : value = ""
    · subst hempty
      simp only [if_true, reduceCtorEq, false_iff]
      rintro ⟨hs, hne⟩
      exact hne (PyValue.str.inj hs).symm
    · simp only [if_neg hempty, Except.ok.injEq, PyValue.str.injEq]
      exact ⟨fun h => ⟨h, h ▸ hempty⟩, fun h => h.1⟩
  | _ => simp

theorem requireWireEnum_ok_iff {allowed : List String} {s : String} :
    requireWireEnum body field allowed = .ok s ↔ body.get field = .str s ∧ s ∈ allowed := by
  unfold requireWireEnum
  cases hv : body.get field with
  | str value =>
    by_cases hmem : value ∈ allowed
    · simp only [if_pos hmem, Except.ok.injEq, PyValue.str.injEq]
      exact ⟨fun h => ⟨h, h ▸ hmem⟩, fun h => h.1⟩
    · simp only [if_neg hmem, reduceCtorEq, false_iff]
      rintro ⟨hs, hin⟩
      exact hmem ((PyValue.str.inj hs) ▸ hin)
  | _ => simp

theorem optionalString_ok_iff {x : Option String} :
    optionalString body field = .ok x ↔ body.get field = orNone x .str := by
  rw [optionalString, optionalField_ok_iff]
  cases hv : body.get field <;> cases x <;> simp [orNone]

theorem ite_ok_iff {ε α : Type} {p : Prop} [Decidable p] {a b : α} {e : ε} :
    (if p then Except.ok b else .error e) = Except.ok a ↔ p ∧ b = a := by
  split <;> simp [*]

theorem optionalNonNegativeInt_ok_iff {x : Option ℤ} :
    optionalNonNegativeInt body field = .ok x ↔
      body.get field = orNone x .int ∧ ∀ n ∈ x, 0 ≤ n := by
  rw [optionalNonNegativeInt, optionalField_ok_iff]
  cases hv : body.get field with
  | int n =>
    simp only [ite_ok_iff]
    cases x with
    | none => simp [orNone]
    | some m =>
      simp only [orNone, Option.map_some, Option.getD_some, PyValue.int.injEq, Option.some.injEq,
        Option.mem_def, forall_eq']
      constructor
      · rintro (⟨hint, -⟩ | ⟨-, hn, rfl⟩)
        · cases hint
        · exact ⟨rfl, hn⟩
      · rintro ⟨rfl, hn⟩
        exact .inr ⟨PyValue.noConfusion, hn, rfl⟩
  | _ => cases x <;> simp [orNone]

def ReadsObject (v : PyValue) (items : Items) : Prop :=
  v = .none ∧ items = [] ∨ v = .dict items

theorem objectOrEmpty_ok_iff {items : Items} :
    objectOrEmpty body field = .ok items ↔ ReadsObject (body.get field) items := by
  rw [objectOrEmpty, optionalField_ok_iff, ReadsObject]
  cases hv : body.get field <;> simp

/-- A check that passes the objects all of whose values are of a kind, as they are. -/
theorem objectField_ok_iff {check : PyValue → Except String Items} {p : PyValue → Prop}
    {items : Items} (hother : ∀ v value, check v = .ok value → v = .dict value)
    (hdict : ∀ value, check (.dict value) = .ok value ↔ ∀ item ∈ value, p item.2) :
    optionalField [] check body field = .ok items ↔
      ReadsObject (body.get field) items ∧ ∀ item ∈ items, p item.2 := by
  rw [optionalField_ok_iff, ReadsObject]
  constructor
  · rintro (⟨hnone, rfl⟩ | ⟨-, hok⟩)
    · exact ⟨.inl ⟨hnone, rfl⟩, fun item hitem => absurd hitem List.not_mem_nil⟩
    · have hvalue := hother _ _ hok
      rw [hvalue] at hok ⊢
      exact ⟨.inr rfl, (hdict items).mp hok⟩
  · rintro ⟨⟨hnone, rfl⟩ | hvalue, hall⟩
    · exact .inl ⟨hnone, rfl⟩
    · rw [hvalue]
      exact .inr ⟨PyValue.noConfusion, (hdict items).mpr hall⟩

theorem stringDict_ok_iff {items : Items} :
    stringDict body field = .ok items ↔
      ReadsObject (body.get field) items ∧ ∀ item ∈ items, isStr item.2 = true := by
  unfold stringDict
  apply objectField_ok_iff (p := fun v => isStr v = true)
  · intro v value h
    cases v with
    | dict items => rw [(ite_ok_iff.mp h).2]
    | _ => cases h
  · intro value
    simp only [ite_ok_iff, List.all_eq_true, and_true]

theorem metadataDict_ok_iff {items : Items} :
    metadataDict body field = .ok items ↔
      ReadsObject (body.get field) items ∧ ∀ item ∈ items, isScalar item.2 = true := by
  -- nothing is filtered out of what has passed the check
  have hfilter {value : Items} (h : ∀ item ∈ value, isScalar item.2 = true) :
      (value.filter fun item => isScalar item.2) = value := List.filter_eq_self.mpr h
  unfold metadataDict
  apply objectField_ok_iff (p := fun v => isScalar v = true)
  · intro v value h
    cases v with
    | dict items =>
      obtain ⟨hall, hvalue⟩ := ite_ok_iff.mp h
      rw [← hvalue, hfilter (List.all_eq_true.mp hall)]
    | _ => cases h
  · intro value
    simp only [ite_ok_iff, List.all_eq_true]
    exact ⟨fun h => h.1, fun h => ⟨h, hfilter h⟩⟩

theorem copyOptionalObject_ok_iff {out out' : Items} {outKey : String} :
    copyOptionalObject out outKey body field = .ok out' ↔
      ∃ x : Option Items, body.get field = orNone x .dict ∧
        out' = out.setSome outKey (x.map .dict) := by
  rw [copyOptionalObject, optionalField_ok_iff]
  cases hv : body.get field with
  | none =>
    constructor
    · rintro (⟨-, rfl⟩ | ⟨hne, -⟩)
      · exact ⟨none, rfl, rfl⟩
      · exact absurd rfl hne
    · rintro ⟨x, hx, rfl⟩
      cases x with
      | none => exact .inl ⟨rfl, rfl⟩
      | some value => cases hx
  | dict value =>
    constructor
    · rintro (⟨hdict, -⟩ | ⟨-, hout⟩)
      · cases hdict
      · cases hout
        exact ⟨some value, rfl, rfl⟩
    · rintro ⟨x, hx, rfl⟩
      cases x with
      | none => cases hx
      | some items =>
        cases hx
        exact .inr ⟨PyValue.noConfusion, rfl⟩
  | _ =>
    constructor
    · rintro (⟨hnone, -⟩ | ⟨-, hout⟩)
      · cases hnone
      · cases hout
    · rintro ⟨x, hx, -⟩
      cases x <;> cases hx

end

structure ArtifactFields where
  artifactId : String
  provider : String
  mode : String
  status : String
  contentEncoding : String
  uri : Option String
  sizeBytes : Option ℤ
  contentType : Option String
  identifiers : Items
  lifecycle : Items
  metadata : Items
  createdAt : String
  updatedAt : String
  contentHash : Option String
  providerDetails : Option Items
  replication : Option Items
  verification : Option Items
  retrieval : Option Items

structure ArtifactFields.Read (body : Items) (f : ArtifactFields) : Prop where
  artifactId : body.get "artifact_id" = .str f.artifactId ∧ f.artifactId ≠ ""
  provider : body.get "provider" = .str f.provider ∧ f.provider ≠ ""
  mode : body.get "mode" = .str f.mode ∧ f.mode ∈ storageModes
  status : body.get "status" = .str f.status ∧ f.status ∈ storageStatuses
  contentEncoding :
    body.get "content_encoding" = .str f.contentEncoding ∧ f.contentEncoding ∈ contentEncodings
  uri : body.get "uri" = orNone f.uri .str
  sizeBytes : body.get "size_bytes" = orNone f.sizeBytes .int ∧ ∀ n ∈ f.sizeBytes, 0 ≤ n
  contentType : body.get "content_type" = orNone f.contentType .str
  identifiers : ReadsObject (body.get "identifiers") f.identifiers ∧
    ∀ item ∈ f.identifiers, isStr item.2 = true
  lifecycle : ReadsObject (body.get "lifecycle") f.lifecycle
  metadata : ReadsObject (body.get "metadata") f.metadata ∧
    ∀ item ∈ f.metadata, isScalar item.2 = true
  createdAt : body.get "created_at" = .str f.createdAt ∧ f.createdAt ≠ ""
  updatedAt : body.get "updated_at" = .str f.updatedAt ∧ f.updatedAt ≠ ""
  contentHash : body.get "content_hash" = orNone f.contentHash .str
  providerDetails : body.get "provider_details" = orNone f.providerDetails .dict
  replication : body.get "replication" = orNone f.replication .dict
  verification : body.get "verification" = orNone f.verification .dict
  retrieval : body.get "retrieval" = orNone f.retrieval .dict

/-- The dict that `map_stored_artifact` makes of them. -/
def ArtifactFields.items (f : ArtifactFields) : Items :=
  let artifact : Items := [("artifactId", .str f.artifactId), ("provider", .str f.provider),
    ("mode", .str f.mode), ("uri", orNone f.uri .str), ("status", .str f.status),
    ("sizeBytes", orNone f.sizeBytes .int), ("contentType", orNone f.contentType .str),
    ("contentEncoding", .str f.contentEncoding), ("identifiers", .dict f.identifiers),
    ("lifecycle", .dict f.lifecycle), ("metadata", .dict f.metadata),
    ("createdAt", .str f.createdAt), ("updatedAt", .str f.updatedAt)]
  let artifact := artifact.setSome "contentHash" (f.contentHash.map .str)
  let artifact := artifact.setSome "providerDetails" (f.providerDetails.map .dict)
  let artifact := artifact.setSome "replication" (f.replication.map .dict)
  let artifact := artifact.setSome "verification" (f.verification.map .dict)
  artifact.setSome "retrieval" (f.retrieval.map .dict)

theorem validateResponseModel_ok_iff {α : Type} {validate : PyValue → Option α} {data : PyValue}
    {typeName : String} {a : α} :
    validateResponseModel validate data typeName = .ok a ↔ validate data = some a := by
  unfold validateResponseModel
  cases validate data <;> simp

section

variable (py : ResponsePydantic)

theorem mapStoredArtifact_fields_iff {raw : PyValue} {a : StoredArtifact} :
    mapStoredArtifact py raw = .ok a ↔ ∃ body f, raw = .dict body ∧ ArtifactFields.Read body f ∧
      StoredArtifact.ofItems py f.items = some a := by
  unfold mapStoredArtifact
  simp only [Except.bind_ok_iff, requireObject_ok_iff, requireWireString_ok_iff,
    requireWireEnum_ok_iff, optionalString_ok_iff, optionalNonNegativeInt_ok_iff,
    stringDict_ok_iff, objectOrEmpty_ok_iff, metadataDict_ok_iff, copyOptionalObject_ok_iff,
    validateResponseModel_ok_iff]
  constructor
  · rintro ⟨body, hbody, artifactId, hartifactId, provider, hprovider, mode, hmode, status, hstatus,
      contentEncoding, hcontentEncoding, uri, huri, sizeBytes, hsizeBytes, contentType,
      hcontentType, identifiers, hidentifiers, lifecycle, hlifecycle, metadata, hmetadata,
      createdAt, hcreatedAt, updatedAt, hupdatedAt, contentHash, hcontentHash, -,
      ⟨providerDetails, hproviderDetails, rfl⟩, -, ⟨replication, hreplication, rfl⟩, -,
      ⟨verification, hverification, rfl⟩, -, ⟨retrieval, hretrieval, rfl⟩, hmodel⟩
    exact ⟨body, ⟨artifactId, provider, mode, status, contentEncoding, uri, sizeBytes, contentType,
      identifiers, lifecycle, metadata, createdAt, updatedAt, contentHash, providerDetails,
      replication, verification, retrieval⟩, hbody, ⟨hartifactId, hprovider, hmode, hstatus,
      hcontentEncoding, huri, hsizeBytes, hcontentType, hidentifiers, hlifecycle, hmetadata,
      hcreatedAt, hupdatedAt, hcontentHash, hproviderDetails, hreplication, hverification,
      hretrieval⟩, hmodel⟩
  · rintro ⟨body, f, hbody, h, hmodel⟩
    exact ⟨body, hbody, f.artifactId, h.artifactId, f.provider, h.provider, f.mode, h.mode,
      f.status, h.status, f.contentEncoding, h.contentEncoding, f.uri, h.uri, f.sizeBytes,
      h.sizeBytes, f.contentType, h.contentType, f.identifiers, h.identifiers, f.lifecycle,
      h.lifecycle, f.metadata, h.metadata, f.createdAt, h.createdAt, f.updatedAt, h.updatedAt,
      f.contentHash, h.contentHash, _, ⟨f.providerDetails, h.providerDetails, rfl⟩, _,
      ⟨f.replication, h.replication, rfl⟩, _, ⟨f.verification, h.verification, rfl⟩, _,
      ⟨f.retrieval, h.retrieval, rfl⟩, hmodel⟩

theorem ArtifactFields.lookup_items (f : ArtifactFields) (key : String) :
    f.items.lookup key =
      if key = "retrieval" then f.retrieval.map .dict
      else if key = "verification" then f.verification.map .dict
      else if key = "replication" then f.replication.map .dict
      else if key = "providerDetails" then f.providerDetails.map .dict
      else if key = "contentHash" then f.contentHash.map .str
      else if key = "artifactId" then some (.str f.artifactId)
      else if key = "provider" then some (.str f.provider)
      else if key = "mode" then some (.str f.mode)
      else if key = "uri" then some (orNone f.uri .str)
      else if key = "status" then some (.str f.status)
      else if key = "sizeBytes" then some (orNone f.sizeBytes .int)
      else if key = "contentType" then some (orNone f.contentType .str)
      else if key = "contentEncoding" then some (.str f.contentEncoding)
      else if key = "identifiers" then some (.dict f.identifiers)
      else if key = "lifecycle" then some (.dict f.lifecycle)
      else if key = "metadata" then some (.dict f.metadata)
      else if key = "createdAt" then some (.str f.createdAt)
      else if key = "updatedAt" then some (.str f.updatedAt)
      else none := by
  simp [ArtifactFields.items, Items.lookup_setSome, Items.lookup_cons]

theorem usedKey_of_lookup {items : Items} {aliased name : String} {v : PyValue}
    (h : items.lookup aliased = some v) : usedKey items aliased name = aliased := by
  unfold usedKey
  rw [h]
  rfl

theorem eq_none_of_usedKey {items : Items} {aliased name : String} {x : Option PyValue}
    (h : items.lookup aliased = x) (hne : aliased ≠ usedKey items aliased name) : x = none := by
  cases x with
  | none => rfl
  | some v => exact absurd (usedKey_of_lookup h).symm hne

theorem optField_usedKey {α : Type} {f : PyValue → Option α} {items : Items}
    {aliased name : String} {x : Option α} {g : α → PyValue}
    (haliased : items.lookup aliased = x.map g) (hname : items.lookup name = none)
    (hf : ∀ a, x = some a → g a ≠ .none ∧ f (g a) = some a) :
    optField f items (usedKey items aliased name) = some x := by
  cases x with
  | none =>
    have hkey : usedKey items aliased name = name := by
      unfold usedKey
      rw [haliased]
      rfl
    rw [hkey, optField, hname]
  | some a =>
    rw [usedKey_of_lookup haliased]
    exact optField_map haliased hf

theorem optField_orNone {α β : Type} {f : PyValue → Option α} {items : Items} {key : String}
    {x : Option β} {g : β → PyValue} (h : items.lookup key = x.map g) :
    optField f items key = nullable f (orNone x g) := by
  unfold optField
  rw [h]
  cases x <;> rfl

theorem nullable_orNone {α : Type} {f : PyValue → Option α} {g : α → PyValue}
    (hf : ∀ a, g a ≠ .none ∧ f (g a) = some a) (x : Option α) :
    nullable f (orNone x g) = some x := by
  cases x with
  | none => rfl
  | some a => exact nullable_eq (hf a).1 (hf a).2

theorem ArtifactFields.forbidExtra_items (f : ArtifactFields) {α : Type}
    (read : Items → Option α) :
    forbidExtra ["artifactId", "provider", "mode", "uri", "status", "sizeBytes", "contentType",
      usedKey f.items "contentHash" "content_hash", "contentEncoding", "identifiers", "lifecycle",
      "replication", "verification", "retrieval",
      usedKey f.items "providerDetails" "provider_details", "metadata", "createdAt",
      "updatedAt"] read f.items = read f.items := by
  refine forbidExtra_eq ?_ read
  rw [Items.keys_subset_iff]
  intro key hkey
  simp only [List.mem_cons, List.not_mem_nil, or_false, not_or] at hkey
  rw [f.lookup_items]
  simp only [hkey, if_false]
  split
  · rename_i hdetails
    subst hdetails
    refine eq_none_of_usedKey ?_ hkey.2.2.2.2.2.2.2.2.2.2.2.2.2.2.1
    simp [f.lookup_items]
  · split
    · rename_i hhash
      subst hhash
      refine eq_none_of_usedKey ?_ hkey.2.2.2.2.2.2.2.1
      simp [f.lookup_items]
    · rfl

structure ArtifactFields.Valid (f : ArtifactFields) (a : StoredArtifact) : Prop where
  mode : f.mode = Literal.text a.mode
  status : f.status = Literal.text a.status
  contentEncoding : f.contentEncoding = Literal.text a.contentEncoding
  identifiers : record? str? (.dict f.identifiers) = some a.identifiers
  lifecycle : StorageLifecycle.ofItems f.lifecycle = some a.lifecycle
  replication :
    nullable (modelOf (ReplicationState.ofItems py)) (orNone f.replication .dict) =
      some a.replication
  verification :
    nullable (modelOf VerificationState.ofItems) (orNone f.verification .dict) =
      some a.verification
  retrieval :
    nullable (modelOf RetrievalState.ofItems) (orNone f.retrieval .dict) = some a.retrieval
  metadata : record? scalar? (.dict f.metadata) = some a.metadata

structure ArtifactFields.Same (f : ArtifactFields) (a : StoredArtifact) : Prop where
  artifactId : f.artifactId = a.artifactId
  provider : f.provider = a.provider
  uri : f.uri = a.uri
  sizeBytes : f.sizeBytes = a.sizeBytes
  contentType : f.contentType = a.contentType
  contentHash : f.contentHash = a.contentHash
  providerDetails : f.providerDetails = a.providerDetails
  createdAt : f.createdAt = a.createdAt
  updatedAt : f.updatedAt = a.updatedAt

/-- The dict is read field by field, each under the key that it has been given. -/
theorem ArtifactFields.ofItems_eq (f : ArtifactFields) :
    StoredArtifact.ofItems py f.items = (do
      let mode ← literal (.str f.mode)
      let status ← literal (.str f.status)
      let contentEncoding ← literal (.str f.contentEncoding)
      let identifiers ← record? str? (.dict f.identifiers)
      let lifecycle ← StorageLifecycle.ofItems f.lifecycle
      let replication ← nullable (modelOf (ReplicationState.ofItems py)) (orNone f.replication .dict)
      let verification ← nullable (modelOf VerificationState.ofItems) (orNone f.verification .dict)
      let retrieval ← nullable (modelOf RetrievalState.ofItems) (orNone f.retrieval .dict)
      let metadata ← record? scalar? (.dict f.metadata)
      some ⟨f.artifactId, f.provider, mode, f.uri, status, f.sizeBytes, f.contentType,
        f.contentHash, contentEncoding, identifiers, lifecycle, replication, verification,
        retrieval, f.providerDetails, metadata, f.createdAt, f.updatedAt⟩) := by
  have hlookup := f.lookup_items
  have hartifactId : usedKey f.items "artifactId" "artifact_id" = "artifactId" :=
    usedKey_of_lookup (v := .str f.artifactId) (by simp [hlookup])
  have hsizeBytes : usedKey f.items "sizeBytes" "size_bytes" = "sizeBytes" :=
    usedKey_of_lookup (v := orNone f.sizeBytes .int) (by simp [hlookup])
  have hcontentType : usedKey f.items "contentType" "content_type" = "contentType" :=
    usedKey_of_lookup (v := orNone f.contentType .str) (by simp [hlookup])
  have hcontentEncoding :
      usedKey f.items "contentEncoding" "content_encoding" = "contentEncoding" :=
    usedKey_of_lookup (v := .str f.contentEncoding) (by simp [hlookup])
  have hcreatedAt : usedKey f.items "createdAt" "created_at" = "createdAt" :=
    usedKey_of_lookup (v := .str f.createdAt) (by simp [hlookup])
  have hupdatedAt : usedKey f.items "updatedAt" "updated_at" = "updatedAt" :=
    usedKey_of_lookup (v := .str f.updatedAt) (by simp [hlookup])
  have hcontentHash : optField str? f.items (usedKey f.items "contentHash" "content_hash") =
      some f.contentHash :=
    optField_usedKey (g := .str) (by simp [hlookup]) (by simp [hlookup])
      fun s _ => ⟨PyValue.noConfusion, rfl⟩
  have hproviderDetails :
      optField dict? f.items (usedKey f.items "providerDetails" "provider_details") =
        some f.providerDetails :=
    optField_usedKey (g := .dict) (by simp [hlookup]) (by simp [hlookup])
      fun items _ => ⟨PyValue.noConfusion, rfl⟩
  have hstr (key value : String) (h : f.items.lookup key = some (.str value)) :
      field str? f.items key = some value := field_eq h rfl
  have hliteral {α : Type} [Literal α] (key value : String)
      (h : f.items.lookup key = some (.str value)) :
      field (literal : PyValue → Option α) f.items key = literal (.str value) := by
    rw [field, h, Option.bind_some]
  have hnullable {α : Type} {g : α → PyValue} {read : PyValue → Option α} (key : String)
      (x : Option α) (hread : ∀ a, g a ≠ .none ∧ read (g a) = some a)
      (h : f.items.lookup key = some (orNone x g)) :
      field (nullable read) f.items key = some x := field_eq h (nullable_orNone hread x)
  have hreadStr (s : String) : PyValue.str s ≠ .none ∧ str? (.str s) = some s :=
    ⟨PyValue.noConfusion, rfl⟩
  have hreadInt (n : ℤ) : PyValue.int n ≠ .none ∧ py.int (.int n) = some n :=
    ⟨PyValue.noConfusion, py.int_int n⟩
  have hdefault {α : Type} {read : PyValue → Option α} {absent : α} (key : String) (items : Items)
      (h : f.items.lookup key = some (.dict items)) :
      defaultField read absent f.items key = read (.dict items) := by
    rw [defaultField, h]
  unfold StoredArtifact.ofItems
  simp only [hartifactId, hsizeBytes, hcontentType, hcontentEncoding, hcreatedAt, hupdatedAt]
  rw [f.forbidExtra_items, hstr "artifactId" f.artifactId, hstr "provider" f.provider,
    hliteral "mode" f.mode, hnullable "uri" f.uri hreadStr,
    hliteral "status" f.status, hnullable "sizeBytes" f.sizeBytes hreadInt,
    hnullable "contentType" f.contentType hreadStr, hcontentHash,
    hliteral "contentEncoding" f.contentEncoding, hdefault "identifiers" f.identifiers,
    hdefault "lifecycle" f.lifecycle, optField_orNone (x := f.replication) (g := .dict),
    optField_orNone (x := f.verification) (g := .dict),
    optField_orNone (x := f.retrieval) (g := .dict), hproviderDetails,
    hdefault "metadata" f.metadata, hstr "createdAt" f.createdAt, hstr "updatedAt" f.updatedAt]
  · simp only [Option.bind_eq_bind, Option.bind_some]
    rfl
  all_goals simp [hlookup]

theorem ArtifactFields.ofItems_iff (f : ArtifactFields) (a : StoredArtifact) :
    StoredArtifact.ofItems py f.items = some a ↔ f.Valid py a ∧ f.Same a := by
  rw [f.ofItems_eq]
  simp only [Option.bind_eq_bind, Option.bind_eq_some_iff, literal_eq_some_iff, PyValue.str.injEq]
  constructor
  · rintro ⟨mode, hmode, status, hstatus, encoding, hencoding, identifiers, hidentifiers,
      lifecycle, hlifecycle, replication, hreplication, verification, hverification, retrieval,
      hretrieval, metadata, hmetadata, ha⟩
    cases ha
    exact ⟨⟨hmode, hstatus, hencoding, hidentifiers, hlifecycle, hreplication, hverification,
      hretrieval, hmetadata⟩, ⟨rfl, rfl, rfl, rfl, rfl, rfl, rfl, rfl, rfl⟩⟩
  · rintro ⟨hvalid, hsame⟩
    refine ⟨_, hvalid.mode, _, hvalid.status, _, hvalid.contentEncoding, _, hvalid.identifiers,
      _, hvalid.lifecycle, _, hvalid.replication, _, hvalid.verification, _, hvalid.retrieval, _,
      hvalid.metadata, ?_⟩
    rw [hsame.artifactId, hsame.provider, hsame.uri, hsame.sizeBytes, hsame.contentType,
      hsame.contentHash, hsame.providerDetails, hsame.createdAt, hsame.updatedAt]

structure ReadsArtifact (body : Items) (a : StoredArtifact) : Prop where
  artifactId : body.get "artifact_id" = .str a.artifactId ∧ a.artifactId ≠ ""
  provider : body.get "provider" = .str a.provider ∧ a.provider ≠ ""
  mode : body.get "mode" = .str (Literal.text a.mode)
  uri : body.get "uri" = orNone a.uri .str
  status : body.get "status" = .str (Literal.text a.status)
  sizeBytes : body.get "size_bytes" = orNone a.sizeBytes .int ∧ ∀ n ∈ a.sizeBytes, 0 ≤ n
  contentType : body.get "content_type" = orNone a.contentType .str
  contentHash : body.get "content_hash" = orNone a.contentHash .str
  contentEncoding : body.get "content_encoding" = .str (Literal.text a.contentEncoding)
  identifiers :
    ReadsObject (body.get "identifiers") (a.identifiers.map fun item => (item.1, .str item.2))
  lifecycle : body.get "lifecycle" = .none ∧ a.lifecycle = ⟨none, none⟩ ∨
    modelOf StorageLifecycle.ofItems (body.get "lifecycle") = some a.lifecycle
  replication :
    nullable (modelOf (ReplicationState.ofItems py)) (body.get "replication") = some a.replication
  verification :
    nullable (modelOf VerificationState.ofItems) (body.get "verification") = some a.verification
  retrieval : nullable (modelOf RetrievalState.ofItems) (body.get "retrieval") = some a.retrieval
  providerDetails : body.get "provider_details" = orNone a.providerDetails .dict
  metadata : ReadsObject (body.get "metadata") a.metadata ∧
    ∀ item ∈ a.metadata, isScalar item.2 = true
  createdAt : body.get "created_at" = .str a.createdAt ∧ a.createdAt ≠ ""
  updatedAt : body.get "updated_at" = .str a.updatedAt ∧ a.updatedAt ≠ ""

theorem record?_dict_iff {α : Type} {read : PyValue → Option α} {items : Items}
    {out : List (String × α)} : record? read (.dict items) = some out ↔
      List.Forall₂ (fun item pair => item.1 = pair.1 ∧ read item.2 = some pair.2) items out := by
  rw [record?, mapM_eq_some_iff]
  have hitem (item : String × PyValue) (pair : String × α) :
      ((read item.2).map fun a => (item.1, a)) = some pair ↔
        item.1 = pair.1 ∧ read item.2 = some pair.2 := by
    rw [Option.map_eq_some_iff]
    constructor
    · rintro ⟨a, ha, rfl⟩
      exact ⟨rfl, ha⟩
    · rintro ⟨hkey, hvalue⟩
      exact ⟨pair.2, hvalue, Prod.ext hkey rfl⟩
  simp only [hitem]

theorem record?_str_iff {items : Items} {out : List (String × String)} :
    record? str? (.dict items) = some out ↔ items = out.map fun item => (item.1, .str item.2) := by
  have hstr {v : PyValue} {s : String} : str? v = some s ↔ v = .str s := by
    cases v <;> simp [str?]
  rw [record?_dict_iff, ← List.forall₂_eq_eq_eq, List.forall₂_map_right_iff]
  simp only [hstr, Prod.ext_iff]

theorem scalar?_eq_some_iff {v w : PyValue} : scalar? v = some w ↔ v = w ∧ isScalar v = true := by
  cases v <;> simp [scalar?, isScalar]

theorem record?_scalar_iff {items out : Items} :
    record? scalar? (.dict items) = some out ↔
      items = out ∧ ∀ item ∈ items, isScalar item.2 = true := by
  rw [record?_dict_iff]
  simp only [scalar?_eq_some_iff]
  induction items generalizing out with
  | nil => cases out <;> simp
  | cons item items ih =>
    cases out with
    | nil => simp
    | cons pair out =>
      rw [List.forall₂_cons, ih, List.cons.injEq, List.forall_mem_cons, Prod.ext_iff]
      tauto

theorem nullable_model_iff {α : Type} {ofItems : Items → Option α} {v : PyValue} {x : Option α} :
    nullable (modelOf ofItems) v = some x ↔
      ∃ items : Option Items, v = orNone items .dict ∧
        nullable (modelOf ofItems) (orNone items .dict) = some x := by
  constructor
  · intro h
    cases v with
    | none => exact ⟨none, rfl, h⟩
    | dict items => exact ⟨some items, rfl, h⟩
    | _ => cases h
  · rintro ⟨items, rfl, h⟩
    exact h

theorem text_mem {α : Type} [Literal α] (a : α) :
    Literal.text a ∈ (Literal.all : List α).map Literal.text :=
  List.mem_map_of_mem (Literal.mem_all a)

theorem readsArtifact_of_fields {body : Items} {f : ArtifactFields} {a : StoredArtifact}
    (h : f.Read body) (hvalid : f.Valid py a) (hsame : f.Same a) : ReadsArtifact py body a := by
  have hlifecycle : body.get "lifecycle" = .none ∧ a.lifecycle = ⟨none, none⟩ ∨
      modelOf StorageLifecycle.ofItems (body.get "lifecycle") = some a.lifecycle := by
    have hread := hvalid.lifecycle
    obtain ⟨hnone, hempty⟩ | hdict := h.lifecycle
    · rw [hempty] at hread
      exact .inl ⟨hnone, (Option.some.inj hread).symm⟩
    · rw [hdict]
      exact .inr hread
  exact
    { artifactId := hsame.artifactId ▸ h.artifactId
      provider := hsame.provider ▸ h.provider
      mode := hvalid.mode ▸ h.mode.1
      uri := hsame.uri ▸ h.uri
      status := hvalid.status ▸ h.status.1
      sizeBytes := hsame.sizeBytes ▸ h.sizeBytes
      contentType := hsame.contentType ▸ h.contentType
      contentHash := hsame.contentHash ▸ h.contentHash
      contentEncoding := hvalid.contentEncoding ▸ h.contentEncoding.1
      identifiers := record?_str_iff.mp hvalid.identifiers ▸ h.identifiers.1
      lifecycle := hlifecycle
      replication := nullable_model_iff.mpr ⟨_, h.replication, hvalid.replication⟩
      verification := nullable_model_iff.mpr ⟨_, h.verification, hvalid.verification⟩
      retrieval := nullable_model_iff.mpr ⟨_, h.retrieval, hvalid.retrieval⟩
      providerDetails := hsame.providerDetails ▸ h.providerDetails
      metadata := (record?_scalar_iff.mp hvalid.metadata).1 ▸ h.metadata
      createdAt := hsame.createdAt ▸ h.createdAt
      updatedAt := hsame.updatedAt ▸ h.updatedAt }

theorem exists_lifecycle {v : PyValue} {lifecycle : StorageLifecycle}
    (h : v = .none ∧ lifecycle = ⟨none, none⟩ ∨
      modelOf StorageLifecycle.ofItems v = some lifecycle) :
    ∃ items, ReadsObject v items ∧ StorageLifecycle.ofItems items = some lifecycle := by
  obtain ⟨hnone, rfl⟩ | hmodel := h
  · exact ⟨[], .inl ⟨hnone, rfl⟩, rfl⟩
  · cases v with
    | dict items => exact ⟨items, .inr rfl, hmodel⟩
    | _ => cases hmodel

theorem exists_fields {body : Items} {a : StoredArtifact} (h : ReadsArtifact py body a) :
    ∃ f : ArtifactFields, f.Read body ∧ f.Valid py a ∧ f.Same a := by
  obtain ⟨replication, hreplication, hreplicationValid⟩ := nullable_model_iff.mp h.replication
  obtain ⟨verification, hverification, hverificationValid⟩ := nullable_model_iff.mp h.verification
  obtain ⟨retrieval, hretrieval, hretrievalValid⟩ := nullable_model_iff.mp h.retrieval
  obtain ⟨lifecycle, hlifecycle, hlifecycleValid⟩ := exists_lifecycle h.lifecycle
  refine ⟨⟨a.artifactId, a.provider, Literal.text a.mode, Literal.text a.status,
    Literal.text a.contentEncoding, a.uri, a.sizeBytes, a.contentType,
    a.identifiers.map fun item => (item.1, .str item.2), lifecycle, a.metadata, a.createdAt,
    a.updatedAt, a.contentHash, a.providerDetails, replication, verification, retrieval⟩,
    ?_, ?_, ⟨rfl, rfl, rfl, rfl, rfl, rfl, rfl, rfl, rfl⟩⟩
  · exact
      { artifactId := h.artifactId
        provider := h.provider
        mode := ⟨h.mode, text_mem a.mode⟩
        status := ⟨h.status, text_mem a.status⟩
        contentEncoding := ⟨h.contentEncoding, text_mem a.contentEncoding⟩
        uri := h.uri
        sizeBytes := h.sizeBytes
        contentType := h.contentType
        identifiers := ⟨h.identifiers, List.forall_mem_map.mpr fun _ _ => rfl⟩
        lifecycle := hlifecycle
        metadata := h.metadata
        createdAt := h.createdAt
        updatedAt := h.updatedAt
        contentHash := h.contentHash
        providerDetails := h.providerDetails
        replication := hreplication
        verification := hverification
        retrieval := hretrieval }
  · exact
      { mode := rfl
        status := rfl
        contentEncoding := rfl
        identifiers := record?_str_iff.mpr rfl
        lifecycle := hlifecycleValid
        replication := hreplicationValid
        verification := hverificationValid
        retrieval := hretrievalValid
        metadata := record?_scalar_iff.mpr ⟨rfl, h.metadata.2⟩ }

theorem mapStoredArtifact_ok_iff {raw : PyValue} {a : StoredArtifact} :
    mapStoredArtifact py raw = .ok a ↔
      ∃ body : Items, raw = .dict body ∧ ReadsArtifact py body a := by
  rw [mapStoredArtifact_fields_iff]
  simp only [ArtifactFields.ofItems_iff]
  constructor
  · rintro ⟨body, f, hraw, h, hvalid, hsame⟩
    exact ⟨body, hraw, readsArtifact_of_fields py h hvalid hsame⟩
  · rintro ⟨body, hraw, h⟩
    obtain ⟨f, hf⟩ := exists_fields py h
    exact ⟨body, f, hraw, hf⟩

def NullOr (p : PyValue → Prop) (v : PyValue) : Prop := v = .none ∨ p v

def IsText (v : PyValue) : Prop := ∃ s, v = .str s

def IsNonEmptyText (v : PyValue) : Prop := ∃ s, v = .str s ∧ s ≠ ""

def IsLiteral (α : Type) [Literal α] (v : PyValue) : Prop := ∃ a : α, v = .str (Literal.text a)

def IsObjectOf (p : PyValue → Prop) (v : PyValue) : Prop :=
  ∃ items : Items, v = .dict items ∧ ∀ item ∈ items, p item.2

structure ValidArtifact (body : Items) : Prop where
  artifactId : IsNonEmptyText (body.get "artifact_id")
  provider : IsNonEmptyText (body.get "provider")
  createdAt : IsNonEmptyText (body.get "created_at")
  updatedAt : IsNonEmptyText (body.get "updated_at")
  mode : IsLiteral StorageMode (body.get "mode")
  status : IsLiteral StorageArtifactStatus (body.get "status")
  contentEncoding : IsLiteral ContentEncoding (body.get "content_encoding")
  sizeBytes : NullOr (fun v => ∃ n, v = .int n ∧ 0 ≤ n) (body.get "size_bytes")
  uri : NullOr IsText (body.get "uri")
  contentType : NullOr IsText (body.get "content_type")
  contentHash : NullOr IsText (body.get "content_hash")
  identifiers : NullOr (IsObjectOf IsText) (body.get "identifiers")
  metadata : NullOr (IsObjectOf fun v => isScalar v = true) (body.get "metadata")
  providerDetails : NullOr (IsObjectOf fun _ => True) (body.get "provider_details")

structure ValidNested (body : Items) : Prop where
  lifecycle :
    NullOr (fun v => (modelOf StorageLifecycle.ofItems v).isSome = true) (body.get "lifecycle")
  replication :
    NullOr (fun v => (modelOf (ReplicationState.ofItems py) v).isSome = true)
      (body.get "replication")
  verification :
    NullOr (fun v => (modelOf VerificationState.ofItems v).isSome = true)
      (body.get "verification")
  retrieval :
    NullOr (fun v => (modelOf RetrievalState.ofItems v).isSome = true) (body.get "retrieval")

variable {py}

theorem nullOr_text_iff {v : PyValue} :
    NullOr IsText v ↔ ∃ x : Option String, v = orNone x .str := by
  constructor
  · rintro (rfl | ⟨s, rfl⟩)
    · exact ⟨none, rfl⟩
    · exact ⟨some s, rfl⟩
  · rintro ⟨x, rfl⟩
    cases x with
    | none => exact .inl rfl
    | some s => exact .inr ⟨s, rfl⟩

theorem nullOr_size_iff {v : PyValue} : NullOr (fun v => ∃ n, v = .int n ∧ 0 ≤ n) v ↔
    ∃ x : Option ℤ, v = orNone x .int ∧ ∀ n ∈ x, 0 ≤ n := by
  constructor
  · rintro (rfl | ⟨n, rfl, hn⟩)
    · exact ⟨none, rfl, fun n hn => by cases hn⟩
    · exact ⟨some n, rfl, fun m hm => Option.some.inj hm ▸ hn⟩
  · rintro ⟨x, rfl, hx⟩
    cases x with
    | none => exact .inl rfl
    | some n => exact .inr ⟨n, rfl, hx n rfl⟩

theorem nullOr_object_iff {v : PyValue} {p : PyValue → Prop} : NullOr (IsObjectOf p) v ↔
    ∃ items, ReadsObject v items ∧ ∀ item ∈ items, p item.2 := by
  constructor
  · rintro (rfl | ⟨items, rfl, hp⟩)
    · exact ⟨[], .inl ⟨rfl, rfl⟩, fun item hitem => absurd hitem List.not_mem_nil⟩
    · exact ⟨items, .inr rfl, hp⟩
  · rintro ⟨items, ⟨rfl, -⟩ | rfl, hp⟩
    · exact .inl rfl
    · exact .inr ⟨items, rfl, hp⟩

theorem nullOr_details_iff {v : PyValue} :
    NullOr (IsObjectOf fun _ => True) v ↔ ∃ x : Option Items, v = orNone x .dict := by
  constructor
  · rintro (rfl | ⟨items, rfl, -⟩)
    · exact ⟨none, rfl⟩
    · exact ⟨some items, rfl⟩
  · rintro ⟨x, rfl⟩
    cases x with
    | none => exact .inl rfl
    | some items => exact .inr ⟨items, rfl, fun _ _ => trivial⟩

theorem exists_nullable {α : Type} {read : PyValue → Option α} {v : PyValue}
    (h : NullOr (fun v => (read v).isSome = true) v) : ∃ x, nullable read v = some x := by
  obtain rfl | hsome := h
  · exact ⟨none, rfl⟩
  · obtain ⟨a, ha⟩ := Option.isSome_iff_exists.mp hsome
    cases v with
    | none => exact ⟨none, rfl⟩
    | _ => exact ⟨some a, nullable_eq PyValue.noConfusion ha⟩

theorem exists_pairs {items : Items} (h : ∀ item ∈ items, IsText item.2) :
    ∃ pairs : List (String × String), items = pairs.map fun pair => (pair.1, .str pair.2) := by
  induction items with
  | nil => exact ⟨[], rfl⟩
  | cons item items ih =>
    obtain ⟨⟨s, hs⟩, hrest⟩ := List.forall_mem_cons.mp h
    obtain ⟨pairs, rfl⟩ := ih hrest
    exact ⟨(item.1, s) :: pairs, by rw [List.map_cons, ← hs]⟩

theorem ReadsArtifact.valid {body : Items} {a : StoredArtifact} (h : ReadsArtifact py body a) :
    ValidArtifact body := by
  have hidentifiers : NullOr (IsObjectOf IsText) (body.get "identifiers") :=
    nullOr_object_iff.mpr ⟨_, h.identifiers, List.forall_mem_map.mpr fun item _ => ⟨item.2, rfl⟩⟩
  exact
    { artifactId := ⟨_, h.artifactId⟩
      provider := ⟨_, h.provider⟩
      createdAt := ⟨_, h.createdAt⟩
      updatedAt := ⟨_, h.updatedAt⟩
      mode := ⟨_, h.mode⟩
      status := ⟨_, h.status⟩
      contentEncoding := ⟨_, h.contentEncoding⟩
      sizeBytes := nullOr_size_iff.mpr ⟨_, h.sizeBytes⟩
      uri := nullOr_text_iff.mpr ⟨_, h.uri⟩
      contentType := nullOr_text_iff.mpr ⟨_, h.contentType⟩
      contentHash := nullOr_text_iff.mpr ⟨_, h.contentHash⟩
      identifiers := hidentifiers
      metadata := nullOr_object_iff.mpr ⟨_, h.metadata⟩
      providerDetails := nullOr_details_iff.mpr ⟨_, h.providerDetails⟩ }

theorem ValidArtifact.exists_readsArtifact {body : Items} (h : ValidArtifact body)
    (hnested : ValidNested py body) : ∃ a, ReadsArtifact py body a := by
  obtain ⟨artifactId, hartifactId⟩ := h.artifactId
  obtain ⟨provider, hprovider⟩ := h.provider
  obtain ⟨createdAt, hcreatedAt⟩ := h.createdAt
  obtain ⟨updatedAt, hupdatedAt⟩ := h.updatedAt
  obtain ⟨mode, hmode⟩ := h.mode
  obtain ⟨status, hstatus⟩ := h.status
  obtain ⟨contentEncoding, hcontentEncoding⟩ := h.contentEncoding
  obtain ⟨sizeBytes, hsizeBytes⟩ := nullOr_size_iff.mp h.sizeBytes
  obtain ⟨uri, huri⟩ := nullOr_text_iff.mp h.uri
  obtain ⟨contentType, hcontentType⟩ := nullOr_text_iff.mp h.contentType
  obtain ⟨contentHash, hcontentHash⟩ := nullOr_text_iff.mp h.contentHash
  obtain ⟨items, hitems, htexts⟩ := nullOr_object_iff.mp h.identifiers
  obtain ⟨identifiers, rfl⟩ := exists_pairs htexts
  obtain ⟨metadata, hmetadata⟩ := nullOr_object_iff.mp h.metadata
  obtain ⟨providerDetails, hproviderDetails⟩ := nullOr_details_iff.mp h.providerDetails
  obtain ⟨replication, hreplication⟩ := exists_nullable hnested.replication
  obtain ⟨verification, hverification⟩ := exists_nullable hnested.verification
  obtain ⟨retrieval, hretrieval⟩ := exists_nullable hnested.retrieval
  obtain ⟨lifecycle, hlifecycle⟩ : ∃ lifecycle : StorageLifecycle,
      body.get "lifecycle" = .none ∧ lifecycle = ⟨none, none⟩ ∨
        modelOf StorageLifecycle.ofItems (body.get "lifecycle") = some lifecycle := by
    obtain hnone | hsome := hnested.lifecycle
    · exact ⟨_, .inl ⟨hnone, rfl⟩⟩
    · obtain ⟨lifecycle, hmodel⟩ := Option.isSome_iff_exists.mp hsome
      exact ⟨lifecycle, .inr hmodel⟩
  exact ⟨⟨artifactId, provider, mode, uri, status, sizeBytes, contentType, contentHash,
    contentEncoding, identifiers, lifecycle, replication, verification, retrieval,
    providerDetails, metadata, createdAt, updatedAt⟩,
    { artifactId := hartifactId
      provider := hprovider
      mode := hmode
      uri := huri
      status := hstatus
      sizeBytes := hsizeBytes
      contentType := hcontentType
      contentHash := hcontentHash
      contentEncoding := hcontentEncoding
      identifiers := hitems
      lifecycle := hlifecycle
      replication := hreplication
      verification := hverification
      retrieval := hretrieval
      providerDetails := hproviderDetails
      metadata := hmetadata
      createdAt := hcreatedAt
      updatedAt := hupdatedAt }⟩

/-- What is accepted is exactly the valid artifacts, every field is the one of the body, and
everything else ends in a storage error. -/
theorem mapStoredArtifact_exact (py : ResponsePydantic) (raw : PyValue)
    (hnested : ∀ body : Items, raw = .dict body → ValidNested py body) :
    ((∃ a, mapStoredArtifact py raw = .ok a) ↔
        ∃ body : Items, raw = .dict body ∧ ValidArtifact body) ∧
      (∀ a, mapStoredArtifact py raw = .ok a →
        ∃ body : Items, raw = .dict body ∧ ReadsArtifact py body a) ∧
      ∀ e, mapStoredArtifact py raw = .error e → ∃ error, e = .storage error := by
  refine ⟨?_, fun a ha => (mapStoredArtifact_ok_iff py).mp ha, mapStoredArtifact_contained py raw⟩
  simp only [mapStoredArtifact_ok_iff]
  constructor
  · rintro ⟨a, body, hraw, hreads⟩
    exact ⟨body, hraw, hreads.valid⟩
  · rintro ⟨body, hraw, hvalid⟩
    obtain ⟨a, hreads⟩ := hvalid.exists_readsArtifact (hnested body hraw)
    exact ⟨a, body, hraw, hreads⟩

/-- A pointer with a boolean and a number in its metadata, and with a state that it names in
snake case. -/
def pointerBody : Items :=
  [("artifact_id", .str "a1"), ("provider", .str "s3"), ("mode", .str "pointer"),
    ("uri", .str "s3://b/k"), ("status", .str "stored"), ("size_bytes", .int 0),
    ("content_type", .none), ("content_encoding", .str "identity"),
    ("identifiers", .dict [("cid", .str "b1")]),
    ("metadata", .dict [("pinned", .bool true), ("weight", .int 1)]),
    ("replication", .dict [("desired_copies", .int 2)]), ("created_at", .str "t1"),
    ("updated_at", .str "t2")]

theorem mapStoredArtifact_exact_pointer :
    ∃ a, mapStoredArtifact .reference (.dict pointerBody) = .ok a ∧
      ReadsArtifact .reference pointerBody a := by
  have hnested : ∀ body : Items, PyValue.dict pointerBody = .dict body →
      ValidNested .reference body := by
    rintro body ⟨⟩
    exact ⟨.inl rfl, .inr rfl, .inl rfl, .inl rfl⟩
  have hvalid : ValidArtifact pointerBody :=
    { artifactId := ⟨"a1", rfl, by decide⟩
      provider := ⟨"s3", rfl, by decide⟩
      createdAt := ⟨"t1", rfl, by decide⟩
      updatedAt := ⟨"t2", rfl, by decide⟩
      mode := ⟨.pointer, rfl⟩
      status := ⟨.stored, rfl⟩
      contentEncoding := ⟨.identity, rfl⟩
      sizeBytes := .inr ⟨0, rfl, le_rfl⟩
      uri := .inr ⟨"s3://b/k", rfl⟩
      contentType := .inl rfl
      contentHash := .inl rfl
      identifiers := .inr ⟨_, rfl, List.forall_mem_singleton.mpr ⟨"b1", rfl⟩⟩
      metadata :=
        .inr ⟨_, rfl, List.forall_mem_cons.mpr ⟨rfl, List.forall_mem_singleton.mpr rfl⟩⟩
      providerDetails := .inl rfl }
  obtain ⟨haccepts, hreads, -⟩ := mapStoredArtifact_exact .reference (.dict pointerBody) hnested
  obtain ⟨a, ha⟩ := haccepts.mpr ⟨pointerBody, rfl, hvalid⟩
  obtain ⟨body, hbody, h⟩ := hreads a ha
  cases hbody
  exact ⟨a, ha, h⟩

end

end AtomicMemory.StorageClient
