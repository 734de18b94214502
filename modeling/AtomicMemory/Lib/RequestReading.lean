import AtomicMemory.Lib.DotSegments
import AtomicMemory.Lib.JsonText

-- The texts that whoever receives a request reads in its target: the segments of the path that
-- was sent, behind the path of the service, and the fields of the query.

namespace PercentEncoding

def text? (bytes : List UInt8) : Option String :=
  (ByteArray.utf8Decode? bytes.toByteArray).map fun chars => String.ofList chars.toList

theorem text?_utf8 (s : List Char) : text? (utf8 s) = some (String.ofList s) := by
  have hdecode : (utf8 s).toByteArray.utf8Decode? = some s.toArray := by
    exact List.utf8Decode?_utf8Encode
  rw [text?, hdecode]
  rfl

theorem mapM_map_some {α β γ : Type} {f : β → Option γ} {g : α → β} {k : α → γ} {xs : List α}
    (h : ∀ x ∈ xs, f (g x) = some (k x)) : (xs.map g).mapM f = some (xs.map k) := by
  induction xs with
  | nil => rfl
  | cons x xs ih =>
    rw [List.map_cons, List.mapM_cons, h x List.mem_cons_self,
      ih fun y hy => h y (List.mem_cons_of_mem x hy)]
    rfl

def decimal? (s : String) : Option ℤ :=
  let n := JsonText.ofIntText s.toList
  if toString n = s then some n else none

theorem toList_toString_nat (n : ℕ) : (toString n).toList = JsonText.natText n := by
  show (Nat.repr n).toList = _
  rw [Nat.toList_repr]
  rfl

theorem toList_toString (n : ℤ) : (toString n).toList = JsonText.intText n := by
  cases n with
  | ofNat n => exact toList_toString_nat n
  | negSucc n =>
    show ("-" ++ Nat.repr (n + 1)).toList = _
    rw [String.toList_append, Nat.toList_repr, JsonText.intText, if_pos (Int.negSucc_lt_zero n)]
    rfl

theorem decimal?_toString (n : ℤ) : decimal? (toString n) = some n := by
  have hvalue : JsonText.ofIntText (toString n).toList = n := by
    rw [toList_toString, JsonText.ofIntText_intText]
  simp only [decimal?, hvalue, if_true]

def Piece.text : Piece → String
  | literal s => String.ofList s
  | argument text => String.ofList text

def Piece.Readable : Piece → Prop
  | literal s => hasEscape s = false
  | argument _ => True

instance : (piece : Piece) → Decidable piece.Readable
  | .literal s => inferInstanceAs (Decidable (hasEscape s = false))
  | .argument _ => isTrue trivial

theorem Piece.text?_segment {piece : Piece} (h : piece.Readable) :
    text? (unquote piece.segment) = some piece.text := by
  cases piece with
  | literal s => exact (congrArg text? (unquote_eq_utf8 h)).trans (text?_utf8 s)
  | argument s => exact (congrArg text? (unquote_quote s)).trans (text?_utf8 s)

/-- The texts of the segments that are sent after those that `root` leads to. -/
def readPath (root target : List Char) : Option (List String) :=
  let above := resolved (segments root)
  let sent := sentSegments target
  if above.isPrefixOf sent then (sent.drop above.length).mapM fun s => text? (unquote s) else none

theorem readPath_eq {root target : List Char} {pieces : List Piece}
    (hreaches : Reaches root target (pieces.map Piece.segment))
    (hreadable : ∀ piece ∈ pieces, piece.Readable) :
    readPath root target = some (pieces.map Piece.text) := by
  unfold readPath
  simp only [hreaches.2]
  rw [if_pos (by simp), List.drop_left]
  exact mapM_map_some fun piece hpiece => Piece.text?_segment (hreadable piece hpiece)

def readFields (target : List Char) : Option (List (String × String)) :=
  (formQuery target).mapM fun field => do
    let name ← text? field.1
    let value ← text? field.2
    some (name, value)

def queryOf (pairs : List (String × String)) : List (List UInt8 × List UInt8) :=
  pairs.map fun pair => (utf8 pair.1.toList, utf8 pair.2.toList)

theorem readFields_eq {target : List Char} {pairs : List (String × String)}
    (h : formQuery target = queryOf pairs) : readFields target = some pairs := by
  have hread : readFields target = some (pairs.map id) := by
    rw [readFields, h]
    apply mapM_map_some
    intro pair _
    rw [text?_utf8, text?_utf8, String.ofList_toList, String.ofList_toList]
    rfl
  rwa [List.map_id] at hread

def texts (pairs : List (List Char × List Char)) : List (String × String) :=
  pairs.map fun pair => (String.ofList pair.1, String.ofList pair.2)

theorem queryOf_texts (pairs : List (List Char × List Char)) :
    queryOf (texts pairs) = pairs.map fun pair => (utf8 pair.1, utf8 pair.2) := by
  rw [queryOf, texts, List.map_map]
  exact List.map_congr_left fun pair _ => by
    rw [Function.comp_apply, String.toList_ofList, String.toList_ofList]

def IsQuery (tail : List Char) (pairs : List (String × String)) : Prop :=
  tail = [] ∧ pairs = [] ∨
    ∃ query, tail = '?' :: query ∧ '#' ∉ query ∧ formDecode query = queryOf pairs

theorem isQuery_nil : IsQuery [] [] := .inl ⟨rfl, rfl⟩

theorem isQuery_urlencode (pairs : List (List Char × List Char)) :
    IsQuery ('?' :: urlencode pairs) (texts pairs) :=
  .inr ⟨_, rfl, hash_not_mem_urlencode _, by rw [formDecode_urlencode, queryOf_texts]⟩

theorem isQuery_raw {name value : String} (heq : '=' ∉ name.toList) (hamp : '&' ∉ name.toList)
    (hhash : '#' ∉ name.toList) (hname : formText name.toList = utf8 name.toList)
    (hvalue : PlainFormValue value.toList) :
    IsQuery ('?' :: (name.toList ++ '=' :: value.toList)) [(name, value)] := by
  obtain ⟨hvhash, hvamp, hplain⟩ := hvalue
  refine .inr ⟨_, rfl, ?_, ?_⟩
  · simp only [List.mem_append, List.mem_cons, not_or]
    exact ⟨hhash, by decide, hvhash⟩
  · have hpiece : '&' ∉ name.toList ++ '=' :: value.toList := by
      simp only [List.mem_append, List.mem_cons, not_or]
      exact ⟨hamp, by decide, hvamp⟩
    rw [formDecode_single (by simp) hpiece, formPair_append heq, hname,
      (formText_eq_utf8_iff _).mpr hplain]
    rfl

section

variable {root tail : List Char} {pieces : List Piece} {pairs : List (String × String)}
  (hroot : Rooted root) (hrootText : PathText root) (hne : pieces ≠ [])
  (hplain : ∀ piece ∈ pieces, piece.Plain) (htail : IsQuery tail pairs)

include hrootText hplain htail

theorem readFields_target :
    readFields (root ++ absolutePath (pieces.map Piece.segment) ++ tail) = some pairs := by
  have hpath : PathText (root ++ absolutePath (pieces.map Piece.segment)) :=
    pathText_append.mpr ⟨hrootText, pathText_pieces hplain⟩
  apply readFields_eq
  obtain ⟨rfl, rfl⟩ | ⟨query, rfl, hhash, hform⟩ := htail
  · rw [List.append_nil]
    exact formQuery_nil hpath
  · rw [formQuery_eq hpath hhash, hform]

include hroot hne

theorem readPath_target (hreadable : ∀ piece ∈ pieces, piece.Readable)
    (hdots : ∀ text, .argument text ∈ pieces → ¬IsDots text) :
    readPath root (root ++ absolutePath (pieces.map Piece.segment) ++ tail) =
      some (pieces.map Piece.text) := by
  have hquery : tail = [] ∨ ∃ query, tail = '?' :: query := by
    obtain ⟨rfl, -⟩ | ⟨query, rfl, -⟩ := htail
    · exact .inl rfl
    · exact .inr ⟨query, rfl⟩
  exact readPath_eq ((reaches_iff hplain hroot hne hquery _).mpr ⟨rfl, hrootText, hdots⟩) hreadable

end

end PercentEncoding
