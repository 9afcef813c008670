import Dvt.Library.Decimals
import Dvt.Library.Splitting

/-! The string forms of the keys of the cache index. -/

namespace Dvt.Caching

open Library List

abbrev Text := List Char

inductive KeyClass
  | metaKey | ddfMetaKey | pdfKey
  deriving DecidableEq

/-- `camel_to_snake` of the name of the class. -/
def KeyClass.name : KeyClass → Text
  | metaKey => "meta_key".toList
  | ddfMetaKey => "ddf_meta_key".toList
  | pdfKey => "pdf_key".toList

inductive IndexKey
  | metaKey (projectId nodeId metaKeyId : Option Text)
  | ddfMetaKey (projectId nodeId outputName : Option Text)
  | pdfKey (projectId nodeId outputName : Option Text) (partNo : Option ℤ)
  deriving DecidableEq

inductive InvalidIndexKeyError
  | required (field : String) | gapped (field : String) | noFields
  | keyName (keyName : Text) | tooManySegments (count : ℕ) | cannotParse (segment : Text)
  | emptySeparator
  deriving DecidableEq

namespace IndexKey

def cls : IndexKey → KeyClass
  | metaKey .. => .metaKey
  | ddfMetaKey .. => .ddfMetaKey
  | pdfKey .. => .pdfKey

def fields : IndexKey → List (String × Option Text)
  | metaKey projectId nodeId metaKeyId =>
    [("project_id", projectId), ("node_id", nodeId), ("meta_key_id", metaKeyId)]
  | ddfMetaKey projectId nodeId outputName =>
    [("project_id", projectId), ("node_id", nodeId), ("output_name", outputName)]
  | pdfKey projectId nodeId outputName partNo =>
    [("project_id", projectId), ("node_id", nodeId), ("output_name", outputName),
      ("part_no", partNo.map str)]

def toSegments (ensureFull : Bool) :
    List (String × Option Text) → Bool → Except InvalidIndexKeyError (List Text)
  | [], _ => .ok []
  | (name, none) :: rest, _ =>
    if ensureFull then .error (.required name) else toSegments ensureFull rest true
  | (name, some value) :: rest, seenNone =>
    if seenNone then .error (.gapped name)
    else (toSegments ensureFull rest seenNone).map (value :: ·)

def toStr (key : IndexKey) (sep : Text) (ensureFull : Bool) : Except InvalidIndexKeyError Text :=
  match toSegments ensureFull key.fields false with
  | .error error => .error error
  | .ok segments =>
    if segments = [] then .error .noFields else .ok (sep.intercalate (key.cls.name :: segments))

end IndexKey

def KeyClass.fieldCount : KeyClass → ℕ
  | pdfKey => 4
  | _ => 3

/-- The segments are the first fields of the key; the others have no value. -/
def KeyClass.key (segments : List Text) : KeyClass → Except InvalidIndexKeyError IndexKey
  | metaKey => .ok (.metaKey segments[0]? segments[1]? segments[2]?)
  | ddfMetaKey => .ok (.ddfMetaKey segments[0]? segments[1]? segments[2]?)
  | pdfKey => match segments[3]? with
    | none => .ok (.pdfKey segments[0]? segments[1]? segments[2]? none)
    | some segment => match int segment with
      | none => .error (.cannotParse segment)
      | some partNo => .ok (.pdfKey segments[0]? segments[1]? segments[2]? (some partNo))

def indexKeyFromStr (keyCls : KeyClass) (keyStr sep : Text) : Except InvalidIndexKeyError IndexKey :=
  if sep = [] then .error .emptySeparator
  else match pieces sep 0 keyStr with
    | [] => .error (.keyName [])
    | keyName :: segments =>
      if keyCls.name ≠ keyName then .error (.keyName keyName)
      else if keyCls.fieldCount < segments.length then .error (.tooManySegments segments.length)
      else keyCls.key segments

namespace IndexKey

inductive Full : IndexKey → Prop
  | metaKey (projectId nodeId metaKeyId : Text) :
    Full (.metaKey (some projectId) (some nodeId) (some metaKeyId))
  | ddfMetaKey (projectId nodeId outputName : Text) :
    Full (.ddfMetaKey (some projectId) (some nodeId) (some outputName))
  | pdfKey (projectId nodeId outputName : Text) (partNo : ℤ) :
    Full (.pdfKey (some projectId) (some nodeId) (some outputName) (some partNo))

def segments (key : IndexKey) : List Text := key.cls.name :: key.fields.filterMap (·.2)

variable {key other : IndexKey} {sep keyStr : Text} {ensureFull : Bool}

lemma toStr_of_full (h : key.Full) :
    key.toStr sep ensureFull = .ok (sep.intercalate key.segments) := by
  cases h <;> rfl

lemma key_of_full (h : key.Full) : key.cls.key key.segments.tail = .ok key ∧
      key.segments.tail.length = key.cls.fieldCount := by
  cases h with
  | pdfKey => simp [segments, fields, cls, KeyClass.key, KeyClass.fieldCount, int_str]
  | _ => exact ⟨rfl, rfl⟩

lemma isPrefix_of_key {texts : List Text} (h : key.Full) (hkey : key.cls.key texts = .ok key) :
    key.segments.dropLast <+: key.cls.name :: texts := by
  obtain _ | ⟨projectId, _ | ⟨nodeId, _ | ⟨third, rest⟩⟩⟩ := texts <;> cases h <;>
    simp_all [segments, fields, cls, KeyClass.key]
  grind

lemma fromStr_eq_ok {keyCls : KeyClass} :
    indexKeyFromStr keyCls keyStr sep = .ok key ↔ sep ≠ [] ∧ ∃ segments,
      pieces sep 0 keyStr = keyCls.name :: segments ∧ segments.length ≤ keyCls.fieldCount ∧
        keyCls.key segments = .ok key := by
  rw [indexKeyFromStr]
  split_ifs with hsep
  · simp [hsep]
  · split
    · simp [*]
    · next keyName segments hp =>
      split_ifs <;> grind

def Separated (sep : Text) (key : IndexKey) : Prop :=
  ∀ segment ∈ key.segments.dropLast, Clear sep segment

structure Admissible (sep : Text) (key : IndexKey) : Prop where
  full : key.Full
  free : ∀ segment ∈ key.segments.tail, ¬ sep <:+: segment

lemma exists_concat (h : key.Full) : ∃ last,
    key.segments = key.segments.dropLast ++ [last] ∧ last ∈ key.segments.tail := by
  cases h <;> simp [segments, fields]

lemma Admissible.sep_ne_nil (h : key.Admissible sep) : sep ≠ [] := by
  rintro rfl
  obtain ⟨last, _, hl⟩ := exists_concat h.full
  exact h.free last hl nil_infix

lemma Admissible.pieces_eq (h : key.Admissible sep) (hs : key.Separated sep) :
    pieces sep 0 (sep.intercalate key.segments) = key.segments := by
  obtain ⟨last, hc, hl⟩ := exists_concat h.full
  rw [hc]
  exact pieces_intercalate hs h.sep_ne_nil (h.free last hl)

lemma separated_of_fromStr (h : key.Full)
    (hkey : indexKeyFromStr key.cls (sep.intercalate key.segments) sep = .ok key) :
    key.Separated sep := by
  obtain ⟨hsep, texts, hpie, _, hb⟩ := fromStr_eq_ok.mp hkey
  obtain ⟨last, hc, _⟩ := exists_concat h
  have hp := isPrefix_of_key h hb
  rw [← hpie, hc, dropLast_concat] at hp
  exact clear_of_isPrefix hsep hp

lemma name_injective : Function.Injective KeyClass.name := by
  intro a b
  cases a <;> cases b <;> decide

theorem roundTrip_iff (h : key.Admissible sep) : ∃ keyStr, key.toStr sep ensureFull = .ok keyStr ∧
    (indexKeyFromStr key.cls keyStr sep = .ok key ↔ key.Separated sep) ∧
    ∀ other : IndexKey, other.Admissible sep → other.Separated sep →
      key.Separated sep → other.toStr sep ensureFull = .ok keyStr → other = key := by
  obtain ⟨hkey, hlength⟩ := key_of_full h.full
  refine ⟨_, toStr_of_full h.full, ⟨separated_of_fromStr h.full, fun hseparated => ?_⟩, ?_⟩
  · exact fromStr_eq_ok.mpr ⟨h.sep_ne_nil, _, h.pieces_eq hseparated, hlength.le, hkey⟩
  · intro other hother hotherSeparated hseparated hstr
    have hsegments : other.segments = key.segments := by
      rw [← h.pieces_eq hseparated, ← hother.pieces_eq hotherSeparated,
        Except.ok.inj ((toStr_of_full hother.full).symm.trans hstr)]
    have hcls : other.cls = key.cls := name_injective (cons.inj hsegments).1
    rw [← hsegments, ← hcls, (key_of_full hother.full).1] at hkey
    exact Except.ok.inj hkey

def outputKey (projectId nodeId : String) : IndexKey :=
  .ddfMetaKey (some projectId.toList) (some nodeId.toList) (some "output".toList)

theorem roundTrip_iff_sample : ∃ keyStr,
    (outputKey "project" "load").toStr ":::".toList true = .ok keyStr ∧
      indexKeyFromStr .ddfMetaKey keyStr ":::".toList = .ok (outputKey "project" "load") := by
  have h : (outputKey "project" "load").Admissible ":::".toList :=
    ⟨.ddfMetaKey .., by decide +kernel⟩
  have hseparated : (outputKey "project" "load").Separated ":::".toList := by
    rw [Separated]
    decide +kernel
  obtain ⟨keyStr, hstr, hiff, _⟩ := roundTrip_iff h
  exact ⟨keyStr, hstr, hiff.mpr hseparated⟩

theorem shared_string_colon :
    (∀ key ∈ [outputKey "a:" "b", outputKey "a" ":b"], key.Admissible ":::".toList ∧
      key.toStr ":::".toList true = .ok "ddf_meta_key:::a::::b:::output".toList) ∧
    indexKeyFromStr .ddfMetaKey "ddf_meta_key:::a::::b:::output".toList ":::".toList =
      .ok (outputKey "a" ":b") := by
  refine ⟨forall_mem_cons.mpr ⟨?_, forall_mem_singleton.mpr ?_⟩, by decide +kernel⟩ <;>
    exact ⟨⟨.ddfMetaKey .., by decide +kernel⟩, by decide +kernel⟩

end IndexKey

end Dvt.Caching
