import CachedParameters.Batch
import CachedParameters.Error
import CachedParameters.Proofs.Base64
import CachedParameters.Proofs.Dict
import CachedParameters.Proofs.Document.RoundTrip
import CachedParameters.Proofs.Text.Malformed
import CachedParameters.Value

/-!
# What transforms make of values

A store that holds bytes takes them for a text where they are one (`from_bytes`). Nothing is lost by
that, and nothing but malformed bytes stays bytes. Whether a value is held as a text or as its bytes
is no matter to the transforms that decode, since they read the bytes of a value; only a plain value
shows it.

Bytes are rendered as their base64 text when a result becomes a document (`to_json`). The `binary`
transform decodes just the standard encodings, so what it accepts are the rendered texts, as texts
or as bytes, and nothing else.

The `json` transform undoes the rendering of documents, by `Document.read_render`. How much white
space was put around a document does not matter. The reader counts the lists and objects that are
open, so the boundary is exact: the deepest document that is read nests 127 of them, and one more is
refused.

## Main results

- `RawValue.prefersText`: what bytes are taken for, and what transforms make of it.
- `Transform.apply_binary_iff_encodes`: a value is decoded to the bytes that it is the standard
  encoding of, which is the text that they are rendered as; any other value is refused.
- `Transform.apply_json_render`: what was rendered is decoded, up to the depth allowed.
-/

namespace CachedParameters

/-! ### Bytes taken for values -/

namespace RawValue

/-- Bytes stay bytes exactly when they are not well-formed, and then they stay as they are. -/
theorem ofBytes_eq_bytes_iff {content other : List UInt8} :
    ofBytes content = .bytes other ↔ other = content ∧ ¬ Text.WellFormed content := by
  rw [← Text.decode?_eq_none_iff, ofBytes]
  cases Text.decode? content with
  | some text => simp
  | none => simp [eq_comm]

end RawValue

namespace Transform

/-- A transform that decodes reads the bytes of a value. -/
theorem apply_congr {transform : Transform} {name : String} {raw other : RawValue}
    (hdecodes : transform.resolve name = .json ∨ transform.resolve name = .binary)
    (hbytes : raw.toBytes = other.toBytes) :
    transform.apply name raw = transform.apply name other := by
  rcases hdecodes with hresolve | hresolve <;> simp only [apply, hresolve, hbytes]

/-- A text and its bytes decode alike exactly where the transform decodes. -/
theorem apply_text_eq_iff (transform : Transform) (name text : String) :
    transform.apply name (.text text) = transform.apply name (.bytes (Text.encode text)) ↔
      transform.resolve name = .json ∨ transform.resolve name = .binary := by
  refine ⟨fun h => ?_, fun hdecodes => apply_congr hdecodes rfl⟩
  cases hresolve : transform.resolve name with
  | json => exact .inl rfl
  | binary => exact .inr rfl
  | plain | auto => simp [apply, hresolve] at h

end Transform

/-- **Bytes are taken for a text exactly when they are one, and nothing is lost.** Those that stay
bytes are malformed behind the last whole character: a byte there is out of place, a sequence breaks
off, it is overlong, or its number is half of a surrogate pair or beyond the last code point. The
transforms that decode make the same of a value as of the bytes it was taken from; the plain one
does so for those that stay bytes. -/
theorem RawValue.prefersText (content : List UInt8) :
    (ofBytes content).toBytes = content ∧
    (∀ text, ofBytes content = .text text ↔ content = Text.bytes text.toList) ∧
    (∀ other, ofBytes content = .bytes other ↔ other = content ∧ ¬ Text.WellFormed content) ∧
    (¬ Text.WellFormed content ↔
      ∃ front back, content = front ++ back ∧ Text.WellFormed front ∧ Text.Malformed back) ∧
    ∀ (transform : Transform) (name : String),
      transform.apply name (ofBytes content) = transform.apply name (.bytes content) ↔
        transform.resolve name = .json ∨ transform.resolve name = .binary ∨
          ¬ Text.WellFormed content := by
  refine ⟨bytes_ofBytes content, fun text => ?_, fun other => ofBytes_eq_bytes_iff,
    Text.not_wellFormed_iff, fun transform name => ?_⟩
  · rw [ofBytes_eq_text_iff, Text.encode_eq]
  rw [← or_assoc]
  by_cases hwell : Text.WellFormed content
  · obtain ⟨characters, hcharacters⟩ := Text.wellFormed_iff.mp hwell
    rw [← Text.encode_ofList] at hcharacters
    rw [ofBytes_eq_text_iff.mpr hcharacters, or_iff_left (not_not.mpr hwell), hcharacters]
    exact Transform.apply_text_eq_iff transform name _
  · rw [ofBytes_eq_bytes_iff.mpr ⟨rfl, hwell⟩]
    exact iff_of_true rfl (.inr hwell)

example : RawValue.ofBytes [0x61, 0xED, 0xA0, 0x80] = .bytes [0x61, 0xED, 0xA0, 0x80] := by decide

/-! ### The binary transform -/

namespace Document

/-- The member of a name, if the document is an object that has it. -/
def member? : Document → String → Option Document
  | .object members, name => Entries.get? name members
  | _, _ => none

/-- The members of an object are those of the dictionary that it is made of. -/
theorem member?_ofDict (members : Dict Document) (name : String) :
    (ofDict members).member? name = members.get? name := rfl

end Document

namespace BatchResult

/-- Every value of a result stands under its name in the document of the result, apart from the name
that is reserved for the failures. -/
theorem member?_toDocument (r : BatchResult) {name : String} (hname : name ≠ errorsKey) :
    r.toDocument.member? name = (r.values.get? name).map valueDocument := by
  rw [toDocument, Document.member?_ofDict]
  split
  · rw [Dict.get?_mapEntries]
  · rw [Dict.get?_insert, if_neg (Ne.symm hname), Dict.get?_mapEntries]

end BatchResult

namespace Transform

/-- The binary transform reads the bytes of a value. -/
theorem apply_binary (name : String) (raw : RawValue) :
    Transform.binary.apply name raw =
      match Base64.decode raw.toBytes with
      | .ok content => .ok (.bytes content)
      | .error reason => .error (.notBase64 name reason) := rfl

/-- **The binary transform decodes the standard encodings and nothing else.** A value is decoded to
the bytes that it is the encoding of, and the encoding of bytes is the text that every result
renders them as; a value that is no encoding is refused with a fault of the transform. -/
theorem apply_binary_iff_encodes (name : String) (raw : RawValue) :
    (∀ content, Transform.binary.apply name raw = .ok (.bytes content) ↔
      Base64.Encodes content raw.toBytes) ∧
    (∀ content, Base64.Encodes content raw.toBytes ↔
      ∃ text, raw.toBytes = Text.encode text ∧ ∀ (r : BatchResult) (other : String),
        other ≠ errorsKey → r.values.get? other = some (.bytes content) →
          r.toDocument.member? other = some (.text text)) ∧
    ((∀ content, ¬ Base64.Encodes content raw.toBytes) →
      ∃ e, Transform.binary.apply name raw = .error e ∧ e.kind = .transform ∧
        ∃ fault, e = .notBase64 name fault) := by
  have hdecodes : ∀ content, Base64.decode raw.toBytes = .ok content ↔
      Base64.Encodes content raw.toBytes :=
    fun content => Base64.decode_eq_ok_iff.trans Base64.encodes_iff.symm
  refine ⟨fun content => ?_, fun content => ?_, fun hnone => ?_⟩
  · rw [apply_binary, ← hdecodes]
    cases Base64.decode raw.toBytes with
    | ok decoded => simp
    | error fault => simp
  · rw [Base64.encodes_iff, ← Base64.encode_render]
    constructor
    · intro hraw
      refine ⟨Base64.render content, hraw, fun r other hother hvalue => ?_⟩
      rw [BatchResult.member?_toDocument r hother, hvalue]
      rfl
    · rintro ⟨text, hraw, hrendered⟩
      have hmember := hrendered (BatchResult.empty.addValue "" (.bytes content)) "" (by decide) rfl
      obtain rfl : Base64.render content = text := by
        rw [BatchResult.member?_toDocument _ (by decide)] at hmember
        exact Document.text.inj (Option.some.inj hmember)
      exact hraw
  · cases hdecode : Base64.decode raw.toBytes with
    | ok content => exact absurd ((hdecodes content).mp hdecode) (hnone content)
    | error fault =>
        refine ⟨.notBase64 name fault, ?_, rfl, fault, rfl⟩
        rw [apply_binary, hdecode]

example : Transform.binary.apply "/key" (.text "AQL/") = .ok (.bytes [1, 2, 0xFF]) := by rfl

end Transform

/-! ### The json transform -/

namespace Document

/-- There is nothing in the text but white space, as it may stand between the parts of a
document. -/
def IsSpacing (text : String) : Prop :=
  ∀ c ∈ text.toList, c = ' ' ∨ c = '\t' ∨ c = '\n' ∨ c = '\r'

instance (text : String) : Decidable (IsSpacing text) :=
  List.decidableBAll (fun c => c = ' ' ∨ c = '\t' ∨ c = '\n' ∨ c = '\r') text.toList

/-- White space is encoded as bytes of white space. -/
theorem IsSpacing.isSpace {text : String} (h : IsSpacing text) :
    ∀ byte ∈ Text.encode text, Cursor.isSpace byte = true := by
  intro byte hbyte
  rw [Text.encode_eq, Text.bytes, List.mem_flatMap] at hbyte
  obtain ⟨c, hc, hbyte⟩ := hbyte
  rcases h c hc with rfl | rfl | rfl | rfl <;>
    · rw [List.mem_singleton.mp hbyte]
      rfl

def nested : ℕ → Document
  | 0 => .null
  | n + 1 => .list [nested n]

theorem depth_nested (n : ℕ) : (nested n).depth = n := by
  induction n with
  | zero => rfl
  | succ n ih =>
      rw [nested, depth, depthElements, depthElements, ih]
      omega

theorem wellFormed_nested (n : ℕ) : (nested n).WellFormed := by
  induction n with
  | zero => exact trivial
  | succ n ih => exact ⟨ih, trivial⟩

theorem realFree_nested (n : ℕ) : (nested n).RealFree := by
  induction n with
  | zero => exact trivial
  | succ n ih => exact ⟨ih, trivial⟩

/-- One of every kind: the least and the greatest whole number, texts and names with characters that
are escaped and with some that are not ASCII, and lists and objects with nothing in them. -/
def assorted : Document :=
  .object [("", .null), ("a\t\"\\/\u0001", .text "say \"é\"\n\u001f😀"),
    ("b", .list [.integer (-0x8000000000000000), .integer 0xFFFFFFFFFFFFFFFF, .integer 0,
      .list [.list [], .object []], .bool true, .bool false]), ("é", .object [("😀", .text "")])]

end Document

namespace Transform

open Document

/-- The json transform reads the bytes of a value. -/
theorem apply_json (name : String) (raw : RawValue) :
    Transform.json.apply name raw =
      match Document.read raw.toBytes with
      | .ok content => .ok (.document content)
      | .error reason => .error (.notDocument name reason) := rfl

/-- **The json transform undoes rendering**, for a text and for its bytes, with any white space
around: a document whose lists and objects nest at most 127 deep comes back, and any other one is
refused as too deep. -/
theorem apply_json_render (name : String) {d : Document} (hd : d.WellFormed)
    (hreal : d.RealFree) {before after : String} (hbefore : IsSpacing before)
    (hafter : IsSpacing after) :
    ∀ raw ∈ [RawValue.text (before ++ d.render ++ after),
        RawValue.bytes (Text.encode (before ++ d.render ++ after))],
      (d.depth ≤ 127 → Transform.json.apply name raw = .ok (.document d)) ∧
      (127 < d.depth → ∃ e, Transform.json.apply name raw = .error e ∧ e.kind = .transform ∧
        ∃ place, e = .notDocument name ⟨.tooDeep, place⟩) := by
  intro raw hraw
  have hbytes : raw.toBytes =
      Text.encode before ++ (Text.encode d.render ++ Text.encode after) := by
    rw [← List.append_assoc, ← Text.encode_append, ← Text.encode_append]
    rcases List.mem_pair.mp hraw with rfl | rfl <;> rfl
  obtain ⟨hok, hdeep⟩ := read_render hd hreal hbefore.isSpace hafter.isSpace
  rw [apply_json, hbytes]
  constructor
  · intro hfits
    rw [hok hfits]
  · intro hexceeds
    obtain ⟨place, herror⟩ := hdeep hexceeds
    rw [herror]
    exact ⟨_, rfl, rfl, place, rfl⟩

/-- The boundary: a document of every kind and one that nests 127 deep are decoded, from a text and
from bytes, and one list more is too much. -/
theorem apply_json_render_assorted :
    Transform.json.apply "/a" (.text ("\n " ++ assorted.render ++ "\t\r")) =
        .ok (.document assorted) ∧
      Transform.json.apply "/a" (.bytes (Text.encode (" " ++ (nested 127).render ++ ""))) =
        .ok (.document (nested 127)) ∧
      ∃ e, Transform.json.apply "/a" (.bytes (Text.encode (" " ++ (nested 128).render ++ ""))) =
        .error e ∧ e.kind = .transform := by
  have hwell : assorted.WellFormed := by
    simp only [assorted, WellFormed, WellFormedMembers, WellFormedElements, Entries.Ascending]
    decide
  have hreal : assorted.RealFree := by
    simp only [assorted, RealFree, RealFreeMembers, RealFreeElements]
    decide
  have hspace : IsSpacing " " := by decide
  have hnone : IsSpacing "" := by decide
  have hnested := fun n => apply_json_render "/a" (wellFormed_nested n) (realFree_nested n)
    hspace hnone _ (List.mem_pair.mpr (.inr rfl))
  refine ⟨?_, ?_, ?_⟩
  · exact (apply_json_render "/a" hwell hreal (by decide) (by decide) _
      (List.mem_pair.mpr (.inl rfl))).1 (by decide)
  · exact (hnested 127).1 (by rw [depth_nested])
  · obtain ⟨e, herror, hkind, -⟩ := (hnested 128).2 (by rw [depth_nested]; decide)
    exact ⟨e, herror, hkind⟩

end Transform

end CachedParameters
