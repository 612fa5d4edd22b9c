import LintDirectives.Text

/-!
# Texts as bytes

The UTF-8 form of texts. Reading is strict: surrogates, overlong forms and code points
beyond the last one are refused.
-/

namespace LintDirectives

abbrev Bytes := List UInt8

namespace Text

def utf8 (t : Text) : Bytes :=
  t.flatMap String.utf8EncodeChar

def ofUtf8? (bytes : Bytes) : Option Text :=
  (ByteArray.mk bytes.toArray).utf8Decode?.map Array.toList

theorem utf8Encode_eq (t : Text) : t.utf8Encode = ⟨(utf8 t).toArray⟩ := by
  rw [List.utf8Encode, utf8]
  apply ByteArray.ext
  simp

theorem ofUtf8?_utf8 (t : Text) : ofUtf8? (utf8 t) = some t := by
  rw [ofUtf8?, ← utf8Encode_eq, List.utf8Decode?_utf8Encode]
  simp

theorem utf8_of_ofUtf8? {bytes : Bytes} {t : Text} (h : ofUtf8? bytes = some t) :
    utf8 t = bytes := by
  obtain ⟨chars, hchars, rfl⟩ := Option.map_eq_some_iff.mp h
  have hsome : (ByteArray.mk bytes.toArray).utf8Decode?.isSome := by simp [hchars]
  have hencode := ByteArray.utf8Encode_get_utf8Decode? (b := ByteArray.mk bytes.toArray) (h := hsome)
  simp only [hchars, Option.get_some, utf8Encode_eq] at hencode
  simpa using congrArg ByteArray.data hencode

end Text

end LintDirectives
