import LintDirectives.ByteText
import Mathlib.Data.List.Basic

/-!
# Texts inside encoded texts

The first byte of an encoded character differs from all its other bytes. So where the bytes of a
text are found inside an encoded text, the bytes before and behind them are encoded texts as well.
-/

namespace LintDirectives.Text

/-- The bytes are the UTF-8 form of some text. -/
def IsEncoded (bytes : Bytes) : Prop := ∃ t, bytes = utf8 t

theorem isSome_ofUtf8?_iff {bytes : Bytes} : (ofUtf8? bytes).isSome ↔ IsEncoded bytes := by
  constructor
  · intro h
    obtain ⟨t, ht⟩ := Option.isSome_iff_exists.mp h
    exact ⟨t, (utf8_of_ofUtf8? ht).symm⟩
  · rintro ⟨t, rfl⟩
    simp [ofUtf8?_utf8]

@[simp] theorem utf8_nil : utf8 [] = [] := rfl

@[simp] theorem utf8_cons (c : Char) (t : Text) :
    utf8 (c :: t) = String.utf8EncodeChar c ++ utf8 t :=
  List.flatMap_cons

@[simp] theorem utf8_append (a b : Text) : utf8 (a ++ b) = utf8 a ++ utf8 b :=
  List.flatMap_append

theorem IsEncoded.append {a b : Bytes} (ha : IsEncoded a) (hb : IsEncoded b) :
    IsEncoded (a ++ b) := by
  obtain ⟨x, rfl⟩ := ha
  obtain ⟨y, rfl⟩ := hb
  exact ⟨x ++ y, (utf8_append x y).symm⟩

theorem exists_utf8_eq_cons {t : Text} (h : t ≠ []) :
    ∃ b rest, utf8 t = b :: rest ∧ b.IsUTF8FirstByte := by
  obtain ⟨c, t, rfl⟩ := List.exists_cons_of_ne_nil h
  have hpos : 0 < (String.utf8EncodeChar c).length := by simp [Char.utf8Size_pos]
  obtain ⟨b, rest, hbytes⟩ := List.exists_cons_of_length_pos hpos
  refine ⟨b, rest ++ utf8 t, by rw [utf8_cons, hbytes]; rfl, ?_⟩
  have hfirst : ((String.utf8EncodeChar c).get ⟨0, hpos⟩).IsUTF8FirstByte :=
    UInt8.isUTF8FirstByte_getElem_utf8EncodeChar.mpr rfl
  simpa [hbytes] using hfirst

/-- An encoded text may be cut before the first byte of a character. -/
theorem isEncoded_of_append_cons {t : Text} {a rest : Bytes} {b : UInt8}
    (h : utf8 t = a ++ b :: rest) (hb : b.IsUTF8FirstByte) :
    IsEncoded a ∧ IsEncoded (b :: rest) := by
  induction t generalizing a with
  | nil => simp at h
  | cons c t ih =>
    rw [utf8_cons] at h
    rcases List.append_eq_append_iff.mp h with ⟨a', rfl, htail⟩ | ⟨tail, hchar, hrest⟩
    · obtain ⟨⟨x, rfl⟩, hbehind⟩ := ih htail
      exact ⟨⟨c :: x, (utf8_cons c x).symm⟩, hbehind⟩
    · cases tail with
      | nil =>
        rw [List.append_nil] at hchar
        exact ⟨⟨[c], by simp [hchar]⟩, ⟨t, hrest⟩⟩
      | cons d tail =>
        -- the first byte stands inside the character, so it is that of the character
        obtain ⟨rfl, -⟩ := List.cons.inj hrest
        have hi : a.length < (String.utf8EncodeChar c).length := by simp [hchar]
        have hfirst : ((String.utf8EncodeChar c).get ⟨a.length, hi⟩).IsUTF8FirstByte := by
          simpa [hchar] using hb
        have hnil : a.length = 0 := UInt8.isUTF8FirstByte_getElem_utf8EncodeChar.mp hfirst
        obtain rfl := List.length_eq_zero_iff.mp hnil
        refine ⟨⟨[], rfl⟩, ⟨c :: t, ?_⟩⟩
        rw [utf8_cons, h]
        rfl

/-- What stands behind the bytes of a text at the start of an encoded text is encoded. -/
theorem isEncoded_of_utf8_append {t v : Text} {b : Bytes} (h : utf8 t = utf8 v ++ b) :
    IsEncoded b := by
  have hbytes : v.utf8Encode ++ ⟨b.toArray⟩ = t.utf8Encode := by
    rw [utf8Encode_eq, utf8Encode_eq, h]
    apply ByteArray.ext
    simp
  obtain ⟨y, rfl⟩ := List.isPrefix_of_utf8Encode_append_eq_utf8Encode _ hbytes
  rw [utf8_append] at h
  exact ⟨y, (List.append_cancel_left h).symm⟩

/-- The bytes around those of a text inside an encoded text are encoded. -/
theorem isEncoded_around {t v : Text} {a b : Bytes} (h : utf8 t = a ++ (utf8 v ++ b))
    (hv : v ≠ []) : IsEncoded a ∧ IsEncoded b := by
  obtain ⟨first, rest, hfirst, hbyte⟩ := exists_utf8_eq_cons hv
  have hcut : utf8 t = a ++ first :: (rest ++ b) := by rw [h, hfirst]; rfl
  obtain ⟨ha, behind, hbehind⟩ := isEncoded_of_append_cons hcut hbyte
  refine ⟨ha, isEncoded_of_utf8_append (t := behind) (v := v) ?_⟩
  rw [← hbehind, hfirst]
  rfl

end LintDirectives.Text
