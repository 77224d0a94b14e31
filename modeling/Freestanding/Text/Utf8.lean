/-!
# Text and its bytes

The bytes of a text, and the text that a run of bytes spells, if it spells one. The two directions
are inverse: a run of bytes is read as `s` exactly when it is the bytes of `s`. The bytes also tell
where the text ends: bytes that begin with those of a text, and are a text themselves, are that text
and another one behind it. So a cut inside a character is no text.
-/
namespace Freestanding.Text

def utf8 (s : String) : List UInt8 := s.toByteArray.data.toList

def ofUtf8? (bytes : List UInt8) : Option String := String.fromUTF8? ⟨bytes.toArray⟩

theorem ofUtf8?_eq_some_iff {bytes : List UInt8} {s : String} :
    ofUtf8? bytes = some s ↔ bytes = utf8 s := by
  unfold ofUtf8? String.fromUTF8?
  constructor
  · intro h
    split at h
    · next hv =>
      obtain rfl := Option.some.inj h
      rfl
    · cases h
  · rintro rfl
    have hs : (⟨(utf8 s).toArray⟩ : ByteArray) = s.toByteArray := by simp [utf8]
    have hv : (⟨(utf8 s).toArray⟩ : ByteArray).IsValidUTF8 := hs ▸ s.isValidUTF8
    rw [dif_pos hv]
    congr 1

@[simp] theorem ofUtf8?_utf8 (s : String) : ofUtf8? (utf8 s) = some s :=
  ofUtf8?_eq_some_iff.mpr rfl

theorem length_utf8_pos {s : String} (h : s ≠ "") : 0 < (utf8 s).length := by
  refine List.length_pos_iff.mpr fun hnil => h ?_
  have hempty : ofUtf8? [] = some "" := ofUtf8?_eq_some_iff.mpr rfl
  have hs : ofUtf8? [] = some s := ofUtf8?_eq_some_iff.mpr hnil.symm
  exact Option.some.inj (hs.symm.trans hempty)

/-- How many bytes a run of characters takes. -/
def byteCount (cs : List Char) : Nat := cs.foldl (fun count c => count + c.utf8Size) 0

@[simp] theorem utf8_append (s t : String) : utf8 (s ++ t) = utf8 s ++ utf8 t := by
  simp [utf8]

theorem eq_append_of_utf8 {s t : String} {more : List UInt8} (h : utf8 t = utf8 s ++ more) :
    ∃ rest, t = s ++ rest ∧ utf8 rest = more := by
  have hbytes : s.toList.utf8Encode ++ (⟨more.toArray⟩ : ByteArray) = t.toList.utf8Encode := by
    rw [String.utf8Encode_toList, String.utf8Encode_toList]
    apply ByteArray.ext
    apply Array.toList_inj.mp
    simpa [utf8] using h.symm
  obtain ⟨rest, hrest⟩ := List.isPrefix_of_utf8Encode_append_eq_utf8Encode _ hbytes
  have ht : t = s ++ String.ofList rest := by
    apply String.toList_inj.mp
    rw [String.toList_append, String.toList_ofList, hrest]
  refine ⟨String.ofList rest, ht, ?_⟩
  rw [ht, utf8_append] at h
  exact List.append_cancel_left h

end Freestanding.Text
