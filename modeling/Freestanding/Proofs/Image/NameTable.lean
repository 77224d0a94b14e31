import Freestanding.Image.StringTable

/-!
# Tables of names

Names are written one after the other, each ended by a zero byte. Read as a string table, the bytes
give every name back at the offset at which it was written.
-/
namespace Freestanding.Image

open Freestanding.Text (utf8 ofUtf8? ofUtf8?_utf8)

def nameBytes (names : List String) : List UInt8 := names.flatMap fun name => utf8 name ++ [0]

/-- The offsets at which names stand, of which the first stands at `start`. -/
def offsetsFrom (start : Nat) : List String → List Nat
  | [] => []
  | name :: names => start :: offsetsFrom (start + (utf8 name).length + 1) names

/-- The names that no zero byte ends early. -/
def Textual (names : List String) : Prop := ∀ name ∈ names, 0 ∉ utf8 name

instance (names : List String) : Decidable (Textual names) :=
  inferInstanceAs (Decidable (∀ name ∈ names, _))

@[simp] theorem length_offsetsFrom (start : Nat) (names : List String) :
    (offsetsFrom start names).length = names.length := by
  induction names generalizing start with
  | nil => rfl
  | cons name names ih => simp [offsetsFrom, ih]

theorem le_of_mem_offsetsFrom {start offset : Nat} {names : List String}
    (h : offset ∈ offsetsFrom start names) : start ≤ offset := by
  induction names generalizing start with
  | nil => simp [offsetsFrom] at h
  | cons name names ih =>
    rcases List.mem_cons.mp h with rfl | hmem
    · exact Nat.le_refl _
    · have := ih hmem
      omega

namespace StringTable

/-- The table of names that are written at an offset. -/
def ofNames (start : Nat) (names : List String) : StringTable :=
  ⟨(offsetsFrom start names).zip names⟩

theorem cut_nameBytes {names : List String} (h : Textual names) (start : Nat) :
    cut start (nameBytes names) = .ok (ofNames start names).entries := by
  induction names generalizing start with
  | nil => simp [nameBytes, cut, ofNames, offsetsFrom]
  | cons name names ih =>
    have hname : 0 ∉ utf8 name := h name (List.mem_cons_self ..)
    have hothers :=
      ih (fun s hs => h s (List.mem_cons_of_mem name hs)) (start + (utf8 name).length + 1)
    have hbytes : nameBytes (name :: names) = utf8 name ++ 0 :: nameBytes names := by
      simp [nameBytes]
    have htext : ∀ b ∈ utf8 name, (b != 0) = true := by
      intro b hb
      exact bne_iff_ne.mpr fun h0 => hname (h0 ▸ hb)
    have hpiece : (utf8 name ++ 0 :: nameBytes names).takeWhile (· != 0) = utf8 name := by
      rw [List.takeWhile_append_of_pos htext]
      simp
    have hdrop : (utf8 name ++ 0 :: nameBytes names).drop ((utf8 name).length + 1) =
        nameBytes names := by
      rw [← List.drop_drop, List.drop_left]
      rfl
    obtain ⟨b, bs, hcons⟩ := List.exists_cons_of_ne_nil (l := utf8 name ++ 0 :: nameBytes names)
      (by simp)
    rw [hbytes, hcons, cut, ← hcons]
    simp only [hpiece, ofUtf8?_utf8, hdrop, hothers, bind, Except.bind, pure, Except.pure]
    rfl

/-- The last entry that begins at the offset of a name or before is the name's own. -/
theorem getLast?_takeWhile {start : Nat} {names : List String} {entry : Nat × String}
    (h : entry ∈ (ofNames start names).entries) :
    ((ofNames start names).entries.takeWhile (·.1 ≤ entry.1)).getLast? = some entry := by
  induction names generalizing start with
  | nil => simp [ofNames, offsetsFrom] at h
  | cons name names ih =>
    have hcons : (ofNames start (name :: names)).entries =
        (start, name) :: (ofNames (start + (utf8 name).length + 1) names).entries := rfl
    rw [hcons] at h ⊢
    have hlater {later : Nat × String}
        (hl : later ∈ (ofNames (start + (utf8 name).length + 1) names).entries) :
        start < later.1 := by
      have := le_of_mem_offsetsFrom (List.of_mem_zip hl).1
      omega
    rcases List.mem_cons.mp h with rfl | hmem
    · -- every later name begins behind this one
      have hnone : (ofNames (start + (utf8 name).length + 1) names).entries.takeWhile
          (·.1 ≤ start) = [] := by
        cases hrest : (ofNames (start + (utf8 name).length + 1) names).entries with
        | nil => rfl
        | cons later others =>
          have := hlater (hrest ▸ List.mem_cons_self ..)
          exact List.takeWhile_cons_of_neg (by simpa using this)
      simp [hnone]
    · have hle : start ≤ entry.1 := Nat.le_of_lt (hlater hmem)
      rw [List.takeWhile_cons_of_pos (by simpa using hle), List.getLast?_cons, ih hmem]
      rfl

theorem tail?_zero (text : String) : tail? text 0 = some text := by
  simp [tail?]

theorem lookup?_ofNames {start : Nat} {names : List String} {entry : Nat × String}
    (h : entry ∈ (ofNames start names).entries) :
    (ofNames start names).lookup? entry.1 = some entry.2 := by
  rw [lookup?, getLast?_takeWhile h, Option.bind_some, Nat.sub_self, tail?_zero]

end StringTable

end Freestanding.Image
