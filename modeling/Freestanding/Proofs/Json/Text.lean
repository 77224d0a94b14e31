import Freestanding.Json.Text
import Freestanding.Proofs.Json.Grammar

/-!
# White space and texts as the grammar has them

A scanner takes from the front of a text one of the ways in which the grammar writes what it
returns, and it takes any of these ways.
-/
namespace Freestanding.Json

open Freestanding.Text (hexDigit?)

/-! ## Successful steps -/

theorem ok_of_bind {ε α β : Type} {first : Except ε α} {next : α → Except ε β} {b : β}
    (h : (first >>= next) = .ok b) : ∃ a, first = .ok a ∧ next a = .ok b := by
  cases first with
  | error e => cases h
  | ok a => exact ⟨a, rfl, h⟩

theorem ok_of_map {ε α β : Type} {f : α → β} {first : Except ε α} {b : β}
    (h : first.map f = .ok b) : ∃ a, first = .ok a ∧ f a = b := by
  cases first with
  | error e => cases h
  | ok a => exact ⟨a, rfl, Except.ok.inj h⟩

/-! ## White space -/

theorem isSpace_iff {c : Char} : isSpace c = true ↔ c = ' ' ∨ c = '\t' ∨ c = '\n' ∨ c = '\r' := by
  simp only [isSpace, Bool.or_eq_true, beq_iff_eq]
  constructor
  · rintro (((h | h) | h) | h) <;> simp [h]
  · rintro (h | h | h | h) <;> simp [h]

theorem blank_nil : Blank [] := by simp [Blank]

theorem Blank.append {cs ds : List Char} (hc : Blank cs) (hd : Blank ds) : Blank (cs ++ ds) := by
  intro c hmem
  rcases List.mem_append.mp hmem with h | h
  · exact hc c h
  · exact hd c h

theorem skipSpace_blank {blank : List Char} (h : Blank blank) (cs : List Char) :
    skipSpace (blank ++ cs) = skipSpace cs := by
  refine List.dropWhile_append_of_pos ?_
  intro c hc
  exact isSpace_iff.mpr (h c hc)

theorem skipSpace_cons {c : Char} (h : isSpace c = false) (cs : List Char) :
    skipSpace (c :: cs) = c :: cs := by
  simp [skipSpace, h]

/-- What is skipped is white space. -/
theorem blank_skipSpace (cs : List Char) : ∃ blank, Blank blank ∧ cs = blank ++ skipSpace cs := by
  refine ⟨cs.takeWhile isSpace, ?_, List.takeWhile_append_dropWhile.symm⟩
  intro c hc
  exact isSpace_iff.mp (List.all_eq_true.mp List.all_takeWhile c hc)

theorem blank_of_skipSpace {cs ds : List Char} (h : skipSpace cs = ds) :
    ∃ blank, Blank blank ∧ cs = blank ++ ds := h ▸ blank_skipSpace cs

/-! ## Escapes -/

theorem spells_of_unit {cs rest : List Char} {n : Nat} (h : unit cs = .ok (n, rest)) :
    ∃ digits, SpellsUnit n digits ∧ cs = digits ++ rest := by
  unfold unit failAt at h
  dsimp only at h
  split at h
  · next a b c d left =>
    split at h
    · next w x y z ha hb hc hd =>
      obtain ⟨rfl, rfl⟩ := Prod.mk.inj (Except.ok.inj h)
      exact ⟨[a, b, c, d], .mk ha hb hc hd, rfl⟩
    · split at h <;> cases h
  · split at h <;> cases h

theorem unit_of_spells {n : Nat} {digits : List Char} (h : SpellsUnit n digits)
    (rest : List Char) : unit (digits ++ rest) = .ok (n, rest) := by
  cases h with
  | mk ha hb hc hd => simp only [unit, List.cons_append, List.nil_append, ha, hb, hc, hd]

theorem eq_of_pairMark {mark : Char} {cs rest : List Char} (h : pairMark mark cs = .ok rest) :
    cs = mark :: rest := by
  cases cs with
  | nil => cases h
  | cons c cs =>
    simp only [pairMark] at h
    split at h
    · next hc => rw [hc, Except.ok.inj h]
    · cases h

@[simp] theorem pairMark_self (mark : Char) (rest : List Char) :
    pairMark mark (mark :: rest) = .ok rest := by simp [pairMark]

theorem isHalf_iff {n : Nat} : isHalf n ↔ isLowHalf n = true ∨ isHighHalf n = true := by
  simp only [isHalf, isLowHalf, isHighHalf, Bool.and_eq_true, decide_eq_true_eq]
  omega

theorem spells_of_unitEscape {cs rest : List Char} {c : Char}
    (h : unitEscape cs = .ok (c, rest)) :
    ∃ written, SpellsChar c ('\\' :: 'u' :: written) ∧ cs = written ++ rest := by
  obtain ⟨⟨n, left⟩, hunit, hstep⟩ := ok_of_bind h
  obtain ⟨digits, hdigits, rfl⟩ := spells_of_unit hunit
  dsimp only at hstep
  split at hstep
  · cases hstep
  next hlow =>
  split at hstep
  · next hhigh =>
    obtain ⟨afterMark, hmark, hstep⟩ := ok_of_bind hstep
    obtain ⟨afterLetter, hletter, hstep⟩ := ok_of_bind hstep
    obtain ⟨⟨low, last⟩, hother, hlast⟩ := ok_of_bind hstep
    obtain ⟨others, hothers, hcut⟩ := spells_of_unit hother
    rw [eq_of_pairMark hmark, eq_of_pairMark hletter, hcut]
    dsimp only at hlast
    split at hlast
    · next hsecond =>
      simp only [isHighHalf, isLowHalf, Bool.and_eq_true, decide_eq_true_eq] at hhigh hsecond
      obtain ⟨rfl, rfl⟩ := Prod.mk.inj (Except.ok.inj hlast)
      refine ⟨digits ++ '\\' :: 'u' :: others, ?_, by simp⟩
      exact .pair hdigits hothers hhigh.1 hhigh.2 hsecond.1 hsecond.2
    · cases hlast
  · next hhigh =>
    obtain ⟨rfl, rfl⟩ := Prod.mk.inj (Except.ok.inj hstep)
    refine ⟨digits, .unit hdigits ?_, rfl⟩
    rw [isHalf_iff]
    exact not_or.mpr ⟨hlow, hhigh⟩

theorem unitEscape_of_unit {n : Nat} {digits : List Char} (h : SpellsUnit n digits)
    (hn : ¬ isHalf n) (rest : List Char) :
    unitEscape (digits ++ rest) = .ok (Char.ofNat n, rest) := by
  rw [isHalf_iff] at hn
  obtain ⟨hlow, hhigh⟩ := not_or.mp hn
  simp [unitEscape, unit_of_spells h, bind, Except.bind, hlow, hhigh, pure, Except.pure]

theorem unitEscape_of_pair {high low : Nat} {digits others : List Char}
    (hd : SpellsUnit high digits) (ho : SpellsUnit low others) (hhigh : isHighHalf high = true)
    (hlow : isLowHalf low = true) (rest : List Char) :
    unitEscape (digits ++ '\\' :: 'u' :: others ++ rest)
      = .ok (Char.ofNat (0x10000 + (high - 0xD800) * 0x400 + (low - 0xDC00)), rest) := by
  have hfirst : isLowHalf high = false := by
    simp only [isHighHalf, isLowHalf, Bool.and_eq_true, decide_eq_true_eq,
      Bool.and_eq_false_iff, decide_eq_false_iff_not] at hhigh ⊢
    omega
  have hcut : digits ++ '\\' :: 'u' :: others ++ rest
      = digits ++ ('\\' :: 'u' :: (others ++ rest)) := by simp
  rw [hcut]
  simp [unitEscape, unit_of_spells hd, unit_of_spells ho, bind, Except.bind, hfirst, hhigh, hlow,
    pure, Except.pure]

theorem spells_of_escape {cs rest : List Char} {c : Char} (h : escape cs = .ok (c, rest)) :
    ∃ written, SpellsChar c ('\\' :: written) ∧ cs = written ++ rest := by
  cases cs with
  | nil => cases h
  | cons letter cs =>
    by_cases hunit : letter = 'u'
    · subst hunit
      obtain ⟨written, hw, rfl⟩ := spells_of_unitEscape h
      exact ⟨'u' :: written, hw, rfl⟩
    · suffices hs : (letter, c) ∈ shortEscapes ∧ cs = rest from
        ⟨[letter], .short hs.1, by simp [hs.2]⟩
      simp only [escape] at h
      split at h
      case h_9 => exact absurd rfl hunit
      case h_10 => cases h
      all_goals
        obtain ⟨rfl, rfl⟩ := Prod.mk.inj (Except.ok.inj h)
        exact ⟨by decide, rfl⟩

theorem escape_of_short {letter c : Char} (h : (letter, c) ∈ shortEscapes) (rest : List Char) :
    escape (letter :: rest) = .ok (c, rest) := by
  simp only [shortEscapes, List.mem_cons, List.not_mem_nil, or_false, Prod.mk.injEq] at h
  rcases h with ⟨rfl, rfl⟩ | ⟨rfl, rfl⟩ | ⟨rfl, rfl⟩ | ⟨rfl, rfl⟩ | ⟨rfl, rfl⟩ | ⟨rfl, rfl⟩
    | ⟨rfl, rfl⟩ | ⟨rfl, rfl⟩ <;> rfl

/-! ## Bodies of texts -/

theorem textBody_itself {c : Char} (hc : 0x20 ≤ c.toNat) (hquote : c ≠ '"') (hslash : c ≠ '\\')
    (cs : List Char) :
    textBody (c :: cs) = (textBody cs).map fun (text, left) => (c :: text, left) := by
  rw [textBody.eq_def]
  split
  · next h => cases h
  · next h => exact absurd (List.cons.inj h).1 hquote
  · next h => exact absurd (List.cons.inj h).1 hslash
  · next d ds hd hs h =>
    obtain ⟨rfl, rfl⟩ := List.cons.inj h
    rw [if_neg (Nat.not_lt.mpr hc)]

theorem textBody_escape {c : Char} {cs rest : List Char} (h : escape cs = .ok (c, rest)) :
    textBody ('\\' :: cs) = (textBody rest).map fun (text, left) => (c :: text, left) := by
  rw [textBody]
  split
  · next e he => rw [h] at he; cases he
  · next d after hd =>
    rw [h] at hd
    obtain ⟨rfl, rfl⟩ := Prod.mk.inj (Except.ok.inj hd)
    rfl

/-- One way of writing a character is taken from the front of a body, whatever follows. -/
theorem textBody_char {c : Char} {written : List Char} (h : SpellsChar c written)
    (cs : List Char) :
    textBody (written ++ cs) = (textBody cs).map fun (text, left) => (c :: text, left) := by
  cases h with
  | itself hc hquote hslash => exact textBody_itself hc hquote hslash cs
  | short hmem => exact textBody_escape (escape_of_short hmem cs)
  | unit hdigits hhalf => exact textBody_escape (unitEscape_of_unit hdigits hhalf cs)
  | @pair high low digits others hd ho h1 h2 h3 h4 =>
    refine textBody_escape (unitEscape_of_pair hd ho ?_ ?_ cs)
    · simp [isHighHalf, h1, h2]
    · simp [isLowHalf, h3, h4]

theorem textBody_of_spells {cs written : List Char} (h : SpellsChars cs written)
    (rest : List Char) : textBody (written ++ '"' :: rest) = .ok (cs, rest) := by
  -- along the characters, since one of them may be written as many
  induction h with
  | nil => rw [List.nil_append, textBody]
  | cons hc hcs ih => rw [List.append_assoc, textBody_char hc, ih]; rfl

theorem spells_of_textBody {cs body rest : List Char} (h : textBody cs = .ok (body, rest)) :
    ∃ written, SpellsChars body written ∧ cs = written ++ '"' :: rest := by
  -- along the recursion of `textBody`, whose steps take whole characters
  induction cs using textBody.induct generalizing body with
  | case1 => rw [textBody] at h; cases h
  | case2 left =>
    rw [textBody] at h
    obtain ⟨rfl, rfl⟩ := Prod.mk.inj (Except.ok.inj h)
    exact ⟨[], .nil, rfl⟩
  | case3 cs e he =>
    rw [textBody] at h
    split at h
    · cases h
    · next hok => rw [he] at hok; cases hok
  | case4 cs c after hesc hshort ih =>
    rw [textBody_escape hesc] at h
    obtain ⟨⟨text, left⟩, htext, heq⟩ := ok_of_map h
    obtain ⟨rfl, rfl⟩ := Prod.mk.inj heq
    obtain ⟨written, hw, rfl⟩ := spells_of_escape hesc
    obtain ⟨others, ho, rfl⟩ := ih htext
    exact ⟨'\\' :: written ++ others, .cons hw ho, by simp⟩
  | case5 c cs hquote hslash hcontrol =>
    rw [textBody.eq_def] at h
    grind [failAt]
  | case6 c cs hquote hslash hcontrol ih =>
    rw [textBody_itself (Nat.not_lt.mp hcontrol) (fun heq => hquote heq)
      (fun heq => hslash heq)] at h
    obtain ⟨⟨text, left⟩, htext, heq⟩ := ok_of_map h
    obtain ⟨rfl, rfl⟩ := Prod.mk.inj heq
    obtain ⟨others, ho, rfl⟩ := ih htext
    exact ⟨c :: others, .cons (.itself (Nat.not_lt.mp hcontrol) hquote hslash) ho, by simp⟩

/-! ## Characters that need no escape -/

def Unescaped (cs : List Char) : Prop := ∀ c ∈ cs, 0x20 ≤ c.toNat ∧ c ≠ '"' ∧ c ≠ '\\'

instance : DecidablePred Unescaped := fun cs => List.decidableBAll _ cs

theorem Unescaped.spells {cs : List Char} (h : Unescaped cs) : SpellsChars cs cs := by
  induction cs with
  | nil => exact .nil
  | cons c cs ih =>
    obtain ⟨hc, hquote, hslash⟩ := h c (by simp)
    exact .cons (.itself hc hquote hslash) (ih fun x hx => h x (by simp [hx]))

theorem Unescaped.spellsText {s : String} (h : Unescaped s.toList) :
    SpellsText s ('"' :: s.toList ++ ['"']) := by
  have hs := SpellsText.mk h.spells
  rwa [String.ofList_toList] at hs

end Freestanding.Json
