import Freestanding.Json.Fault
import Freestanding.Text.Numeral

/-!
# Texts and words of JSON

White space, the words of the language, and texts with their escapes. A character beyond the first
plane is escaped as a surrogate pair.
-/
namespace Freestanding.Json

open Freestanding.Text (byteCount hexDigit?)

def isSpace (c : Char) : Bool := c == ' ' || c == '\n' || c == '\t' || c == '\r'

/-- The text after the white space at its front. -/
def skipSpace (cs : List Char) : List Char := cs.dropWhile isSpace

def word : List Char → List Char → Except Failure (List Char)
  | [], cs => .ok cs
  | _ :: _, [] => failAt .endInValue []
  | e :: es, c :: cs => if c = e then word es cs else failAfter .noWord (c :: cs)

/-- Reads the four digits of an escaped unit. Four bytes are taken before they are looked at. -/
def unit (cs : List Char) : Scan Nat :=
  let refuse : Scan Nat :=
    if byteCount cs < 4 then failAt .endInText []
    else .error (.placed .badEscape (byteCount cs - 4))
  match cs with
  | a :: b :: c :: d :: rest =>
    match hexDigit? a, hexDigit? b, hexDigit? c, hexDigit? d with
    | some w, some x, some y, some z => .ok (((w * 16 + x) * 16 + y) * 16 + z, rest)
    | _, _, _, _ => refuse
  | _ => refuse

/-- Reads the character that must follow the first half of a surrogate pair. -/
def pairMark (mark : Char) : List Char → Except Failure (List Char)
  | [] => failAt .endInText []
  | c :: rest => if c = mark then .ok rest else failAfter .brokenPair (c :: rest)

/-- Whether a unit is the first half of a surrogate pair. -/
def isHighHalf (n : Nat) : Bool := 0xD800 ≤ n && n ≤ 0xDBFF

/-- Whether a unit is the second half of a surrogate pair. -/
def isLowHalf (n : Nat) : Bool := 0xDC00 ≤ n && n ≤ 0xDFFF

def unitEscape (cs : List Char) : Except Failure (Char × List Char) := do
  let (n, rest) ← unit cs
  if isLowHalf n then failAt .lonePair rest
  else if isHighHalf n then
    let rest ← pairMark '\\' rest
    let rest ← pairMark 'u' rest
    let (low, rest) ← unit rest
    if isLowHalf low then
      return (Char.ofNat (0x10000 + (n - 0xD800) * 0x400 + (low - 0xDC00)), rest)
    else failAt .lonePair rest
  else return (Char.ofNat n, rest)

def escape : List Char → Scan Char
  | [] => failAt .endInText []
  | c :: rest =>
    match c with
    | '"' => .ok ('"', rest)
    | '\\' => .ok ('\\', rest)
    | '/' => .ok ('/', rest)
    | 'b' => .ok ('\x08', rest)
    | 'f' => .ok ('\x0c', rest)
    | 'n' => .ok ('\n', rest)
    | 'r' => .ok ('\r', rest)
    | 't' => .ok ('\t', rest)
    | 'u' => unitEscape rest
    | _ => failAfter .badEscape (c :: rest)

theorem unit_shorter {cs rest : List Char} {n : Nat} (h : unit cs = .ok (n, rest)) :
    rest.length < cs.length := by
  unfold unit failAt at h
  grind

theorem pairMark_shorter {mark : Char} {cs rest : List Char} (h : pairMark mark cs = .ok rest) :
    rest.length < cs.length := by
  unfold pairMark failAt failAfter at h
  grind

theorem unitEscape_shorter {cs rest : List Char} {c : Char} (h : unitEscape cs = .ok (c, rest)) :
    rest.length < cs.length := by
  unfold unitEscape at h
  cases hn : unit cs with
  | error e => simp [hn, bind, Except.bind] at h
  | ok n =>
    have first := unit_shorter hn
    simp only [hn, bind, Except.bind] at h
    split at h
    · simp [failAt] at h
    split at h
    · cases hb : pairMark '\\' n.2 with
      | error e => simp [hb] at h
      | ok afterMark =>
        have second := pairMark_shorter hb
        cases hu : pairMark 'u' afterMark with
        | error e => simp [hb, hu] at h
        | ok afterUnit =>
          have third := pairMark_shorter hu
          cases hl : unit afterUnit with
          | error e => simp [hb, hu, hl] at h
          | ok low =>
            have fourth := unit_shorter hl
            simp only [hb, hu, hl] at h
            split at h
            · simp only [pure, Except.pure, Except.ok.injEq, Prod.mk.injEq] at h
              obtain ⟨_, rfl⟩ := h
              omega
            · simp [failAt] at h
    · simp only [pure, Except.pure, Except.ok.injEq, Prod.mk.injEq] at h
      obtain ⟨_, rfl⟩ := h
      omega

theorem escape_shorter {cs rest : List Char} {c : Char} (h : escape cs = .ok (c, rest)) :
    rest.length < cs.length := by
  unfold escape at h
  cases cs with
  | nil => simp [failAt] at h
  | cons d ds =>
    simp only at h
    split at h
    case h_9 => exact Nat.lt_succ_of_lt (unitEscape_shorter h)
    case h_10 => simp [failAfter] at h
    all_goals
      simp only [Except.ok.injEq, Prod.mk.injEq] at h
      simp [← h.2]

/-- Reads the rest of a text, after the quotation mark at its front. -/
def textBody (cs : List Char) : Scan (List Char) :=
  match cs with
  | [] => failAt .endInText []
  | '"' :: rest => .ok ([], rest)
  | '\\' :: rest =>
    match h : escape rest with
    | .error e => .error e
    | .ok (c, after) =>
      have : after.length < rest.length := escape_shorter h
      (textBody after).map fun (text, left) => (c :: text, left)
  | c :: rest =>
    if c.toNat < 0x20 then failAt .control rest
    else (textBody rest).map fun (text, left) => (c :: text, left)
termination_by cs.length

end Freestanding.Json
