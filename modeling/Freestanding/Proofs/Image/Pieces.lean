/-!
# Pieces of a file

A piece is a run of bytes with its place in a file. Putting a piece into a file overwrites the bytes
at its place and nothing else, so pieces that lie apart all stand in the file once they are put
there, in any order.
-/
namespace Freestanding.Image

/-- Bytes and the offset at which they belong. -/
structure Piece where
  start : Nat
  bytes : List UInt8
  deriving DecidableEq, Repr

namespace Piece

def ending (p : Piece) : Nat := p.start + p.bytes.length

/-- The piece begins in a file of a size, and does not end beyond it. -/
def Inside (p : Piece) (size : Nat) : Prop := p.start < size ∧ p.ending ≤ size

/-- No offset belongs to both pieces. -/
def Apart (p q : Piece) : Prop := min p.ending q.ending ≤ max p.start q.start

instance (p : Piece) (size : Nat) : Decidable (p.Inside size) :=
  inferInstanceAs (Decidable (_ ∧ _))

instance (p q : Piece) : Decidable (p.Apart q) := inferInstanceAs (Decidable (_ ≤ _))

/-- The piece's bytes are those of the file at its place. -/
def StandsIn (p : Piece) (file : List UInt8) : Prop := p.bytes <+: file.drop p.start

def put (p : Piece) (file : List UInt8) : List UInt8 :=
  file.take p.start ++ p.bytes ++ file.drop p.ending

theorem length_put {p : Piece} {file : List UInt8} (h : p.Inside file.length) :
    (p.put file).length = file.length := by
  obtain ⟨hstart, hending⟩ := h
  simp only [put, List.length_append, List.length_take, List.length_drop]
  simp only [ending] at hending ⊢
  omega

theorem standsIn_put {p : Piece} {file : List UInt8} (h : p.Inside file.length) :
    p.StandsIn (p.put file) := by
  have hlen : (file.take p.start).length = p.start := List.length_take_of_le (Nat.le_of_lt h.1)
  rw [StandsIn, put, List.append_assoc, List.drop_left' hlen]
  exact List.prefix_append ..

theorem put_of_bytes_nil {p : Piece} (file : List UInt8) (h : p.bytes = []) :
    p.put file = file := by
  simp [put, ending, h]

/-- A piece that stands in a file still does when another piece is put elsewhere. -/
theorem StandsIn.put {p q : Piece} {file : List UInt8} (hp : p.StandsIn file)
    (hq : q.Inside file.length) (hapart : q.Apart p) : p.StandsIn (q.put file) := by
  by_cases hpnil : p.bytes = []
  · simp [StandsIn, hpnil]
  by_cases hqnil : q.bytes = []
  · rwa [put_of_bytes_nil file hqnil]
  have hppos := List.length_pos_iff.mpr hpnil
  have hqpos := List.length_pos_iff.mpr hqnil
  have hlen : (file.take q.start).length = q.start := List.length_take_of_le (Nat.le_of_lt hq.1)
  have hsides : p.ending ≤ q.start ∨ q.ending ≤ p.start := by
    simp only [Apart, ending] at hapart ⊢
    omega
  unfold StandsIn at hp ⊢
  rcases hsides with hbefore | hafter
  · -- what stands before the place of `q` is kept
    have hstart : p.start ≤ (file.take q.start).length := by
      rw [hlen]; exact Nat.le_trans (Nat.le_add_right ..) hbefore
    have hkept : p.bytes <+: (file.take q.start).drop p.start := by
      rw [List.drop_take, List.prefix_take_iff]
      refine ⟨hp, ?_⟩
      simp only [ending] at hbefore
      omega
    rw [Piece.put, List.append_assoc, List.drop_append_of_le_length hstart]
    exact hkept.trans (List.prefix_append ..)
  · -- what stands behind it is not moved
    have hmoved : (q.put file).drop p.start = file.drop p.start := by
      have hfront : (file.take q.start ++ q.bytes).length = q.ending := by
        simp [ending, hlen]
      obtain ⟨n, hn⟩ := Nat.le.dest hafter
      rw [Piece.put, ← hn, List.drop_append, List.drop_eq_nil_of_le (by omega), List.nil_append,
        hfront, Nat.add_sub_cancel_left, List.drop_drop]
    rw [hmoved]
    exact hp

end Piece

def putAll (pieces : List Piece) (file : List UInt8) : List UInt8 := pieces.foldr Piece.put file

theorem length_putAll {pieces : List Piece} {file : List UInt8}
    (h : ∀ p ∈ pieces, p.Inside file.length) : (putAll pieces file).length = file.length := by
  induction pieces with
  | nil => rfl
  | cons p pieces ih =>
    have hothers := ih fun q hq => h q (List.mem_cons_of_mem p hq)
    exact (Piece.length_put (hothers ▸ h p (List.mem_cons_self ..))).trans hothers

/-- Pieces that lie apart all stand in the file that they are put into. -/
theorem standsIn_putAll {pieces : List Piece} {file : List UInt8}
    (hin : ∀ p ∈ pieces, p.Inside file.length) (hapart : pieces.Pairwise Piece.Apart) :
    ∀ p ∈ pieces, p.StandsIn (putAll pieces file) := by
  induction pieces with
  | nil => simp
  | cons q pieces ih =>
    obtain ⟨hq, hpieces⟩ := List.pairwise_cons.mp hapart
    have hin' : ∀ p ∈ pieces, p.Inside file.length := fun p hp => hin p (List.mem_cons_of_mem q hp)
    have hqin : q.Inside (putAll pieces file).length := by
      rw [length_putAll hin']
      exact hin q (List.mem_cons_self ..)
    intro p hp
    rcases List.mem_cons.mp hp with rfl | hp
    · exact Piece.standsIn_put hqin
    · exact (ih hin' hpieces p hp).put hqin (hq p hp)

end Freestanding.Image
