import Freestanding.Proofs.Kernel.Conservation
import Freestanding.Proofs.Kernel.Settling
import Freestanding.Text.Utf8

/-!
# Messages without gaps

A message ends with the first piece that is not delivered, so what was accepted of it is a part of its
text from the front, wherever in a piece the failure falls. The bytes accepted of a piece are all of
it exactly when the piece is delivered; the induction is on the pieces, and for one piece on the
calls.
-/
namespace Freestanding.Kernel

open Freestanding.Text (utf8 utf8_append)

variable {bytes : List UInt8} {piece : String} {pieces : List String} {used more : List Int64}
  {result : Delivery} {calls others : List Call}

/-! ## One piece -/

/-- Bytes are accepted from their front, and all of them exactly when they are delivered. -/
structure Gapless (bytes : List UInt8) (result : Delivery) (calls : List Call) : Prop where
  kept : result.Kept
  front : ∃ unsent, accepted calls ++ unsent = bytes ∧ (result = .delivered ↔ unsent = [])

theorem gapless_writeAll (h : SettledBy (·.writeAll bytes) used result calls)
    (hcalls : ∀ call ∈ calls, call.Honoured) : Gapless bytes result calls := by
  induction calls generalizing bytes used with
  | nil =>
    cases bytes with
    | nil =>
      obtain ⟨rfl, _⟩ := h.nothing
      exact ⟨trivial, [], rfl, by simp⟩
    | cons byte rest =>
      obtain ⟨value, others, hnil, _⟩ := h.first
      cases hnil
  | cons call calls ih =>
    cases bytes with
    | nil => cases h.nothing.2
    | cons byte rest =>
      obtain ⟨value, others, hcons, hnext⟩ := h.first
      obtain ⟨rfl, rfl⟩ := List.cons.inj hcons
      obtain ⟨hcall, hothers⟩ := List.forall_mem_cons.mp hcalls
      have hanswer := answer_of_honoured hcall
      obtain ⟨left, hstep, hleft⟩ | ⟨hstep, rfl⟩ := hnext
      · obtain ⟨hkept, unsent, hfront, hiff⟩ := ih hleft hothers
        rw [hstep] at hanswer
        refine ⟨hkept, unsent, ?_, hiff⟩
        rw [accepted_cons, List.append_assoc, hfront, hanswer.accepted_append]
      · rw [hstep] at hanswer
        obtain ⟨hnone, hne⟩ := hanswer.accepted_of_ends
        refine ⟨kept_of_advance hcall hstep, byte :: rest, ?_, by simp [hne]⟩
        rw [accepted_cons, hnone]
        rfl

/-! ## One piece after another -/

theorem settledBy_writePieces_cons (h : SettledBy (·.writeAll (utf8 piece)) used .delivered calls)
    (hmore : SettledBy (·.writePieces pieces) more result others) :
    SettledBy (·.writePieces (piece :: pieces)) (used ++ more) result (calls ++ others) := by
  have hrest : SettledBy (afterPiece pieces .delivered) more result others := hmore
  rw [funext (writePieces_cons piece pieces)]
  exact h.andThen hrest

/-- A message is settled by its first piece, and by the other pieces once that is delivered. -/
theorem SettledBy.firstPiece (h : SettledBy (·.writePieces (piece :: pieces)) used result calls) :
    ∃ first sent others, calls = sent ++ others ∧
      SettledBy (·.writeAll (utf8 piece)) (sent.map (·.returned)) first sent ∧
      (first = .delivered ∧ SettledBy (·.writePieces pieces) (others.map (·.returned)) result others ∨
        first ≠ .delivered ∧ result = first ∧ others = []) := by
  rw [funext (writePieces_cons piece pieces)] at h
  obtain ⟨first, sent, more, others, rfl, hfirst, hothers⟩ := h.parts (bounded_writeAll (utf8 piece))
  obtain rfl := hothers.answered
  refine ⟨first, sent, others, rfl, hfirst, ?_⟩
  cases first with
  | delivered => exact .inl ⟨rfl, hothers⟩
  | failed e => exact .inr ⟨nofun, hothers.of_done⟩
  | overrun returned left => exact .inr ⟨nofun, hothers.of_done⟩

theorem gapless_writePieces (h : SettledBy (·.writePieces pieces) used result calls)
    (hcalls : ∀ call ∈ calls, call.Honoured) :
    Gapless (utf8 (String.join pieces)) result calls := by
  induction pieces generalizing used calls with
  | nil =>
    rw [writePieces_nil] at h
    obtain ⟨rfl, rfl⟩ := h.of_done
    exact ⟨trivial, [], rfl, by simp⟩
  | cons piece pieces ih =>
    obtain ⟨first, sent, others, rfl, hfirst, hnext⟩ := h.firstPiece
    obtain ⟨hsent, hothers⟩ := List.forall_mem_append.mp hcalls
    obtain ⟨hkept, unsent, hfront, hiff⟩ := gapless_writeAll hfirst hsent
    rw [String.join_cons, utf8_append]
    obtain ⟨rfl, hrest⟩ | ⟨hne, rfl, rfl⟩ := hnext
    · -- A delivered piece has no bytes left, so the others go on right behind it.
      obtain rfl := hiff.mp rfl
      obtain ⟨hkept', unsent', hfront', hiff'⟩ := ih hrest hothers
      refine ⟨hkept', unsent', ?_, hiff'⟩
      rw [accepted_append, List.append_assoc, hfront', ← hfront, List.append_nil]
    · refine ⟨hkept, unsent ++ utf8 (String.join pieces), ?_, ?_⟩
      · rw [List.append_nil, ← List.append_assoc, hfront]
      · have hunsent : unsent ≠ [] := fun hnil => hne (hiff.mpr hnil)
        simp [hne, hunsent]

/-- The last calls of a message that is not delivered are those of the piece that fails. -/
theorem exists_failed_piece (h : SettledBy (·.writePieces pieces) used result calls)
    (hresult : result ≠ .delivered) :
    ∃ before piece after sent last, pieces = before ++ piece :: after ∧ calls = sent ++ last ∧
      SettledBy (·.writePieces before) (sent.map (·.returned)) .delivered sent ∧
      SettledBy (·.writeAll (utf8 piece)) (last.map (·.returned)) result last := by
  induction pieces generalizing used calls with
  | nil =>
    rw [writePieces_nil] at h
    exact absurd h.of_done.1 hresult
  | cons piece pieces ih =>
    obtain ⟨first, sent, others, rfl, hfirst, hnext⟩ := h.firstPiece
    obtain ⟨rfl, hrest⟩ | ⟨_, rfl, rfl⟩ := hnext
    · obtain ⟨before, failed, after, sent', last, rfl, rfl, hbefore, hlast⟩ := ih hrest
      refine ⟨piece :: before, failed, after, sent ++ sent', last, rfl,
        (List.append_assoc ..).symm, ?_, hlast⟩
      rw [List.map_append]
      exact settledBy_writePieces_cons hfirst hbefore
    · exact ⟨[], piece, pieces, [], sent, rfl, List.append_nil _, ⟨rfl, fun _ => rfl⟩, hfirst⟩

/-- Where nothing is overrun, a message whose failure is nobody's concern counts as delivered. -/
theorem settledBy_note (h : SettledBy (·.writePieces pieces) used result calls)
    (hkept : result.Kept) : SettledBy (·.note pieces) used .delivered calls where
  answered := h.answered
  settled d := by
    simp only [Descriptor.note, h.settled, Transfer.map]
    cases result with
    | delivered => rfl
    | failed e => rfl
    | overrun returned left => cases hkept

/-! ## Empty pieces -/

theorem writeAll_empty (d : Descriptor) : d.writeAll (utf8 "") = ⟨.delivered, [], d⟩ :=
  deliverThrough_nil d.device d.script

theorem writePieces_empty (before after : List String) (d : Descriptor) :
    d.writePieces (before ++ "" :: after) = d.writePieces (before ++ after) := by
  induction before generalizing d with
  | nil => simp only [List.nil_append, Descriptor.writePieces, writeAll_empty, Transfer.following]
  | cons piece before ih => simp only [List.cons_append, Descriptor.writePieces, ih]

/-! ## Messages -/

/-- A message leaves no gap. Answers that do not interrupt for ever settle it. If a piece fails, the
pieces before it were delivered and the last calls are its own. While the contract is kept, a part of
the text is accepted from its front, all of it exactly when the message is delivered, and a message
whose failure is nobody's concern is delivered in every case. An empty piece makes no call and does
not fail, whatever the descriptor. -/
theorem writePieces_gapless (pieces : List String) (answers : Nat → Int64)
    (hends : ∃ last, ∀ i, last ≤ i → answers i ≠ KernelError.interrupted.code) :
    (∃ result calls, Settles (·.writePieces pieces) answers result calls) ∧
      (∀ result calls, Settles (·.writePieces pieces) answers result calls →
        (result ≠ .delivered →
          ∃ before piece after sent last, pieces = before ++ piece :: after ∧ calls = sent ++ last ∧
            SettledBy (·.writePieces before) (sent.map (·.returned)) .delivered sent ∧
            SettledBy (·.writeAll (utf8 piece)) (last.map (·.returned)) result last) ∧
        ((∀ call ∈ calls, call.Honoured) →
          accepted calls <+: utf8 (String.join pieces) ∧
          (result = .delivered ↔ accepted calls = utf8 (String.join pieces)) ∧
          ((∃ e, result = .failed e) ↔ accepted calls ≠ utf8 (String.join pieces)) ∧
          Settles (·.note pieces) answers .delivered calls)) ∧
      ∀ d : Descriptor, d.writePieces [""] = ⟨.delivered, [], d⟩ ∧
        ∀ before after, d.writePieces (before ++ "" :: after) = d.writePieces (before ++ after) := by
  refine ⟨?_, fun result calls hsettles => ⟨exists_failed_piece hsettles, fun hcalls => ?_⟩,
    fun d => ⟨writePieces_empty [] [] d, fun before after => writePieces_empty before after d⟩⟩
  · obtain ⟨last, hlast⟩ := hends
    obtain ⟨limit, hbound⟩ := bounded_writePieces pieces
    exact hbound.settles fun n =>
      ⟨max n last, Nat.le_max_left .., hlast _ (Nat.le_max_right ..)⟩
  · obtain ⟨hkept, unsent, hfront, hiff⟩ := gapless_writePieces hsettles hcalls
    have hall : accepted calls = utf8 (String.join pieces) ↔ unsent = [] := by
      rw [← hfront, List.self_eq_append_right]
    refine ⟨⟨unsent, hfront⟩, hiff.trans hall.symm, ?_, ?_⟩
    · rw [Ne, hall, ← hiff]
      cases result with
      | delivered => simp
      | failed e => simp
      | overrun returned left => cases hkept
    · exact settledBy_note hsettles hkept

/-- The device is full after the first byte of the second piece. -/
theorem writePieces_gapless_cut_short :
    (∃ last, ∀ i, last ≤ i → [1, -4].getD i (-28) ≠ KernelError.interrupted.code) ∧
      ∃ calls, Settles (·.writePieces ["", "ab", "c"]) ([1, -4].getD · (-28)) (.failed .noSpace)
          calls ∧
        (∀ call ∈ calls, call.Honoured) ∧
        accepted calls <+: utf8 (String.join ["", "ab", "c"]) ∧
        accepted calls ≠ utf8 (String.join ["", "ab", "c"]) ∧
        Settles (·.note ["", "ab", "c"]) ([1, -4].getD · (-28)) .delivered calls := by
  have hends : ∃ last, ∀ i, last ≤ i → [1, -4].getD i (-28) ≠ KernelError.interrupted.code := by
    refine ⟨2, fun i hi => ?_⟩
    rw [List.getD_eq_getElem?_getD, List.getElem?_eq_none hi]
    decide
  refine ⟨hends, ?_⟩
  let calls : List Call := [⟨[97, 98], 1⟩, ⟨[98], -4⟩, ⟨[98], -28⟩]
  have hsettles : Settles (·.writePieces ["", "ab", "c"]) ([1, -4].getD · (-28)) (.failed .noSpace)
      calls := ⟨rfl, fun _ => rfl⟩
  have hhonoured : ∀ call ∈ calls, call.Honoured := by
    simp only [calls, Call.Honoured]
    decide
  obtain ⟨_, hall, _⟩ := writePieces_gapless ["", "ab", "c"] _ hends
  obtain ⟨hfront, _, hfailed, hnote⟩ := (hall _ calls hsettles).2 hhonoured
  exact ⟨calls, hsettles, hhonoured, hfront, hfailed.mp ⟨_, rfl⟩, hnote⟩

end Freestanding.Kernel
