import Freestanding.Proofs.Kernel.Settling

/-!
# The outcome of a delivery

The answers to the calls of a delivery decide its outcome by their integers alone. Interruptions are
skipped and counts are taken off the bytes that remain, until nothing remains or the first other
answer ends the delivery. The invariant is that the delivery has been brought to the delivery of
the bytes that remain, in as many calls as there were answers.
-/
namespace Freestanding.Kernel

/-- The number of bytes that remain after the first answers, while these interrupt or take. -/
inductive Remains (answers : Nat → Int64) (size : Nat) : Nat → Nat → Prop
  | start : Remains answers size 0 size
  | interrupted {n left : Nat} : Remains answers size n left → 0 < left →
      (answers n).toInt = -4 → Remains answers size (n + 1) left
  | taken {n left count : Nat} : Remains answers size n left → 0 < count → count ≤ left →
      (answers n).toInt = count → Remains answers size (n + 1) (left - count)

/-- An answer that neither interrupts nor takes, and the outcome it gives when bytes remain. -/
inductive Decides (left : Nat) (answer : Int) : Delivery → Prop
  | nothing {e : KernelError} : answer = 0 → e.code.toInt = -5 → Decides left answer (.failed e)
  | error {e : KernelError} : -4095 ≤ answer → answer ≤ -1 → answer ≠ -4 → e.code.toInt = answer →
      Decides left answer (.failed e)
  | overrun {count : UInt64} : left < answer ∨ answer < -4095 →
      count.toNat = answer % 0x10000000000000000 → Decides left answer (.overrun count left)

/-- The outcome that answers decide: nothing remains, or the first other answer is decisive. -/
inductive Decided (answers : Nat → Int64) (size : Nat) : Delivery → Prop
  | complete {n : Nat} : Remains answers size n 0 → Decided answers size .delivered
  | ended {n left : Nat} {outcome : Delivery} : Remains answers size n left → 0 < left →
      Decides left (answers n).toInt outcome → Decided answers size outcome

/-! ## The meaning of an answer is its progress -/

variable {offered bytes rest rest' : List UInt8} {answers : Nat → Int64} {outcome : Delivery}
  {n left : Nat}

theorem toNat_toUInt64 (word : Int64) : word.toUInt64.toNat = word.toInt % 0x10000000000000000 := by
  have hword := toInt_eq word
  have hlt : word.toUInt64.toNat < 0x10000000000000000 := word.toUInt64.toNat_lt
  split at hword <;> omega

theorem Answer.unique {returned : Int64} {progress progress' : Progress}
    (h : Answer offered returned progress) (h' : Answer offered returned progress') :
    progress = progress' := by
  cases h with
  | interrupted hint => cases h' <;> first | rfl | omega
  | @accepted n hpos hle hint =>
    cases h' with
    | @accepted n' hpos' hle' hint' =>
      obtain rfl : n = n' := by omega
      rfl
    | _ => omega
  | nothing hint => cases h' <;> first | rfl | omega
  | failed hlow hneg hne => cases h' <;> first | rfl | omega
  | overrun hover => cases h' <;> first | rfl | omega

theorem Answer.advance_eq {returned : Int64} {progress : Progress}
    (h : Answer offered returned progress) (hlen : offered.length < 0x8000000000000000) :
    advance offered returned = progress :=
  (advance_answer hlen returned).unique h

theorem Decides.answer {returned : Int64} (h : Decides offered.length returned.toInt outcome) :
    Answer offered returned (.ends outcome) := by
  cases h with
  | @nothing e hzero hcode =>
    obtain rfl : e = .inputOutput := KernelError.ext (Int64.toInt_inj.mp hcode)
    exact .nothing hzero
  | @error e hlow hneg hne hcode =>
    obtain rfl : e = ⟨returned⟩ := KernelError.ext (Int64.toInt_inj.mp hcode)
    exact .failed hlow (by omega) hne
  | @overrun count hover hcount =>
    have hword := toNat_toUInt64 returned
    obtain rfl : count = returned.toUInt64 := UInt64.toNat_inj.mp (by omega)
    exact .overrun hover

/-! ## What the answers bring a delivery to -/

/-- These calls bring the delivery of the bytes to the delivery of the rest. -/
structure BroughtTo (bytes : List UInt8) (used : List Int64) (rest : List UInt8)
    (calls : List Call) : Prop where
  answered : calls.map (·.returned) = used
  goesOn : ∀ d : Descriptor, (d.answering used).writeAll bytes = (d.writeAll rest).following calls

theorem BroughtTo.start (bytes : List UInt8) : BroughtTo bytes [] bytes [] := ⟨rfl, fun _ => rfl⟩

theorem BroughtTo.step {used : List Int64} {calls : List Call} {value : Int64}
    (h : BroughtTo bytes used rest calls) (hne : rest ≠ [])
    (hstep : advance rest value = .left rest') :
    BroughtTo bytes (used ++ [value]) rest' (calls ++ [⟨rest, value⟩]) where
  answered := by rw [List.map_append, h.answered, List.map_singleton]
  goesOn d := by
    obtain ⟨byte, more, rfl⟩ := List.exists_cons_of_ne_nil hne
    simp only [answering_append, h.goesOn, writeAll_answering_cons, hstep, answering_nil,
      Transfer.following, List.append_assoc]

theorem BroughtTo.settledBy {used more : List Int64} {calls calls' : List Call}
    (h : BroughtTo bytes used rest calls) (hrest : SettledBy (·.writeAll rest) more outcome calls') :
    SettledBy (·.writeAll bytes) (used ++ more) outcome (calls ++ calls') where
  answered := by rw [List.map_append, h.answered, hrest.answered]
  settled d := by
    rw [answering_append, h.goesOn, hrest.settled]
    rfl

theorem BroughtTo.settles_delivered {calls : List Call}
    (h : BroughtTo bytes ((List.range n).map answers) [] calls) :
    Settles (·.writeAll bytes) answers .delivered calls := by
  have hsettled := h.settledBy settledBy_nothing
  simp only [List.append_nil] at hsettled
  exact hsettled.settles

/-- The answer that ends a delivery is the answer to its last call. -/
theorem BroughtTo.settles_ended {calls : List Call}
    (h : BroughtTo bytes ((List.range n).map answers) rest calls) (hne : rest ≠ [])
    (hstep : advance rest (answers n) = .ends outcome) :
    Settles (·.writeAll bytes) answers outcome (calls ++ [⟨rest, answers n⟩]) := by
  have hlast : SettledBy (·.writeAll rest) [answers n] outcome [⟨rest, answers n⟩] := by
    obtain ⟨byte, more, rfl⟩ := List.exists_cons_of_ne_nil hne
    refine ⟨rfl, fun d => ?_⟩
    simp only [writeAll_answering_cons, hstep, answering_nil]
  have hsettled := h.settledBy hlast
  rw [← first_succ] at hsettled
  exact hsettled.settles

/-- What settles a delivery does not bring it to a rest that is still to be delivered. -/
theorem Settles.nothing_left {calls calls' : List Call}
    (h : Settles (·.writeAll bytes) answers outcome calls)
    (hbrought : BroughtTo bytes ((List.range calls.length).map answers) rest calls') :
    rest = [] := by
  cases rest with
  | nil => rfl
  | cons byte more =>
    -- On a full device one more call would be made than there were answers.
    have hsame := (hbrought.goesOn ⟨[], .full⟩).symm.trans (h.settled ⟨[], .full⟩)
    have hcalls := congrArg (fun sent => sent.calls.length) hsame
    have hanswered := congrArg List.length hbrought.answered
    have hone : ((Descriptor.mk [] .full).writeAll (byte :: more)).calls.length = 1 := rfl
    simp only [Transfer.following, List.length_append, hone] at hcalls
    rw [List.length_map, List.length_map, List.length_range] at hanswered
    omega

/-- The invariant: what remains is what the delivery goes on with. -/
theorem Remains.broughtTo (h : Remains answers bytes.length n left)
    (hlen : bytes.length < 0x8000000000000000) :
    left ≤ bytes.length ∧ ∃ rest calls, rest.length = left ∧
      BroughtTo bytes ((List.range n).map answers) rest calls := by
  induction h with
  | start => exact ⟨Nat.le_refl _, bytes, [], rfl, .start bytes⟩
  | @interrupted n left _ hpos hint ih =>
    obtain ⟨hle, rest, calls, rfl, hbrought⟩ := ih
    have hanswer : Answer rest (answers n) (.left rest) := .interrupted hint
    have hstep := hanswer.advance_eq (by omega)
    rw [first_succ]
    exact ⟨hle, rest, _, rfl, hbrought.step (List.length_pos_iff.mp hpos) hstep⟩
  | @taken n left count _ hpos hcount hint ih =>
    obtain ⟨hle, rest, calls, rfl, hbrought⟩ := ih
    have hanswer : Answer rest (answers n) (.left (rest.drop count)) := .accepted hpos hcount hint
    have hstep := hanswer.advance_eq (by omega)
    rw [first_succ]
    exact ⟨by omega, rest.drop count, _, List.length_drop,
      hbrought.step (List.length_pos_iff.mp (by omega)) hstep⟩

/-! ## Answers that decide -/

theorem Remains.settles_delivered (h : Remains answers bytes.length n 0)
    (hlen : bytes.length < 0x8000000000000000) :
    ∃ calls, Settles (·.writeAll bytes) answers .delivered calls := by
  obtain ⟨_, rest, calls, hrest, hbrought⟩ := h.broughtTo hlen
  obtain rfl := List.length_eq_zero_iff.mp hrest
  exact ⟨calls, hbrought.settles_delivered⟩

/-- The decisive answer is the answer to the last call, which offers the bytes that remain. -/
theorem Remains.settles_ended (h : Remains answers bytes.length n left) (hpos : 0 < left)
    (hdecides : Decides left (answers n).toInt outcome)
    (hlen : bytes.length < 0x8000000000000000) :
    ∃ before offered, offered.length = left ∧
      Settles (·.writeAll bytes) answers outcome (before ++ [⟨offered, answers n⟩]) := by
  obtain ⟨hle, rest, calls, rfl, hbrought⟩ := h.broughtTo hlen
  have hstep := hdecides.answer.advance_eq (by omega)
  exact ⟨calls, rest, rfl, hbrought.settles_ended (List.length_pos_iff.mp hpos) hstep⟩

theorem Decided.settles (h : Decided answers bytes.length outcome)
    (hlen : bytes.length < 0x8000000000000000) :
    ∃ calls, Settles (·.writeAll bytes) answers outcome calls := by
  cases h with
  | complete hnone => exact hnone.settles_delivered hlen
  | ended hremains hpos hdecides =>
    obtain ⟨before, offered, _, hsettles⟩ := hremains.settles_ended hpos hdecides hlen
    exact ⟨_, hsettles⟩

/-! ## Nothing else settles a delivery -/

/-- Either bytes remain after so many answers, or the outcome is decided. -/
theorem remains_or_decided (answers : Nat → Int64) (size n : Nat) :
    (∃ left, Remains answers size n left ∧ 0 < left) ∨ ∃ outcome, Decided answers size outcome := by
  induction n with
  | zero =>
    cases size with
    | zero => exact .inr ⟨_, .complete .start⟩
    | succ size => exact .inl ⟨_, .start, Nat.succ_pos size⟩
  | succ n ih =>
    obtain ⟨left, hremains, hpos⟩ | hdecided := ih
    · by_cases hinterrupted : (answers n).toInt = -4
      · exact .inl ⟨left, hremains.interrupted hpos hinterrupted, hpos⟩
      by_cases htaken : 0 < (answers n).toInt ∧ (answers n).toInt ≤ left
      · have hnext : Remains answers size (n + 1) (left - (answers n).toInt.toNat) :=
          hremains.taken (by omega) (by omega) (by omega)
        by_cases hall : left - (answers n).toInt.toNat = 0
        · exact .inr ⟨_, .complete (hall ▸ hnext)⟩
        · exact .inl ⟨_, hnext, by omega⟩
      by_cases hzero : (answers n).toInt = 0
      · exact .inr ⟨_, .ended hremains hpos (.nothing hzero (e := .inputOutput) rfl)⟩
      by_cases herror : -4095 ≤ (answers n).toInt ∧ (answers n).toInt ≤ -1
      · exact .inr ⟨_, .ended hremains hpos
          (.error herror.1 herror.2 hinterrupted (e := ⟨answers n⟩) rfl)⟩
      · exact .inr ⟨_, .ended hremains hpos
          (.overrun (by omega) (toNat_toUInt64 (answers n)))⟩
    · exact .inr hdecided

/-- A delivery that is settled has no bytes left that it could go on with. -/
theorem Settles.none_remain {calls : List Call}
    (h : Settles (·.writeAll bytes) answers outcome calls)
    (hlen : bytes.length < 0x8000000000000000)
    (hremains : Remains answers bytes.length calls.length left) : left = 0 := by
  obtain ⟨_, rest, calls', rfl, hbrought⟩ := hremains.broughtTo hlen
  rw [h.nothing_left hbrought]
  rfl

theorem Settles.decided {calls : List Call} (h : Settles (·.writeAll bytes) answers outcome calls)
    (hlen : bytes.length < 0x8000000000000000) : Decided answers bytes.length outcome := by
  obtain ⟨left, hremains, hpos⟩ | ⟨outcome', hdecided⟩ :=
    remains_or_decided answers bytes.length calls.length
  · have hnone := h.none_remain hlen hremains
    omega
  · obtain ⟨calls', hsettles⟩ := hdecided.settles hlen
    obtain ⟨rfl, _⟩ := h.unique hsettles
    exact hdecided

/-! ## The outcome -/

/-- The outcome that the answers decide is the one that they settle a delivery with. -/
theorem Settles.eq_of_decided {calls : List Call} {outcome' : Delivery}
    (h : Settles (·.writeAll bytes) answers outcome calls)
    (hlen : bytes.length < 0x8000000000000000) (hdecided : Decided answers bytes.length outcome') :
    outcome = outcome' := by
  obtain ⟨calls', hsettles⟩ := hdecided.settles hlen
  exact (h.unique hsettles).1

theorem report?_overrun {answer : Int} {count : UInt64}
    (h : count.toNat = answer % 0x10000000000000000) :
    (Delivery.overrun count left).report? =
      some ("range start index " ++ toString (answer % 0x10000000000000000) ++
        " out of range for slice of length " ++ toString left) := by
  rw [← h]
  rfl

theorem report?_eq_some_iff {calls : List Call} {report : String}
    (h : Settles (·.writeAll bytes) answers outcome calls)
    (hlen : bytes.length < 0x8000000000000000) :
    outcome.report? = some report ↔
      ∃ n left, Remains answers bytes.length n left ∧ 0 < left ∧
        (left < (answers n).toInt ∨ (answers n).toInt < -4095) ∧
        report = "range start index " ++ toString ((answers n).toInt % 0x10000000000000000) ++
          " out of range for slice of length " ++ toString left := by
  constructor
  · intro hreport
    cases h.decided hlen with
    | complete => cases hreport
    | @ended n left _ hremains hpos hdecides =>
      cases hdecides with
      | nothing => cases hreport
      | error => cases hreport
      | overrun hover hcount =>
        rw [report?_overrun hcount] at hreport
        exact ⟨n, left, hremains, hpos, hover, (Option.some.inj hreport).symm⟩
  · rintro ⟨n, left, hremains, hpos, hover, rfl⟩
    have hcount := toNat_toUInt64 (answers n)
    obtain rfl := h.eq_of_decided hlen (.ended hremains hpos (.overrun hover hcount))
    exact report?_overrun hcount

/-- The last call of a failed delivery was answered with its error or with zero; the last call of an
overrun broke the contract. -/
theorem Settles.blamed {calls : List Call} (h : Settles (·.writeAll bytes) answers outcome calls)
    (hlen : bytes.length < 0x8000000000000000) :
    match outcome with
    | .delivered => True
    | .failed e => (∃ call ∈ calls, decode call.returned = .error e) ∨
        e.code.toInt = -5 ∧ ∃ call ∈ calls, call.returned.toInt = 0
    | .overrun _ _ => ∃ call ∈ calls, ¬call.Honoured := by
  cases h.decided hlen with
  | complete => trivial
  | @ended n left _ hremains hpos hdecides =>
    obtain ⟨before, offered, hoffered, hsettles⟩ := hremains.settles_ended hpos hdecides hlen
    obtain ⟨_, rfl⟩ := h.unique hsettles
    have hlast : (⟨offered, answers n⟩ : Call) ∈ before ++ [⟨offered, answers n⟩] :=
      List.mem_append_right _ (List.mem_singleton_self _)
    cases hdecides with
    | nothing hzero hcode => exact .inr ⟨hcode, _, hlast, hzero⟩
    | error hlow hneg hne hcode =>
      have hrange : -4095 ≤ answers n ∧ answers n < 0 := toInt_range.mpr ⟨hlow, by omega⟩
      exact .inl ⟨_, hlast, decode_eq_error_iff.mpr ⟨hrange, Int64.toInt_inj.mp hcode⟩⟩
    | overrun hover hcount =>
      refine ⟨_, hlast, ?_⟩
      simp only [Call.Honoured]
      omega

/-- Answers settle the delivery of a buffer with an outcome exactly when they decide it. The report
of an overrun names the answer, unsigned, and the bytes that remained. Where every call is answered
within its contract there is no overrun, and an error is one that a call was answered with, or stands
for an answer of zero. -/
theorem writeAll_decided (buffer : Buffer) (answers : Nat → Int64) (outcome : Delivery) :
    ((∃ calls, Settles (·.writeAll buffer.bytes) answers outcome calls) ↔
        Decided answers buffer.bytes.length outcome) ∧
      ∀ calls, Settles (·.writeAll buffer.bytes) answers outcome calls →
        (∀ report, outcome.report? = some report ↔
          ∃ n left, Remains answers buffer.bytes.length n left ∧ 0 < left ∧
            (left < (answers n).toInt ∨ (answers n).toInt < -4095) ∧
            report = "range start index " ++ toString ((answers n).toInt % 0x10000000000000000) ++
              " out of range for slice of length " ++ toString left) ∧
        ((∀ call ∈ calls, call.Honoured) →
          outcome.report? = none ∧
          ∀ e, outcome = .failed e →
            (∃ call ∈ calls, decode call.returned = .error e) ∨
              e.code.toInt = -5 ∧ ∃ call ∈ calls, call.returned.toInt = 0) := by
  have hlen := buffer.inMemory
  refine ⟨⟨fun ⟨_, hsettles⟩ => hsettles.decided hlen, fun hdecided => hdecided.settles hlen⟩, ?_⟩
  intro calls hsettles
  refine ⟨fun report => report?_eq_some_iff hsettles hlen, fun hhonoured => ?_⟩
  have hblamed := hsettles.blamed hlen
  cases outcome with
  | delivered => exact ⟨rfl, nofun⟩
  | failed e =>
    refine ⟨rfl, fun e' he => ?_⟩
    obtain rfl := Delivery.failed.inj he
    exact hblamed
  | overrun count left =>
    obtain ⟨call, hcall, hbroken⟩ := hblamed
    exact absurd (hhonoured call hcall) hbroken

theorem writeAll_decided_two_taken :
    (∃ calls, Settles (·.writeAll [7, 8, 9]) (fun n => [-4, 2, 5].getD n 0) (.overrun 5 1) calls) ∧
      ∃ calls, Settles (·.writeAll [7, 8, 9]) (fun n => [-4, 2, 0].getD n 0) (.failed .inputOutput)
          calls ∧
        (∀ call ∈ calls, call.Honoured) ∧
        ((∃ call ∈ calls, decode call.returned = .error .inputOutput) ∨
          KernelError.inputOutput.code.toInt = -5 ∧ ∃ call ∈ calls, call.returned.toInt = 0) := by
  have hbuffer : [7, 8, 9].length < 0x8000000000000000 := by decide
  have hremains (answers : Nat → Int64) (h : (answers 0).toInt = -4) (h' : (answers 1).toInt = 2) :
      Remains answers 3 2 1 :=
    (Remains.start.interrupted (by decide) h).taken (by decide) (by decide) h'
  constructor
  · apply (writeAll_decided ⟨[7, 8, 9], hbuffer⟩ _ _).1.mpr
    exact .ended (hremains _ rfl rfl) (by decide) (.overrun (.inl (by decide)) rfl)
  · let calls : List Call := [⟨[7, 8, 9], -4⟩, ⟨[7, 8, 9], 2⟩, ⟨[9], 0⟩]
    have hsettles : Settles (·.writeAll [7, 8, 9]) (fun n => [-4, 2, 0].getD n 0)
        (.failed .inputOutput) calls := ⟨rfl, fun _ => rfl⟩
    have hhonoured : ∀ call ∈ calls, call.Honoured := by
      simp only [calls, Call.Honoured]
      decide
    obtain ⟨_, hcalls⟩ := writeAll_decided ⟨[7, 8, 9], hbuffer⟩ (fun n => [-4, 2, 0].getD n 0) _
    exact ⟨calls, hsettles, hhonoured, ((hcalls calls hsettles).2 hhonoured).2 _ rfl⟩

end Freestanding.Kernel
