import Freestanding.Proofs.Kernel.Outcome

/-!
# Deliveries come to an end

The loop of a delivery has two ways to go on: an answer that takes bytes leaves fewer of them, and an
interruption leaves them as they are. So the answers that do not interrupt are counted off against
the bytes, and a delivery that never ends is one whose calls are interrupted for ever. There is
nothing between the two: whatever the answers are, they settle the delivery or it is endless.
-/
namespace Freestanding.Kernel

/-- From some answer on, every answer interrupts. -/
def InterruptsForEver (answers : Nat → Int64) : Prop :=
  ∃ n, ∀ i, n ≤ i → answers i = KernelError.interrupted.code

/-- A delivery that never ends: each answer leaves something to offer in the next call. -/
structure Endless (bytes : List UInt8) (answers : Nat → Int64)
    (offers : Nat → List UInt8) : Prop where
  begins : offers 0 = bytes
  offered : ∀ n, offers n ≠ []
  goesOn : ∀ n, advance (offers n) (answers n) = .left (offers (n + 1))

variable {bytes : List UInt8} {answers : Nat → Int64} {offers : Nat → List UInt8}

/-! ## The calls that are not interrupted -/

theorem length_filter_interrupted (calls : List Call) :
    (calls.filter (!·.interrupted)).length = plainAnswers (calls.map (·.returned)) := by
  rw [plainAnswers, List.countP_map, List.countP_eq_length_filter]
  rfl

theorem Settles.plainCalls_le {outcome : Delivery} {calls : List Call}
    (h : Settles (·.writeAll bytes) answers outcome calls) :
    (calls.filter (!·.interrupted)).length ≤ bytes.length := by
  rw [length_filter_interrupted, h.answered]
  exact (bounded_writeAll bytes).plainAnswers_le h

/-! ## Endless deliveries -/

/-- Each answer that does not interrupt is counted off against the bytes; one that interrupts leaves
the count and the bytes as they are. -/
theorem Endless.plainAnswers_add_length (h : Endless bytes answers offers) (n : Nat) :
    plainAnswers ((List.range n).map answers) + (offers n).length ≤ bytes.length := by
  induction n with
  | zero =>
    rw [h.begins]
    exact Nat.le_of_eq (Nat.zero_add _)
  | succ n ih =>
    have hstep := plainAnswers_add_length_of_left (h.goesOn n)
    rw [first_succ, plainAnswers_append]
    omega

/-- Only interruptions keep a delivery from its end. -/
theorem Endless.interruptsForEver (h : Endless bytes answers offers) : InterruptsForEver answers := by
  apply Classical.byContradiction
  intro hplain
  have hoften : ∀ n, ∃ i, n ≤ i ∧ answers i ≠ KernelError.interrupted.code := by
    simpa only [InterruptsForEver, not_exists, Classical.not_forall, exists_prop] using hplain
  obtain ⟨n, hn⟩ := exists_plainAnswers hoften (bytes.length + 1)
  have hbytes := h.plainAnswers_add_length n
  omega

/-- Interruptions from the first call on keep every delivery of something from its end. -/
theorem endless_of_interrupted (hne : bytes ≠ [])
    (h : ∀ n, answers n = KernelError.interrupted.code) : Endless bytes answers fun _ => bytes where
  begins := rfl
  offered _ := hne
  goesOn n := by rw [h n, advance_interrupted]

theorem Endless.broughtTo (h : Endless bytes answers offers) (n : Nat) :
    ∃ calls, BroughtTo bytes ((List.range n).map answers) (offers n) calls := by
  induction n with
  | zero =>
    rw [h.begins]
    exact ⟨[], .start bytes⟩
  | succ n ih =>
    obtain ⟨calls, hbrought⟩ := ih
    rw [first_succ]
    exact ⟨_, hbrought.step (h.offered n) (h.goesOn n)⟩

/-! ## A delivery is settled or endless -/

/-- The bytes left after the first answers, as long as none of these ends the delivery. -/
def leftAfter (bytes : List UInt8) (answers : Nat → Int64) : Nat → List UInt8
  | 0 => bytes
  | n + 1 =>
    match advance (leftAfter bytes answers n) (answers n) with
    | .left rest => rest
    | .ends _ => []

/-- No answer ends a delivery that nothing settles: it leaves the bytes for the next call. -/
theorem leftAfter_succ {calls : List Call} {n : Nat}
    (hunsettled : ¬∃ outcome calls, Settles (·.writeAll bytes) answers outcome calls)
    (hne : leftAfter bytes answers n ≠ [])
    (h : BroughtTo bytes ((List.range n).map answers) (leftAfter bytes answers n) calls) :
    advance (leftAfter bytes answers n) (answers n) = .left (leftAfter bytes answers (n + 1)) := by
  cases hstep : advance (leftAfter bytes answers n) (answers n) with
  | left rest => simp only [leftAfter, hstep]
  | ends outcome => exact absurd ⟨outcome, _, h.settles_ended hne hstep⟩ hunsettled

/-- The invariant of a delivery that no first answers settle: they bring it to what is left, and
something is left. -/
theorem broughtTo_leftAfter
    (hunsettled : ¬∃ outcome calls, Settles (·.writeAll bytes) answers outcome calls) (n : Nat) :
    ∃ calls, BroughtTo bytes ((List.range n).map answers) (leftAfter bytes answers n) calls ∧
      leftAfter bytes answers n ≠ [] := by
  -- If nothing were left, the delivery would be settled.
  have hleft {m : Nat} {calls : List Call}
      (h : BroughtTo bytes ((List.range m).map answers) (leftAfter bytes answers m) calls) :
      leftAfter bytes answers m ≠ [] := by
    intro hnil
    rw [hnil] at h
    exact hunsettled ⟨_, _, h.settles_delivered⟩
  induction n with
  | zero => exact ⟨[], .start bytes, hleft (m := 0) (.start bytes)⟩
  | succ n ih =>
    obtain ⟨calls, hbrought, hne⟩ := ih
    have hnext := hbrought.step hne (leftAfter_succ hunsettled hne hbrought)
    rw [← first_succ] at hnext
    exact ⟨_, hnext, hleft hnext⟩

theorem endless_leftAfter
    (hunsettled : ¬∃ outcome calls, Settles (·.writeAll bytes) answers outcome calls) :
    Endless bytes answers (leftAfter bytes answers) where
  begins := rfl
  offered n := by
    obtain ⟨_, _, hne⟩ := broughtTo_leftAfter hunsettled n
    exact hne
  goesOn n := by
    obtain ⟨_, hbrought, hne⟩ := broughtTo_leftAfter hunsettled n
    exact leftAfter_succ hunsettled hne hbrought

/-- Answers settle a delivery exactly when they do not keep it going for ever. -/
theorem exists_settles_iff (bytes : List UInt8) (answers : Nat → Int64) :
    (∃ outcome calls, Settles (·.writeAll bytes) answers outcome calls) ↔
      ¬∃ offers, Endless bytes answers offers := by
  constructor
  · rintro ⟨outcome, calls, hsettles⟩ ⟨offers, hendless⟩
    obtain ⟨calls', hbrought⟩ := hendless.broughtTo calls.length
    exact hendless.offered _ (hsettles.nothing_left hbrought)
  · intro hends
    apply Classical.byContradiction
    intro hunsettled
    exact hends ⟨_, endless_leftAfter hunsettled⟩

/-- A delivery that is not interrupted for ever comes to its end: it does not go on endlessly, and
some first answers settle it, with one of its three outcomes. It makes at most as many calls as there
are bytes besides the interrupted ones, and none when there is nothing to deliver. -/
theorem writeAll_ends (bytes : List UInt8) (answers : Nat → Int64)
    (h : ¬InterruptsForEver answers) :
    (¬∃ offers, Endless bytes answers offers) ∧
      (∃ outcome calls, Settles (·.writeAll bytes) answers outcome calls) ∧
      ∀ outcome calls, Settles (·.writeAll bytes) answers outcome calls →
        (calls.filter (!·.interrupted)).length ≤ bytes.length ∧ (bytes = [] → calls = []) := by
  have hends : ¬∃ offers, Endless bytes answers offers :=
    fun ⟨_, hendless⟩ => h hendless.interruptsForEver
  refine ⟨hends, (exists_settles_iff bytes answers).mpr hends, fun outcome calls hsettles => ?_⟩
  refine ⟨hsettles.plainCalls_le, fun hempty => ?_⟩
  subst hempty
  exact (SettledBy.nothing hsettles).2

/-- Answers of which every other one interrupts, and the others take one byte each. -/
def interruptingInTurn (n : Nat) : Int64 := if n % 2 = 0 then -4 else 1

theorem writeAll_ends_interrupted_in_turn :
    ¬InterruptsForEver interruptingInTurn ∧
      (¬∃ offers, Endless [7, 8] interruptingInTurn offers) ∧
      ∃ calls, Settles (·.writeAll [7, 8]) interruptingInTurn .delivered calls ∧
        calls.length = 4 ∧ (calls.filter (!·.interrupted)).length ≤ 2 := by
  have hplain : ¬InterruptsForEver interruptingInTurn := by
    rintro ⟨n, hn⟩
    have hlate := hn (2 * n + 1) (by omega)
    rw [interruptingInTurn, if_neg (by omega)] at hlate
    exact absurd hlate (by decide)
  let calls : List Call := [⟨[7, 8], -4⟩, ⟨[7, 8], 1⟩, ⟨[8], -4⟩, ⟨[8], 1⟩]
  have hsettles : Settles (·.writeAll [7, 8]) interruptingInTurn .delivered calls :=
    settledBy_of_left rfl <| settledBy_of_left rfl <| settledBy_of_left rfl <|
      settledBy_of_left rfl settledBy_nothing
  obtain ⟨hends, _, hbound⟩ := writeAll_ends [7, 8] interruptingInTurn hplain
  exact ⟨hplain, hends, calls, hsettles, rfl, (hbound _ _ hsettles).1⟩

end Freestanding.Kernel
