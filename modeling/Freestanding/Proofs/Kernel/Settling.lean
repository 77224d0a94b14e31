import Freestanding.Proofs.Kernel.Contract
import Freestanding.Proofs.Kernel.Interruption

/-!
# Actions under endless answers

The answers to the write calls may go on for ever. An action that is bounded makes only so many calls
besides the interrupted ones, so some first answers settle it, and what comes after them does not
matter. The bound of a delivery is the number of its bytes, because every answer that neither
interrupts nor ends it takes at least one.
-/
namespace Freestanding.Kernel

open Freestanding.Text (utf8)

/-- The descriptor whose next calls are answered by these values. -/
def Descriptor.answering (d : Descriptor) (values : List Int64) : Descriptor :=
  { d with script := values.map .returns ++ d.script }

theorem answering_nil (d : Descriptor) : d.answering [] = d := rfl

theorem answering_append (d : Descriptor) (values more : List Int64) :
    d.answering (values ++ more) = (d.answering more).answering values := by
  simp only [Descriptor.answering, List.map_append, List.append_assoc]

/-- Answers settle an action: they are the answers to its calls in order, and whatever comes after
them is left for later. -/
structure SettledBy {α : Type} (act : Descriptor → Transfer α) (used : List Int64) (result : α)
    (calls : List Call) : Prop where
  answered : calls.map (·.returned) = used
  settled : ∀ d : Descriptor, act (d.answering used) = ⟨result, calls, d⟩

/-- An endless sequence of answers settles an action, by as many of them as the action makes calls. -/
def Settles {α : Type} (act : Descriptor → Transfer α) (answers : Nat → Int64) (result : α)
    (calls : List Call) : Prop :=
  SettledBy act ((List.range calls.length).map answers) result calls

/-- The number of answers that do not interrupt. -/
def plainAnswers (values : List Int64) : Nat := values.countP (· != KernelError.interrupted.code)

/-- An action makes at most so many calls that are not interrupted: any answers of which so many do
not interrupt settle it. -/
def Bounded {α : Type} (act : Descriptor → Transfer α) (limit : Nat) : Prop :=
  ∀ values, limit ≤ plainAnswers values → ∃ used rest result calls,
    values = used ++ rest ∧ plainAnswers used ≤ limit ∧ SettledBy act used result calls

variable {α β : Type} {act : Descriptor → Transfer α} {next : α → Descriptor → Transfer β}

theorem plainAnswers_append (values more : List Int64) :
    plainAnswers (values ++ more) = plainAnswers values + plainAnswers more := List.countP_append

theorem plainAnswers_cons (value : Int64) (values : List Int64) :
    plainAnswers (value :: values) = plainAnswers [value] + plainAnswers values :=
  plainAnswers_append [value] values

theorem plainAnswers_interrupted : plainAnswers [KernelError.interrupted.code] = 0 := by decide

/-! ## Sequences of actions -/

theorem SettledBy.andThen {used more : List Int64} {result : α} {result' : β}
    {calls calls' : List Call} (hact : SettledBy act used result calls)
    (hnext : SettledBy (next result) more result' calls') :
    SettledBy (andThen act next) (used ++ more) result' (calls ++ calls') where
  answered := by rw [List.map_append, hact.answered, hnext.answered]
  settled d := by
    rw [answering_append, Kernel.andThen, hact.settled, hnext.settled]
    rfl

theorem SettledBy.map {used : List Int64} {result : α} {calls : List Call}
    (h : SettledBy act used result calls) (f : α → β) :
    SettledBy (fun d => (act d).map f) used (f result) calls where
  answered := h.answered
  settled d := by
    simp only [h.settled, Transfer.map]

theorem settledBy_done (a : α) : SettledBy (done a) [] a [] := ⟨rfl, fun _ => rfl⟩

theorem SettledBy.of_done {a result : α} {used : List Int64} {calls : List Call}
    (h : SettledBy (done a) used result calls) : result = a ∧ calls = [] := by
  have hrun := h.settled ⟨[], .accepting⟩
  exact ⟨(congrArg Transfer.result hrun).symm, (congrArg Transfer.calls hrun).symm⟩

theorem bounded_done (a : α) (limit : Nat) : Bounded (done a) limit := by
  intro values _
  exact ⟨[], values, a, [], rfl, Nat.zero_le _, settledBy_done a⟩

theorem Bounded.andThen {m n : Nat} (hact : Bounded act m) (hnext : ∀ a, Bounded (next a) n) :
    Bounded (andThen act next) (m + n) := by
  intro values hvalues
  obtain ⟨used, rest, result, calls, rfl, hused, hsettled⟩ := hact values (by omega)
  rw [plainAnswers_append] at hvalues
  obtain ⟨more, rest, result', calls', rfl, hmore, hsettled'⟩ := hnext result rest (by omega)
  refine ⟨used ++ more, rest, result', calls ++ calls', (List.append_assoc ..).symm, ?_,
    hsettled.andThen hsettled'⟩
  rw [plainAnswers_append]
  omega

theorem Bounded.map {limit : Nat} (hact : Bounded act limit) (f : α → β) :
    Bounded (fun d => (act d).map f) limit := by
  intro values hvalues
  obtain ⟨used, rest, result, calls, hsplit, hused, hsettled⟩ := hact values hvalues
  exact ⟨used, rest, f result, calls, hsplit, hused, hsettled.map f⟩

theorem following_eq_iff {t : Transfer α} {calls others : List Call} {result : α} {d : Descriptor} :
    t.following calls = ⟨result, calls ++ others, d⟩ ↔ t = ⟨result, others, d⟩ := by
  cases t
  simp only [Transfer.following, Transfer.mk.injEq, List.append_cancel_left_eq]

theorem plainAnswers_replicate (limit : Nat) : plainAnswers (List.replicate limit 0) = limit := by
  have hall : ∀ value ∈ List.replicate limit (0 : Int64),
      (value != KernelError.interrupted.code) = true := by
    intro value hvalue
    rw [List.eq_of_mem_replicate hvalue]
    decide
  rw [plainAnswers, List.countP_eq_length.mpr hall, List.length_replicate]

/-- With plain answers behind them, any answers reach the bound of an action. -/
theorem Bounded.reached {limit : Nat} (hact : Bounded act limit) (values : List Int64) :
    ∃ used rest result calls, values ++ List.replicate limit 0 = used ++ rest ∧
      plainAnswers used ≤ limit ∧ SettledBy act used result calls :=
  hact (values ++ List.replicate limit 0) (by
    rw [plainAnswers_append, plainAnswers_replicate]
    exact Nat.le_add_left ..)

/-- An action makes no more plain calls than its bound, whatever settles it. -/
theorem Bounded.plainAnswers_le {limit : Nat} {used : List Int64} {result : α} {calls : List Call}
    (hact : Bounded act limit) (h : SettledBy act used result calls) :
    plainAnswers used ≤ limit := by
  obtain ⟨used', rest, result', calls', hsplit, hused, hsettled⟩ := hact.reached used
  have hrun := h.settled ((Descriptor.mk [] .accepting).answering (List.replicate limit 0))
  rw [← answering_append, hsplit, answering_append, hsettled.settled] at hrun
  obtain rfl : calls' = calls := congrArg Transfer.calls hrun
  rwa [← h.answered, hsettled.answered]

/-- What settles two actions settles the first and then the second. -/
theorem SettledBy.parts {limit : Nat} {used : List Int64} {result : β} {calls : List Call}
    (h : SettledBy (Kernel.andThen act next) used result calls) (hact : Bounded act limit) :
    ∃ first calls' more others, calls = calls' ++ others ∧
      SettledBy act (calls'.map (·.returned)) first calls' ∧
      SettledBy (next first) more result others := by
  obtain ⟨used', rest, first, calls', hsplit, _, hfirst⟩ := hact.reached used
  obtain rfl := hfirst.answered
  -- Both actions together make the calls of the first, so the answers to these are among those used.
  have hcalls : ∃ others, calls = calls' ++ others := by
    have hrun := h.settled ((Descriptor.mk [] .accepting).answering (List.replicate limit 0))
    rw [← answering_append, hsplit, answering_append, Kernel.andThen, hfirst.settled] at hrun
    exact ⟨_, (congrArg Transfer.calls hrun).symm⟩
  obtain ⟨others, rfl⟩ := hcalls
  obtain rfl := h.answered
  rw [List.map_append] at h
  refine ⟨first, calls', others.map (·.returned), others, rfl, hfirst, rfl, fun d => ?_⟩
  have hrun := h.settled d
  rw [answering_append, Kernel.andThen, hfirst.settled] at hrun
  exact following_eq_iff.mp hrun

/-! ## Deliveries are bounded by their bytes -/

/-- An answer that lets a delivery go on takes at least one byte, unless it interrupts. -/
theorem length_lt_of_plain {offered rest : List UInt8} {answer : Int64}
    (h : advance offered answer = .left rest) (hplain : answer ≠ KernelError.interrupted.code) :
    rest.length < offered.length := by
  unfold advance at h
  cases hdecode : decode answer with
  | ok n =>
    rw [hdecode] at h
    by_cases hzero : n = 0
    · simp only [hzero, ↓reduceIte] at h
      cases h
    · have hpos : n.toNat ≠ 0 := fun h0 => hzero (UInt64.toNat_inj.mp h0)
      by_cases hle : n.toNat ≤ offered.length
      · simp only [hzero, hle, ↓reduceIte] at h
        obtain rfl := Progress.left.inj h
        rw [List.length_drop]
        omega
      · simp only [hzero, hle, ↓reduceIte] at h
        cases h
  | error e =>
    obtain ⟨_, hcode⟩ := decode_eq_error_iff.mp hdecode
    by_cases he : e = .interrupted
    · exact absurd (by rw [← hcode, he]) hplain
    · simp only [hdecode, he, ↓reduceIte] at h
      cases h

/-- Every answer that lets a delivery go on takes a byte, or it interrupts. -/
theorem plainAnswers_add_length_of_left {offered rest : List UInt8} {value : Int64}
    (h : advance offered value = .left rest) :
    plainAnswers [value] + rest.length ≤ offered.length := by
  by_cases hvalue : value = KernelError.interrupted.code
  · rw [hvalue, advance_interrupted] at h
    obtain rfl := Progress.left.inj h
    rw [hvalue, plainAnswers_interrupted]
    omega
  · have hone : plainAnswers [value] ≤ 1 := List.countP_le_length
    have hlt := length_lt_of_plain h hvalue
    omega

theorem writeAll_answering_cons (d : Descriptor) (value : Int64) (values : List Int64) (byte : UInt8)
    (more : List UInt8) :
    (d.answering (value :: values)).writeAll (byte :: more) =
      match advance (byte :: more) value with
      | .left rest => ((d.answering values).writeAll rest).following [⟨byte :: more, value⟩]
      | .ends outcome => ⟨outcome, [⟨byte :: more, value⟩], d.answering values⟩ := rfl

theorem settledBy_of_left {value : Int64} {byte : UInt8} {more rest : List UInt8} {used : List Int64}
    {result : Delivery} {calls : List Call} (hstep : advance (byte :: more) value = .left rest)
    (h : SettledBy (·.writeAll rest) used result calls) :
    SettledBy (·.writeAll (byte :: more)) (value :: used) result
      (⟨byte :: more, value⟩ :: calls) where
  answered := congrArg (value :: ·) h.answered
  settled d := by
    simp only [writeAll_answering_cons, hstep, h.settled, Transfer.following, List.singleton_append]

/-- What settles the delivery of something answers a first call, which ends the delivery or leaves
the rest of it to be settled. -/
theorem SettledBy.first {byte : UInt8} {more : List UInt8} {used : List Int64} {result : Delivery}
    {calls : List Call} (h : SettledBy (·.writeAll (byte :: more)) used result calls) :
    ∃ value others, calls = ⟨byte :: more, value⟩ :: others ∧
      ((∃ rest, advance (byte :: more) value = .left rest ∧
          SettledBy (·.writeAll rest) (others.map (·.returned)) result others) ∨
        advance (byte :: more) value = .ends result ∧ others = []) := by
  cases used with
  | nil =>
    obtain rfl := List.map_eq_nil_iff.mp h.answered
    have hcalls := congrArg (·.calls) (h.settled ⟨[], .full⟩)
    cases hcalls
  | cons value used =>
    have hanswered := h.answered
    have hrun := h.settled
    simp only [writeAll_answering_cons] at hrun
    cases hstep : advance (byte :: more) value with
    | left rest =>
      simp only [hstep] at hrun
      obtain ⟨others, rfl⟩ : ∃ others, calls = [⟨byte :: more, value⟩] ++ others :=
        ⟨_, (congrArg Transfer.calls (hrun ⟨[], .full⟩)).symm⟩
      obtain rfl := (List.cons.inj hanswered).2
      exact ⟨value, others, rfl, .inl ⟨rest, hstep, rfl, fun d => following_eq_iff.mp (hrun d)⟩⟩
    | ends outcome =>
      simp only [hstep] at hrun
      obtain rfl := congrArg Transfer.result (hrun ⟨[], .full⟩)
      obtain rfl := congrArg Transfer.calls (hrun ⟨[], .full⟩)
      exact ⟨value, [], rfl, .inr ⟨hstep, rfl⟩⟩

theorem writeAll_nil : (Descriptor.writeAll · []) = done .delivered :=
  funext fun d => deliverThrough_nil d.device d.script

theorem settledBy_nothing : SettledBy (Descriptor.writeAll · []) [] .delivered [] :=
  writeAll_nil ▸ settledBy_done Delivery.delivered

theorem SettledBy.nothing {used : List Int64} {result : Delivery} {calls : List Call}
    (h : SettledBy (·.writeAll []) used result calls) : result = .delivered ∧ calls = [] := by
  rw [writeAll_nil] at h
  exact h.of_done

theorem bounded_writeAll (bytes : List UInt8) : Bounded (·.writeAll bytes) bytes.length := by
  intro values hvalues
  -- An interruption leaves the bytes and the bound as they are; any other answer makes both smaller.
  induction values generalizing bytes with
  | nil =>
    obtain rfl : bytes = [] := List.length_eq_zero_iff.mp (Nat.le_zero.mp hvalues)
    exact ⟨[], [], .delivered, [], rfl, Nat.zero_le _, settledBy_nothing⟩
  | cons value values ih =>
    cases bytes with
    | nil =>
      exact ⟨[], _, .delivered, [], rfl, Nat.zero_le _, settledBy_nothing⟩
    | cons byte more =>
      cases hstep : advance (byte :: more) value with
      | left rest =>
        have hbytes := plainAnswers_add_length_of_left hstep
        rw [plainAnswers_cons] at hvalues
        obtain ⟨used, others, result, calls, rfl, hused, hsettled⟩ := ih rest (by omega)
        refine ⟨value :: used, others, result, _, rfl, ?_, settledBy_of_left hstep hsettled⟩
        rw [plainAnswers_cons]
        omega
      | ends outcome =>
        have hone : plainAnswers [value] ≤ 1 := List.countP_le_length
        refine ⟨[value], values, outcome, [⟨byte :: more, value⟩], rfl, ?_, rfl, fun d => ?_⟩
        · rw [List.length_cons]
          omega
        · simp only [writeAll_answering_cons, hstep, answering_nil]

theorem bounded_writePieces (pieces : List String) :
    ∃ limit, Bounded (·.writePieces pieces) limit := by
  induction pieces with
  | nil => exact ⟨0, bounded_done Delivery.delivered 0⟩
  | cons piece pieces ih =>
    obtain ⟨limit, hlimit⟩ := ih
    have hnext (outcome : Delivery) : Bounded (afterPiece pieces outcome) limit := by
      cases outcome with
      | delivered => exact hlimit
      | failed e => exact bounded_done _ _
      | overrun returned left => exact bounded_done _ _
    have hboth := (bounded_writeAll (utf8 piece)).andThen hnext
    exact ⟨_, (funext (writePieces_cons piece pieces)) ▸ hboth⟩

theorem bounded_note (pieces : List String) : ∃ limit, Bounded (·.note pieces) limit := by
  obtain ⟨limit, hlimit⟩ := bounded_writePieces pieces
  exact ⟨limit, hlimit.map _⟩

/-! ## Sequences of answers -/

/-- The number of answers that settle an action is that of its calls. -/
theorem SettledBy.settles {answers : Nat → Int64} {result : α} {calls : List Call} {n : Nat}
    (h : SettledBy act ((List.range n).map answers) result calls) :
    Settles act answers result calls := by
  have hlength : calls.length = n := by
    have hanswered := congrArg List.length h.answered
    rwa [List.length_map, List.length_map, List.length_range] at hanswered
  rwa [Settles, hlength]

/-- More answers than an action needs are left for later. -/
theorem Settles.answering {answers : Nat → Int64} {result : α} {calls : List Call} {n : Nat}
    (h : Settles act answers result calls) (hle : calls.length ≤ n) (d : Descriptor) :
    ∃ after, act (d.answering ((List.range n).map answers)) = ⟨result, calls, after⟩ := by
  obtain ⟨more, rfl⟩ := Nat.exists_eq_add_of_le hle
  rw [List.range_add, List.map_append, answering_append, h.settled]
  exact ⟨_, rfl⟩

/-- An endless sequence of answers settles an action in one way only. -/
theorem Settles.unique {answers : Nat → Int64} {result result' : α} {calls calls' : List Call}
    (h : Settles act answers result calls) (h' : Settles act answers result' calls') :
    result = result' ∧ calls = calls' := by
  obtain ⟨after, hfirst⟩ := h.answering (Nat.le_max_left _ calls'.length) ⟨[], .accepting⟩
  obtain ⟨after', hsecond⟩ := h'.answering (Nat.le_max_right calls.length _) ⟨[], .accepting⟩
  have hsame := hfirst.symm.trans hsecond
  exact ⟨congrArg Transfer.result hsame, congrArg Transfer.calls hsame⟩

theorem first_succ (answers : Nat → Int64) (n : Nat) :
    (List.range (n + 1)).map answers = (List.range n).map answers ++ [answers n] := by
  rw [List.range_succ, List.map_append, List.map_singleton]

theorem exists_plainAnswers {answers : Nat → Int64}
    (h : ∀ n, ∃ i, n ≤ i ∧ answers i ≠ KernelError.interrupted.code) (limit : Nat) :
    ∃ n, limit ≤ plainAnswers ((List.range n).map answers) := by
  induction limit with
  | zero => exact ⟨0, Nat.zero_le _⟩
  | succ limit ih =>
    obtain ⟨n, hn⟩ := ih
    obtain ⟨i, hi, hplain⟩ := h n
    refine ⟨i + 1, ?_⟩
    have hlast : plainAnswers [answers i] = 1 :=
      List.countP_eq_length.mpr fun value hvalue => by
        rw [List.mem_singleton.mp hvalue]
        exact bne_iff_ne.mpr hplain
    have hbefore : plainAnswers ((List.range n).map answers) ≤
        plainAnswers ((List.range i).map answers) :=
      ((List.range_sublist.mpr hi).map answers).countP_le
    rw [first_succ, plainAnswers_append, hlast]
    omega

/-- A bounded action is settled by every sequence of answers that does not interrupt for ever. -/
theorem Bounded.settles {limit : Nat} (hact : Bounded act limit) {answers : Nat → Int64}
    (h : ∀ n, ∃ i, n ≤ i ∧ answers i ≠ KernelError.interrupted.code) :
    ∃ result calls, Settles act answers result calls := by
  obtain ⟨n, hn⟩ := exists_plainAnswers h limit
  obtain ⟨used, rest, result, calls, hsplit, _, hsettled⟩ := hact _ hn
  -- Each call uses one answer, so the answers used are the first of the sequence.
  have hlength : used.length = calls.length := by rw [← hsettled.answered, List.length_map]
  have hprefix : used = (List.range calls.length).map answers := by
    have hle : calls.length ≤ n := by
      have := congrArg List.length hsplit
      rw [List.length_map, List.length_range, List.length_append] at this
      omega
    have htake := congrArg (List.take calls.length) hsplit
    rw [← List.map_take, List.take_range, Nat.min_eq_left hle, List.take_left' hlength] at htake
    exact htake.symm
  exact ⟨result, calls, by rwa [Settles, ← hprefix]⟩

end Freestanding.Kernel
