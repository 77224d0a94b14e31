import Freestanding.Proofs.Kernel.Conservation

/-!
# Interrupted calls

An interrupted call takes nothing and is made again with the same bytes. A descriptor is compared with
the one whose script has no interruptions: every action on the second comes to what the first comes to,
with the interrupted calls left out. The two runs drift apart in their scripts and stay together in the
bytes that are left.
-/
namespace Freestanding.Kernel

def Reply.interrupts (reply : Reply) : Bool := reply == .returns KernelError.interrupted.code

def Call.interrupted (call : Call) : Bool := call.returned == KernelError.interrupted.code

/-- The descriptor without the interruptions of its script. -/
def Descriptor.uninterrupted (d : Descriptor) : Descriptor :=
  { d with script := d.script.filter (!·.interrupts) }

/-- What an action comes to when its interrupted calls are left out, now and later. -/
def Transfer.uninterrupted {α : Type} (t : Transfer α) : Transfer α :=
  ⟨t.result, t.calls.filter (!·.interrupted), t.after.uninterrupted⟩

@[simp] theorem deliverThrough_nil (device : Device) (script : List Reply) :
    deliverThrough device script [] = ⟨.delivered, [], ⟨script, device⟩⟩ := by
  cases script <;> rfl

theorem uninterrupted_following {α : Type} (calls : List Call) (t : Transfer α) :
    (t.following calls).uninterrupted =
      t.uninterrupted.following (calls.filter (!·.interrupted)) := by
  simp only [Transfer.following, Transfer.uninterrupted, List.filter_append]

/-! ## Which calls are interrupted -/

variable {bytes : List UInt8}

/-- The answer that everything was taken is no interruption. -/
theorem takesAll_ne_interrupted {length : Nat} (hlen : length < 0x8000000000000000) :
    Reply.takesAll.value length ≠ KernelError.interrupted.code := by
  intro h
  have hint : (Int64.ofNat length).toInt = length := Int64.toInt_ofNat_of_lt hlen
  have hcode : KernelError.interrupted.code.toInt = -4 := rfl
  have hsame : (Int64.ofNat length).toInt = -4 := by rw [← hcode, ← h]; rfl
  omega

/-- A call is interrupted exactly when the script says so. -/
theorem interrupted_eq_interrupts (reply : Reply) (hlen : bytes.length < 0x8000000000000000) :
    (Call.mk bytes (reply.value bytes.length)).interrupted = reply.interrupts := by
  rw [Bool.eq_iff_iff, Call.interrupted, Reply.interrupts, beq_iff_eq, beq_iff_eq]
  cases reply with
  | returns value => simp only [Reply.value, Reply.returns.injEq]
  | takesAll => simpa using takesAll_ne_interrupted hlen

theorem advance_of_interrupts {reply : Reply} (h : reply.interrupts = true) :
    advance bytes (reply.value bytes.length) = .left bytes := by
  obtain rfl := beq_iff_eq.mp h
  exact advance_interrupted bytes

theorem accepted_of_interrupted {call : Call} (h : call.interrupted = true) :
    call.accepted = [] := by
  have hcode : call.returned = KernelError.interrupted.code := beq_iff_eq.mp h
  have hint : call.returned.toInt = -4 := by rw [hcode]; rfl
  exact accepted_of_no_count (Or.inl (by omega))

/-- What a sequence of calls accepted does not depend on its interrupted calls. -/
theorem accepted_filter_interrupted (calls : List Call) :
    accepted (calls.filter (!·.interrupted)) = accepted calls := by
  induction calls with
  | nil => rfl
  | cons call calls ih =>
    cases h : call.interrupted with
    | true =>
      rw [List.filter_cons_of_neg (by simp [h]), ih, accepted_cons, accepted_of_interrupted h,
        List.nil_append]
    | false => rw [List.filter_cons_of_pos (by simp [h]), accepted_cons, accepted_cons, ih]

/-- A device never interrupts. -/
theorem deliver_uninterrupted (device : Device) (hlen : bytes.length < 0x8000000000000000) :
    (device.deliver bytes).uninterrupted = device.deliver bytes := by
  cases bytes with
  | nil => rfl
  | cons byte more =>
    have hinterrupted := interrupted_eq_interrupts (device.reply (byte :: more).length) hlen
    have hreply : (device.reply (byte :: more).length).interrupts = false := by
      cases device <;> rfl
    rw [hreply] at hinterrupted
    simp only [Device.deliver, Descriptor.call, Transfer.map, Transfer.uninterrupted,
      Descriptor.uninterrupted, List.filter_nil]
    rw [List.filter_cons_of_pos (by rw [hinterrupted]; rfl), List.filter_nil]

/-! ## Runs without interruptions -/

/-- The step is one reply of the script: an interruption is dropped on one side and leaves the same
bytes on the other; any other reply means the same on both sides. -/
theorem deliverThrough_uninterrupted (device : Device) (script : List Reply)
    (hlen : bytes.length < 0x8000000000000000) :
    deliverThrough device (script.filter (!·.interrupts)) bytes =
      (deliverThrough device script bytes).uninterrupted := by
  induction script generalizing bytes with
  | nil =>
    cases bytes with
    | nil => rfl
    | cons byte more => exact (deliver_uninterrupted device hlen).symm
  | cons reply script ih =>
    cases bytes with
    | nil => rw [deliverThrough_nil, deliverThrough_nil]; rfl
    | cons byte more =>
      have hcall := interrupted_eq_interrupts reply hlen
      cases hreply : reply.interrupts with
      | true =>
        rw [hreply] at hcall
        have hstep : advance (byte :: more) (reply.value (byte :: more).length) =
            .left (byte :: more) := advance_of_interrupts hreply
        rw [List.filter_cons_of_neg (by simp [hreply]), ih hlen]
        simp only [deliverThrough, hstep, uninterrupted_following]
        rw [List.filter_cons_of_neg (by rw [hcall]; decide), List.filter_nil]
        rfl
      | false =>
        rw [hreply] at hcall
        rw [List.filter_cons_of_pos (by simp [hreply])]
        cases hstep : advance (byte :: more) (reply.value (byte :: more).length) with
        | left rest =>
          simp only [deliverThrough, hstep, ih (length_lt_of_left hlen hstep),
            uninterrupted_following]
          rw [List.filter_cons_of_pos (by rw [hcall]; rfl), List.filter_nil]
        | ends outcome =>
          simp only [deliverThrough, hstep, Transfer.uninterrupted, Descriptor.uninterrupted]
          rw [List.filter_cons_of_pos (by rw [hcall]; rfl), List.filter_nil]

theorem writeAll_uninterrupted (d : Descriptor) (hlen : bytes.length < 0x8000000000000000) :
    d.uninterrupted.writeAll bytes = (d.writeAll bytes).uninterrupted :=
  deliverThrough_uninterrupted d.device d.script hlen

theorem map_uninterrupted_writeEach (d : Descriptor) (buffers : List Buffer) :
    d.uninterrupted.writeEach buffers = (d.writeEach buffers).map (·.uninterrupted) := by
  induction buffers generalizing d with
  | nil => rfl
  | cons buffer buffers ih =>
    have hfirst := writeAll_uninterrupted d buffer.inMemory
    have hothers := ih (d.writeAll buffer.bytes).after
    simp only [Descriptor.writeEach, List.map_cons, hfirst, ← hothers]
    rfl

/-- No run ends because it was interrupted. -/
theorem Run.ne_interrupted {calls : List Call} {outcome : Delivery}
    (hrun : Run bytes calls (.ends outcome)) (hlen : bytes.length < 0x8000000000000000) :
    outcome ≠ .failed .interrupted := by
  generalize hprogress : Progress.ends outcome = progress at hrun
  induction hrun with
  | begins bytes => cases hprogress
  | goesOn _ hstep _ ih => exact ih (length_lt_of_left hlen hstep) hprogress
  | @ends bytes returned outcome' hne hstep =>
    obtain rfl := Progress.ends.inj hprogress
    have hanswer := advance_answer hlen returned
    rw [hstep] at hanswer
    intro h
    cases hanswer with
    | nothing hint => exact absurd h (by decide)
    | failed hlow hneg hne =>
      have hcode : returned = KernelError.interrupted.code :=
        congrArg KernelError.code (Delivery.failed.inj h)
      exact hne (by rw [hcode]; rfl)
    | overrun hint => cases h

theorem writeAll_ne_interrupted (d : Descriptor) (hlen : bytes.length < 0x8000000000000000) :
    (d.writeAll bytes).result ≠ .failed .interrupted := by
  intro h
  have hrun := writeAll_run d hlen
  rw [h] at hrun
  exact hrun.ne_interrupted hlen rfl

theorem mem_writeEach {d : Descriptor} {buffers : List Buffer} {sent : Transfer Delivery}
    (h : sent ∈ d.writeEach buffers) :
    ∃ (before : Descriptor) (buffer : Buffer), sent = before.writeAll buffer.bytes := by
  induction buffers generalizing d with
  | nil => cases h
  | cons buffer buffers ih =>
    rcases List.mem_cons.mp h with rfl | hmore
    · exact ⟨d, buffer, rfl⟩
    · exact ih hmore

/-- Interruptions are invisible. Without those of its script, a descriptor gives every one of a
sequence of buffers the same result and accepts the same bytes, in the same calls as before, the
interrupted ones apart; and no buffer fails because a call was interrupted. -/
theorem writeEach_uninterrupted (d : Descriptor) (buffers : List Buffer) :
    (d.uninterrupted.writeEach buffers).map (·.result) = (d.writeEach buffers).map (·.result) ∧
      (d.uninterrupted.writeEach buffers).map (fun sent => accepted sent.calls) =
        (d.writeEach buffers).map (fun sent => accepted sent.calls) ∧
      (d.uninterrupted.writeEach buffers).map (·.calls) =
        (d.writeEach buffers).map (fun sent => sent.calls.filter (!·.interrupted)) ∧
      ∀ sent ∈ d.writeEach buffers, sent.result ≠ .failed .interrupted := by
  rw [map_uninterrupted_writeEach]
  simp only [List.map_map]
  refine ⟨rfl, ?_, rfl, ?_⟩
  · exact List.map_congr_left fun sent _ => accepted_filter_interrupted sent.calls
  · intro sent hsent
    obtain ⟨before, buffer, rfl⟩ := mem_writeEach hsent
    exact writeAll_ne_interrupted before buffer.inMemory

end Freestanding.Kernel
