import Freestanding.Proofs.Kernel.Answer

/-!
# What a delivery accepts

A delivery is a run of calls, each of which offers what the calls before it left. The invariant of the
run is that the bytes accepted so far, followed by the bytes on offer, are the whole buffer. A run may
be unfinished, so the invariant speaks of deliveries that never end as well.
-/
namespace Freestanding.Kernel

/-- A run of bytes in memory. No object takes up half of the address space. -/
structure Buffer where
  bytes : List UInt8
  inMemory : bytes.length < 0x8000000000000000

/-- Calls that deliver bytes, with any answers, and how far the delivery has come. -/
inductive Run : List UInt8 → List Call → Progress → Prop
  | begins (bytes : List UInt8) : Run bytes [] (.left bytes)
  | goesOn {bytes rest : List UInt8} {returned : Int64} {calls : List Call} {progress : Progress} :
      bytes ≠ [] → advance bytes returned = .left rest → Run rest calls progress →
      Run bytes (⟨bytes, returned⟩ :: calls) progress
  | ends {bytes : List UInt8} {returned : Int64} {outcome : Delivery} :
      bytes ≠ [] → advance bytes returned = .ends outcome →
      Run bytes [⟨bytes, returned⟩] (.ends outcome)

def Delivery.progress : Delivery → Progress
  | .delivered => .left []
  | outcome => .ends outcome

/-- Before every call, what was accepted and what the call offers make up the bytes, and the call
offers something. -/
def Exact (bytes : List UInt8) (calls : List Call) : Prop :=
  ∀ before call after, calls = before ++ call :: after →
    accepted before ++ call.offered = bytes ∧ call.offered ≠ []

theorem accepted_cons (call : Call) (calls : List Call) :
    accepted (call :: calls) = call.accepted ++ accepted calls := rfl

theorem accepted_append (calls others : List Call) :
    accepted (calls ++ others) = accepted calls ++ accepted others := List.flatMap_append

/-! ## Invariants of a run -/

variable {bytes rest : List UInt8} {calls : List Call} {progress : Progress} {outcome : Delivery}

theorem length_lt_of_left {offered : List UInt8} {returned : Int64}
    (hlen : offered.length < 0x8000000000000000)
    (h : advance offered returned = .left rest) : rest.length < 0x8000000000000000 := by
  have hbytes := congrArg List.length (accepted_append_of_left hlen h)
  rw [List.length_append] at hbytes
  omega

/-- The accepted bytes and the bytes that are left make up the buffer. -/
theorem Run.accepted_append (hrun : Run bytes calls (.left rest))
    (hlen : bytes.length < 0x8000000000000000) :
    accepted calls ++ rest = bytes := by
  generalize hprogress : Progress.left rest = progress at hrun
  induction hrun with
  | begins bytes => exact Progress.left.inj hprogress
  | goesOn _ hstep _ ih =>
    rw [accepted_cons, List.append_assoc, ih (length_lt_of_left hlen hstep) hprogress]
    exact accepted_append_of_left hlen hstep
  | ends => cases hprogress

/-- What was accepted when a run ends is a part of the buffer from its front, and not all of it. -/
theorem Run.accepted_of_ends (hrun : Run bytes calls (.ends outcome))
    (hlen : bytes.length < 0x8000000000000000) :
    ∃ unsent, unsent ≠ [] ∧ accepted calls ++ unsent = bytes := by
  generalize hprogress : Progress.ends outcome = progress at hrun
  induction hrun with
  | begins bytes => cases hprogress
  | goesOn _ hstep _ ih =>
    obtain ⟨unsent, hne, heq⟩ := ih (length_lt_of_left hlen hstep) hprogress
    refine ⟨unsent, hne, ?_⟩
    rw [accepted_cons, List.append_assoc, heq]
    exact accepted_append_of_left hlen hstep
  | @ends bytes returned outcome' hne hstep =>
    refine ⟨bytes, hne, ?_⟩
    rw [accepted_cons, (Kernel.accepted_of_ends hlen hstep).1]
    rfl

/-- The invariant holds before every call of a run, finished or not. -/
theorem Run.exact (hrun : Run bytes calls progress) (hlen : bytes.length < 0x8000000000000000) :
    Exact bytes calls := by
  induction hrun with
  | begins bytes =>
    intro before call after h
    exact absurd h.symm (List.append_ne_nil_of_right_ne_nil _ (List.cons_ne_nil _ _))
  | @goesOn bytes rest returned calls progress hne hstep _ ih =>
    intro before call after h
    cases before with
    | nil =>
      obtain ⟨rfl, _⟩ := List.cons.inj h
      exact ⟨rfl, hne⟩
    | cons first before =>
      obtain ⟨rfl, hcalls⟩ := List.cons.inj h
      obtain ⟨heq, hoffered⟩ := ih (length_lt_of_left hlen hstep) before call after hcalls
      refine ⟨?_, hoffered⟩
      rw [accepted_cons, List.append_assoc, heq]
      exact accepted_append_of_left hlen hstep
  | @ends bytes returned outcome hne hstep =>
    intro before call after h
    cases before with
    | nil =>
      obtain ⟨rfl, _⟩ := List.cons.inj h
      exact ⟨rfl, hne⟩
    | cons first before =>
      have hnil := (List.cons.inj h).2
      exact absurd hnil.symm (List.append_ne_nil_of_right_ne_nil _ (List.cons_ne_nil _ _))

/-! ## Deliveries are runs -/

theorem Run.of_ends {offered : List UInt8} {returned : Int64}
    (hlen : offered.length < 0x8000000000000000)
    (hne : offered ≠ []) (h : advance offered returned = .ends outcome) :
    Run offered [⟨offered, returned⟩] outcome.progress := by
  have hprogress : outcome.progress = .ends outcome := by
    cases houtcome : outcome with
    | delivered => exact absurd houtcome (Kernel.accepted_of_ends hlen h).2
    | failed e => rfl
    | overrun returned left => rfl
  rw [hprogress]
  exact .ends hne h

theorem deliver_run (device : Device) (hlen : bytes.length < 0x8000000000000000) :
    Run bytes (device.deliver bytes).calls (device.deliver bytes).result.progress := by
  cases bytes with
  | nil => exact .begins []
  | cons byte more =>
    have hne : byte :: more ≠ [] := List.cons_ne_nil byte more
    cases device with
    | accepting =>
      have hstep := advance_takesAll hne hlen
      simp only [Device.deliver, Descriptor.call, Device.reply, Transfer.map, hstep]
      exact .goesOn hne hstep (.begins [])
    | full => exact .of_ends hlen hne rfl
    | unwritable => exact .of_ends hlen hne rfl
    | brokenPipe => exact .of_ends hlen hne rfl

theorem deliverThrough_run (device : Device) (script : List Reply)
    (hlen : bytes.length < 0x8000000000000000) :
    Run bytes (deliverThrough device script bytes).calls
      (deliverThrough device script bytes).result.progress := by
  induction script generalizing bytes with
  | nil =>
    cases bytes with
    | nil => exact .begins []
    | cons byte more => exact deliver_run device hlen
  | cons reply script ih =>
    cases bytes with
    | nil => exact .begins []
    | cons byte more =>
      have hne : byte :: more ≠ [] := List.cons_ne_nil byte more
      cases hstep : advance (byte :: more) (reply.value (byte :: more).length) with
      | left rest =>
        have hrest := ih (length_lt_of_left hlen hstep)
        simp only [deliverThrough, hstep, Transfer.following, List.singleton_append]
        exact .goesOn hne hstep hrest
      | ends outcome =>
        simp only [deliverThrough, hstep]
        exact .of_ends hlen hne hstep

/-- A delivery is a run that has come to its end. -/
theorem writeAll_run (d : Descriptor) (hlen : bytes.length < 0x8000000000000000) :
    Run bytes (d.writeAll bytes).calls (d.writeAll bytes).result.progress :=
  deliverThrough_run d.device d.script hlen

/-! ## Deliveries one after the other -/

/-- Delivers buffers to a descriptor, each after the one before has ended. -/
def Descriptor.writeEach (d : Descriptor) : List Buffer → List (Transfer Delivery)
  | [] => []
  | buffer :: buffers =>
    let sent := d.writeAll buffer.bytes
    sent :: sent.after.writeEach buffers

theorem accepted_of_delivered (d : Descriptor) (buffer : Buffer)
    (h : (d.writeAll buffer.bytes).result = .delivered) :
    accepted (d.writeAll buffer.bytes).calls = buffer.bytes := by
  have hrun := writeAll_run d buffer.inMemory
  rw [h] at hrun
  have hall := hrun.accepted_append buffer.inMemory
  rwa [List.append_nil] at hall

theorem accepted_of_not_delivered (d : Descriptor) (buffer : Buffer)
    (h : (d.writeAll buffer.bytes).result ≠ .delivered) :
    ∃ unsent, unsent ≠ [] ∧ accepted (d.writeAll buffer.bytes).calls ++ unsent = buffer.bytes := by
  have hrun := writeAll_run d buffer.inMemory
  have hprogress : (d.writeAll buffer.bytes).result.progress =
      .ends (d.writeAll buffer.bytes).result := by
    cases hresult : (d.writeAll buffer.bytes).result with
    | delivered => exact absurd hresult h
    | failed e => rfl
    | overrun returned left => rfl
  rw [hprogress] at hrun
  exact hrun.accepted_of_ends buffer.inMemory

theorem accepted_writeEach (d : Descriptor) (buffers : List Buffer)
    (h : ∀ sent ∈ d.writeEach buffers, sent.result = .delivered) :
    accepted ((d.writeEach buffers).flatMap (·.calls)) = buffers.flatMap (·.bytes) := by
  induction buffers generalizing d with
  | nil => rfl
  | cons buffer buffers ih =>
    have hfirst := accepted_of_delivered d buffer (h _ (List.mem_cons_self ..))
    have hothers := ih (d.writeAll buffer.bytes).after fun sent hsent =>
      h sent (List.mem_cons_of_mem _ hsent)
    rw [Descriptor.writeEach, List.flatMap_cons, accepted_append, hfirst, hothers,
      List.flatMap_cons]

/-- No byte is lost, repeated or moved. Before every call of a run, the accepted bytes and those on
offer are the buffer. A buffer that is delivered was accepted as it is; one that is not was accepted
in part, from its front; and buffers that are all delivered were accepted one after the other. -/
theorem writeAll_conserves (d : Descriptor) (buffer : Buffer) :
    (∀ calls progress, Run buffer.bytes calls progress → Exact buffer.bytes calls) ∧
      Exact buffer.bytes (d.writeAll buffer.bytes).calls ∧
      ((d.writeAll buffer.bytes).result = .delivered →
        accepted (d.writeAll buffer.bytes).calls = buffer.bytes) ∧
      ((d.writeAll buffer.bytes).result ≠ .delivered →
        accepted (d.writeAll buffer.bytes).calls <+: buffer.bytes ∧
          accepted (d.writeAll buffer.bytes).calls ≠ buffer.bytes) ∧
      ∀ buffers, (∀ sent ∈ d.writeEach buffers, sent.result = .delivered) →
        accepted ((d.writeEach buffers).flatMap (·.calls)) = buffers.flatMap (·.bytes) := by
  refine ⟨fun calls progress hrun => hrun.exact buffer.inMemory,
    (writeAll_run d buffer.inMemory).exact buffer.inMemory, accepted_of_delivered d buffer, ?_,
    accepted_writeEach d⟩
  intro h
  obtain ⟨unsent, hne, heq⟩ := accepted_of_not_delivered d buffer h
  refine ⟨⟨unsent, heq⟩, fun hsame => hne ?_⟩
  rw [hsame] at heq
  exact List.append_right_eq_self.mp heq

theorem writeAll_conserves_interrupted :
    ((Descriptor.mk [.returns (-4), .returns 2] .accepting).writeAll [7, 8, 9]).result =
        .delivered ∧
      accepted ((Descriptor.mk [.returns (-4), .returns 2] .accepting).writeAll [7, 8, 9]).calls =
        [7, 8, 9] := by
  have hresult : ((Descriptor.mk [.returns (-4), .returns 2] .accepting).writeAll
      [7, 8, 9]).result = .delivered := by decide
  obtain ⟨_, _, hdelivered, _⟩ := writeAll_conserves
    ⟨[.returns (-4), .returns 2], .accepting⟩ ⟨[7, 8, 9], by decide⟩
  exact ⟨hresult, hdelivered hresult⟩

end Freestanding.Kernel
