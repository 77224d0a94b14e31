import Freestanding.Exit.Procedure
import Freestanding.Proofs.Kernel.Contract
import Freestanding.Proofs.Kernel.Settling

/-!
# Tracing decides nothing

A procedure says its lines in a traced build only. Whatever the kernel answers to their write calls,
the traced build ends the process with the status of the build without tracing and leaves the same
cell and the same region, as long as the answers keep the contract of the call and do not interrupt
for ever.
-/
namespace Freestanding.Exit

open Freestanding.Kernel
open Freestanding.Region (Placed ProbeReport Resident Span)
open Freestanding.Status (Cell Step)

variable {words : Nat} {build : Build} {status : Statics words → Int32}

/-! ## Actions -/

/-- What the process holds after actions; saying a line changes nothing. -/
def Statics.through (configured : Int32) : List (Action words) → Statics words → Statics words
  | [], held => held
  | .say _ :: actions, held => held.through configured actions
  | .step s :: actions, held => (held.step configured s).through configured actions

/-- What follows a line: the other actions, unless it was overrun. -/
def afterLine (build : Build) (status : Statics words → Int32) (actions : List (Action words))
    (held : Statics words) : Delivery → Descriptor → Transfer (Ending × Statics words)
  | .overrun returned left => done (.overrun returned left, held)
  | _ => perform build status actions held

theorem perform_say (text : Statics words → Line) (actions : List (Action words))
    (held : Statics words) (d : Descriptor) :
    perform build status (.say text :: actions) held d =
      andThen (·.note (if build.traced then text held else []))
        (afterLine build status actions held) d := by
  simp only [perform, andThen]
  cases (d.note (if build.traced then text held else [])).result with
  | delivered => rfl
  | failed e => rfl
  | overrun returned left => simp [afterLine, done, Transfer.following]

/-- A build without tracing makes no call. -/
theorem perform_untraced (hbuild : build.traced = false) (actions : List (Action words))
    (held : Statics words) (d : Descriptor) :
    perform build status actions held d =
      ⟨(.exits (status (held.through build.layout.status actions)),
        held.through build.layout.status actions), [], d⟩ := by
  induction actions generalizing held with
  | nil => rfl
  | cons action actions ih =>
    cases action with
    | step s => exact ih _
    | say text =>
      rw [perform_say, hbuild]
      exact ih held

theorem perform_honoured {actions : List (Action words)} {held : Statics words} {d : Descriptor}
    (h : (perform build status actions held d).Honoured) :
    (perform build status actions held d).result =
      (.exits (status (held.through build.layout.status actions)),
        held.through build.layout.status actions) := by
  induction actions generalizing held d with
  | nil => rfl
  | cons action actions ih =>
    cases action with
    | step s => exact ih h
    | say text =>
      rw [perform_say] at h ⊢
      obtain ⟨hline, hothers⟩ := honoured_andThen h
      have hsent := note_delivered hline
      simp only [andThen, Transfer.following, hsent] at hothers ⊢
      exact ih hothers

theorem bounded_perform (build : Build) (status : Statics words → Int32)
    (actions : List (Action words)) (held : Statics words) :
    ∃ limit, Bounded (perform build status actions held) limit := by
  induction actions generalizing held with
  | nil => exact ⟨0, bounded_done _ 0⟩
  | cons action actions ih =>
    cases action with
    | step s => exact ih _
    | say text =>
      obtain ⟨limit, hlimit⟩ := ih held
      obtain ⟨bound, hbound⟩ := bounded_note (if build.traced then text held else [])
      -- The other actions follow whether the line was delivered or failed, so the bounds add up.
      have hnext (outcome : Delivery) :
          Bounded (afterLine build status actions held outcome) limit := by
        cases outcome with
        | delivered => exact hlimit
        | failed e => exact hlimit
        | overrun returned left => exact bounded_done _ _
      exact ⟨_, (funext (perform_say text actions held)) ▸ hbound.andThen hnext⟩

/-! ## Procedures and their paths -/

/-- The lines that actions say, each about what the process holds at that time. -/
def said (configured : Int32) : List (Action words) → Statics words → List Line
  | [], _ => []
  | .say text :: actions, held => text held :: said configured actions held
  | .step s :: actions, held => said configured actions (held.step configured s)

theorem through_append (configured : Int32) (actions more : List (Action words))
    (held : Statics words) :
    held.through configured (actions ++ more) =
      (held.through configured actions).through configured more := by
  induction actions generalizing held with
  | nil => rfl
  | cons action actions ih => cases action <;> exact ih _

theorem said_append (configured : Int32) (actions more : List (Action words))
    (held : Statics words) :
    said configured (actions ++ more) held =
      said configured actions held ++ said configured more (held.through configured actions) := by
  induction actions generalizing held with
  | nil => rfl
  | cons action actions ih =>
    cases action with
    | say text => exact congrArg (text held :: ·) (ih held)
    | step s => exact ih _

theorem through_steps (configured : Int32) (steps : List Step) (held : Statics words) :
    held.through configured (steps.flatMap stepActions) =
      { held with cell := held.cell.run configured steps } := by
  induction steps generalizing held with
  | nil => rfl
  | cons s steps ih =>
    rw [List.flatMap_cons, through_append, ih]
    cases s <;> rfl

theorem said_steps (configured : Int32) (steps : List Step) (held : Statics words) :
    said configured (steps.flatMap stepActions) held = steps.flatMap stepLines := by
  induction steps generalizing held with
  | nil => rfl
  | cons s steps ih =>
    rw [List.flatMap_cons, List.flatMap_cons, said_append, ih]
    cases s <;> rfl

/-- A traced build delivers what the actions say. -/
theorem perform_finish (hbuild : build.traced = true) (actions : List (Action words))
    (held : Statics words) (d : Descriptor) :
    (perform build status actions held d).map Prod.fst =
      finish (status (held.through build.layout.status actions)) d
        (said build.layout.status actions held) := by
  induction actions generalizing held d with
  | nil => rfl
  | cons action actions ih =>
    cases action with
    | step s => exact ih _ d
    | say text =>
      simp only [perform, hbuild, ↓reduceIte, said, finish]
      cases hresult : (d.note (text held)).result with
      | delivered => exact congrArg (·.following (d.note (text held)).calls) (ih held _)
      | failed e => exact congrArg (·.following (d.note (text held)).calls) (ih held _)
      | overrun returned left => rfl

/-- The path of a procedure says its lines and has its status. -/
theorem path_eq (build : Build) (p : Procedure) (held : Statics words) :
    p.path build held =
      ⟨said build.layout.status (p.actions build) held,
        p.status (held.through build.layout.status (p.actions build))⟩ := by
  cases p with
  | exit code => rfl
  | fixed => rfl
  | withState steps =>
    simp only [Procedure.path, withState, Procedure.actions, Procedure.work, said_append,
      through_append, said_steps, through_steps]
    rfl
  | withProbe zeroFill => rfl

/-- A procedure runs as its path does. -/
theorem run_eq_path (build : Build) (p : Procedure) (held : Statics words) (d : Descriptor) :
    (p.run build held d).map Prod.fst = (p.path build held).run build.traced d := by
  cases hbuild : build.traced with
  | true =>
    rw [path_eq]
    exact perform_finish hbuild _ held d
  | false =>
    rw [path_eq, Procedure.run, perform_untraced hbuild]
    rfl

theorem withProbe?_eq_path (build : Build) (held : Statics words) (zeroFill : Span) :
    withProbe? held.region.toPlaced zeroFill =
      some ((Procedure.withProbe zeroFill).path build held) := by
  rw [withProbe?, held.region.probe?_eq_report]
  rfl

/-! ## Two builds -/

/-- Tracing decides nothing. A procedure of a build without tracing makes no call. In the same build
with tracing, the answers to the calls settle how the procedure ends, unless they interrupt for ever;
and if every call is answered as it is to be, the process ends with the same status and holds the
same. -/
theorem tracing_decides_nothing (build : Build) (p : Procedure) (held : Statics words)
    (answers : Nat → Int64)
    (hends : ∃ last, ∀ i, last ≤ i → answers i ≠ KernelError.interrupted.code) :
    ∃ status after,
      (∀ d, p.run { build with traced := false } held d = ⟨(.exits status, after), [], d⟩) ∧
        ∃ ending calls, Settles (p.run { build with traced := true } held) answers ending calls ∧
          ((∀ call ∈ calls, call.Honoured) → ending = (.exits status, after)) := by
  obtain ⟨last, hlast⟩ := hends
  refine ⟨_, _, perform_untraced rfl _ held, ?_⟩
  obtain ⟨limit, hbound⟩ :=
    bounded_perform { build with traced := true } p.status (p.actions build) held
  have hplain (n : Nat) : ∃ i, n ≤ i ∧ answers i ≠ KernelError.interrupted.code :=
    ⟨max n last, Nat.le_max_left .., hlast _ (Nat.le_max_right ..)⟩
  obtain ⟨ending, calls, hsettled⟩ := hbound.settles hplain
  refine ⟨ending, calls, hsettled, fun hcalls => ?_⟩
  -- The calls are the same on every descriptor that gives these answers, so any one will do.
  have hrun := hsettled.settled ⟨[], .accepting⟩
  have hresult := congrArg Transfer.result hrun
  exact hresult.symm.trans (perform_honoured fun call hcall => hcalls call (by rwa [hrun] at hcall))

/-- The calls are interrupted twice and then fail for want of space, and the process still ends with
the status that the collaborator wrote. -/
theorem tracing_decides_nothing_interrupted :
    (∃ last, ∀ i, last ≤ i → (if i < 2 then -4 else -28 : Int64) ≠ KernelError.interrupted.code) ∧
      ∃ after calls, Settles
        ((Procedure.withState [.collaborate]).run (.standard true)
          (⟨⟨42⟩, ⟨⟨0x1000, .fresh 1⟩, by decide⟩⟩ : Statics 1))
        (fun i => if i < 2 then -4 else -28) (.exits 7, after) calls := by
  have hends : ∃ last, ∀ i, last ≤ i →
      (if i < 2 then -4 else -28 : Int64) ≠ KernelError.interrupted.code :=
    ⟨2, fun i hi => by rw [if_neg (by omega)]; decide⟩
  refine ⟨hends, ?_⟩
  obtain ⟨status, after, hdefault, ending, calls, hsettled, hending⟩ :=
    tracing_decides_nothing (.standard true) (.withState [.collaborate])
      (⟨⟨42⟩, ⟨⟨0x1000, .fresh 1⟩, by decide⟩⟩ : Statics 1) _ hends
  have hhonoured : ∀ call ∈ calls, call.Honoured := by
    intro call hcall
    have hreturned : call.returned ∈ calls.map (·.returned) := List.mem_map_of_mem hcall
    rw [hsettled.answered] at hreturned
    obtain ⟨i, _, hi⟩ := List.mem_map.mp hreturned
    refine Or.inl ?_
    rw [← hi]
    split <;> decide
  have hstatus : Ending.exits 7 = Ending.exits status :=
    congrArg (·.result.1) (hdefault ⟨[], .accepting⟩)
  rw [hending hhonoured, ← hstatus] at hsettled
  exact ⟨after, calls, hsettled⟩

end Freestanding.Exit
