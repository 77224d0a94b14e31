import Freestanding.Proofs.Exit.LastStatus
import Freestanding.Proofs.Kernel.Taking
import Freestanding.Proofs.Region.ZeroCount
import Freestanding.Proofs.Text.Printed

/-!
# What the exit procedures write

The system calls of a process are the write calls of its trace and, at the end, the call that ends
it. Nothing else is written anywhere. A build without tracing only ends; a traced build whose trace
descriptor takes every byte leaves whole lines there, each with the tag in front and the exit line
last, and their numbers are those of the process at the moment it ends.
-/
namespace Freestanding.Exit

open Freestanding.Kernel
open Freestanding.Region (Placed ProbeReport Reserved Resident Span)
open Freestanding.Status (Cell LastWrite Step lastWrite_run)
open Freestanding.Text (hex newline_not_mem_toDigits toList_toString_nat toString_int utf8
  utf8_append)

variable {words : Nat}

/-! ## System calls -/

inductive SystemCall where
  | write (descriptor : Nat) (call : Call)
  | exit (argument : UInt64)

/-- The system calls of a run, in order. An overrun leaves a run without its end. -/
def systemCalls (run : Transfer (Ending × Statics words)) : List SystemCall :=
  run.calls.map (.write traceDescriptor) ++
    match run.result.1 with
    | .exits status => [.exit (exitArgument status)]
    | .overrun _ _ => []

theorem systemCalls_of_exits {run : Transfer (Ending × Statics words)} {status : Int32}
    (h : run.result.1 = .exits status) :
    systemCalls run = run.calls.map (.write traceDescriptor) ++ [.exit (exitArgument status)] := by
  rw [systemCalls, h]

/-- What a descriptor accepts of a system call. -/
def SystemCall.output (descriptor : Nat) : SystemCall → List UInt8
  | .write named call => if named = descriptor then call.accepted else []
  | .exit _ => []

/-- What system calls leave on a descriptor, in order. -/
def output (descriptor : Nat) (calls : List SystemCall) : List UInt8 :=
  calls.flatMap (SystemCall.output descriptor)

theorem output_systemCalls (descriptor : Nat) (run : Transfer (Ending × Statics words)) :
    output descriptor (systemCalls run) =
      if descriptor = traceDescriptor then accepted run.calls else [] := by
  have hwrites : output descriptor (run.calls.map (.write traceDescriptor)) =
      if descriptor = traceDescriptor then accepted run.calls else [] := by
    rw [output, List.flatMap_map]
    by_cases h : traceDescriptor = descriptor
    · simp only [SystemCall.output, h, ↓reduceIte]
      rfl
    · simp only [SystemCall.output, h, Ne.symm h, ↓reduceIte, List.flatMap_eq_nil_iff,
        implies_true]
  -- The call that ends the process writes nothing.
  have hend : output descriptor
      (match run.result.1 with
        | .exits status => [.exit (exitArgument status)]
        | .overrun _ _ => []) = [] := by
    cases run.result.1 <;> rfl
  rw [output] at hwrites hend ⊢
  rw [systemCalls, List.flatMap_append, hwrites, hend, List.append_nil]

theorem finish_takes {status : Int32} {lines : List Line} {d : Descriptor}
    (h : (finish status d lines).Takes) :
    (finish status d lines).result = .exits status ∧
      accepted (finish status d lines).calls = utf8 (String.join (lines.map String.join)) := by
  induction lines generalizing d with
  | nil => exact ⟨rfl, rfl⟩
  | cons l lines ih =>
    have hline : (d.note l).Takes := by
      intro call hcall
      apply h
      simp only [finish]
      split
      · exact hcall
      · exact List.mem_append_left _ hcall
    obtain ⟨hsent, haccepted⟩ := note_takes hline
    simp only [finish, hsent] at h ⊢
    obtain ⟨hresult, hrest⟩ := ih fun call hcall => h call (List.mem_append_right _ hcall)
    refine ⟨hresult, ?_⟩
    simp only [Transfer.following, accepted_append, haccepted, hrest, List.map_cons,
      String.join_cons, utf8_append]

/-! ## Texts -/

/-- A text as a line of a trace. -/
def tagged (text : String) : String := "[zerostart] " ++ text ++ "\n"

/-- A text without a newline. -/
def OneLine (text : String) : Prop := '\n' ∉ text.toList

instance (text : String) : Decidable (OneLine text) := inferInstanceAs (Decidable (_ ∉ _))

theorem OneLine.append {s t : String} (hs : OneLine s) (ht : OneLine t) : OneLine (s ++ t) := by
  rw [OneLine, String.toList_append, List.mem_append]
  exact not_or.mpr ⟨hs, ht⟩

theorem oneLine_toString_nat (n : Nat) : OneLine (toString n) := by
  rw [OneLine, toList_toString_nat]
  exact newline_not_mem_toDigits (by decide) n

theorem oneLine_hex (n : Nat) : OneLine (hex n) := by
  apply OneLine.append (by decide)
  rw [OneLine, String.toList_ofList]
  exact newline_not_mem_toDigits (by decide) n

theorem oneLine_toString_bool (b : Bool) : OneLine (toString b) := by
  cases b <;> decide

theorem oneLine_toString_int (n : Int) : OneLine (toString n) := by
  rw [toString_int]
  apply OneLine.append _ (oneLine_toString_nat _)
  split <;> decide

theorem join_integerPieces (n : Int) : String.join (integerPieces n) = toString n := by
  rw [toString_int, integerPieces, String.join_append, String.join_cons, String.join_nil,
    String.append_empty]
  split <;> rfl

theorem join_addressPieces (address : UInt64) :
    String.join (addressPieces address) = hex address.toNat := by
  simp only [addressPieces, String.join_cons, String.join_nil, String.append_empty]
  rfl

theorem join_line {opening text : String} {pieces : List String}
    (h : String.join pieces = text ++ "\n") :
    String.join (line opening pieces) = tagged (opening ++ text) := by
  rw [line, String.join_cons, h, tagged]
  simp only [String.append_assoc]

/-! ## What is said -/

/-- What the exit line says. -/
def exitText (status : Int32) : String := "exit_group(" ++ (toString status.toInt ++ ")")

def statusText (status : Int32) : String := "exit status read: " ++ toString status.toInt

def collaboratorText : String := "collaborator: change_number"

def probeText (count : Nat) (inside : Bool) : String :=
  "probe: " ++ (toString count ++ " nonzero bytes, in zero fill: " ++ toString inside)

def buildText (build : Build) : String := build.profile ++ " build for " ++ build.target

def regionText (region : Placed words) : String :=
  "reserved region at " ++
    (hex region.address.toNat ++ ", " ++ toString region.region.size ++ " bytes")

/-- How many offsets of a region show a byte that is not zero. -/
def nonzeroCount (region : Reserved words) : Nat :=
  (List.range region.size).countP fun offset => region.byte? offset ≠ some 0

/-- The names of a build, each on one line as instructions of a build are. -/
structure Build.OneLine (build : Build) : Prop where
  profile : Exit.OneLine build.profile
  target : Exit.OneLine build.target

/-- What a procedure says before the exit line, and the status it ends with. -/
inductive Says (build : Build) (held : Statics words) : Procedure → List String → Int32 → Prop
  | exit (status : Int32) : Says build held (.exit status) [] status
  | fixed : Says build held .fixed
      [buildText build, regionText held.region.toPlaced] fixedStatus
  /-- One line for each time that the collaborator runs, and the status as it is read. -/
  | withState {steps : List Step} {status : Int32} :
      LastWrite build.layout.status held.cell.value steps status →
      Says build held (.withState steps)
        (List.replicate (steps.count .collaborate) collaboratorText ++ [statusText status]) status
  | withProbe {zeroFill : Span} {count : Nat} {inside : Bool} {status : Int32} :
      count = nonzeroCount held.region.region →
      (inside = true ↔ zeroFill.start.toNat ≤ held.region.address.toNat ∧
        held.region.address.toNat + held.region.region.size ≤ zeroFill.stop.toNat) →
      (status = 0 ↔ count = 0 ∧ inside = true) →
      Says build held (.withProbe zeroFill) [probeText count inside] status

theorem Says.oneLine {build : Build} {held : Statics words} {p : Procedure} {lines : List String}
    {status : Int32} (h : Says build held p lines status) (hbuild : p = .fixed → build.OneLine) :
    ∀ text ∈ lines ++ [exitText status], OneLine text := by
  have hexit : OneLine (exitText status) :=
    .append (by decide) (.append (oneLine_toString_int _) (by decide))
  suffices hlines : ∀ text ∈ lines, OneLine text by
    intro text htext
    rcases List.mem_append.mp htext with hsaid | hlast
    · exact hlines text hsaid
    · exact List.mem_singleton.mp hlast ▸ hexit
  cases h with
  | exit => exact nofun
  | fixed =>
    obtain ⟨hprofile, htarget⟩ := hbuild rfl
    rw [List.forall_mem_cons, List.forall_mem_singleton]
    constructor
    · exact .append (.append hprofile (by decide)) htarget
    · exact .append (by decide) (.append (.append (.append (oneLine_hex _) (by decide))
        (oneLine_toString_nat _)) (by decide))
  | withState =>
    intro text htext
    rcases List.mem_append.mp htext with hmutator | hread
    · rw [List.eq_of_mem_replicate hmutator]
      decide
    · rw [List.mem_singleton.mp hread]
      exact .append (by decide) (oneLine_toString_int _)
  | withProbe =>
    rw [List.forall_mem_singleton]
    exact .append (by decide) (.append (.append (oneLine_toString_nat _) (by decide))
      (oneLine_toString_bool _))

/-! ## The lines of a procedure -/

theorem join_exitLine (status : Int32) :
    String.join (exitLine status) = tagged (exitText status) := by
  apply join_line
  have hend : ")" ++ "\n" = ")\n" := rfl
  rw [String.join_append, join_integerPieces, String.append_assoc, hend]
  rfl

theorem join_statusLine (status : Int32) :
    String.join (statusLine status) = tagged (statusText status) := by
  apply join_line
  rw [String.join_append, join_integerPieces]
  rfl

theorem join_buildLine (build : Build) :
    String.join (buildLine build) = tagged (buildText build) := by
  have hpieces : String.join [build.profile, " build for ", build.target, "\n"] =
      buildText build ++ "\n" := by
    simp only [buildText, String.join_cons, String.join_nil, String.append_empty,
      String.append_assoc]
  have hline : String.join (buildLine build) = tagged ("" ++ buildText build) := join_line hpieces
  rwa [String.empty_append] at hline

theorem join_regionLine (region : Placed words) :
    String.join (regionLine region) = tagged (regionText region) := by
  apply join_line
  have hend : " bytes" ++ "\n" = " bytes\n" := rfl
  simp only [String.join_append, join_addressPieces, String.join_cons, String.join_nil,
    String.append_empty, String.append_assoc, hend]

theorem join_probeLine (report : ProbeReport) :
    String.join (probeLine report) = tagged (probeText report.nonzeroBytes report.inZeroFill) := by
  apply join_line
  simp only [String.join_cons, String.join_nil, String.append_empty, String.append_assoc]

theorem join_stepLines (steps : List Step) :
    (steps.flatMap stepLines).map String.join =
      (List.replicate (steps.count .collaborate) collaboratorText).map tagged := by
  induction steps with
  | nil => rfl
  | cons s steps ih =>
    rw [List.flatMap_cons, List.map_append, ih, List.count_cons]
    cases s with
    | read => rfl
    | write writer value => rfl
    | collaborate =>
      rw [beq_self_eq_true, if_pos rfl, List.replicate_succ, List.map_cons]
      rfl

theorem nonzeroBytes_eq_nonzeroCount (region : Reserved words) :
    region.nonzeroBytes = nonzeroCount region :=
  region.nonzeroBytes_eq_count

theorem report_eq (region : Resident words) (zeroFill : Span) :
    region.report zeroFill =
      ⟨region.region.nonzeroBytes, decide (zeroFill.start.toNat ≤ region.address.toNat) &&
        decide (region.address.toNat + region.region.size ≤ zeroFill.stop.toNat)⟩ := by
  have hprobe := region.probe?_eq_report zeroFill
  simp only [Placed.probe?, Placed.liesWithin?, region.inMemory, ↓reduceIte, Option.map_some]
    at hprobe
  exact (Option.some.inj hprobe).symm

theorem status_eq_zero_iff (report : ProbeReport) :
    report.status = 0 ↔ report.nonzeroBytes = 0 ∧ report.inZeroFill = true := by
  unfold ProbeReport.status
  by_cases hcount : report.nonzeroBytes = 0
  · rw [if_pos hcount, and_iff_right hcount]
    cases report.inZeroFill <;> decide
  · rw [if_neg hcount, iff_false_right fun h => hcount h.1]
    cases report.inZeroFill <;> decide

/-- The lines of a path are what its procedure says. -/
theorem says_path (build : Build) (p : Procedure) (held : Statics words) :
    ∃ lines, Says build held p lines (p.path build held).status ∧
      (p.path build held).lines.map String.join =
        (lines ++ [exitText (p.path build held).status]).map tagged := by
  cases p with
  | exit status =>
    refine ⟨[], .exit status, ?_⟩
    show [String.join (exitLine status)] = [tagged (exitText status)]
    rw [join_exitLine]
  | fixed =>
    refine ⟨_, .fixed, ?_⟩
    show [String.join (buildLine build), String.join (regionLine held.region.toPlaced),
      String.join (exitLine fixedStatus)] = [tagged _, tagged _, tagged _]
    rw [join_buildLine, join_regionLine, join_exitLine]
    rfl
  | withState steps =>
    refine ⟨_, .withState (lastWrite_run ..), ?_⟩
    show (steps.flatMap stepLines ++ [statusLine _] ++ [exitLine _]).map String.join = _
    simp only [List.map_append, join_stepLines, List.map_cons, List.map_nil, join_statusLine,
      join_exitLine]
    rfl
  | withProbe zeroFill =>
    refine ⟨[probeText (held.region.report zeroFill).nonzeroBytes
      (held.region.report zeroFill).inZeroFill], .withProbe ?_ ?_ (status_eq_zero_iff _), ?_⟩
    · rw [report_eq, nonzeroBytes_eq_nonzeroCount]
    · rw [report_eq, Bool.and_eq_true, decide_eq_true_iff, decide_eq_true_iff]
    · show [String.join (probeLine _), String.join (exitLine _)] = [tagged _, tagged _]
      rw [join_probeLine, join_exitLine]
      rfl

/-! ## Runs -/

/-- What the procedures write. A run writes to its trace descriptor and nowhere else, so standard
output stays empty. A build without tracing only makes the call that ends the process. In a traced
build whose trace descriptor takes every byte, the process leaves there exactly the lines that its
procedure says and the exit line behind them, and then ends; no line holds a newline of its own, if
the names of the build hold none. The exit line gives the argument of the call that ends the
process, of which the parent sees the lowest byte. -/
theorem run_writes_lines (build : Build) (p : Procedure) (held : Statics words)
    (trace : Descriptor) :
    ∃ lines status, Says build held p lines status ∧
      (∀ descriptor, descriptor ≠ traceDescriptor →
        output descriptor (systemCalls (p.run build held trace)) = []) ∧
      (build.traced = false →
        systemCalls (p.run build held trace) = [.exit (exitArgument status)]) ∧
      (build.traced = true → (p.run build held trace).Takes →
        systemCalls (p.run build held trace) =
            (p.run build held trace).calls.map (.write traceDescriptor)
              ++ [.exit (exitArgument status)] ∧
          output traceDescriptor (systemCalls (p.run build held trace)) =
            utf8 (String.join ((lines ++ [exitText status]).map tagged))) ∧
      ((p = .fixed → build.OneLine) → ∀ text ∈ lines ++ [exitText status], OneLine text) ∧
      (exitArgument status).toInt64.toInt = status.toInt ∧
      ((parentStatus (exitArgument status)).toNat : Int) = status.toInt % 256 := by
  obtain ⟨lines, hsays, htexts⟩ := says_path build p held
  have hrun := run_eq_path build p held trace
  have hending : (p.run build held trace).result.1 =
      ((p.path build held).run build.traced trace).result := congrArg Transfer.result hrun
  have hcalls : (p.run build held trace).calls =
      ((p.path build held).run build.traced trace).calls := congrArg Transfer.calls hrun
  refine ⟨lines, (p.path build held).status, hsays, ?_, ?_, ?_, hsays.oneLine,
    toInt_exitArgument _, toNat_parentStatus _⟩
  · intro descriptor hother
    rw [output_systemCalls, if_neg hother]
  · intro huntraced
    rw [huntraced] at hending hcalls
    rw [systemCalls_of_exits hending, hcalls]
    rfl
  · intro htraced htakes
    rw [Transfer.Takes, hcalls, htraced] at htakes
    obtain ⟨hresult, haccepted⟩ := finish_takes htakes
    rw [htraced] at hending hcalls
    constructor
    · exact systemCalls_of_exits (hending.trans hresult)
    · rw [output_systemCalls, if_pos rfl, hcalls, ← htexts]
      exact haccepted

/-- The status that the collaborator writes is overwritten by a negative one. The trace descriptor
interrupts the first call and takes the second in part. -/
def overwritten : Transfer (Ending × Statics 1) :=
  (Procedure.withState [.collaborate, .write .pointer (-300)]).run (.standard true)
    ⟨⟨42⟩, ⟨⟨0x1000, .fresh 1⟩, by decide⟩⟩ ⟨[.returns (-4), .returns 5], .accepting⟩

theorem run_writes_lines_overwritten :
    overwritten.Takes ∧
      output traceDescriptor (systemCalls overwritten) =
        utf8 ("[zerostart] collaborator: change_number\n" ++ "[zerostart] exit status read: -300\n"
          ++ "[zerostart] exit_group(-300)\n") := by
  have htakes : overwritten.Takes := by
    unfold Transfer.Takes
    decide +kernel
  obtain ⟨lines, status, hsays, _, _, htraced, _⟩ :=
    run_writes_lines (.standard true) (.withState [.collaborate, .write .pointer (-300)])
      (⟨⟨42⟩, ⟨⟨0x1000, .fresh 1⟩, by decide⟩⟩ : Statics 1)
      ⟨[.returns (-4), .returns 5], .accepting⟩
  refine ⟨htakes, ((htraced rfl htakes).2).trans ?_⟩
  cases hsays with
  | withState hstatus =>
    rw [← hstatus.value_run]
    decide +kernel

end Freestanding.Exit
