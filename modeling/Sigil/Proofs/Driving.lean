import Sigil.Proofs.Runs

/-! A machine in the hands of a host, which steps it, runs it and registers functions in any order. A fault is
reported once, by the call that meets it. A run that starts before that tells by its answer how the machine has ended;
a run that starts later finds nothing to do and reports nothing. -/
namespace Sigil

variable {ω : Type}

inductive Answer where
  | stepped (result : Except Report Status)
  | ran (result : Except Report Unit)
  | registered

def Answer.report? : Answer → Option Report
  | .stepped (.error report) => some report
  | .ran (.error report) => some report
  | _ => none

def Answer.reports (answers : List Answer) : List Report := answers.filterMap report?

theorem Answer.reportsConcat (answers : List Answer) (answer : Answer) :
    reports (answers ++ [answer]) = reports answers ++ answer.report?.toList := by
  rw [reports, List.filterMap_append, reports]
  cases told : answer.report? <;> simp [told]

namespace Machine
variable {machine after : Machine ω} {answer : Answer}

/- Calls made one after the other and what they have answered. A run that goes on for ever has no answer, and no call
comes after it. -/
inductive Drives (start : Machine ω) : List Answer → Machine ω → Prop where
  | rest : Drives start [] start
  | step {answers machine} (before : Drives start answers machine) :
      Drives start (answers ++ [.stepped machine.step.1]) machine.step.2
  | run {answers machine result final} (before : Drives start answers machine) (ends : machine.Ends result final) :
      Drives start (answers ++ [.ran result]) final
  | register {answers machine} (before : Drives start answers machine) (module name : Text)
      (function : HostFunction ω) : Drives start (answers ++ [.registered]) (machine.register module name function)

structure Fair (machine : Machine ω) (answer : Answer) (after : Machine ω) : Prop where
  quiet : machine.status = .failed → after.status = .failed ∧ answer.report? = none
  loud : machine.status ≠ .failed → (after.status = .failed ↔ ∃ report, answer.report? = some report)

theorem advanceFine (fine : machine.status ≠ .failed) : machine.advance.status ≠ .failed := by
  unfold advance
  split
  · simp
  · exact fine

theorem quietFair (same : after.status = machine.status) (nothing : answer.report? = none) :
    machine.Fair answer after where
  quiet failed := ⟨same.trans failed, nothing⟩
  loud fine := by simp [same, fine, nothing]

theorem runningFair (running : machine.status = .running) : machine.Fair (.stepped machine.step.1) machine.step.2 where
  quiet failed := nomatch running.symm.trans failed
  loud _ := by
    cases here : machine.line? machine.counter with
    | none => simp [step, running, here, Answer.report?]
    | some line =>
      rcases stepCases running here with ⟨_, after, _, move, went⟩ | ⟨fault, after, _, went⟩
      · have still : after.status = .running := move.keeps.2.2.2.1.trans running
        have fine : after.advance.status ≠ .failed := advanceFine (by simp [still])
        simp [went, fine, Answer.report?]
      · simp [went, Answer.report?]

theorem stepFair (machine : Machine ω) : machine.Fair (.stepped machine.step.1) machine.step.2 := by
  by_cases running : machine.status = .running
  · exact runningFair running
  · rw [stepEnded running]
    exact quietFair rfl rfl

theorem failedEnds (failed : machine.status = .failed) {result : Except Report Unit}
    (ends : machine.Ends result after) :
    result = .ok () ∧ after = machine :=
  endsUnique ends ⟨1, runForEnded (by simp [failed])⟩

theorem runFair {result : Except Report Unit} (ends : machine.Ends result after) :
    machine.Fair (.ran result) after where
  quiet failed := by
    obtain ⟨rfl, rfl⟩ := failedEnds failed ends
    exact ⟨failed, rfl⟩
  loud fine := by
    rw [endsStatus fine ends]
    cases result <;> simp [endStatus, Answer.report?]

structure Told (machine : Machine ω) (reports : List Report) : Prop where
  once : machine.status = .failed → ∃ report, reports = [report]
  never : machine.status ≠ .failed → reports = []

theorem Told.call {reports : List Report} (told : machine.Told reports) (fair : machine.Fair answer after) :
    after.Told (reports ++ answer.report?.toList) := by
  by_cases failed : machine.status = .failed
  · obtain ⟨still, nothing⟩ := fair.quiet failed
    rw [nothing]
    exact ⟨fun _ => by simpa using told.once failed, fun fine => absurd still fine⟩
  · rw [told.never failed, List.nil_append]
    constructor
    · intro now
      obtain ⟨report, said⟩ := (fair.loud failed).mp now
      exact ⟨report, by rw [said]; rfl⟩
    · intro fine
      cases said : answer.report? with
      | none => rfl
      | some report => exact absurd ((fair.loud failed).mpr ⟨report, said⟩) fine

theorem Drives.told {start : Machine ω} {answers : List Answer} (driven : start.Drives answers machine)
    (fine : start.status ≠ .failed) : machine.Told (Answer.reports answers) := by
  induction driven with
  | rest => exact ⟨fun failed => absurd failed fine, fun _ => rfl⟩
  | step before ih =>
    rw [Answer.reportsConcat]
    exact ih.call (stepFair _)
  | run before ends ih =>
    rw [Answer.reportsConcat]
    exact ih.call (runFair ends)
  | register before module name function ih =>
    rw [Answer.reportsConcat]
    exact ih.call (quietFair rfl rfl)

theorem loadFine {source : Text} {settings : Settings} {loader : Loader ω} {world : ω}
    (accepted : load source settings loader world = .ok machine) : machine.status ≠ .failed := by
  unfold load at accepted
  split at accepted
  · cases accepted
    unfold ofLines
    split <;> simp
  · simp at accepted

theorem runReports {source : Text} {settings : Settings} {loader : Loader ω} {world : ω}
    {start machine final : Machine ω} {answers : List Answer} {result : Except Report Unit}
    (accepted : load source settings loader world = .ok start) (driven : start.Drives answers machine)
    (ends : machine.Ends result final) :
    (machine.status ≠ .failed → Answer.reports answers = [] ∧ (result = .ok () ↔ final.status = .halted) ∧
      (final.status = .failed ↔ ∃ report, result = .error report)) ∧
    (machine.status = .failed → (∃ report, Answer.reports answers = [report]) ∧ result = .ok () ∧ final = machine) := by
  have told := driven.told (loadFine accepted)
  constructor
  · intro fine
    rw [endsStatus fine ends]
    cases result <;> simp [told.never fine, endStatus]
  · intro failed
    exact ⟨told.once failed, failedEnds failed ends⟩

theorem runReportsOnce : ∃ (start machine final : Machine Unit) (report : Report),
    load "# ok\nnonsense".toList Settings.default Catalog.empty.load () = .ok start ∧
    start.Drives [.stepped (.ok .running)] machine ∧ machine.Ends (.error report) final ∧ final.status = .failed ∧
    start.Drives [.stepped (.ok .running), .ran (.error report)] final ∧
    ∀ result last, final.Ends result last → result = .ok () ∧ last = final := by
  have accepted : load "# ok\nnonsense".toList Settings.default Catalog.empty.load () =
      .ok (ofLines ["# ok".toList, "nonsense".toList] Registry.initial Settings.default ()) := rfl
  generalize loaded : ofLines _ _ _ _ = start at accepted
  have went : start.step.1 = .ok .running := by
    rw [← loaded]
    decide +kernel
  have stopped : start.step.2.step.1.toOption = none := by
    rw [← loaded]
    decide +kernel
  have fine : start.step.2.status ≠ .failed := by
    rw [← loaded]
    decide +kernel
  have stepped : start.Drives [.stepped (.ok .running)] start.step.2 := went ▸ Drives.rest.step
  cases refused : start.step.2.step.1 with
  | ok status => simp [refused, Except.toOption] at stopped
  | error report =>
    have ends : start.step.2.Ends (.error report) start.step.2.step.2 := endsFault (Prod.ext refused rfl)
    have failed : start.step.2.step.2.status = .failed :=
      ((runReports accepted stepped ends).1 fine).2.2.mpr ⟨report, rfl⟩
    have silent result last (again : start.step.2.step.2.Ends result last) :=
      ((runReports accepted (stepped.run ends) again).2 failed).2
    exact ⟨start, start.step.2, start.step.2.step.2, report, accepted, stepped, ends, failed, stepped.run ends, silent⟩

theorem runSilent : ∃ (start machine final : Machine Unit) (report : Report),
    load "nonsense".toList Settings.default Catalog.empty.load () = .ok start ∧
    start.Drives [.stepped (.error report)] machine ∧ machine.Ends (.ok ()) final ∧ final.status = .failed := by
  have accepted : load "nonsense".toList Settings.default Catalog.empty.load () =
      .ok (ofLines ["nonsense".toList] Registry.initial Settings.default ()) := rfl
  generalize loaded : ofLines _ _ _ _ = start at accepted
  have failed : start.step.2.status = .failed := by
    rw [← loaded]
    decide +kernel
  have stopped : start.step.1.toOption = none := by
    rw [← loaded]
    decide +kernel
  have ends : start.step.2.Ends (.ok ()) start.step.2 := ⟨1, runForEnded (by simp [failed])⟩
  cases refused : start.step.1 with
  | ok status => simp [refused, Except.toOption] at stopped
  | error report => exact ⟨start, _, _, report, accepted, refused ▸ Drives.rest.step, ends, failed⟩

end Machine
end Sigil
