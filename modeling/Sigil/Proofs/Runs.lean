import Mathlib.Logic.Function.Iterate
import Sigil.Proofs.Invariant
import Sigil.Proofs.Resume

/-! Runs of any length. A run ends in one way at most, a machine that leads to another ends as that one does,
and a machine that has not failed is known from its counter, its store and its world. -/
namespace Sigil.Machine
variable {ω : Type} {machine other : Machine ω}

def next (machine : Machine ω) : Machine ω := machine.step.2

theorem nextLines (steps : Nat) (machine : Machine ω) : (next^[steps] machine).lines = machine.lines := by
  induction steps with
  | zero => rfl
  | succ steps ih => rw [Function.iterate_succ_apply', next, stepLines, ih]

def Passes (machine : Machine ω) (seen : ω) : Prop := ∃ steps, (next^[steps] machine).world = seen

theorem passesStep (step : machine.next = other) (quiet : other.world = machine.world) {seen : ω} :
    machine.Passes seen ↔ other.Passes seen := by
  constructor
  · intro given
    obtain ⟨steps, rfl⟩ := given
    cases steps with
    | zero => exact ⟨0, quiet⟩
    | succ steps => exact ⟨steps, by rw [Function.iterate_succ_apply, step]⟩
  · intro given
    obtain ⟨steps, rfl⟩ := given
    exact ⟨steps + 1, by rw [Function.iterate_succ_apply, step]⟩

def Ends (machine : Machine ω) (result : Except Report Unit) (final : Machine ω) : Prop :=
  ∃ steps, machine.runFor steps = (some result, final)

def Lasts (machine : Machine ω) (steps : Nat) : Prop := (machine.runFor steps).1 = none

def Leads (machine other : Machine ω) : Prop :=
  ∃ ahead, ∀ steps, machine.runFor (ahead + steps + 1) = other.runFor (steps + 1)

theorem runForMore {steps : Nat} {result : Except Report Unit} {final : Machine ω}
    (ended : machine.runFor steps = (some result, final)) (more : Nat) :
    machine.runFor (steps + more) = (some result, final) := by
  induction steps generalizing machine with
  | zero => simp [runFor] at ended
  | succ steps ih =>
    rw [Nat.succ_add]
    cases step : machine.step with
    | mk outcome after =>
      simp only [runFor, step] at ended ⊢
      rcases outcome with report | (_ | _ | _)
      · exact ended
      · exact ih ended
      · exact ended
      · exact ended

theorem endsUnique {result again : Except Report Unit} {final last : Machine ω}
    (one : machine.Ends result final) (two : machine.Ends again last) : result = again ∧ final = last := by
  obtain ⟨n, left⟩ := one
  obtain ⟨m, right⟩ := two
  have more := runForMore left m
  rw [Nat.add_comm, runForMore right n] at more
  simpa [eq_comm] using more

theorem lastsLess {steps fewer : Nat} (less : fewer ≤ steps) (lasts : machine.Lasts steps) :
    machine.Lasts fewer := by
  unfold Lasts at *
  cases h : machine.runFor fewer with
  | mk result final =>
    cases result with
    | none => rfl
    | some result =>
      obtain ⟨more, rfl⟩ := Nat.exists_eq_add_of_le less
      simp [runForMore h more] at lasts

theorem endsNotLasts {steps : Nat} {result : Except Report Unit} {final : Machine ω}
    (ended : machine.runFor steps = (some result, final)) : ¬machine.Lasts steps := by
  simp [Lasts, ended]

theorem leadsRefl (machine : Machine ω) : machine.Leads machine := ⟨0, fun steps => by rw [Nat.zero_add]⟩

theorem Leads.trans {third : Machine ω} (one : machine.Leads other) (two : other.Leads third) :
    machine.Leads third := by
  obtain ⟨n, first⟩ := one
  obtain ⟨m, second⟩ := two
  refine ⟨n + m, fun steps => ?_⟩
  rw [← second steps, ← first (m + steps)]
  congr 1
  omega

theorem runForEnded {steps : Nat} (ended : machine.status ≠ .running) :
    machine.runFor (steps + 1) = (some (.ok ()), machine) := by
  rw [runFor, stepEnded ended]
  cases status : machine.status with
  | running => exact absurd status ended
  | halted => rfl
  | failed => rfl

theorem leadsStep (step : machine.step = (.ok other.status, other)) : machine.Leads other := by
  refine ⟨1, fun steps => ?_⟩
  rw [show 1 + steps + 1 = (steps + 1) + 1 by omega]
  by_cases running : other.status = .running
  · rw [running] at step
    rw [runFor, step]
  · rw [runForEnded running, runFor, step]
    cases status : other.status with
    | running => exact absurd status running
    | halted => rfl
    | failed => rfl

theorem Leads.ends (leads : machine.Leads other) {result : Except Report Unit} {final : Machine ω} :
    machine.Ends result final ↔ other.Ends result final := by
  obtain ⟨ahead, same⟩ := leads
  constructor
  · intro given
    obtain ⟨steps, ended⟩ := given
    refine ⟨steps + 1, ?_⟩
    rw [← same steps, show ahead + steps + 1 = steps + (ahead + 1) by omega]
    exact runForMore ended (ahead + 1)
  · intro given
    obtain ⟨steps, ended⟩ := given
    refine ⟨ahead + steps + 1, ?_⟩
    rw [same steps]
    exact runForMore ended 1

theorem Leads.lasts (leads : machine.Leads other) {steps : Nat} (lasts : other.Lasts steps) :
    machine.Lasts steps := by
  obtain ⟨ahead, same⟩ := leads
  cases steps with
  | zero => rfl
  | succ steps =>
    have longer : machine.Lasts (ahead + steps + 1) := by
      unfold Lasts
      rw [same steps]
      exact lasts
    exact lastsLess (by omega) longer

theorem lastsStep (step : machine.step = (.ok other.status, other)) (running : other.status = .running)
    {steps : Nat} (lasts : other.Lasts steps) : machine.Lasts (steps + 1) := by
  unfold Lasts at *
  rw [runFor, step, running]
  exact lasts

theorem endsHalted (halted : machine.status = .halted) {result : Except Report Unit} {final : Machine ω} :
    machine.Ends result final ↔ result = .ok () ∧ final = machine := by
  have own : machine.Ends (.ok ()) machine := ⟨1, runForEnded (by simp [halted])⟩
  constructor
  · intro ended
    exact endsUnique ended own
  · intro given
    obtain ⟨rfl, rfl⟩ := given
    exact own

theorem endsFault {report : Report} (step : machine.step = (.error report, other)) :
    machine.Ends (.error report) other := ⟨1, by rw [runFor, step]⟩

def Comes (machine : Machine ω) (result : Except Report Unit) (store : Store) (world : ω) : Prop :=
  ∃ final, machine.Ends result final ∧ final.store.unplaced = store ∧ final.world = world

def report? (machine : Machine ω) (steps : Nat) : Option Report :=
  match (machine.runFor steps).1 with
  | some (.error report) => some report
  | _ => none

theorem comesReport {steps : Nat} {report : Report} {world : ω} (failed : machine.report? steps = some report)
    (left : (machine.runFor steps).2.world = world) :
    ∃ store, machine.Comes (.error report) store world := by
  unfold report? at failed
  split at failed <;> simp at failed
  rename_i found
  rw [failed] at found
  exact ⟨_, _, ⟨steps, Prod.ext found rfl⟩, rfl, left⟩

theorem lineSame (same : other.lines = machine.lines) : other.line? = machine.line? := by
  unfold line?
  rw [same]

theorem endsReport {report : Report} {final : Machine ω} (ends : machine.Ends (.error report) final) :
    machine.line? report.line = some report.sourceLine ∧ report.phase = .executing := by
  obtain ⟨steps, ran⟩ := ends
  induction steps generalizing machine with
  | zero => simp [runFor] at ran
  | succ steps ih =>
    by_cases running : machine.status = .running
    · cases here : machine.line? machine.counter with
      | none => simp [runFor, step, running, here] at ran
      | some line =>
        rcases stepCases running here with ⟨_, after, _, move, step⟩ | ⟨fault, after, _, step⟩
        · rw [runFor, step] at ran
          cases status : after.advance.status <;> simp only [status] at ran
          · have kept : after.advance.line? = machine.line? := lineSame move.keeps.1
            rw [← kept]
            exact ih ran
          · simp at ran
          · simp at ran
        · rw [runFor, step] at ran
          cases ran
          exact ⟨here, rfl⟩
    · simp [runForEnded running] at ran

def endStatus : Except Report Unit → Status
  | .ok _ => .halted
  | .error _ => .failed

theorem endsStatus (fine : machine.status ≠ .failed) {result : Except Report Unit} {final : Machine ω}
    (ends : machine.Ends result final) : final.status = endStatus result := by
  obtain ⟨steps, ran⟩ := ends
  induction steps generalizing machine with
  | zero => simp [runFor] at ran
  | succ steps ih =>
    cases status : machine.status with
    | failed => exact absurd status fine
    | halted =>
      rw [runForEnded (by simp [status])] at ran
      cases ran
      exact status
    | running =>
      cases here : machine.line? machine.counter with
      | none =>
        simp only [runFor, step, status, here, Prod.mk.injEq, Option.some.injEq] at ran
        obtain ⟨rfl, rfl⟩ := ran
        rfl
      | some line =>
        rcases stepCases status here with ⟨_, after, _, move, step⟩ | ⟨fault, after, _, step⟩
        · rw [runFor, step] at ran
          have running : after.status = .running := move.keeps.2.2.2.1.trans status
          by_cases past : after.lines.size < after.counter + 1
          · have halted : after.advance.status = .halted := if_pos past
            rw [halted] at ran
            cases ran
            exact halted
          · have still : after.advance.status = .running := (if_neg past).trans running
            rw [still] at ran
            exact ih (by simp [still]) ran
        · rw [runFor, step] at ran
          cases ran
          rfl

def HaltsWith (machine : Machine ω) (store : Store) (world : ω) : Prop :=
  ∃ steps final, machine.runFor steps = (some (.ok ()), final) ∧ final.status = .halted ∧
    final.store.unplaced = store ∧ final.world = world

def FailsWith (machine : Machine ω) (fault : Fault) (number : Nat) (store : Store) (world : ω) : Prop :=
  ∃ steps report final, machine.runFor steps = (some (.error report), final) ∧ final.status = .failed ∧
    report.fault = fault ∧ report.line = number ∧ final.store.unplaced = store ∧ final.world = world

theorem haltsIff (fine : machine.status ≠ .failed) {store : Store} {world : ω} :
    machine.HaltsWith store world ↔ machine.Comes (.ok ()) store world := by
  constructor
  · intro given
    obtain ⟨steps, final, ran, _, left⟩ := given
    exact ⟨final, ⟨steps, ran⟩, left⟩
  · intro given
    obtain ⟨final, ⟨steps, ran⟩, left⟩ := given
    exact ⟨steps, final, ran, endsStatus fine ⟨steps, ran⟩, left⟩

theorem failsIff (fine : machine.status ≠ .failed) {fault : Fault} {number : Nat} {store : Store} {world : ω} :
    machine.FailsWith fault number store world ↔
      ∃ text, machine.Comes (.error ⟨fault, number, text, .executing⟩) store world := by
  constructor
  · intro given
    obtain ⟨steps, ⟨_, _, text, phase⟩, final, ran, _, rfl, rfl, left⟩ := given
    cases (endsReport ⟨steps, ran⟩).2
    exact ⟨text, final, ⟨steps, ran⟩, left⟩
  · intro given
    obtain ⟨text, final, ⟨steps, ran⟩, left⟩ := given
    exact ⟨steps, _, final, ran, endsStatus fine ⟨steps, ran⟩, rfl, rfl, left⟩

def place (machine : Machine ω) (counter : Nat) (store : Store) (world : ω) : Machine ω :=
  { machine with
    counter, store, world
    status := if machine.lines.size < counter then .halted else .running }

section Place
variable {counter : Nat} {store : Store} {world : ω}

theorem placeStore : (machine.place counter store world).store = store := rfl

theorem placeCounter : (machine.place counter store world).counter = counter := rfl

theorem placeRunning (inside : counter ≤ machine.lines.size) :
    (machine.place counter store world).status = .running := by
  simp [place, inside]

theorem placeHalted (past : machine.lines.size < counter) :
    (machine.place counter store world).status = .halted := by
  simp [place, past]

theorem ofLinesPlace (lines : List Text) (registry : Registry ω) (settings : Settings) (world : ω) :
    ofLines lines registry settings world =
      (ofLines lines registry settings world).place 1 Store.initial world := by
  cases lines <;> simp [ofLines, place]

theorem placeStep {line : Text} {number : Nat} {last : Store} {after : ω}
    (here : machine.line? counter = some line)
    (ran : (machine.place counter store world).execute line =
      (.ok (), { machine.place counter store world with counter := number, store := last, world := after })) :
    (machine.place counter store world).step =
      (.ok (machine.place (number + 1) last after).status, machine.place (number + 1) last after) := by
  have running : (machine.place counter store world).status = .running := placeRunning (insideLine here).2
  have kept : ({ machine.place counter store world with counter := number, store := last, world := after }).advance =
      machine.place (number + 1) last after := by
    unfold place at running
    simp only [advance, place, running]
  exact (stepOk running here ran).trans (congrArg (fun next => (Except.ok next.status, next)) kept)

theorem placeFault {line : Text} {fault : Fault} {after : Machine ω} (here : machine.line? counter = some line)
    (ran : (machine.place counter store world).execute line = (.error fault, after)) :
    (machine.place counter store world).step =
      (.error ⟨fault, counter, line, .executing⟩, { after with status := .failed }) :=
  stepError (placeRunning (insideLine here).2) here ran

end Place
end Sigil.Machine
