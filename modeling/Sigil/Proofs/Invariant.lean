import Mathlib.Algebra.Group.Nat.Defs
import Sigil.Proofs.Step

/-! The states that a machine can reach by steps and registrations after it was loaded. The counter stays
inside the program, every variable has a value until a step fails, and a loop resumes right behind a line
that opens it. So a step goes to the next line, behind the end of a skipped block, or back behind an
opening line, and nowhere else. -/
namespace Sigil.Machine
variable {ω : Type} {machine : Machine ω}

inductive Reachable : Machine ω → Prop where
  | load {source settings loader world} {machine : Machine ω}
      (accepted : Machine.load source settings loader world = .ok machine) : Reachable machine
  | step {machine : Machine ω} (before : Reachable machine) : Reachable machine.step.2
  | register {machine : Machine ω} (before : Reachable machine) (module name : Text) (function : HostFunction ω) :
      Reachable (machine.register module name function)

def OpensBefore (machine : Machine ω) (name : Text) (number : Nat) : Prop :=
  2 ≤ number ∧ number ≤ machine.lines.size + 1 ∧ ∃ text lower upper,
    machine.line? (number - 1) = some text ∧ Statement.parse text = .ok (.openLoop name lower upper)

def Resumes (machine : Machine ω) (name : Text) (state : LoopState) : Prop :=
  ∃ number : Nat, state.resume.toInt = number ∧ machine.OpensBefore name number

structure Sound (machine : Machine ω) : Prop where
  running : machine.status = .running → 1 ≤ machine.counter ∧ machine.counter ≤ machine.lines.size
  halted : machine.status = .halted → machine.counter = machine.lines.size + 1
  depth : machine.depth = 0
  coherent : machine.store.Coherent
  valued : machine.status ≠ .failed → ∀ name cell, machine.store.get? name = some cell → cell.data.isSome = true
  resumes : machine.store.Loops machine.Resumes

inductive Successor (machine : Machine ω) : Nat → Prop where
  | next : Successor machine (machine.counter + 1)
  | skipped {line label condition number} (here : machine.line? machine.counter = some line)
      (parsed : Statement.parse line = .ok (.conditional label condition))
      (failed : machine.step.2.store.read Store.conditionName = .ok (.bool false))
      (first : machine.FirstEnd label number) : Successor machine (number + 1)
  | resumed {line name number store} (here : machine.line? machine.counter = some line)
      (parsed : Statement.parse line = .ok (.loopBack name))
      (taken : machine.store.loopBack name = (.ok (some number), store))
      (opened : machine.OpensBefore name number) : Successor machine number

theorem lineInside {number : Nat} (low : 1 ≤ number) (high : number ≤ machine.lines.size) :
    ∃ line, machine.line? number = some line := by
  obtain ⟨index, rfl⟩ : ∃ index, number = index + 1 := ⟨number - 1, by omega⟩
  exact ⟨machine.lines[index], Array.getElem?_eq_getElem (by omega)⟩

theorem insideLine {number : Nat} {line : Text} (here : machine.line? number = some line) :
    1 ≤ number ∧ number ≤ machine.lines.size := by
  cases number with
  | zero => simp [line?] at here
  | succ index =>
    obtain ⟨inside, _⟩ := Array.getElem?_eq_some_iff.mp (show machine.lines[index]? = some line from here)
    omega

theorem ofLinesSound (lines : List Text) (registry : Registry ω) (settings : Settings) (world : ω) :
    (ofLines lines registry settings world).Sound := by
  refine ⟨?_, ?_, rfl, Store.initialCoherent, fun _ _ _ found => Store.initialValued found,
    Store.initialLoops _⟩
  · intro running
    cases lines with
    | nil => simp [ofLines] at running
    | cons line rest => simp [ofLines]
  · intro halted
    cases lines with
    | nil => simp [ofLines]
    | cons line rest => simp [ofLines] at halted

theorem loadSound {source : Text} {settings : Settings} {loader : Loader ω} {world : ω}
    (accepted : load source settings loader world = .ok machine) : machine.Sound := by
  unfold load at accepted
  split at accepted
  · cases accepted
    exact ofLinesSound _ _ _ _
  · simp at accepted

theorem Sound.here (sound : machine.Sound) (running : machine.status = .running) :
    ∃ line, machine.line? machine.counter = some line :=
  lineInside (sound.running running).1 (sound.running running).2

theorem resumeLineOf {state : LoopState} {number : Nat} (same : state.resume.toInt = number) :
    state.resumeLine = some number := by
  simp [LoopState.resumeLine, same]

theorem Sound.loopBackAnswers (sound : machine.Sound) {name : Text} {line : Option Nat} {store : Store}
    (h : machine.store.loopBack name = (.ok line, store)) :
    (line = none ∧ store = machine.store) ∨ ∃ number, line = some number ∧ machine.OpensBefore name number := by
  obtain ⟨cell, state, current, found, loop, _, ⟨_, answer, _⟩ | ⟨_, answer, same⟩⟩ := Store.loopedBack h
  · obtain ⟨number, word, opened⟩ := sound.resumes found loop
    exact .inr ⟨number, answer.trans (resumeLineOf word), opened⟩
  · exact .inl ⟨answer, same⟩

theorem readCondition {store : Store} (coherent : store.Coherent) (result : Bool) :
    (store.recordCondition result).read Store.conditionName = .ok (.bool result) := by
  obtain ⟨cell, found, _⟩ := coherent.condition
  simp [Store.recorded found, Store.read]

theorem Sound.moveSuccessor (sound : machine.Sound) {line : Text} {statement : Statement} {after : Machine ω}
    (here : machine.line? machine.counter = some line) (parsed : Statement.parse line = .ok statement)
    (move : Move machine statement after) (stepped : machine.step.2 = after.advance) :
    machine.Successor (after.counter + 1) ∧ after.counter ≤ machine.lines.size := by
  have inside := (insideLine here).2
  cases move with
  | nothing => exact ⟨.next, inside⟩
  | call ran => exact ⟨.next, inside⟩
  | assign ran stored => exact ⟨.next, inside⟩
  | openLoop ran opened => exact ⟨.next, inside⟩
  | leave done => exact ⟨.next, inside⟩
  | enter ran => exact ⟨.next, inside⟩
  | @back name number store again =>
    rcases sound.loopBackAnswers again with ⟨none, _⟩ | ⟨target, same, opened⟩
    · simp at none
    · cases same
      have low := opened.1
      have high := opened.2.1
      have back : number - 1 + 1 = number := by omega
      refine ⟨?_, by simp only; omega⟩
      simp only [back]
      exact .resumed here parsed again opened
  | @skip label condition world number ran found =>
    have first := endLineFirst found
    obtain ⟨text, ended, _⟩ := first.ends
    refine ⟨.skipped here parsed ?_ first, (insideLine ended).2⟩
    rw [stepped]
    exact readCondition sound.coherent false

theorem Sound.stepSuccessor (sound : machine.Sound) (running : machine.status = .running) {status : Status}
    (went : machine.step.1 = .ok status) : machine.Successor machine.step.2.counter := by
  obtain ⟨line, here⟩ := sound.here running
  rcases stepCases running here with ⟨statement, after, parsed, move, step⟩ | ⟨fault, after, refusal, step⟩
  · have stepped : machine.step.2 = after.advance := by rw [step]
    rw [stepped]
    exact (sound.moveSuccessor here parsed move stepped).1
  · rw [step] at went
    simp at went

theorem advanceSound {after : Machine ω} (status : after.status = .running) (inside : after.counter ≤ after.lines.size)
    (depth : after.depth = 0) (coherent : after.store.Coherent) (valued : after.store.Valued)
    (resumes : after.store.Loops after.Resumes) : after.advance.Sound := by
  refine ⟨?_, ?_, depth, coherent, fun _ _ _ found => valued found, resumes⟩
  · intro running
    simp only [advance] at running ⊢
    split at running
    · simp at running
    · omega
  · intro halted
    simp only [advance] at halted ⊢
    split at halted
    · omega
    · simp [status] at halted

def Countable (machine : Machine ω) : Prop :=
  ∀ ⦃number line name lower upper⦄, machine.line? number = some line →
    Statement.parse line = .ok (.openLoop name lower upper) → number + 1 < 2 ^ 63

theorem fewCountable (few : machine.lines.size < 2 ^ 63 - 1) : machine.Countable := by
  intro number line name lower upper here _
  have inside := (insideLine here).2
  omega

theorem stepSound (sound : machine.Sound) (countable : machine.Countable) : machine.step.2.Sound := by
  by_cases running : machine.status = .running
  · obtain ⟨line, here⟩ := sound.here running
    rcases stepCases running here with ⟨statement, after, parsed, move, step⟩ | ⟨fault, after, refusal, step⟩
    · have stepped : machine.step.2 = after.advance := by rw [step]
      have inside := (sound.moveSuccessor here parsed move stepped).2
      obtain ⟨lines, _, _, status, depth⟩ := move.keeps
      have valued : machine.store.Valued := fun name cell found =>
        sound.valued (by simp [running]) name cell found
      -- The one new loop is opened on the line under the counter, whose number is small enough for a word.
      have loops := move.loops sound.resumes fun name lower upper high same => by
        have place := insideLine here
        rw [same] at parsed
        exact ⟨machine.counter + 1, Int64.toInt_ofNat_of_lt (countable here parsed), by omega, by omega,
          line, lower, upper, here, parsed⟩
      rw [stepped]
      refine advanceSound (status.trans running) (lines ▸ inside) (depth.trans sound.depth)
        (move.coherent sound.coherent) (move.valued valued) ?_
      simpa only [Store.Loops, Resumes, OpensBefore, line?, lines] using loops
    · obtain ⟨lines, _, _, counter, depth⟩ := refusal.keeps
      have loops := refusal.loops sound.resumes
      rw [step]
      refine ⟨by simp, by simp, depth.trans sound.depth, refusal.coherent sound.coherent, by simp, ?_⟩
      simpa only [Store.Loops, Resumes, OpensBefore, line?, lines] using loops
  · rw [stepEnded running]
    exact sound

theorem registerSound (sound : machine.Sound) (module name : Text) (function : HostFunction ω) :
    (machine.register module name function).Sound :=
  ⟨sound.running, sound.halted, sound.depth, sound.coherent, sound.valued, sound.resumes⟩

theorem Reachable.sound (reachable : machine.Reachable) (few : machine.lines.size < 2 ^ 63 - 1) :
    machine.Sound := by
  induction reachable with
  | load accepted => exact loadSound accepted
  | @step machine before ih =>
    rw [stepLines] at few
    exact stepSound (ih few) (fewCountable few)
  | register before module name function ih => exact registerSound (ih few) module name function

theorem Sound.evaluatesValued (sound : machine.Sound) (running : machine.status = .running) {fault : Fault}
    (own : fault.Evaluating machine.store) (name : Text) : fault ≠ .unresolvedValue name := by
  intro same
  subst same
  obtain ⟨cell, found, empty⟩ := own
  have valued := sound.valued (by simp [running]) name cell found
  simp [empty] at valued

theorem Sound.refusalResolved (sound : machine.Sound) (running : machine.status = .running)
    {parsed : Except SyntaxFault Statement} {fault : Fault} {after : Machine ω}
    (refusal : Refusal machine parsed fault after) (name : Text) : fault ≠ .unresolvedValue name := by
  cases refusal with
  | malformed => simp
  | evaluating own => exact sound.evaluatesValued running own name
  | assign refused => rcases (Store.assignRefused refused).2 with rfl | ⟨_, rfl⟩ <;> simp
  | openLoop refused => rcases (Store.openRefused refused).2 with rfl | ⟨_, rfl⟩ <;> simp
  | loopBack refused =>
    rcases (Store.loopBackRefused refused).2 with rfl | ⟨_, rfl⟩ | ⟨rfl, cell, state, found, loop, other⟩
    · simp
    · simp
    · obtain ⟨current, data⟩ := (sound.coherent.cells found).counts loop
      exact absurd data (other current)
  | noEnd missing => simp

theorem reachableInvariant {machine : Machine ω} (reachable : machine.Reachable)
    (few : machine.lines.size < 2 ^ 63 - 1) :
    machine.Sound ∧
    (machine.status = .running → ∃ line, machine.line? machine.counter = some line) ∧
    (∀ status, machine.status = .running → machine.step.1 = .ok status →
      machine.Successor machine.step.2.counter) ∧
    (∀ name store, machine.store.loopBack name = (.ok none, store) → store = machine.store) ∧
    ∀ report, machine.step.1 = .error report → ∀ name, report.fault ≠ .unresolvedValue name := by
  have sound := reachable.sound few
  refine ⟨sound, sound.here, fun status running went => sound.stepSuccessor running went, ?_, ?_⟩
  · intro name store done
    rcases sound.loopBackAnswers done with ⟨_, same⟩ | ⟨_, some, _⟩
    · exact same
    · simp at some
  · intro report failed name
    by_cases running : machine.status = .running
    · obtain ⟨line, here⟩ := sound.here running
      rcases stepCases running here with ⟨_, _, _, _, step⟩ | ⟨fault, after, refusal, step⟩
      · rw [step] at failed
        simp at failed
      · rw [step] at failed
        cases failed
        exact sound.refusalResolved running refusal name
    · rw [stepEnded running] at failed
      simp at failed

theorem reachableInvariantLooping :
    ∃ machine : Machine Unit, machine.Reachable ∧ machine.lines.size < 2 ^ 63 - 1 ∧
      machine.status = .running ∧ machine.counter = 2 ∧ machine.step.2.counter = 2 ∧
      machine.Sound ∧ machine.Successor machine.step.2.counter := by
  have accepted : load "@n $i 1 3\n@b $i".toList Settings.default Catalog.empty.load () =
      .ok (ofLines ["@n $i 1 3".toList, "@b $i".toList] Registry.initial Settings.default ()) := rfl
  have reachable := (Reachable.load accepted).step
  generalize reached : Prod.snd _ = machine at reachable
  have few : machine.lines.size < 2 ^ 63 - 1 := by
    rw [← reached, stepLines]
    decide
  have running : machine.status = .running := by
    rw [← reached]
    decide +kernel
  have went : machine.step.1 = .ok .running := by
    rw [← reached]
    decide +kernel
  obtain ⟨sound, _, successor, _⟩ := reachableInvariant reachable few
  refine ⟨machine, reachable, few, running, ?_, ?_, sound, successor _ running went⟩
  · rw [← reached]
    decide +kernel
  · rw [← reached]
    decide +kernel

end Sigil.Machine
