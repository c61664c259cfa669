import Mathlib.Data.Nat.Init
import Sigil.Proofs.Resume
import Sigil.Proofs.Runs
import Sigil.Proofs.Source

/-! A program and the same program with one more line that says nothing. Every line number that a machine
holds moves along: the counter, the ends of the blocks, and the lines at which loops resume. Where the
machine comes from the line before the new one, it takes one step more and is then where the other is. -/
namespace Sigil

structure Insertion where
  before : List Text
  line : Text
  behind : List Text
  silent : Statement.parse line = .ok .nothing
  unlabelled : Statement.endLabel line = none

namespace Insertion
variable {ω : Type} (insertion : Insertion)

def short : List Text := insertion.before ++ insertion.behind

def long : List Text := insertion.before ++ insertion.line :: insertion.behind

def place : Nat := insertion.before.length + 1

def shift (number : Nat) : Nat := shiftFrom insertion.place number

def landing (number : Nat) : Nat := insertion.shift (number - 1) + 1

def word (resume : Int64) : Int64 := Int64.ofNat (insertion.landing resume.toInt.toNat)

def image (machine : Machine ω) : Machine ω :=
  { machine with
    lines := insertion.long.toArray
    counter := insertion.shift machine.counter
    store := machine.store.mapResume insertion.word }

theorem imageStore (machine : Machine ω) :
    (insertion.image machine).store = machine.store.mapResume insertion.word := rfl

theorem imageCounter (machine : Machine ω) :
    (insertion.image machine).counter = insertion.shift machine.counter := rfl

structure Aligned (machine : Machine ω) : Prop where
  lines : machine.lines = insertion.short.toArray
  sound : machine.Sound
  countable : (insertion.image machine).Countable

variable {insertion} {machine : Machine ω}

theorem shiftLess {number other : Nat} : insertion.shift number < insertion.shift other ↔ number < other := by
  unfold shift shiftFrom
  split <;> split <;> omega

theorem shiftLine (lines : machine.lines = insertion.short.toArray) (number : Nat) :
    (insertion.image machine).line? (insertion.shift number) = machine.line? number := by
  cases number with
  | zero => simp [shift, shiftFrom, place, Machine.line?]
  | succ index =>
    by_cases moved : insertion.place ≤ index + 1
    · have past : insertion.before.length ≤ index := by simpa [place] using moved
      have tail : index + 1 - insertion.before.length = (index - insertion.before.length) + 1 := by omega
      simp only [shift, shiftFrom, moved, if_true, Machine.line?, image, lines, short, long, List.getElem?_toArray]
      rw [List.getElem?_append_right past, List.getElem?_append_right (by omega), tail, List.getElem?_cons_succ]
    · have inside : index < insertion.before.length := by simpa [place] using moved
      simp only [shift, shiftFrom, moved, if_false, Machine.line?, image, lines, short, long, List.getElem?_toArray]
      rw [List.getElem?_append_left inside, List.getElem?_append_left inside]

theorem placeLine (machine : Machine ω) : (insertion.image machine).line? insertion.place = some insertion.line := by
  simp [Machine.line?, place, image, long]

theorem shiftOnto {number : Nat} (other : number ≠ insertion.place) : ∃ old, number = insertion.shift old := by
  by_cases low : number < insertion.place
  · exact ⟨number, by simp [shift, shiftFrom, Nat.not_le.mpr low]⟩
  · refine ⟨number - 1, ?_⟩
    have least : 1 ≤ insertion.place := by simp [place]
    simp only [shift, shiftFrom]
    split <;> omega

theorem endsBlock (lines : machine.lines = insertion.short.toArray) (label : Text) (number : Nat) :
    (insertion.image machine).EndsBlock label number ↔
      ∃ old, number = insertion.shift old ∧ machine.EndsBlock label old := by
  constructor
  · intro given
    obtain ⟨text, here, ends⟩ := given
    by_cases new : number = insertion.place
    · subst new
      rw [placeLine] at here
      cases here
      simp [insertion.unlabelled] at ends
    · obtain ⟨old, rfl⟩ := shiftOnto new
      rw [shiftLine lines] at here
      exact ⟨old, rfl, text, here, ends⟩
  · intro given
    obtain ⟨old, rfl, text, here, ends⟩ := given
    exact ⟨text, by rwa [shiftLine lines], ends⟩

theorem endLine (lines : machine.lines = insertion.short.toArray) (label : Text) :
    (insertion.image machine).endLine? label = (machine.endLine? label).map insertion.shift := by
  cases found : machine.endLine? label with
  | none =>
    cases again : (insertion.image machine).endLine? label with
    | none => rfl
    | some number =>
      have first := Machine.endLineFirst again
      obtain ⟨old, rfl, ends⟩ := (endsBlock lines label number).mp first.ends
      exact absurd ends (Machine.endLineMissing found old (shiftLess.mp first.later))
  | some number =>
    have first := Machine.endLineFirst found
    have ends := (endsBlock lines label _).mpr ⟨number, rfl, first.ends⟩
    refine Machine.endLineIff.mpr ⟨shiftLess.mpr first.later, ends, ?_⟩
    intro other later earlier ends
    obtain ⟨old, rfl, ended⟩ := (endsBlock lines label other).mp ends
    exact first.first old (shiftLess.mp later) (shiftLess.mp earlier) ended

theorem Aligned.shortCountable (aligned : insertion.Aligned machine) : machine.Countable := by
  intro number line name lower upper here parsed
  rw [← shiftLine aligned.lines] at here
  have small := aligned.countable here parsed
  unfold shift shiftFrom at small
  split at small <;> omega

theorem Aligned.opened (aligned : insertion.Aligned machine) {number : Nat} {line name lower upper : Text}
    (here : machine.line? number = some line) (parsed : Statement.parse line = .ok (.openLoop name lower upper)) :
    insertion.word (Int64.ofNat (number + 1)) = Int64.ofNat (insertion.shift number + 1) := by
  have fits := Int64.toInt_ofNat_of_lt (aligned.shortCountable here parsed)
  simp only [word, landing, fits, Int.toNat_natCast, Nat.add_sub_cancel]

theorem Aligned.resumes (aligned : insertion.Aligned machine) {name : Text} {state : LoopState}
    (resumes : machine.Resumes name state) :
    (state.mapResume insertion.word).resumeLine = state.resumeLine.map insertion.landing := by
  obtain ⟨number, same, low, high, line, lower, upper, here, parsed⟩ := resumes
  rw [← shiftLine aligned.lines] at here
  have fits := Int64.toInt_ofNat_of_lt (aligned.countable here parsed)
  have moved : (state.mapResume insertion.word).resume.toInt = (insertion.landing number : Nat) := by
    simpa only [LoopState.mapResume, word, same, landing, Int.toNat_natCast] using fits
  rw [Machine.resumeLineOf same, Machine.resumeLineOf moved]
  rfl

theorem scopeAlike (machine : Machine ω) : (insertion.image machine).scope.Alike machine.scope :=
  ⟨Store.mapResumeRead _ _, rfl, rfl⟩

theorem evaluateEq {α : Type} (machine : Machine ω) (computation : Eval (Nested ω) α) :
    (insertion.image machine).evaluate computation =
      ((machine.evaluate computation).1, insertion.image (machine.evaluate computation).2) := rfl

theorem callEq (machine : Machine ω) (call : Call) :
    (insertion.image machine).executeCall call =
      ((machine.executeCall call).1, insertion.image (machine.executeCall call).2) := by
  unfold Machine.executeCall
  rw [Scope.alikeCall (scopeAlike machine), evaluateEq]
  cases machine.evaluate (machine.scope.call call) with
  | mk result after => cases result <;> rfl

theorem assignmentEq (machine : Machine ω) (assignment : Assignment) :
    (insertion.image machine).executeAssignment assignment =
      ((machine.executeAssignment assignment).1, insertion.image (machine.executeAssignment assignment).2) := by
  unfold Machine.executeAssignment
  rw [Scope.alikeValue (scopeAlike machine), evaluateEq]
  cases machine.evaluate (machine.scope.value assignment.value) with
  | mk result after =>
    cases result with
    | error fault => rfl
    | ok value =>
      have stored := Store.mapResumeAssign insertion.word machine.store assignment.name assignment.type
        assignment.flags value
      simp only [imageStore, stored]
      rfl

theorem Aligned.openEq (aligned : insertion.Aligned machine) {line name lower upper : Text}
    (here : machine.line? machine.counter = some line)
    (parsed : Statement.parse line = .ok (.openLoop name lower upper)) :
    (insertion.image machine).executeOpen name lower upper =
      ((machine.executeOpen name lower upper).1, insertion.image (machine.executeOpen name lower upper).2) := by
  unfold Machine.executeOpen
  rw [Scope.alikeBounds (scopeAlike machine), evaluateEq]
  cases machine.evaluate (Machine.bounds machine.scope lower upper) with
  | mk result after =>
    cases result with
    | error fault => rfl
    | ok bounds =>
      have opened := Store.mapResumeOpen insertion.word machine.store name bounds.1 bounds.2 _ _
        (aligned.opened here parsed)
      simp only [imageStore, imageCounter, opened]
      rfl

theorem Aligned.backEq (aligned : insertion.Aligned machine) (name : Text) :
    (insertion.image machine).executeBack name =
      ((machine.executeBack name).1, insertion.image (machine.executeBack name).2) := by
  have back := Store.mapResumeBack insertion.word machine.store name insertion.landing
    fun cell state found loop => aligned.resumes (aligned.sound.resumes found loop)
  unfold Machine.executeBack
  simp only [imageStore, back]
  cases machine.store.loopBack name with
  | mk result store =>
    rcases result with fault | (_ | line)
    · rfl
    · rfl
    · rfl

theorem Aligned.conditionalEq (aligned : insertion.Aligned machine) (label condition : Text) :
    (insertion.image machine).executeConditional label condition =
      ((machine.executeConditional label condition).1,
        insertion.image (machine.executeConditional label condition).2) := by
  unfold Machine.executeConditional
  rw [Scope.alikeValue (scopeAlike machine), evaluateEq, endLine aligned.lines]
  cases machine.evaluate (Condition.evaluate machine.scope.value condition) with
  | mk result after =>
    rcases result with fault | (_ | _)
    · rfl
    · have recorded := Store.mapResumeRecord insertion.word machine.store false
      simp only [imageStore, recorded]
      cases machine.endLine? label <;> rfl
    · have recorded := Store.mapResumeRecord insertion.word machine.store true
      simp only [imageStore, recorded]
      rfl

theorem Aligned.executeEq (aligned : insertion.Aligned machine) {line : Text}
    (here : machine.line? machine.counter = some line) :
    (insertion.image machine).execute line =
      ((machine.execute line).1, insertion.image (machine.execute line).2) := by
  unfold Machine.execute
  split
  · rfl
  · exact callEq machine _
  · exact assignmentEq machine _
  · rename_i parsed
    exact aligned.openEq here parsed
  · exact aligned.backEq _
  · exact aligned.conditionalEq _ _
  · rfl

/- Where a step of the longer program arrives: at the same place, or on the new line with one step to go. -/
def Arrives (insertion : Insertion) (reached target : Machine ω) : Prop :=
  reached = insertion.image target ∨
    reached.status = .running ∧ reached.world = target.world ∧
      reached.step = (.ok (insertion.image target).status, insertion.image target)

theorem advanceArrives (lines : machine.lines = insertion.short.toArray) (running : machine.status = .running)
    (inside : machine.counter ≤ machine.lines.size) :
    insertion.Arrives (insertion.image machine).advance machine.advance := by
  have size : insertion.long.toArray.size = machine.lines.size + 1 := by
    simp only [lines, long, short, List.size_toArray, List.length_append, List.length_cons]
    omega
  have most : insertion.place ≤ machine.lines.size + 1 := by
    simp only [lines, place, short, List.size_toArray, List.length_append]
    omega
  by_cases new : machine.counter + 1 = insertion.place
  · -- The counter comes from the line before the new one, which it now stands on.
    right
    have here : insertion.shift machine.counter = machine.counter := by
      simp only [shift, shiftFrom]
      split <;> omega
    have there : insertion.shift (machine.counter + 1) = machine.counter + 2 := by simp [shift, shiftFrom, new]
    have still : (insertion.image machine).advance.status = .running := by
      have room : ¬machine.lines.size + 1 < machine.counter + 1 := by omega
      simp [Machine.advance, image, size, here, room, running]
    have counter : (insertion.image machine).advance.counter = insertion.place := by
      simp [Machine.advance, image, here, new]
    have found : (insertion.image machine).advance.line? (insertion.image machine).advance.counter =
        some insertion.line := by
      rw [counter]
      exact placeLine machine
    have ran : (insertion.image machine).advance.execute insertion.line =
        (.ok (), (insertion.image machine).advance) := by
      simp only [Machine.execute, insertion.silent]
    have same : (insertion.image machine).advance.advance = insertion.image machine.advance := by
      have ends : machine.lines.size + 1 < machine.counter + 1 + 1 ↔ machine.lines.size < machine.counter + 1 := by
        omega
      have room : ¬machine.lines.size + 1 < machine.counter + 1 := by omega
      simp only [Machine.advance, image, size, here, there, room, ends, if_false]
    refine ⟨still, rfl, ?_⟩
    rw [Machine.stepOk still found ran, same]
  · left
    have next : insertion.shift machine.counter + 1 = insertion.shift (machine.counter + 1) := by
      simp only [shift, shiftFrom]
      split <;> split <;> omega
    have ends : machine.lines.size + 1 < insertion.shift (machine.counter + 1) ↔
        machine.lines.size < machine.counter + 1 := by
      simp only [shift, shiftFrom]
      split <;> omega
    simp only [Machine.advance, image, size, next, ends]

theorem Aligned.next (aligned : insertion.Aligned machine) : insertion.Aligned machine.next :=
  ⟨(Machine.stepLines machine).trans aligned.lines, Machine.stepSound aligned.sound aligned.shortCountable,
    aligned.countable⟩

theorem Aligned.stepArrives (aligned : insertion.Aligned machine) (running : machine.status = .running) :
    (∃ report, machine.step = (.error report, machine.next) ∧
      (insertion.image machine).step = (.error (report.shiftFrom insertion.place), insertion.image machine.next)) ∨
    ∃ reached, machine.step = (.ok machine.next.status, machine.next) ∧
      (insertion.image machine).step = (.ok reached.status, reached) ∧ insertion.Arrives reached machine.next := by
  obtain ⟨line, here⟩ := aligned.sound.here running
  have there : (insertion.image machine).line? (insertion.image machine).counter = some line := by
    rw [← here]
    exact shiftLine aligned.lines machine.counter
  have busy : (insertion.image machine).status = .running := running
  have executed := aligned.executeEq here
  cases ran : machine.execute line with
  | mk result after =>
    rw [ran] at executed
    cases result with
    | error fault =>
      left
      have failed := Machine.stepError running here ran
      refine ⟨⟨fault, machine.counter, line, .executing⟩, ?_, ?_⟩
      · rw [Machine.next, failed]
      · rw [Machine.next, failed]
        exact Machine.stepError busy there executed
    | ok =>
      right
      have moved := Machine.stepOk running here ran
      have next : machine.next = after.advance := by rw [Machine.next, moved]
      obtain ⟨statement, parsed, move⟩ := Machine.executed ran
      obtain ⟨kept, _, _, status, _⟩ := move.keeps
      have inside := (aligned.sound.moveSuccessor here parsed move next).2
      rw [next]
      exact ⟨_, moved, Machine.stepOk busy there executed,
        advanceArrives (kept.trans aligned.lines) (status.trans running) (kept ▸ inside)⟩

theorem Arrives.leads {reached target : Machine ω} (arrives : insertion.Arrives reached target) :
    reached.Leads (insertion.image target) := by
  rcases arrives with rfl | ⟨_, _, step⟩
  · exact Machine.leadsRefl _
  · exact Machine.leadsStep step

theorem Aligned.leads (aligned : insertion.Aligned machine) (running : machine.status = .running)
    (went : machine.step = (.ok machine.next.status, machine.next)) :
    (insertion.image machine).Leads (insertion.image machine.next) := by
  rcases aligned.stepArrives running with ⟨report, failed, _⟩ | ⟨reached, _, step, arrives⟩
  · simp [failed] at went
  · exact (Machine.leadsStep step).trans arrives.leads

theorem Aligned.endsForward (aligned : insertion.Aligned machine) {result : Except Report Unit}
    {final : Machine ω} (ends : machine.Ends result final) :
    (insertion.image machine).Ends (result.mapError (Report.shiftFrom insertion.place)) (insertion.image final) := by
  obtain ⟨steps, ran⟩ := ends
  induction steps generalizing machine with
  | zero => simp [Machine.runFor] at ran
  | succ steps ih =>
    by_cases running : machine.status = .running
    · rcases aligned.stepArrives running with ⟨report, failed, step⟩ | ⟨reached, went, _, _⟩
      · rw [Machine.runFor, failed] at ran
        cases ran
        exact Machine.endsFault step
      · rw [(aligned.leads running went).ends]
        by_cases still : machine.next.status = .running
        · rw [Machine.runFor, went, still] at ran
          exact ih aligned.next ran
        · have ended := (Machine.leadsStep went).ends.mp ⟨_, ran⟩
          obtain ⟨rfl, rfl⟩ := Machine.endsUnique ended ⟨1, Machine.runForEnded still⟩
          exact ⟨1, Machine.runForEnded still⟩
    · rw [Machine.runForEnded running] at ran
      cases ran
      exact ⟨1, Machine.runForEnded running⟩

theorem Aligned.lasts (aligned : insertion.Aligned machine) {steps : Nat} (lasts : machine.Lasts steps) :
    (insertion.image machine).Lasts steps := by
  induction steps generalizing machine with
  | zero => rfl
  | succ steps ih =>
    unfold Machine.Lasts at lasts
    by_cases running : machine.status = .running
    · rcases aligned.stepArrives running with ⟨report, failed, _⟩ | ⟨reached, went, step, arrives⟩
      · simp [Machine.runFor, failed] at lasts
      · rw [Machine.runFor, went] at lasts
        cases still : machine.next.status with
        | running =>
          rw [still] at lasts
          have later := arrives.leads.lasts (ih aligned.next lasts)
          rcases arrives with rfl | ⟨busy, _, _⟩
          · exact Machine.lastsStep step still later
          · exact Machine.lastsStep step busy later
        | halted => simp [still] at lasts
        | failed => simp [still] at lasts
    · simp [Machine.runForEnded running] at lasts

theorem Aligned.ends (aligned : insertion.Aligned machine) {result : Except Report Unit} {final : Machine ω} :
    (insertion.image machine).Ends result final ↔
      ∃ original last, machine.Ends original last ∧ result = original.mapError (Report.shiftFrom insertion.place) ∧
        final = insertion.image last := by
  constructor
  · intro given
    obtain ⟨steps, ran⟩ := given
    cases same : machine.runFor steps with
    | mk outcome last =>
      cases outcome with
      | none => exact absurd (aligned.lasts (by simp [Machine.Lasts, same])) (Machine.endsNotLasts ran)
      | some original =>
        obtain ⟨rfl, rfl⟩ := Machine.endsUnique ⟨steps, ran⟩ (aligned.endsForward ⟨steps, same⟩)
        exact ⟨original, last, ⟨steps, same⟩, rfl, rfl⟩
  · intro given
    obtain ⟨original, last, ends, rfl, rfl⟩ := given
    exact aligned.endsForward ends

theorem Aligned.nextArrives (aligned : insertion.Aligned machine) :
    (insertion.image machine).next = insertion.image machine.next ∨
      (insertion.image machine).next.world = machine.next.world ∧
        (insertion.image machine).next.next = insertion.image machine.next := by
  by_cases running : machine.status = .running
  · rcases aligned.stepArrives running with ⟨report, _, step⟩ | ⟨reached, _, step, arrives⟩
    · exact .inl (by rw [Machine.next, step])
    · have reaches : (insertion.image machine).next = reached := by rw [Machine.next, step]
      rw [reaches]
      rcases arrives with same | ⟨_, world, again⟩
      · exact .inl same
      · exact .inr ⟨world, by rw [Machine.next, again]⟩
  · have ended : (insertion.image machine).status ≠ .running := running
    exact .inl (by rw [Machine.next, Machine.next, Machine.stepEnded running, Machine.stepEnded ended])

theorem Aligned.iterate (aligned : insertion.Aligned machine) (steps : Nat) :
    ∃ count, Machine.next^[count] (insertion.image machine) = insertion.image (Machine.next^[steps] machine) := by
  induction steps generalizing machine with
  | zero => exact ⟨0, rfl⟩
  | succ steps ih =>
    obtain ⟨count, same⟩ := ih aligned.next
    rcases aligned.nextArrives with once | ⟨_, twice⟩
    · exact ⟨count + 1, by rw [Function.iterate_succ_apply, once, same, Function.iterate_succ_apply]⟩
    · refine ⟨count + 2, ?_⟩
      rw [Function.iterate_succ_apply, Function.iterate_succ_apply, twice, same, Function.iterate_succ_apply]

theorem Aligned.worlds (aligned : insertion.Aligned machine) (count : Nat) :
    ∃ steps, (Machine.next^[count] (insertion.image machine)).world = (Machine.next^[steps] machine).world := by
  induction count using Nat.twoStepInduction generalizing machine with
  | zero => exact ⟨0, rfl⟩
  | one =>
    refine ⟨1, ?_⟩
    rw [Function.iterate_one]
    rcases aligned.nextArrives with once | ⟨world, _⟩
    · rw [once]
      rfl
    · exact world
  | more count two one =>
    rcases aligned.nextArrives with once | ⟨_, twice⟩
    · obtain ⟨steps, same⟩ := one aligned.next
      exact ⟨steps + 1, by rw [Function.iterate_succ_apply, once, same, Function.iterate_succ_apply]⟩
    · obtain ⟨steps, same⟩ := two aligned.next
      refine ⟨steps + 1, ?_⟩
      rw [Function.iterate_succ_apply, Function.iterate_succ_apply, twice, same, Function.iterate_succ_apply]

theorem Aligned.passes (aligned : insertion.Aligned machine) (seen : ω) :
    (insertion.image machine).Passes seen ↔ machine.Passes seen := by
  constructor
  · intro given
    obtain ⟨count, rfl⟩ := given
    obtain ⟨steps, same⟩ := aligned.worlds count
    exact ⟨steps, same.symm⟩
  · intro given
    obtain ⟨steps, rfl⟩ := given
    obtain ⟨count, same⟩ := aligned.iterate steps
    exact ⟨count, by rw [same]; rfl⟩

section Start
variable {registry : Registry ω} {settings : Settings} {world : ω}

theorem startArrives (insertion : Insertion) (registry : Registry ω) (settings : Settings) (world : ω) :
    insertion.Arrives (Machine.ofLines insertion.long registry settings world)
    (Machine.ofLines insertion.short registry settings world) := by
  have filled : insertion.long.isEmpty = false := by simp [long]
  cases first : insertion.before with
  | nil =>
    right
    have place : insertion.place = 1 := by simp [place, first]
    have still : (Machine.ofLines insertion.long registry settings world).status = .running := by
      simp [Machine.ofLines, filled]
    have here : (Machine.ofLines insertion.long registry settings world).line? 1 = some insertion.line := by
      simp [Machine.line?, Machine.ofLines, long, first]
    have ran : (Machine.ofLines insertion.long registry settings world).execute insertion.line =
        (.ok (), Machine.ofLines insertion.long registry settings world) := by
      simp only [Machine.execute, insertion.silent]
    have same : (Machine.ofLines insertion.long registry settings world).advance =
        insertion.image (Machine.ofLines insertion.short registry settings world) := by
      have behind : insertion.short = insertion.behind := by simp [short, first]
      have all : insertion.long = insertion.line :: insertion.behind := by simp [long, first]
      simp only [Machine.advance, image, Machine.ofLines, behind, all, shift, shiftFrom, place, Store.mapResumeInitial]
      cases insertion.behind <;> simp
    refine ⟨still, rfl, ?_⟩
    rw [Machine.stepOk still here ran, same]
  | cons line rest =>
    left
    have place : ¬insertion.place ≤ 1 := by simp [place, first]
    have kept : insertion.short.isEmpty = false := by simp [short, first]
    simp only [image, Machine.ofLines, shift, shiftFrom, place, kept, filled, Store.mapResumeInitial, if_false]

theorem startAligned (countable : (Machine.ofLines insertion.long registry settings world).Countable) :
    insertion.Aligned (Machine.ofLines insertion.short registry settings world) :=
  ⟨rfl, Machine.ofLinesSound _ _ _ _, countable⟩

theorem linesEnds (countable : (Machine.ofLines insertion.long registry settings world).Countable)
    {result : Except Report Unit} {final : Machine ω} :
    (Machine.ofLines insertion.long registry settings world).Ends result final ↔
      ∃ original last, (Machine.ofLines insertion.short registry settings world).Ends original last ∧
        result = original.mapError (Report.shiftFrom insertion.place) ∧ final = insertion.image last :=
  (startArrives insertion registry settings world).leads.ends.trans (startAligned countable).ends

theorem linesComes (countable : (Machine.ofLines insertion.long registry settings world).Countable)
    {result : Except Report Unit} {store : Store} {after : ω} :
    (Machine.ofLines insertion.long registry settings world).Comes result store after ↔
      ∃ original, (Machine.ofLines insertion.short registry settings world).Comes original store after ∧
        result = original.mapError (Report.shiftFrom insertion.place) := by
  constructor
  · intro given
    obtain ⟨final, ends, rfl, rfl⟩ := given
    obtain ⟨original, last, first, same, rfl⟩ := (linesEnds countable).mp ends
    exact ⟨original, ⟨last, first, (Store.unplacedMapResume _ _).symm, rfl⟩, same⟩
  · intro given
    obtain ⟨original, ⟨last, first, rfl, rfl⟩, same⟩ := given
    exact ⟨insertion.image last, (linesEnds countable).mpr ⟨original, last, first, same, rfl⟩,
      Store.unplacedMapResume _ _, rfl⟩

theorem linesPasses (countable : (Machine.ofLines insertion.long registry settings world).Countable) (seen : ω) :
    (Machine.ofLines insertion.long registry settings world).Passes seen ↔
      (Machine.ofLines insertion.short registry settings world).Passes seen := by
  rw [← (startAligned countable).passes seen]
  rcases startArrives insertion registry settings world with same | ⟨_, _, step⟩
  · rw [same]
  · have arrived : (Machine.ofLines insertion.long registry settings world).next =
        insertion.image (Machine.ofLines insertion.short registry settings world) := by rw [Machine.next, step]
    exact Machine.passesStep arrived rfl

end Start
end Insertion
end Sigil
