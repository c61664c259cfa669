import Mathlib.Data.Nat.Count
import Sigil.Proofs.Frame
import Sigil.Proofs.Termination

/-! How often the body of a counted loop runs. Whatever stands between the opening line and the closing one, if
each pass comes to the closing line and leaves the counter alone, then the passes are as many as there are
integers from the lower bound to the upper one, and one if there are none. -/
namespace Sigil

namespace Store
variable {store after : Store} {name : Text} {state : LoopState} {value : Int64}

def Counting (store : Store) (name : Text) (state : LoopState) (value : Int64) : Prop :=
  ∃ cell, store.get? name = some cell ∧ Variable.loopFlag ∈ cell.flags ∧ cell.loop = some state ∧
    cell.data = some (.int value)

theorem openedCounting {lower upper : Int64} {resume : Nat}
    (h : store.openLoop name lower upper resume = (.ok (), after)) :
    after.Counting name ⟨upper, Int64.ofNat resume⟩ lower := by
  obtain ⟨_, rfl⟩ := opened h
  refine ⟨_, by rw [getPut, if_pos rfl], ?_, Variable.withLoopLoop _ _, rfl⟩
  exact Variable.memAddFlags.mpr (.inr List.mem_cons_self)

theorem Counting.read (counting : store.Counting name state value) : store.read name = .ok (.int value) := by
  obtain ⟨cell, held, _, _, data⟩ := counting
  simp [Store.read, held, data]

theorem Counting.ofSame (counting : store.Counting name state value) (same : after.get? name = store.get? name) :
    after.Counting name state value := by
  rw [Counting, same]
  exact counting

theorem Counting.again (counting : store.Counting name state value) (below : value < state.upper) :
    ∃ after, store.loopBack name = (.ok state.resumeLine, after) ∧ after.Counting name state (value + 1) := by
  obtain ⟨cell, held, flagged, loop, data⟩ := counting
  refine ⟨store.put name { cell with data := some (.int (value + 1)) }, ?_, ?_⟩
  · simp [loopBackView, held, Variable.hasFlagIff.mpr flagged, loop, data, below]
  · exact ⟨{ cell with data := some (.int (value + 1)) }, by rw [getPut, if_pos rfl], flagged, loop, rfl⟩

theorem Counting.done (counting : store.Counting name state value) (full : ¬value < state.upper) :
    store.loopBack name = (.ok none, store) := by
  obtain ⟨cell, held, flagged, loop, data⟩ := counting
  simp [loopBackView, held, Variable.hasFlagIff.mpr flagged, loop, data, full]

end Store

namespace Machine
variable {ω : Type} {machine start : Machine ω} {name : Text} {opening closing steps : Nat}

def visits (machine : Machine ω) (number steps : Nat) : Nat :=
  Nat.count (fun time => (next^[time] machine).counter = number) steps

structure Pass (start : Machine ω) (name : Text) (opening closing steps : Nat) : Prop where
  inside : ∀ time < steps, opening < (next^[time] start).counter ∧ (next^[time] start).counter < closing
  spares : ∀ time < steps, ∀ line statement, (next^[time] start).line? (next^[time] start).counter = some line →
    Statement.parse line = .ok statement → statement.target? ≠ some name
  arrives : (next^[steps] start).counter = closing
  running : (next^[steps] start).status = .running

/- Where a pass of a loop begins: behind its opening, and wherever the closing line leads back from a pass. -/
inductive Begins (first : Machine ω) (name : Text) (opening closing : Nat) : Machine ω → Prop where
  | first : Begins first name opening closing first
  | again {start : Machine ω} {steps : Nat} (begun : Begins first name opening closing start)
      (pass : start.Pass name opening closing steps) (back : (next^[steps + 1] start).counter = opening + 1)
      (running : (next^[steps + 1] start).status = .running) :
      Begins first name opening closing (next^[steps + 1] start)

/- The passes of a loop from one that begins with the value `lower`. While `k` visits of the closing line lie
behind, the counter is `k` above that value; the equations hold in the integers, so nothing overflows. -/
structure Laps (start : Machine ω) (name : Text) (opening closing : Nat) (lower upper : Int64) (steps : Nat) :
    Prop where
  leaves : (next^[steps] start).counter = closing + 1
  status : (next^[steps] start).status = if start.lines.size < closing + 1 then .halted else .running
  last : ∃ value, (next^[steps] start).store.read name = .ok (.int value) ∧
    value.toInt = max lower.toInt upper.toInt
  count : (start.visits closing steps : Int) = max 1 (upper.toInt - lower.toInt + 1)
  during : ∀ time < steps, opening < (next^[time] start).counter ∧ (next^[time] start).counter ≤ closing ∧
    (next^[time] start).status = .running ∧ ∃ value, (next^[time] start).store.read name = .ok (.int value) ∧
      value.toInt = lower.toInt + start.visits closing time

theorem iterateSplit (machine : Machine ω) (first more : Nat) :
    next^[first + more] machine = next^[more] (next^[first] machine) := by
  rw [Nat.add_comm, Function.iterate_add_apply]

theorem visitsAdd (machine : Machine ω) (number first more : Nat) :
    machine.visits number (first + more) = machine.visits number first + (next^[first] machine).visits number more := by
  simp only [visits, Nat.count_add, iterateSplit]

theorem Begins.trans {first second third : Machine ω} (one : first.Begins name opening closing second)
    (two : second.Begins name opening closing third) : first.Begins name opening closing third := by
  induction two with
  | first => exact one
  | again begun pass back running ih => exact .again ih pass back running

theorem runningBefore {time : Nat} (running : (next^[steps] machine).status = .running) (before : time ≤ steps) :
    (next^[time] machine).status = .running := by
  obtain ⟨more, rfl⟩ := Nat.exists_eq_add_of_le before
  by_contra ended
  have fixed : next (next^[time] machine) = next^[time] machine := by rw [next, stepEnded ended]
  rw [iterateSplit, Function.iterate_fixed fixed] at running
  exact ended running

theorem nextSpares (reserved : name ≠ Store.conditionName) (running : machine.status = .running)
    (still : machine.next.status = .running)
    (spares : ∀ line statement, machine.line? machine.counter = some line → Statement.parse line = .ok statement →
      statement.target? ≠ some name) : machine.next.store.get? name = machine.store.get? name := by
  obtain ⟨line, statement, after, here, parsed, move, step⟩ := runningMoves running still
  rw [step]
  refine move.frame fun written => ?_
  have other := spares line statement here parsed
  cases statement with
  | conditional label condition => exact reserved (Option.some.inj written).symm
  | call call => exact other written
  | assign assignment => exact other written
  | openLoop counter lower upper => exact other written
  | loopBack counter => exact other written
  | nothing => exact other written

theorem Pass.keeps (pass : start.Pass name opening closing steps) (reserved : name ≠ Store.conditionName)
    {time : Nat} (within : time ≤ steps) : (next^[time] start).store.get? name = start.store.get? name := by
  induction time with
  | zero => rfl
  | succ time ih =>
    have running := runningBefore pass.running (Nat.le_of_succ_le within)
    have still := runningBefore pass.running within
    rw [Function.iterate_succ_apply'] at still ⊢
    rw [nextSpares reserved running still (pass.spares time within)]
    exact ih (Nat.le_of_succ_le within)

theorem Pass.unvisited (pass : start.Pass name opening closing steps) {time : Nat} (within : time ≤ steps) :
    start.visits closing time = 0 := by
  refine Nat.count_iff_forall_not.mpr fun earlier before => ?_
  have inside := (pass.inside earlier (by omega)).2
  omega

theorem Pass.visited (pass : start.Pass name opening closing steps) : start.visits closing (steps + 1) = 1 := by
  have before : Nat.count (fun time => (next^[time] start).counter = closing) steps = 0 := pass.unvisited le_rfl
  rw [visits, Nat.count_succ, before, if_pos pass.arrives]

theorem Pass.during (pass : start.Pass name opening closing steps) (reserved : name ≠ Store.conditionName)
    (forward : opening < closing) {state : LoopState} {value : Int64}
    (counting : start.store.Counting name state value) (time : Nat) (within : time < steps + 1) :
    opening < (next^[time] start).counter ∧ (next^[time] start).counter ≤ closing ∧
      (next^[time] start).status = .running ∧ ∃ shown, (next^[time] start).store.read name = .ok (.int shown) ∧
        shown.toInt = value.toInt + start.visits closing time := by
  have place : opening < (next^[time] start).counter ∧ (next^[time] start).counter ≤ closing := by
    by_cases last : time = steps
    · rw [last, pass.arrives]
      exact ⟨forward, le_rfl⟩
    · have inside := pass.inside time (by omega)
      omega
  have held := counting.ofSame (pass.keeps reserved (Nat.le_of_lt_succ within))
  refine ⟨place.1, place.2, runningBefore pass.running (by omega), value, held.read, ?_⟩
  simp [pass.unvisited (Nat.le_of_lt_succ within)]

section Closing
variable {line : Text} {upper value : Int64}

theorem resumeFits (fits : opening + 1 < 2 ^ 63) :
    LoopState.resumeLine ⟨upper, Int64.ofNat (opening + 1)⟩ = some (opening + 1) :=
  resumeLineOf (Int64.toInt_ofNat_of_lt fits)

theorem closingReturns (running : machine.status = .running) (here : machine.line? machine.counter = some line)
    (parsed : Statement.parse line = .ok (.loopBack name)) (fits : opening + 1 < 2 ^ 63)
    (forward : opening < machine.counter)
    (counting : machine.store.Counting name ⟨upper, Int64.ofNat (opening + 1)⟩ value) (below : value < upper) :
    machine.next.counter = opening + 1 ∧ machine.next.status = .running ∧
      machine.next.store.Counting name ⟨upper, Int64.ofNat (opening + 1)⟩ (value + 1) := by
  obtain ⟨store, back, counts⟩ := counting.again below
  rw [resumeFits fits] at back
  have ran : machine.execute line = (.ok (), { machine with store, counter := opening }) := by
    simp [execute, parsed, executeBack, back]
  have inside := (insideLine here).2
  rw [next, stepOk running here ran]
  refine ⟨rfl, ?_, counts⟩
  simp only [advance]
  rw [if_neg (by omega)]
  exact running

theorem closingLeaves (running : machine.status = .running) (here : machine.line? machine.counter = some line)
    (parsed : Statement.parse line = .ok (.loopBack name))
    (counting : machine.store.Counting name ⟨upper, Int64.ofNat (opening + 1)⟩ value) (full : ¬value < upper) :
    machine.next.counter = machine.counter + 1 ∧
      machine.next.status = (if machine.lines.size < machine.counter + 1 then .halted else .running) ∧
      machine.next.store = machine.store := by
  have ran : machine.execute line = (.ok (), machine) := by
    simp [execute, parsed, executeBack, counting.done full]
  rw [next, stepOk running here ran, ← running]
  exact ⟨rfl, rfl, rfl⟩

end Closing

section Passes
variable {line : Text} {upper value : Int64}

theorem Pass.laps (pass : start.Pass name opening closing steps) (reserved : name ≠ Store.conditionName)
    (forward : opening < closing) (closes : start.line? closing = some line)
    (parsed : Statement.parse line = .ok (.loopBack name))
    (counting : start.store.Counting name ⟨upper, Int64.ofNat (opening + 1)⟩ value) (full : ¬value < upper) :
    start.Laps name opening closing value upper (steps + 1) := by
  have held := counting.ofSame (pass.keeps reserved le_rfl)
  have here : (next^[steps] start).line? (next^[steps] start).counter = some line := by
    simpa only [line?, nextLines, pass.arrives] using closes
  obtain ⟨counter, status, store⟩ := closingLeaves pass.running here parsed held full
  rw [← Function.iterate_succ_apply' next, pass.arrives] at counter
  rw [← Function.iterate_succ_apply' next, pass.arrives, nextLines] at status
  rw [← Function.iterate_succ_apply' next] at store
  have most : upper.toInt ≤ value.toInt := Int.not_lt.mp (mt Int64.lt_iff_toInt_lt.mpr full)
  refine ⟨counter, status, ⟨value, ?_, by omega⟩, ?_, pass.during reserved forward counting⟩
  · rw [store]
    exact held.read
  · rw [pass.visited]
    omega

theorem Pass.andThen {more : Nat} (pass : start.Pass name opening closing steps)
    (reserved : name ≠ Store.conditionName) (forward : opening < closing) {state : LoopState}
    (counting : start.store.Counting name state value) (below : value < upper)
    (rest : (next^[steps + 1] start).Laps name opening closing (value + 1) upper more) :
    start.Laps name opening closing value upper (steps + 1 + more) := by
  have less := Int64.lt_iff_toInt_lt.mp below
  have up := countUp below
  obtain ⟨leaves, status, last, count, during⟩ := rest
  rw [← iterateSplit] at leaves status last
  rw [nextLines] at status
  rw [up] at last count during
  refine ⟨leaves, status, ?_, ?_, ?_⟩
  · obtain ⟨shown, read, same⟩ := last
    exact ⟨shown, read, by omega⟩
  · rw [visitsAdd, pass.visited]
    omega
  · intro time within
    by_cases early : time < steps + 1
    · exact pass.during reserved forward counting time early
    · obtain ⟨later, rfl⟩ := Nat.exists_eq_add_of_le (Nat.le_of_not_lt early)
      obtain ⟨low, high, running, shown, read, same⟩ := during later (by omega)
      rw [iterateSplit]
      refine ⟨low, high, running, shown, read, ?_⟩
      rw [visitsAdd, pass.visited]
      omega

theorem lapsFrom {start : Machine ω} {value : Int64} (reserved : name ≠ Store.conditionName)
    (forward : opening < closing) (fits : opening + 1 < 2 ^ 63) (closes : start.line? closing = some line)
    (parsed : Statement.parse line = .ok (.loopBack name))
    (counting : start.store.Counting name ⟨upper, Int64.ofNat (opening + 1)⟩ value)
    (passes : ∀ later, start.Begins name opening closing later → ∃ steps, later.Pass name opening closing steps) :
    ∃ steps, start.Laps name opening closing value upper steps := by
  obtain ⟨steps, pass⟩ := passes start .first
  by_cases below : value < upper
  · have held := counting.ofSame (pass.keeps reserved le_rfl)
    have here : (next^[steps] start).line? (next^[steps] start).counter = some line := by
      simpa only [line?, nextLines, pass.arrives] using closes
    obtain ⟨back, running, counts⟩ :=
      closingReturns pass.running here parsed fits (by rw [pass.arrives]; exact forward) held below
    rw [← Function.iterate_succ_apply' next] at back running counts
    have again : start.Begins name opening closing (next^[steps + 1] start) := .again .first pass back running
    have nearer : (upper.toInt - (value + 1).toInt).toNat < (upper.toInt - value.toInt).toNat := by
      have less := Int64.lt_iff_toInt_lt.mp below
      rw [countUp below]
      omega
    obtain ⟨more, rest⟩ := lapsFrom reserved forward fits
      (by simpa only [line?, nextLines] using closes) parsed counts fun later begun => passes later (again.trans begun)
    exact ⟨steps + 1 + more, pass.andThen reserved forward counting below rest⟩
  · exact ⟨steps + 1, pass.laps reserved forward closes parsed counting below⟩
termination_by (upper.toInt - value.toInt).toNat
decreasing_by exact nearer

end Passes

/- The line behind the opening one has a number that fits a word, as it does in every program that fits the
memory. -/
theorem loopCount {machine middle : Machine ω} {name lower upper first last : Text} {opening closing : Nat}
    {low high : Int64} {store : Store} (running : machine.status = .running) (here : machine.counter = opening)
    (opens : machine.line? opening = some first) (opener : Statement.parse first = .ok (.openLoop name lower upper))
    (closes : machine.line? closing = some last) (closer : Statement.parse last = .ok (.loopBack name))
    (forward : opening < closing) (fits : opening + 1 < 2 ^ 63)
    (converted : machine.evaluate (bounds machine.scope lower upper) = (.ok (low, high), middle))
    (opened : machine.store.openLoop name low high (opening + 1) = (.ok (), store))
    (passes : ∀ start, machine.next.Begins name opening closing start →
      ∃ steps, start.Pass name opening closing steps) :
    ∃ steps, machine.next.Laps name opening closing low high steps := by
  subst here
  have reserved : name ≠ Store.conditionName := by
    rintro rfl
    have identifier := Statement.targetIdentifier opener rfl
    simp [Store.conditionName, Statement.conditionNotIdentifier] at identifier
  have counting := Store.openedCounting opened
  have ran : machine.execute first = (.ok (), { middle with store }) := by
    simp [execute, opener, executeOpen, converted, opened]
  have stepped : machine.next.store = store := by rw [next, stepOk running opens ran]; rfl
  have lines : machine.next.line? closing = some last := by
    rw [← closes]
    simp only [line?, next, stepLines]
  rw [← stepped] at counting
  exact lapsFrom reserved forward fits lines closer counting passes

theorem loopCountGreatest : ∃ steps, (ofLines ["@n $i 9223372036854775806 9223372036854775807".toList,
      "# body".toList, "@b $i".toList] Registry.initial Settings.default ()).next.Laps ['i'] 1 3
        9223372036854775806 9223372036854775807 steps ∧
    (ofLines ["@n $i 9223372036854775806 9223372036854775807".toList, "# body".toList, "@b $i".toList]
      Registry.initial Settings.default ()).next.visits 3 steps = 2 := by
  generalize loaded : ofLines _ _ _ () = machine
  have passes (start : Machine Unit) (begun : machine.next.Begins ['i'] 1 3 start) :
      ∃ steps, start.Pass ['i'] 1 3 steps := by
    have place : start.counter = 2 ∧ start.status = .running ∧ start.lines = machine.lines := by
      induction begun with
      | first =>
        refine ⟨?_, ?_, stepLines machine⟩ <;> rw [← loaded] <;> decide +kernel
      | again begun pass back running ih => exact ⟨back, running, (nextLines _ _).trans ih.2.2⟩
    obtain ⟨counter, running, lines⟩ := place
    have here : start.line? start.counter = some "# body".toList := by
      simp only [line?, counter, lines, ← loaded]
      rfl
    have silent : Statement.parse "# body".toList = .ok .nothing := by decide
    have ran : start.execute "# body".toList = (.ok (), start) := by simp only [execute, silent]
    have size : start.lines.size = 3 := by rw [lines, ← loaded]; rfl
    have stepped : start.next = start.advance := by rw [next, stepOk running here ran]
    refine ⟨1, ?_, ?_, ?_, ?_⟩
    · intro time within
      simp only [Nat.lt_one_iff.mp within, Function.iterate_zero, id_eq, counter]
      decide
    · intro time within line statement found parsed
      simp only [Nat.lt_one_iff.mp within, Function.iterate_zero, id_eq] at found
      cases Option.some.inj (here.symm.trans found)
      cases Except.ok.inj (silent.symm.trans parsed)
      simp [Statement.target?]
    · simp [stepped, advance, counter]
    · simp [stepped, advance, counter, size, running]
  have opener : Statement.parse "@n $i 9223372036854775806 9223372036854775807".toList =
      .ok (.openLoop ['i'] "9223372036854775806".toList "9223372036854775807".toList) := by decide +kernel
  have converted : (machine.evaluate (bounds machine.scope "9223372036854775806".toList
      "9223372036854775807".toList)).1 = .ok (9223372036854775806, 9223372036854775807) := by
    rw [← loaded]
    decide +kernel
  have opened : (machine.store.openLoop ['i'] 9223372036854775806 9223372036854775807 2).1 = .ok () := by
    rw [← loaded]
    decide +kernel
  obtain ⟨steps, laps⟩ := loopCount (by rw [← loaded]; rfl) (by rw [← loaded]; rfl) (by rw [← loaded]; rfl) opener
    (show machine.line? 3 = some "@b $i".toList by rw [← loaded]; rfl) (by decide +kernel) (by decide) (by decide)
    (Prod.ext converted rfl) (Prod.ext opened rfl) passes
  refine ⟨steps, laps, Int.ofNat_inj.mp (laps.count.trans ?_)⟩
  decide +kernel

end Machine
end Sigil
