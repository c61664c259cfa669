import Mathlib.Data.Nat.Find
import Mathlib.Order.OrderIsoNat
import Sigil.Proofs.Runs
import Sigil.Proofs.Statement

/-! A program that never assigns the counter of a loop comes to an end, however its loops and conditionals
cross. In a run without end, take the least line that is visited for ever. It is entered only by going back
on the one counter that the line before it opens; that line is visited no more, so this counter is not
opened again and only grows towards its bound. -/
namespace Sigil

def Variable.remaining (cell : Variable) : Nat :=
  match cell.data, cell.loop with
  | some (.int current), some state => (state.upper.toInt - current.toInt).toNat
  | _, _ => 0

def Store.remaining (store : Store) (name : Text) : Nat := (store.get? name).elim 0 Variable.remaining

theorem Store.remainingHeld {store : Store} {name : Text} {cell : Variable} {state : LoopState} {current : Int64}
    (found : store.get? name = some cell) (loop : cell.loop = some state) (data : cell.data = some (.int current)) :
    store.remaining name = (state.upper.toInt - current.toInt).toNat := by
  rw [Store.remaining, found, Option.elim_some, Variable.remaining, data, loop]

namespace Machine
variable {ω : Type} {machine after : Machine ω}

def Lands (machine : Machine ω) (name : Text) (state : LoopState) : Prop :=
  ∀ number, state.resumeLine = some number → machine.OpensBefore name number

theorem resumeLineWord {upper : Int64} {line number : Nat} (small : line < 2 ^ 64)
    (h : LoopState.resumeLine ⟨upper, Int64.ofNat line⟩ = some number) : number = line := by
  have word : (Int64.ofNat line).toInt = (line : Int).bmod (2 ^ 64) := Int64.toInt_ofNat'
  unfold LoopState.resumeLine at h
  split at h
  · rename_i positive
    have same := Option.some.inj h
    simp only [word, Int.bmod_def] at positive same
    split at positive <;> rename_i half <;> simp only [half, if_true, if_false] at same <;> omega
  · simp at h

theorem runningMoves (running : machine.status = .running) (still : machine.next.status = .running) :
    ∃ line statement after, machine.line? machine.counter = some line ∧
      Statement.parse line = .ok statement ∧ Move machine statement after ∧ machine.next = after.advance := by
  cases here : machine.line? machine.counter with
  | none => simp [next, step, running, here] at still
  | some line =>
    rcases stepCases running here with ⟨statement, after, parsed, move, step⟩ | ⟨fault, after, refusal, step⟩
    · exact ⟨line, statement, after, rfl, parsed, move, by rw [next, step]⟩
    · simp [next, step] at still

theorem Move.lands {statement : Statement} {line : Text} (move : Move machine statement after)
    (here : machine.line? machine.counter = some line) (parsed : Statement.parse line = .ok statement)
    (small : machine.lines.size + 1 < 2 ^ 64) (lands : machine.store.Loops machine.Lands) :
    after.store.Loops machine.Lands := by
  have place := insideLine here
  refine move.loops lands fun name lower upper high same number resumes => ?_
  cases resumeLineWord (by omega) resumes
  exact ⟨by omega, by omega, line, lower, upper, here, by rw [parsed, same]⟩

theorem Move.counts {statement : Statement} (move : Move machine statement after) {name : Text}
    (reserved : name ≠ Store.conditionName)
    (kept : ∀ assignment, statement = .assign assignment → assignment.name ≠ name)
    (closed : ∀ lower upper, statement ≠ .openLoop name lower upper) :
    after.store.get? name = machine.store.get? name ∨
    ∃ cell state current, statement = .loopBack name ∧ machine.store.get? name = some cell ∧
      cell.loop = some state ∧ cell.data = some (.int current) ∧ current < state.upper ∧
      after.store.get? name = some { cell with data := some (.int (current + 1)) } := by
  have record (result : Bool) : (machine.store.recordCondition result).get? name = machine.store.get? name := by
    unfold Store.recordCondition
    split
    · rfl
    · rw [Store.getPut, if_neg (Ne.symm reserved)]
  have looped {other : Text} {line : Option Nat} {store : Store}
      (h : machine.store.loopBack other = (.ok line, store)) : store.get? name = machine.store.get? name ∨
      ∃ cell state current, (Statement.loopBack other) = .loopBack name ∧ machine.store.get? name = some cell ∧
        cell.loop = some state ∧ cell.data = some (.int current) ∧ current < state.upper ∧
        store.get? name = some { cell with data := some (.int (current + 1)) } := by
    obtain ⟨cell, state, current, found, loop, data, ⟨below, _, rfl⟩ | ⟨_, _, rfl⟩⟩ := Store.loopedBack h
    · by_cases same : other = name
      · subst same
        exact .inr ⟨cell, state, current, rfl, found, loop, data, below, by simp⟩
      · exact .inl (by rw [Store.getPut, if_neg same])
    · exact .inl rfl
  cases move with
  | nothing => exact .inl rfl
  | call ran => exact .inl rfl
  | assign ran stored =>
    obtain ⟨value, _, _, rfl⟩ := Store.assigned stored
    exact .inl (by rw [Store.getPut, if_neg (kept _ rfl)])
  | @openLoop other lower upper _ _ _ _ ran opened =>
    obtain ⟨_, rfl⟩ := Store.opened opened
    have different : other ≠ name := fun same => closed lower upper (by rw [same])
    exact .inl (by rw [Store.getPut, if_neg different])
  | leave done => exact looped done
  | back again => exact looped again
  | enter ran => exact .inl (record true)
  | skip ran found => exact .inl (record false)

theorem Move.remaining {statement : Statement} (move : Move machine statement after) {name : Text}
    (reserved : name ≠ Store.conditionName)
    (kept : ∀ assignment, statement = .assign assignment → assignment.name ≠ name)
    (closed : ∀ lower upper, statement ≠ .openLoop name lower upper) :
    after.store.remaining name ≤ machine.store.remaining name := by
  rcases move.counts reserved kept closed with same | ⟨cell, state, current, _, found, loop, data, below, grown⟩
  · simp only [Store.remaining, same, le_refl]
  · rw [Store.remainingHeld found loop data, Store.remainingHeld grown loop rfl, countUp below]
    omega

def Armed (machine : Machine ω) (name : Text) (number : Nat) : Prop :=
  ∃ cell state, machine.store.get? name = some cell ∧ cell.loop = some state ∧ state.resumeLine = some number

theorem Move.enters {statement : Statement} (move : Move machine statement after)
    (lands : machine.store.Loops machine.Lands) (above : after.counter + 1 ≤ machine.counter) :
    ∃ name, statement = .loopBack name ∧ machine.OpensBefore name (after.counter + 1) ∧
      after.Armed name (after.counter + 1) ∧
      after.store.remaining name < machine.store.remaining name := by
  cases move with
  | nothing => omega
  | call ran => simp only at above; omega
  | assign ran stored => simp only at above; omega
  | openLoop ran opened => simp only at above; omega
  | leave done => simp only at above; omega
  | enter ran => simp only at above; omega
  | skip ran found =>
    have later := (endLineFirst found).later
    simp only at above
    omega
  | @back name line store again =>
    obtain ⟨cell, state, current, found, loop, data, ⟨below, resumes, grown⟩ | ⟨_, none, _⟩⟩ := Store.loopedBack again
    · have opened := lands found loop line resumes.symm
      have low := opened.1
      have same : line - 1 + 1 = line := by omega
      simp only [same]
      refine ⟨name, rfl, opened, ?_, ?_⟩
      · exact ⟨{ cell with data := some (.int (current + 1)) }, state, by simp [grown], loop, resumes.symm⟩
      · have less := Int64.lt_iff_toInt_lt.mp below
        have advanced : store.get? name = some { cell with data := some (.int (current + 1)) } := by simp [grown]
        rw [Store.remainingHeld found loop data, Store.remainingHeld advanced loop rfl, countUp below]
        omega
    · simp at none

theorem Move.armedBefore {statement : Statement} (move : Move machine statement after) {name : Text} {number : Nat}
    (reserved : name ≠ Store.conditionName)
    (kept : ∀ assignment, statement = .assign assignment → assignment.name ≠ name)
    (small : machine.counter + 1 < 2 ^ 64) (above : number ≤ machine.counter) (armed : after.Armed name number) :
    machine.Armed name number ∧ after.store.remaining name ≤ machine.store.remaining name := by
  have closed : ∀ lower upper, statement ≠ .openLoop name lower upper := by
    intro lower upper same
    subst same
    cases move with
    | openLoop ran opened =>
      obtain ⟨_, rfl⟩ := Store.opened opened
      obtain ⟨cell, state, found, loop, resumes⟩ := armed
      rw [Store.getPut, if_pos rfl] at found
      cases Option.some.inj found
      cases Option.some.inj ((Variable.withLoopLoop _ _).symm.trans loop)
      have landed := resumeLineWord small resumes
      omega
  refine ⟨?_, move.remaining reserved kept closed⟩
  obtain ⟨cell, state, found, loop, resumes⟩ := armed
  rcases move.counts reserved kept closed with same | ⟨old, before, current, _, held, looped, _, _, grown⟩
  · exact ⟨cell, state, same ▸ found, loop, resumes⟩
  · rw [grown] at found
    cases Option.some.inj found
    exact ⟨old, state, held, loop, resumes⟩

theorem opensUnique {number : Nat} {name other : Text} (one : machine.OpensBefore name number)
    (two : machine.OpensBefore other number) : name = other := by
  obtain ⟨_, _, text, lower, upper, here, parsed⟩ := one
  obtain ⟨_, _, again, lower', upper', there, read⟩ := two
  cases Option.some.inj (here.symm.trans there)
  cases Except.ok.inj (parsed.symm.trans read)
  rfl

/- A bounded sequence takes its least lasting value again and again, and at last never falls below it. -/
theorem leastVisited {visits : Nat → Nat} {bound : Nat} (within : ∀ n, visits n ≤ bound) :
    ∃ least late, (∀ n, late ≤ n → least ≤ visits n) ∧ ∀ n, ∃ m, n ≤ m ∧ visits m = least := by
  classical
  let lasting := fun low => ∃ late, ∀ n, late ≤ n → low ≤ visits n
  obtain ⟨late, above⟩ : lasting (Nat.findGreatest lasting bound) :=
    Nat.findGreatest_spec (Nat.zero_le bound) ⟨0, fun n _ => Nat.zero_le _⟩
  refine ⟨_, late, above, fun n => ?_⟩
  by_contra never
  have higher : ∀ m, max n late ≤ m → Nat.findGreatest lasting bound + 1 ≤ visits m := by
    intro m after
    have low := above m (by omega)
    have different : visits m ≠ Nat.findGreatest lasting bound := fun same => never ⟨m, by omega, same⟩
    omega
  have fits := (higher _ le_rfl).trans (within _)
  exact Nat.findGreatest_is_greatest (Nat.lt_succ_self _) fits ⟨max n late, higher⟩

theorem linesLands {other : Machine ω} (same : machine.lines = other.lines) : machine.Lands = other.Lands := by
  funext name state
  simp only [Lands, OpensBefore, line?, same]

def Untouched (lines : List Text) : Prop :=
  ∀ line ∈ lines, ∀ opening ∈ lines, ∀ assignment name lower upper,
    Statement.parse line = .ok (.assign assignment) →
    Statement.parse opening = .ok (.openLoop name lower upper) → assignment.name ≠ name

structure Endless (start : Machine ω) : Prop where
  forever : ∀ n, (next^[n] start).status = .running
  small : start.lines.size + 1 < 2 ^ 64
  lands : start.store.Loops start.Lands

/- The least line that the run visits for ever, and a time from which it stays on or above that line. -/
structure Lowest (start : Machine ω) (least late : Nat) : Prop where
  above : ∀ n, late ≤ n → least ≤ (next^[n] start).counter
  often : ∀ n, ∃ m, late ≤ m ∧ n ≤ m ∧ (next^[m + 1] start).counter = least

namespace Endless
variable {start : Machine ω} {least late : Nat} {name : Text}

theorem moves (endless : start.Endless) (n : Nat) :
    ∃ line statement after, (next^[n] start).line? (next^[n] start).counter = some line ∧
      Statement.parse line = .ok statement ∧ Move (next^[n] start) statement after ∧
      next^[n + 1] start = after.advance := by
  rw [Function.iterate_succ_apply']
  refine runningMoves (endless.forever n) ?_
  simpa only [Function.iterate_succ_apply'] using endless.forever (n + 1)

theorem inside (endless : start.Endless) (n : Nat) : (next^[n] start).counter ≤ start.lines.size := by
  obtain ⟨line, _, _, here, _⟩ := endless.moves n
  exact nextLines n start ▸ (insideLine here).2

theorem landsAfter (endless : start.Endless) (n : Nat) :
    (next^[n] start).store.Loops (next^[n] start).Lands := by
  induction n with
  | zero => exact endless.lands
  | succ n ih =>
    obtain ⟨line, statement, after, here, parsed, move, step⟩ := endless.moves n
    have small : (next^[n] start).lines.size + 1 < 2 ^ 64 := by
      rw [nextLines]
      exact endless.small
    have landed := move.lands here parsed small ih
    rw [linesLands ((nextLines (n + 1) start).trans (nextLines n start).symm), step]
    exact landed

theorem lowest (endless : start.Endless) : ∃ least late, start.Lowest least late := by
  obtain ⟨least, late, above, often⟩ := leastVisited endless.inside
  refine ⟨least, late, above, fun n => ?_⟩
  obtain ⟨m, reached, hit⟩ := often (max n late + 1)
  obtain ⟨k, rfl⟩ : ∃ k, m = k + 1 := ⟨m - 1, by omega⟩
  exact ⟨k, by omega, by omega, hit⟩

theorem enters (endless : start.Endless) (low : start.Lowest least late) {n : Nat} (after : late ≤ n)
    (hit : (next^[n + 1] start).counter = least) :
    ∃ name, start.OpensBefore name least ∧ (next^[n + 1] start).Armed name least ∧
      (next^[n + 1] start).store.remaining name < (next^[n] start).store.remaining name := by
  obtain ⟨line, statement, moved, here, parsed, move, step⟩ := endless.moves n
  have reached : moved.counter + 1 = least := by
    rw [← hit, step]
    rfl
  have floor := low.above n after
  obtain ⟨name, _, opened, armed, less⟩ := move.enters (endless.landsAfter n) (by omega)
  rw [reached] at opened armed
  rw [step]
  refine ⟨name, ?_, armed, less⟩
  simpa only [OpensBefore, line?, nextLines] using opened

theorem opensCounter (endless : start.Endless) (low : start.Lowest least late) :
    ∃ name, start.OpensBefore name least := by
  obtain ⟨n, after, _, hit⟩ := low.often 0
  obtain ⟨name, opened, _⟩ := endless.enters low after hit
  exact ⟨name, opened⟩

theorem uses (endless : start.Endless) (low : start.Lowest least late) (opened : start.OpensBefore name least)
    {n : Nat} (after : late ≤ n) (hit : (next^[n + 1] start).counter = least) :
    (next^[n + 1] start).Armed name least ∧
      (next^[n + 1] start).store.remaining name < (next^[n] start).store.remaining name := by
  obtain ⟨other, opens, rest⟩ := endless.enters low after hit
  cases opensUnique opens opened
  exact rest

theorem stays (endless : start.Endless) (low : start.Lowest least late)
    (untouched : Untouched start.lines.toList) (opened : start.OpensBefore name least) {n : Nat}
    (after : late ≤ n) (armed : (next^[n + 1] start).Armed name least) :
    (next^[n] start).Armed name least ∧
      (next^[n + 1] start).store.remaining name ≤ (next^[n] start).store.remaining name := by
  obtain ⟨line, statement, moved, here, parsed, move, step⟩ := endless.moves n
  obtain ⟨_, _, opening, lower, upper, there, opens⟩ := opened
  have reserved : name ≠ Store.conditionName := by
    intro same
    subst same
    have identifier := Statement.targetIdentifier opens rfl
    simp [Store.conditionName, Statement.conditionNotIdentifier] at identifier
  have member {number : Nat} {line : Text} (here : start.line? number = some line) : line ∈ start.lines.toList := by
    cases number with
    | zero => simp [line?] at here
    | succ index => exact Array.mem_def.mp (Array.mem_of_getElem? here)
  have source : start.line? (next^[n] start).counter = some line := by
    simpa only [line?, nextLines] using here
  have bounded := endless.inside n
  have small := endless.small
  rw [step] at armed ⊢
  refine move.armedBefore reserved ?_ (by omega) (low.above n after) armed
  intro assignment same
  subst same
  exact untouched line (member source) opening (member there) assignment name lower upper parsed opens

theorem armed (endless : start.Endless) (low : start.Lowest least late)
    (untouched : Untouched start.lines.toList) (opened : start.OpensBefore name least) {n : Nat}
    (after : late ≤ n) : (next^[n] start).Armed name least := by
  have descend (d : Nat) : ∀ n, late ≤ n → (next^[n + d] start).Armed name least →
      (next^[n] start).Armed name least := by
    induction d with
    | zero => exact fun n _ held => held
    | succ d ih =>
      intro n after held
      exact ih n after (endless.stays low untouched opened (n := n + d) (by omega) held).1
  obtain ⟨m, afterLate, reached, hit⟩ := low.often n
  refine descend (m + 1 - n) n after ?_
  rw [show n + (m + 1 - n) = m + 1 by omega]
  exact (endless.uses low opened afterLate hit).1

theorem impossible (endless : start.Endless) (untouched : Untouched start.lines.toList) : False := by
  obtain ⟨least, late, low⟩ := endless.lowest
  obtain ⟨name, opened⟩ := endless.opensCounter low
  have falls : Antitone fun n => (next^[late + n] start).store.remaining name := by
    refine antitone_nat_of_succ_le fun n => ?_
    have ready := endless.armed low untouched opened (n := late + n + 1) (by omega)
    exact (endless.stays low untouched opened (by omega) ready).2
  obtain ⟨settled, constant⟩ := WellFoundedLT.antitone_chain_condition falls
  obtain ⟨m, afterLate, reached, hit⟩ := low.often (late + settled)
  obtain ⟨k, rfl⟩ := Nat.exists_eq_add_of_le afterLate
  have less := (endless.uses low opened afterLate hit).2
  have before := constant k (by omega)
  have behind := constant (k + 1) (by omega)
  simp only [Nat.add_assoc] at less before behind
  omega

end Endless

/- The bound on the number of lines is that of the counter, which is a machine word. -/
theorem untouchedCountersEnd (lines : List Text) (registry : Registry ω) (settings : Settings) (world : ω)
    (countable : lines.length + 1 < 2 ^ 64) (untouched : Untouched lines) :
    ∃ steps, (next^[steps] (ofLines lines registry settings world)).status = .halted ∨
      (next^[steps] (ofLines lines registry settings world)).status = .failed := by
  by_contra never
  have forever (n : Nat) : (next^[n] (ofLines lines registry settings world)).status = .running := by
    cases status : (next^[n] (ofLines lines registry settings world)).status with
    | running => rfl
    | halted => exact absurd ⟨n, .inl status⟩ never
    | failed => exact absurd ⟨n, .inr status⟩ never
  have endless : (ofLines lines registry settings world).Endless :=
    ⟨forever, by simpa [ofLines] using countable, Store.initialLoops _⟩
  exact endless.impossible untouched

theorem crossingLoopsEnd :
    Untouched (["@n $i 1 2", "@n $j 1 2", "$x integer[] = ($i)", "@b $i", "@b $j"].map String.toList) ∧
    ∃ steps, (next^[steps] (ofLines (["@n $i 1 2", "@n $j 1 2", "$x integer[] = ($i)", "@b $i", "@b $j"].map
        String.toList) Registry.initial Settings.default ())).status = .halted ∨
      (next^[steps] (ofLines (["@n $i 1 2", "@n $j 1 2", "$x integer[] = ($i)", "@b $i", "@b $j"].map
        String.toList) Registry.initial Settings.default ())).status = .failed := by
  generalize program : List.map String.toList _ = lines
  have kinds : ∀ line ∈ lines, ((Statement.parse line).toOption.bind Statement.assigned?).getD ['x'] = ['x'] ∧
      (Statement.parse line).toOption.bind Statement.loop? ≠ some ['x'] := by
    rw [← program]
    decide +kernel
  have untouched : Untouched lines := by
    intro line member opening present assignment name lower upper assigns opens same
    subst same
    have assigned := (kinds line member).1
    have opened := (kinds opening present).2
    rw [assigns] at assigned
    rw [opens] at opened
    exact opened (congrArg some assigned)
  have short : lines.length + 1 < 2 ^ 64 := by
    rw [← program]
    decide
  exact ⟨untouched, untouchedCountersEnd lines Registry.initial Settings.default () short untouched⟩

end Machine
end Sigil
