import Sigil.Store

/-! What the operations of a store do to its cells, and the form that every cell keeps: a value is of the
declared type, a cell without a value is bare, and what a cell has beside its value is nothing or, in an integer
cell, the bound of a loop and the line at which it resumes. -/
namespace Sigil

theorem countUp {current upper : Int64} (below : current < upper) : (current + 1).toInt = current.toInt + 1 := by
  have small := Int64.lt_iff_toInt_lt.mp below
  have most := Int64.toInt_le upper
  have least := Int64.minValue_le_toInt current
  rw [Int64.toInt_add, Int64.toInt_one, Int.bmod_def]
  simp only [Int64.toInt_maxValue, Int64.toInt_minValue] at most least
  omega

namespace Variable

theorem hasFlagIff {cell : Variable} {flag : Text} : cell.hasFlag flag = true ↔ flag ∈ cell.flags := by
  simp [hasFlag]

theorem memAddFlags {cell : Variable} {flags : List Text} {flag : Text} :
    flag ∈ (cell.addFlags flags).flags ↔ flag ∈ cell.flags ∨ flag ∈ flags := by
  simp only [addFlags]
  generalize cell.flags = set
  induction flags generalizing set with
  | nil => simp
  | cons first rest ih =>
    rw [List.foldl_cons, ih, Text.memInsertOrdered, List.mem_cons]
    constructor
    · intro given
      rcases given with (same | old) | later
      · exact .inr (.inl same)
      · exact .inl old
      · exact .inr (.inr later)
    · intro given
      rcases given with old | same | later
      · exact .inl (.inr old)
      · exact .inl (.inl same)
      · exact .inr later

section Loop
variable {cell : Variable} {state : LoopState}

theorem auxiliaryIntFault {key : Text} {fault : Fault} (missing : cell.auxiliaryInt key = .error fault) :
    fault = .notALoop cell.name := by
  unfold auxiliaryInt at missing
  split at missing
  · simp at missing
  · cases missing
    rfl

theorem loopOfEmpty (empty : cell.auxiliary = Table.empty) : cell.loop = none := by
  simp [loop, auxiliaryInt, empty]

theorem loopOfEntries (entries : cell.auxiliary = state.entries) : cell.loop = some state := by
  rw [loop, auxiliaryInt, auxiliaryInt, entries]
  rfl

theorem loopAuxiliary (upper : cell.auxiliaryInt upperKey = .ok state.upper)
    (resume : cell.auxiliaryInt resumeKey = .ok state.resume) : cell.loop = some state := by
  rw [loop, upper, resume]

theorem withLoopUpper (cell : Variable) (state : LoopState) :
    (cell.withLoop state).auxiliaryInt upperKey = .ok state.upper := by
  have apart : resumeKey ≠ upperKey := by decide
  simp [auxiliaryInt, withLoop, apart]

theorem withLoopResume (cell : Variable) (state : LoopState) :
    (cell.withLoop state).auxiliaryInt resumeKey = .ok state.resume := by
  simp [auxiliaryInt, withLoop]

@[simp] theorem withLoopLoop (cell : Variable) (state : LoopState) : (cell.withLoop state).loop = some state :=
  loopAuxiliary (withLoopUpper cell state) (withLoopResume cell state)

theorem withLoopEntries (shape : cell.auxiliary = Table.empty ∨ ∃ old : LoopState, cell.auxiliary = old.entries) :
    (cell.withLoop state).auxiliary = state.entries := by
  rcases shape with empty | ⟨old, entries⟩
  · rw [withLoop, empty]
    rfl
  · rw [withLoop, entries]
    rfl

end Loop

structure Coherent (name : Text) (cell : Variable) : Prop where
  named : cell.name = name
  typed : ∀ {value}, cell.data = some value → value.type = cell.type
  bare : cell.data = none → cell.flags = [] ∧ cell.auxiliary = Table.empty
  shaped : cell.auxiliary = Table.empty ∨
    ∃ state : LoopState, cell.auxiliary = state.entries ∧ cell.type = .integer ∧ loopFlag ∈ cell.flags

theorem freshCoherent (name : Text) (type : ValueType) : (fresh name type).Coherent name := by
  constructor <;> simp [fresh]

theorem Coherent.looped {name : Text} {cell : Variable} {state : LoopState} (coherent : cell.Coherent name)
    (loop : cell.loop = some state) :
    cell.auxiliary = state.entries ∧ cell.type = .integer ∧ loopFlag ∈ cell.flags := by
  rcases coherent.shaped with empty | ⟨own, entries, counted⟩
  · simp [loopOfEmpty empty] at loop
  · cases (loopOfEntries entries).symm.trans loop
    exact ⟨entries, counted⟩

theorem Coherent.counts {name : Text} {cell : Variable} {state : LoopState} (coherent : cell.Coherent name)
    (loop : cell.loop = some state) : ∃ current, cell.data = some (.int current) := by
  cases data : cell.data with
  | none => simp [loopOfEmpty (coherent.bare data).2] at loop
  | some value =>
    have type := (coherent.typed data).trans (coherent.looped loop).2.1
    cases value <;> simp [Value.type] at type
    exact ⟨_, rfl⟩

end Variable

namespace Store
variable {store after : Store} {name : Text} {fault : Fault}

theorem cellOf {cell : Variable} {type : ValueType} (found : store.get? name = some cell) :
    store.cell name type = cell := by
  simp [Store.cell, found]

theorem assigned {type : ValueType} {flags : List Text} {value : Value}
    (h : store.assign name type flags value = (.ok (), after)) :
    ∃ stored, (store.cell name type).type = type ∧ value.coerce type = some stored ∧
      after = store.put name { (store.cell name type).addFlags flags with data := some stored } := by
  unfold assign at h
  simp only at h
  split at h
  · simp at h
  · rename_i same
    have same := Decidable.not_not.mp same
    split at h
    · simp at h
    · split at h
      · simp at h
      · rename_i stored fits
        simp only [Prod.mk.injEq, true_and] at h
        exact ⟨stored, same, by rwa [same] at fits, h.symm⟩

theorem assignRefused {type : ValueType} {flags : List Text} {value : Value}
    (h : store.assign name type flags value = (.error fault, after)) :
    after = store.put name (store.cell name type) ∧
      (fault = .constantRedefinition name ∨ ∃ cause, fault = .typeMismatch cause) := by
  unfold assign at h
  simp only at h
  split at h
  · cases h
    exact ⟨rfl, .inr ⟨_, rfl⟩⟩
  · split at h
    · cases h
      exact ⟨rfl, .inl rfl⟩
    · split at h
      · cases h
        exact ⟨rfl, .inr ⟨_, rfl⟩⟩
      · simp at h

theorem opened {lower upper : Int64} {resume : Nat}
    (h : store.openLoop name lower upper resume = (.ok (), after)) :
    (store.cell name .integer).type = .integer ∧
      after = store.put name ({ (store.cell name .integer).addFlags [Variable.loopFlag] with
        data := some (.int lower) }.withLoop ⟨upper, Int64.ofNat resume⟩) := by
  unfold openLoop at h
  simp only at h
  split at h
  · simp at h
  · rename_i same
    split at h
    · simp at h
    · simp only [Prod.mk.injEq, true_and] at h
      exact ⟨Decidable.not_not.mp same, h.symm⟩

theorem openRefused {lower upper : Int64} {resume : Nat}
    (h : store.openLoop name lower upper resume = (.error fault, after)) :
    after = store.put name (store.cell name .integer) ∧
      (fault = .constantRedefinition name ∨ ∃ cause, fault = .typeMismatch cause) := by
  unfold openLoop at h
  simp only at h
  split at h
  · cases h
    exact ⟨rfl, .inr ⟨_, rfl⟩⟩
  · split at h
    · cases h
      exact ⟨rfl, .inl rfl⟩
    · simp at h

theorem loopBackView (store : Store) (name : Text) : store.loopBack name =
    match store.get? name with
    | none => (.error (.unknownVariable name), store)
    | some cell =>
      if !cell.hasFlag Variable.loopFlag then (.error (.notALoop name), store)
      else match cell.loop with
        | none => (.error (.notALoop cell.name), store)
        | some state =>
          match cell.data with
          | some (.int current) =>
            if current < state.upper then
              (.ok state.resumeLine, store.put name { cell with data := some (.int (current + 1)) })
            else (.ok none, store)
          | _ => (.error (.unresolvedValue name), store) := by
  unfold loopBack
  cases store.get? name with
  | none => rfl
  | some cell =>
    simp only [Variable.loop]
    cases upper : cell.auxiliaryInt Variable.upperKey with
    | error fault =>
      obtain rfl := Variable.auxiliaryIntFault upper
      rfl
    | ok upper =>
      cases resume : cell.auxiliaryInt Variable.resumeKey with
      | error fault =>
        obtain rfl := Variable.auxiliaryIntFault resume
        rfl
      | ok resume => rfl

theorem loopedBack {line : Option Nat} (h : store.loopBack name = (.ok line, after)) :
    ∃ cell state current, store.get? name = some cell ∧ cell.loop = some state ∧
      cell.data = some (.int current) ∧
      (current < state.upper ∧ line = state.resumeLine ∧
          after = store.put name { cell with data := some (.int (current + 1)) } ∨
        ¬current < state.upper ∧ line = none ∧ after = store) := by
  rw [loopBackView] at h
  split at h
  · simp at h
  · rename_i cell found
    split at h
    · simp at h
    · split at h
      · simp at h
      · rename_i state loop
        split at h
        · rename_i current data
          refine ⟨cell, state, current, found, loop, data, ?_⟩
          split at h
          · rename_i below
            simp only [Prod.mk.injEq, Except.ok.injEq] at h
            exact .inl ⟨below, h.1.symm, h.2.symm⟩
          · rename_i done
            simp only [Prod.mk.injEq, Except.ok.injEq] at h
            exact .inr ⟨done, h.1.symm, h.2.symm⟩
        · simp at h

theorem loopBackRefused (h : store.loopBack name = (.error fault, after)) :
    after = store ∧ (fault = .unknownVariable name ∨ (∃ other, fault = .notALoop other) ∨
      fault = .unresolvedValue name ∧ ∃ cell state, store.get? name = some cell ∧
        cell.loop = some state ∧ ∀ current, cell.data ≠ some (.int current)) := by
  rw [loopBackView] at h
  split at h
  · cases h
    exact ⟨rfl, .inl rfl⟩
  · rename_i cell found
    split at h
    · cases h
      exact ⟨rfl, .inr (.inl ⟨_, rfl⟩)⟩
    · split at h
      · cases h
        exact ⟨rfl, .inr (.inl ⟨_, rfl⟩)⟩
      · rename_i state loop
        split at h
        · split at h <;> simp at h
        · rename_i other
          cases h
          exact ⟨rfl, .inr (.inr ⟨rfl, cell, state, found, loop, other⟩)⟩

theorem recorded {cell : Variable} (found : store.get? conditionName = some cell) (result : Bool) :
    store.recordCondition result = store.put conditionName { cell with data := some (.bool result) } := by
  simp [recordCondition, found]

structure Coherent (store : Store) : Prop where
  cells : ∀ {name cell}, store.get? name = some cell → cell.Coherent name
  condition : ∃ cell, store.get? conditionName = some cell ∧ cell.type = .boolean ∧ cell.data.isSome = true

theorem initialCoherent : initial.Coherent := by
  constructor
  · intro name cell found
    simp only [initial, get?, Table.getInsert, Table.getEmpty] at found
    split at found
    · rename_i same
      cases found
      constructor <;> simp [conditionCell, same, Value.type]
    · simp at found
  · exact ⟨conditionCell, by simp [initial, get?], rfl, rfl⟩

theorem Coherent.cell (coherent : store.Coherent) (name : Text) (type : ValueType) :
    (store.cell name type).Coherent name := by
  unfold Store.cell
  cases found : store.get? name with
  | none => exact Variable.freshCoherent name type
  | some cell => exact coherent.cells found

theorem Coherent.put (coherent : store.Coherent) {cell : Variable} (own : cell.Coherent name)
    (condition : ∀ old, store.get? name = some old → cell.type = old.type ∧ (old.data.isSome → cell.data.isSome)) :
    (store.put name cell).Coherent := by
  constructor
  · intro other found read
    rw [getPut] at read
    split at read
    · rename_i same
      cases read
      exact same ▸ own
    · exact coherent.cells read
  · obtain ⟨old, found, type, data⟩ := coherent.condition
    rw [getPut]
    split
    · rename_i same
      subst same
      obtain ⟨sameType, kept⟩ := condition old found
      exact ⟨cell, rfl, sameType.trans type, kept data⟩
    · exact ⟨old, found, type, data⟩

theorem Coherent.taken (coherent : store.Coherent) (name : Text) (type : ValueType) :
    (store.put name (store.cell name type)).Coherent := by
  refine coherent.put (coherent.cell name type) fun old found => ?_
  rw [cellOf found]
  exact ⟨rfl, id⟩

theorem assignCoherent (coherent : store.Coherent) {type : ValueType} {flags : List Text} {value : Value}
    {result : Except Fault Unit} (h : store.assign name type flags value = (result, after)) :
    after.Coherent := by
  cases result with
  | error fault => exact (assignRefused h).1 ▸ coherent.taken name type
  | ok =>
    obtain ⟨stored, same, fits, rfl⟩ := assigned h
    have before := coherent.cell name type
    refine coherent.put ⟨before.named, ?_, ?_, ?_⟩ fun old found => ?_
    · intro value held
      cases held
      exact (Value.coerceType fits).trans same.symm
    · intro empty
      simp at empty
    · rcases before.shaped with empty | ⟨state, entries, integer, flagged⟩
      · exact .inl empty
      · exact .inr ⟨state, entries, integer, Variable.memAddFlags.mpr (.inl flagged)⟩
    · rw [cellOf found]
      exact ⟨rfl, fun _ => rfl⟩

theorem openCoherent (coherent : store.Coherent) {lower upper : Int64} {resume : Nat}
    {result : Except Fault Unit} (h : store.openLoop name lower upper resume = (result, after)) :
    after.Coherent := by
  cases result with
  | error fault => exact (openRefused h).1 ▸ coherent.taken name .integer
  | ok =>
    obtain ⟨integer, rfl⟩ := opened h
    have before := coherent.cell name .integer
    refine coherent.put ⟨before.named, ?_, ?_, ?_⟩ fun old found => ?_
    · intro value held
      cases held
      exact integer.symm
    · intro empty
      simp [Variable.withLoop] at empty
    · have shape : (store.cell name .integer).auxiliary = Table.empty ∨
          ∃ old : LoopState, (store.cell name .integer).auxiliary = old.entries :=
        before.shaped.imp_right fun ⟨old, entries, _⟩ => ⟨old, entries⟩
      exact .inr ⟨_, Variable.withLoopEntries shape, integer, Variable.memAddFlags.mpr (.inr List.mem_cons_self)⟩
    · rw [cellOf found]
      exact ⟨rfl, fun _ => rfl⟩

theorem loopBackCoherent (coherent : store.Coherent) {result : Except Fault (Option Nat)}
    (h : store.loopBack name = (result, after)) : after.Coherent := by
  cases result with
  | error fault => exact (loopBackRefused h).1 ▸ coherent
  | ok line =>
    obtain ⟨cell, state, current, found, loop, data, ⟨_, _, rfl⟩ | ⟨_, _, rfl⟩⟩ := loopedBack h
    · have before := coherent.cells found
      refine coherent.put ⟨before.named, ?_, ?_, before.shaped⟩ fun old read => ?_
      · intro value held
        cases held
        exact (before.looped loop).2.1.symm
      · intro empty
        simp at empty
      · cases found.symm.trans read
        exact ⟨rfl, fun _ => rfl⟩
    · exact coherent

theorem recordCoherent (coherent : store.Coherent) (result : Bool) : (store.recordCondition result).Coherent := by
  obtain ⟨cell, found, type, data⟩ := coherent.condition
  have before := coherent.cells found
  rw [recorded found]
  refine coherent.put ⟨before.named, ?_, ?_, before.shaped⟩ fun old read => ?_
  · intro value held
    cases held
    exact type.symm
  · intro empty
    simp at empty
  · cases found.symm.trans read
    exact ⟨rfl, fun _ => rfl⟩

def Valued (store : Store) : Prop := ∀ ⦃name cell⦄, store.get? name = some cell → cell.data.isSome = true

theorem initialValued : initial.Valued := by
  intro name cell found
  simp only [initial, get?, Table.getInsert, Table.getEmpty] at found
  split at found
  · cases found; rfl
  · simp at found

theorem Valued.put (valued : store.Valued) {cell : Variable} (data : cell.data.isSome = true) :
    (store.put name cell).Valued := by
  intro other found read
  rw [getPut] at read
  split at read
  · cases read
    exact data
  · exact valued read

def Loops (store : Store) (holds : Text → LoopState → Prop) : Prop :=
  ∀ ⦃name cell state⦄, store.get? name = some cell → cell.loop = some state → holds name state

theorem initialLoops (holds : Text → LoopState → Prop) : initial.Loops holds := by
  intro name cell state found loop
  simp only [initial, get?, Table.getInsert, Table.getEmpty] at found
  split at found
  · have bare : conditionCell.loop = none := rfl
    rw [← Option.some.inj found, bare] at loop
    simp at loop
  · simp at found

variable {holds : Text → LoopState → Prop}

theorem Loops.put (loops : store.Loops holds) {cell : Variable}
    (own : ∀ state, cell.loop = some state → holds name state) : (store.put name cell).Loops holds := by
  intro other found state read loop
  rw [getPut] at read
  split at read
  · rename_i same
    cases read
    exact same ▸ own state loop
  · exact loops read loop

theorem Loops.cell (loops : store.Loops holds) (name : Text) (type : ValueType) {state : LoopState}
    (loop : (store.cell name type).loop = some state) : holds name state := by
  unfold Store.cell at loop
  cases found : store.get? name with
  | none =>
    have bare : (Variable.fresh name type).loop = none := rfl
    simp [found, bare] at loop
  | some cell =>
    rw [found] at loop
    exact loops found loop

theorem Loops.taken (loops : store.Loops holds) (name : Text) (type : ValueType) :
    (store.put name (store.cell name type)).Loops holds :=
  loops.put fun _ => loops.cell name type

theorem Loops.record (loops : store.Loops holds) (result : Bool) : (store.recordCondition result).Loops holds := by
  unfold recordCondition
  split
  · exact loops
  · rename_i cell found
    exact loops.put fun state loop => loops found loop

theorem Loops.loopBack (loops : store.Loops holds) {result : Except Fault (Option Nat)}
    (h : store.loopBack name = (result, after)) : after.Loops holds := by
  cases result with
  | error fault => exact (loopBackRefused h).1 ▸ loops
  | ok line =>
    obtain ⟨cell, state, current, found, loop, data, ⟨_, _, rfl⟩ | ⟨_, _, rfl⟩⟩ := loopedBack h
    · exact loops.put fun _ loop => loops found loop
    · exact loops

variable {other : Text}

def loop? (store : Store) (name : Text) : Option LoopState := (store.get? name).bind Variable.loop

theorem loopPut (cell : Variable) :
    (store.put name cell).loop? other = if name = other then cell.loop else store.loop? other := by
  unfold loop?
  rw [getPut]
  split <;> rfl

theorem loopCell (type : ValueType) : (store.cell name type).loop = store.loop? name := by
  unfold cell loop?
  cases store.get? name <;> rfl

theorem loopHeld {cell : Variable} (found : store.get? name = some cell) (data : Option Value) :
    { cell with data }.loop = store.loop? name := by
  rw [loop?, found]
  rfl

theorem putKeepsLoop {cell : Variable} (same : cell.loop = store.loop? name) :
    (store.put name cell).loop? other = store.loop? other := by
  rw [loopPut]
  split
  · rename_i here
    rw [same, here]
  · rfl

theorem assignKeepsLoop {type : ValueType} {flags : List Text} {value : Value} {result : Except Fault Unit}
    (h : store.assign name type flags value = (result, after)) : after.loop? other = store.loop? other := by
  cases result with
  | error fault =>
    rw [(assignRefused h).1]
    exact putKeepsLoop (loopCell type)
  | ok =>
    obtain ⟨stored, _, _, rfl⟩ := assigned h
    exact putKeepsLoop (loopCell type)

theorem recordKeepsLoop (result : Bool) : (store.recordCondition result).loop? other = store.loop? other := by
  unfold recordCondition
  split
  · rfl
  · rename_i cell found
    exact putKeepsLoop (loopHeld found _)

theorem openedLoop {lower upper : Int64} {resume : Nat}
    (h : store.openLoop name lower upper resume = (.ok (), after)) :
    after.loop? other = if name = other then some ⟨upper, Int64.ofNat resume⟩ else store.loop? other := by
  obtain ⟨_, rfl⟩ := opened h
  rw [loopPut, Variable.withLoopLoop]

end Store
end Sigil
