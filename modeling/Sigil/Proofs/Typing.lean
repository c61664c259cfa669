import Sigil.Proofs.Constants

/-! What is known of every cell, whatever was done to its store before: a value is of the declared type, a cell
without one is bare, and the auxiliary entries are none or, in a cell that counts a loop with an integer, the two
of a loop. No operation takes anything away from a cell, so the reserved cell stays, and a counter always holds a
number that it can advance within a word. -/
namespace Sigil

namespace Variable

structure Keeps (cell later : Variable) : Prop where
  type : later.type = cell.type
  flags : ∀ flag ∈ cell.flags, flag ∈ later.flags
  valued : cell.data.isSome = true → later.data.isSome = true

theorem Keeps.refl (cell : Variable) : cell.Keeps cell := ⟨rfl, fun _ held => held, id⟩

theorem Keeps.trans {cell later last : Variable} (one : cell.Keeps later) (two : later.Keeps last) :
    cell.Keeps last where
  type := two.type.trans one.type
  flags flag held := two.flags flag (one.flags flag held)
  valued filled := two.valued (one.valued filled)

theorem keepsFilled (cell : Variable) (flags : List Text) (value : Value) (auxiliary : Table Value) :
    cell.Keeps { cell.addFlags flags with data := some value, auxiliary } where
  type := rfl
  flags _ held := memAddFlags.mpr (.inl held)
  valued _ := rfl

end Variable

namespace Store
variable {store after third : Store} {name : Text}

def Grows (store after : Store) : Prop :=
  ∀ ⦃name cell⦄, store.get? name = some cell → ∃ later, after.get? name = some later ∧ cell.Keeps later

theorem growsRefl (store : Store) : store.Grows store := fun _ cell held => ⟨cell, held, .refl cell⟩

theorem Grows.trans (one : store.Grows after) (two : after.Grows third) : store.Grows third := by
  intro name cell held
  obtain ⟨later, found, keeps⟩ := one held
  obtain ⟨last, there, still⟩ := two found
  exact ⟨last, there, keeps.trans still⟩

theorem growsPut {new : Variable} (keeps : ∀ cell, store.get? name = some cell → cell.Keeps new) :
    store.Grows (store.put name new) := by
  intro other cell held
  rw [getPut]
  split
  · rename_i same
    exact ⟨new, rfl, keeps cell (same ▸ held)⟩
  · exact ⟨cell, held, .refl cell⟩

theorem growsTaken (store : Store) (name : Text) (type : ValueType) :
    store.Grows (store.put name (store.cell name type)) := by
  refine growsPut fun cell held => ?_
  rw [cellOf held]
  exact .refl cell

theorem assignGrows {type : ValueType} {flags : List Text} {value : Value} {result : Except Fault Unit}
    (h : store.assign name type flags value = (result, after)) : store.Grows after := by
  cases result with
  | error fault => exact (assignRefused h).1 ▸ growsTaken store name type
  | ok =>
    obtain ⟨stored, _, _, rfl⟩ := assigned h
    refine growsPut fun cell held => ?_
    rw [cellOf held]
    exact cell.keepsFilled flags stored cell.auxiliary

theorem openGrows {lower upper : Int64} {resume : Nat} {result : Except Fault Unit}
    (h : store.openLoop name lower upper resume = (result, after)) : store.Grows after := by
  cases result with
  | error fault => exact (openRefused h).1 ▸ growsTaken store name .integer
  | ok =>
    obtain ⟨_, rfl⟩ := opened h
    refine growsPut fun cell held => ?_
    rw [cellOf held]
    exact cell.keepsFilled [Variable.loopFlag] (.int lower) _

theorem loopBackGrows {result : Except Fault (Option Nat)} (h : store.loopBack name = (result, after)) :
    store.Grows after := by
  cases result with
  | error fault => exact (loopBackRefused h).1 ▸ growsRefl store
  | ok line =>
    obtain ⟨cell, _, _, found, _, _, ⟨_, _, rfl⟩ | ⟨_, _, rfl⟩⟩ := loopedBack h
    · refine growsPut fun old held => ?_
      cases found.symm.trans held
      exact cell.keepsFilled [] _ cell.auxiliary
    · exact growsRefl _

theorem recordGrows (store : Store) (result : Bool) : store.Grows (store.recordCondition result) := by
  unfold recordCondition
  split
  · exact growsRefl store
  · rename_i cell found
    refine growsPut fun old held => ?_
    cases found.symm.trans held
    exact cell.keepsFilled [] _ cell.auxiliary

theorem performGrows (store : Store) (operation : Operation) : store.Grows (store.perform operation) := by
  cases operation with
  | assign name type flags value => exact assignGrows rfl
  | openLoop name lower upper resume => exact openGrows rfl
  | loopBack name => exact loopBackGrows rfl
  | recordCondition result => exact recordGrows store result

theorem performAllGrows (store : Store) (operations : List Operation) :
    store.Grows (store.performAll operations) := by
  induction operations generalizing store with
  | nil => exact growsRefl store
  | cons operation rest ih => exact (performGrows store operation).trans (ih _)

structure Typed (store : Store) : Prop where
  named : ∀ {name cell}, store.get? name = some cell → cell.name = name
  typed : ∀ {name cell value}, store.get? name = some cell → cell.data = some value → value.type = cell.type
  bare : ∀ {name cell}, store.get? name = some cell → cell.data = none →
    cell.flags = [] ∧ cell.auxiliary = Table.empty
  auxiliary : ∀ {name cell}, store.get? name = some cell → cell.auxiliary = Table.empty ∨
    ∃ state : LoopState, cell.auxiliary = state.entries ∧ cell.type = .integer ∧ Variable.loopFlag ∈ cell.flags ∧
      ∃ current, cell.data = some (.int current)
  condition : ∃ cell, store.get? conditionName = some cell ∧ cell.type = .boolean ∧
    Variable.systemFlag ∈ cell.flags ∧ cell.data.isSome = true

theorem Coherent.typed (coherent : store.Coherent) (grown : initial.Grows store) : store.Typed where
  named held := (coherent.cells held).named
  typed held data := (coherent.cells held).typed data
  bare held empty := (coherent.cells held).bare empty
  auxiliary held := by
    have own := coherent.cells held
    rcases own.shaped with empty | ⟨state, entries, integer, flagged⟩
    · exact .inl empty
    · exact .inr ⟨state, entries, integer, flagged, own.counts (Variable.loopOfEntries entries)⟩
  condition := by
    -- The cell is there from the start with its flag and a value, and nothing is taken away from it.
    have start : initial.get? conditionName = some conditionCell := rfl
    obtain ⟨cell, held, keeps⟩ := grown start
    exact ⟨cell, held, keeps.type, keeps.flags _ List.mem_cons_self, keeps.valued rfl⟩

theorem Coherent.loopBackResolved (coherent : store.Coherent) (name other : Text) :
    (store.loopBack name).1 ≠ .error (.unresolvedValue other) := by
  intro failed
  rcases (loopBackRefused (Prod.ext failed rfl)).2 with unknown | ⟨_, plain⟩ | ⟨_, cell, state, held, loop, none⟩
  · simp at unknown
  · simp at plain
  · obtain ⟨current, data⟩ := (coherent.cells held).counts loop
    exact none current data

def Advances (store : Store) (name : Text) (after : Store) : Prop :=
  ∃ cell current, store.get? name = some cell ∧ cell.data = some (.int current) ∧
    after = store.put name { cell with data := some (.int (current + 1)) } ∧
    (current + 1).toInt = current.toInt + 1

theorem loopBackAdvances {line : Option Nat} (h : store.loopBack name = (.ok line, after)) :
    after = store ∨ store.Advances name after := by
  obtain ⟨cell, _, current, held, _, data, ⟨below, _, changed⟩ | ⟨_, _, same⟩⟩ := loopedBack h
  · exact .inr ⟨cell, current, held, data, changed, countUp below⟩
  · exact .inl same

theorem typedHistory (history later : List Operation) :
    (initial.performAll history).Typed ∧
    (initial.performAll history).Grows (initial.performAll (history ++ later)) ∧
    ∀ name, (∀ other, ((initial.performAll history).loopBack name).1 ≠ .error (.unresolvedValue other)) ∧
      ∀ line after, (initial.performAll history).loopBack name = (.ok line, after) →
        after = initial.performAll history ∨ (initial.performAll history).Advances name after := by
  have coherent := (performAllGuarded initialGuarded history).coherent
  refine ⟨coherent.typed (performAllGrows initial history), ?_, fun name => ⟨coherent.loopBackResolved name, ?_⟩⟩
  · have joined : initial.performAll (history ++ later) = (initial.performAll history).performAll later :=
      List.foldl_append
    rw [joined]
    exact performAllGrows _ later
  · intro line after went
    exact loopBackAdvances went

theorem typedHistoryGreatest :
    ∃ history : List Operation, ∃ after,
      (initial.performAll history).get? ['k'] = some (Variable.fresh ['k'] .integer) ∧
      (initial.performAll history).Typed ∧
      (initial.performAll history).loopBack ['i'] = (.ok (some 2), after) ∧
      after.read ['i'] = .ok (.int Int64.maxValue) ∧ (initial.performAll history).Advances ['i'] after := by
  have went : (initial.performAll [.assign ['k'] .integer [Variable.constFlag] (.str ['x']),
      .openLoop ['i'] (Int64.maxValue - 1) Int64.maxValue 2]).loopBack ['i'] = (.ok (some 2), _) := rfl
  obtain ⟨typed, _, loops⟩ := typedHistory [.assign ['k'] .integer [Variable.constFlag] (.str ['x']),
    .openLoop ['i'] (Int64.maxValue - 1) Int64.maxValue 2] []
  refine ⟨_, _, by decide, typed, went, by decide, ((loops ['i']).2 _ _ went).resolve_left (by decide)⟩

end Store
end Sigil
