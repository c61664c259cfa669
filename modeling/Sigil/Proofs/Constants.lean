import Sigil.Proofs.Store

/-! A store under any sequence of operations, whether they succeed or fail. A constant has a value and counts
no loop, and the reserved cell is never constant; so no operation changes the cell of a constant, and every
operation on it fails. -/
namespace Sigil

inductive Operation where
  | assign (name : Text) (type : ValueType) (flags : List Text) (value : Value)
  | openLoop (name : Text) (lower upper : Int64) (resume : Nat)
  | loopBack (name : Text)
  | recordCondition (result : Bool)
  deriving DecidableEq, Repr

def Operation.target : Operation → Text
  | .assign name _ _ _ => name
  | .openLoop name _ _ _ => name
  | .loopBack name => name
  | .recordCondition _ => Store.conditionName

namespace Store

def perform (store : Store) : Operation → Store
  | .assign name type flags value => (store.assign name type flags value).2
  | .openLoop name lower upper resume => (store.openLoop name lower upper resume).2
  | .loopBack name => (store.loopBack name).2
  | .recordCondition result => store.recordCondition result

def performAll (store : Store) (operations : List Operation) : Store := operations.foldl perform store

variable {store after : Store} {name other : Text} {cell : Variable}

theorem putSame (held : store.get? name = some cell) : store.put name cell = store :=
  congrArg Store.mk (Table.insertGet held)

theorem assignOther {type : ValueType} {flags : List Text} {value : Value} {result : Except Fault Unit}
    (h : store.assign name type flags value = (result, after)) (different : name ≠ other) :
    after.get? other = store.get? other := by
  cases result with
  | ok =>
    obtain ⟨_, _, _, rfl⟩ := assigned h
    rw [getPut, if_neg different]
  | error fault => rw [(assignRefused h).1, getPut, if_neg different]

theorem openOther {lower upper : Int64} {resume : Nat} {result : Except Fault Unit}
    (h : store.openLoop name lower upper resume = (result, after)) (different : name ≠ other) :
    after.get? other = store.get? other := by
  cases result with
  | ok =>
    obtain ⟨_, rfl⟩ := opened h
    rw [getPut, if_neg different]
  | error fault => rw [(openRefused h).1, getPut, if_neg different]

theorem loopBackOther {result : Except Fault (Option Nat)} (h : store.loopBack name = (result, after))
    (different : name ≠ other) : after.get? other = store.get? other := by
  cases result with
  | ok line =>
    obtain ⟨_, _, _, _, _, _, ⟨_, _, rfl⟩ | ⟨_, _, rfl⟩⟩ := loopedBack h
    · rw [getPut, if_neg different]
    · rfl
  | error fault => rw [(loopBackRefused h).1]

theorem recordOther (result : Bool) (different : conditionName ≠ other) :
    (store.recordCondition result).get? other = store.get? other := by
  unfold recordCondition
  split
  · rfl
  · rw [getPut, if_neg different]

theorem performOther {operation : Operation} (different : operation.target ≠ name) :
    (store.perform operation).get? name = store.get? name := by
  cases operation with
  | assign other type flags value => exact assignOther rfl different
  | openLoop other lower upper resume => exact openOther rfl different
  | loopBack other => exact loopBackOther rfl different
  | recordCondition result => exact recordOther result different

theorem performKeepsCounter (operation : Operation) (counts : (store.loop? name).isSome = true) :
    ((store.perform operation).loop? name).isSome = true := by
  cases operation with
  | assign other type flags value =>
    cases h : store.assign other type flags value with
    | mk result after =>
      rw [perform, h, assignKeepsLoop h]
      exact counts
  | openLoop other lower upper resume =>
    cases h : store.openLoop other lower upper resume with
    | mk result after =>
      rw [perform, h]
      cases result with
      | ok =>
        rw [openedLoop h]
        split
        · rfl
        · exact counts
      | error fault =>
        rw [(openRefused h).1, putKeepsLoop (loopCell .integer)]
        exact counts
  | loopBack other =>
    cases h : store.loopBack other with
    | mk result after =>
      rw [perform, h]
      cases result with
      | ok line =>
        obtain ⟨cell, _, _, found, _, _, ⟨_, _, rfl⟩ | ⟨_, _, rfl⟩⟩ := loopedBack h
        · rw [putKeepsLoop (loopHeld found _)]
          exact counts
        · exact counts
      | error fault =>
        rw [(loopBackRefused h).1]
        exact counts
  | recordCondition result =>
    rw [perform, recordKeepsLoop]
    exact counts

theorem assignedFree {type : ValueType} {flags : List Text} {value : Value}
    (h : store.assign name type flags value = (.ok (), after))
    (constant : Variable.constFlag ∈ (store.cell name type).flags ∨ Variable.constFlag ∈ flags) :
    (store.cell name type).data = none := by
  unfold assign at h
  simp only at h
  split at h
  · simp at h
  · split at h
    · simp at h
    · rename_i free
      simp only [Bool.and_eq_true, Bool.or_eq_true, Variable.hasFlagIff, List.contains_iff_mem] at free
      cases data : (store.cell name type).data with
      | none => rfl
      | some value => exact absurd ⟨constant, by simp [data]⟩ free

theorem openedFree {lower upper : Int64} {resume : Nat}
    (h : store.openLoop name lower upper resume = (.ok (), after))
    (constant : Variable.constFlag ∈ (store.cell name .integer).flags) :
    (store.cell name .integer).data = none := by
  unfold openLoop at h
  simp only at h
  split at h
  · simp at h
  · split at h
    · simp at h
    · rename_i free
      simp only [Bool.and_eq_true, Variable.hasFlagIff] at free
      cases data : (store.cell name .integer).data with
      | none => rfl
      | some value => exact absurd ⟨constant, by simp [data]⟩ free

structure Guarded (store : Store) : Prop where
  coherent : store.Coherent
  unlooped : ∀ {name cell}, store.get? name = some cell → Variable.constFlag ∈ cell.flags →
    cell.auxiliary = Table.empty
  condition : ∀ {cell}, store.get? conditionName = some cell → Variable.constFlag ∉ cell.flags

theorem Guarded.valued (guarded : store.Guarded) (held : store.get? name = some cell)
    (constant : Variable.constFlag ∈ cell.flags) : cell.data.isSome = true := by
  cases data : cell.data with
  | none =>
    rw [((guarded.coherent.cells held).bare data).1] at constant
    simp at constant
  | some value => rfl

theorem initialGuarded : initial.Guarded := by
  refine ⟨initialCoherent, fun {name cell} held constant => ?_, fun {cell} held => ?_⟩
  · simp only [initial, get?, Table.getInsert, Table.getEmpty] at held
    split at held
    · cases held
      exact absurd constant (by decide)
    · simp at held
  · cases held
    decide

theorem Guarded.put (guarded : store.Guarded) (coherent : (store.put name cell).Coherent)
    (unlooped : Variable.constFlag ∈ cell.flags → cell.auxiliary = Table.empty)
    (reserved : name = conditionName → Variable.constFlag ∉ cell.flags) : (store.put name cell).Guarded := by
  refine ⟨coherent, fun {other found} held => ?_, fun {found} held => ?_⟩
  · rw [getPut] at held
    split at held
    · cases held
      exact unlooped
    · exact guarded.unlooped held
  · rw [getPut] at held
    split at held
    · rename_i same
      cases held
      exact reserved same
    · exact guarded.condition held

theorem Guarded.taken (guarded : store.Guarded) (name : Text) (type : ValueType) :
    (store.put name (store.cell name type)).Guarded := by
  refine guarded.put (guarded.coherent.taken name type) ?_ ?_
  · cases held : store.get? name with
    | none => simp [Store.cell, held, Variable.fresh]
    | some cell =>
      rw [cellOf held]
      exact guarded.unlooped held
  · rintro rfl
    obtain ⟨cell, held, _⟩ := guarded.coherent.condition
    rw [cellOf held]
    exact guarded.condition held

theorem Guarded.assign (guarded : store.Guarded) {type : ValueType} {flags : List Text} {value : Value}
    {result : Except Fault Unit} (h : store.assign name type flags value = (result, after)) : after.Guarded := by
  have coherent := assignCoherent guarded.coherent h
  cases result with
  | error fault => exact (assignRefused h).1 ▸ guarded.taken name type
  | ok =>
    obtain ⟨stored, _, _, rfl⟩ := assigned h
    refine guarded.put coherent ?_ ?_
    · intro constant
      have empty := assignedFree h (Variable.memAddFlags.mp constant)
      exact ((guarded.coherent.cell name type).bare empty).2
    · rintro rfl constant
      have empty := assignedFree h (Variable.memAddFlags.mp constant)
      obtain ⟨cell, held, _, filled⟩ := guarded.coherent.condition
      rw [cellOf held] at empty
      simp [empty] at filled

theorem Guarded.openLoop (guarded : store.Guarded) {lower upper : Int64} {resume : Nat}
    {result : Except Fault Unit} (h : store.openLoop name lower upper resume = (result, after)) :
    after.Guarded := by
  have coherent := openCoherent guarded.coherent h
  cases result with
  | error fault => exact (openRefused h).1 ▸ guarded.taken name .integer
  | ok =>
    -- A counter is not constant: a constant cell has a value, and then the loop does not open.
    have changing : Variable.constFlag ∉ ((store.cell name .integer).addFlags [Variable.loopFlag]).flags := by
      intro constant
      rcases Variable.memAddFlags.mp constant with old | new
      · have empty := openedFree h old
        simp [((guarded.coherent.cell name .integer).bare empty).1] at old
      · revert new
        decide
    obtain ⟨_, rfl⟩ := opened h
    exact guarded.put coherent (fun constant => absurd constant changing) fun _ => changing

theorem Guarded.loopBack (guarded : store.Guarded) {result : Except Fault (Option Nat)}
    (h : store.loopBack name = (result, after)) : after.Guarded := by
  have coherent := loopBackCoherent guarded.coherent h
  cases result with
  | error fault => exact (loopBackRefused h).1 ▸ guarded
  | ok line =>
    obtain ⟨cell, state, current, held, loop, _, ⟨_, _, rfl⟩ | ⟨_, _, rfl⟩⟩ := loopedBack h
    · have unlooped := guarded.unlooped held
      refine guarded.put coherent unlooped ?_
      rintro rfl constant
      exact guarded.condition held constant
    · exact guarded

theorem Guarded.record (guarded : store.Guarded) (result : Bool) : (store.recordCondition result).Guarded := by
  have coherent := recordCoherent guarded.coherent result
  obtain ⟨cell, held, _⟩ := guarded.coherent.condition
  have unlooped := guarded.unlooped held
  rw [recorded held] at coherent ⊢
  exact guarded.put coherent unlooped fun _ constant => guarded.condition held constant

theorem performGuarded (guarded : store.Guarded) (operation : Operation) : (store.perform operation).Guarded := by
  cases operation with
  | assign name type flags value => exact guarded.assign rfl
  | openLoop name lower upper resume => exact guarded.openLoop rfl
  | loopBack name => exact guarded.loopBack rfl
  | recordCondition result => exact guarded.record result

theorem performAllGuarded (guarded : store.Guarded) (operations : List Operation) :
    (store.performAll operations).Guarded := by
  induction operations generalizing store with
  | nil => exact guarded
  | cons operation rest ih => exact ih (performGuarded guarded operation)

structure Locked (store : Store) (name : Text) (cell : Variable) : Prop where
  held : store.get? name = some cell
  assigns : ∀ type flags value, store.assign name type flags value =
    (.error (if cell.type = type then .constantRedefinition name
      else .typeMismatch (.redeclared name cell.type type)), store)
  opens : ∀ lower upper resume, store.openLoop name lower upper resume =
    (.error (if cell.type = .integer then .constantRedefinition name
      else .typeMismatch (.counterNotInteger name cell.type)), store)
  loops : store.loopBack name = (.error (.notALoop name), store)

theorem Guarded.locked (guarded : store.Guarded) (held : store.get? name = some cell)
    (constant : Variable.constFlag ∈ cell.flags) : store.Locked name cell := by
  have valued := guarded.valued held constant
  have flagged : cell.hasFlag Variable.constFlag = true := Variable.hasFlagIff.mpr constant
  refine ⟨held, fun type flags value => ?_, fun lower upper resume => ?_, ?_⟩
  · by_cases same : cell.type = type <;> simp [Store.assign, cellOf held, putSame held, same, flagged, valued]
  · by_cases same : cell.type = .integer <;> simp [Store.openLoop, cellOf held, putSame held, same, flagged, valued]
  · have unlooped := Variable.loopOfEmpty (guarded.unlooped held constant)
    simp [loopBackView, held, unlooped, (guarded.coherent.cells held).named]

theorem Guarded.performConstant (guarded : store.Guarded) (held : store.get? name = some cell)
    (constant : Variable.constFlag ∈ cell.flags) (operation : Operation) :
    (store.perform operation).get? name = some cell := by
  have locked := guarded.locked held constant
  by_cases here : operation.target = name
  · cases operation with
    | assign other type flags value =>
      obtain rfl : other = name := here
      rw [perform, locked.assigns]
      exact held
    | openLoop other lower upper resume =>
      obtain rfl : other = name := here
      rw [perform, locked.opens]
      exact held
    | loopBack other =>
      obtain rfl : other = name := here
      rw [perform, locked.loops]
      exact held
    | recordCondition result =>
      obtain rfl : conditionName = name := here
      exact absurd constant (guarded.condition held)
  · rw [performOther here]
    exact held

theorem Guarded.performAllConstant (guarded : store.Guarded) (held : store.get? name = some cell)
    (constant : Variable.constFlag ∈ cell.flags) (operations : List Operation) :
    (store.performAll operations).get? name = some cell := by
  induction operations generalizing store with
  | nil => exact held
  | cons operation rest ih =>
    exact ih (performGuarded guarded operation) (guarded.performConstant held constant operation)

theorem performAllKeepsCounter (counts : (store.loop? name).isSome = true) (operations : List Operation) :
    ((store.performAll operations).loop? name).isSome = true := by
  induction operations generalizing store with
  | nil => exact counts
  | cons operation rest ih => exact ih (performKeepsCounter operation counts)

theorem constantsFrozen (history later : List Operation) (name : Text) :
    (∀ cell, (initial.performAll history).get? name = some cell → Variable.constFlag ∈ cell.flags →
      (initial.performAll (history ++ later)).Locked name cell) ∧
    (((initial.performAll history).loop? name).isSome = true →
      ∃ cell, (initial.performAll (history ++ later)).get? name = some cell ∧ cell.loop.isSome = true ∧
        Variable.constFlag ∉ cell.flags) := by
  have before := performAllGuarded initialGuarded history
  have joined : initial.performAll (history ++ later) = (initial.performAll history).performAll later :=
    List.foldl_append
  rw [joined]
  have guarded := performAllGuarded before later
  constructor
  · intro cell held constant
    exact guarded.locked (before.performAllConstant held constant later) constant
  · intro counts
    have loops := performAllKeepsCounter counts later
    obtain ⟨state, found⟩ := Option.isSome_iff_exists.mp loops
    obtain ⟨cell, held, loop⟩ := Option.bind_eq_some_iff.mp found
    refine ⟨cell, held, by simp [loop], fun constant => ?_⟩
    simp [Variable.loopOfEmpty (guarded.unlooped held constant)] at loop

theorem constantsFrozenFlagged :
    (initial.performAll [.assign ['k'] .integer [Variable.constFlag, Variable.loopFlag] (.int 3), .loopBack ['k'],
        .openLoop ['k'] 1 9 2]).Locked ['k']
      ⟨['k'], .integer, [Variable.constFlag, Variable.loopFlag], some (.int 3), Table.empty⟩ ∧
    ∃ cell, (initial.performAll [.openLoop ['i'] 1 9 2, .assign ['i'] .integer [Variable.constFlag] (.int 3)]).get?
        ['i'] = some cell ∧ cell.loop.isSome = true ∧ Variable.constFlag ∉ cell.flags :=
  ⟨(constantsFrozen [.assign ['k'] .integer [Variable.constFlag, Variable.loopFlag] (.int 3)]
      [.loopBack ['k'], .openLoop ['k'] 1 9 2] ['k']).1 _ (by decide) (by decide),
    (constantsFrozen [.openLoop ['i'] 1 9 2] [.assign ['i'] .integer [Variable.constFlag] (.int 3)] ['i']).2
      (by decide)⟩

end Store
end Sigil
