import Sigil.Proofs.Store

/-! Stores that differ only in the lines at which their loops resume. Renaming those lines changes nothing
that evaluation reads, and goes through every operation of the store. -/
namespace Sigil

def Value.mapInt (f : Int64 → Int64) : Value → Value
  | .int n => .int (f n)
  | value => value

def LoopState.mapResume (f : Int64 → Int64) (state : LoopState) : LoopState := { state with resume := f state.resume }

namespace Variable

def mapEntry (f : Int64 → Int64) (key : Text) (value : Value) : Value :=
  if key = resumeKey then value.mapInt f else value

def mapResume (f : Int64 → Int64) (cell : Variable) : Variable :=
  { cell with auxiliary := cell.auxiliary.mapEntries (mapEntry f) }

variable (f : Int64 → Int64)

@[simp] theorem mapResumeName (cell : Variable) : (cell.mapResume f).name = cell.name := rfl

@[simp] theorem mapResumeType (cell : Variable) : (cell.mapResume f).type = cell.type := rfl

@[simp] theorem mapResumeData (cell : Variable) : (cell.mapResume f).data = cell.data := rfl

@[simp] theorem mapResumeFlag (cell : Variable) (flag : Text) :
    (cell.mapResume f).hasFlag flag = cell.hasFlag flag := rfl

theorem mapResumeUpper (cell : Variable) : (cell.mapResume f).auxiliaryInt upperKey = cell.auxiliaryInt upperKey := by
  have same : mapEntry f upperKey = id := rfl
  rw [auxiliaryInt, mapResume, Table.getMapEntries, same, Option.map_id, id, auxiliaryInt]

theorem mapResumeLine (cell : Variable) :
    (cell.mapResume f).auxiliaryInt resumeKey = (cell.auxiliaryInt resumeKey).map f := by
  have own : mapEntry f resumeKey = Value.mapInt f := rfl
  rw [auxiliaryInt, mapResume, Table.getMapEntries, own, auxiliaryInt]
  rcases cell.auxiliary.get? resumeKey with _ | ⟨_ | _ | _ | _⟩ <;> rfl

theorem mapResumeLoop (cell : Variable) : (cell.mapResume f).loop = cell.loop.map (LoopState.mapResume f) := by
  rw [loop, mapResumeUpper, mapResumeLine, loop]
  cases cell.auxiliaryInt upperKey with
  | error fault => rfl
  | ok upper => cases cell.auxiliaryInt resumeKey <;> rfl

theorem mapResumeWithLoop (cell : Variable) (state : LoopState) :
    (cell.mapResume f).withLoop (state.mapResume f) = (cell.withLoop state).mapResume f := by
  have upper : mapEntry f upperKey (.int state.upper) = .int state.upper := rfl
  have resume : mapEntry f resumeKey (.int state.resume) = .int (f state.resume) := rfl
  simp only [withLoop, mapResume, ← Table.mapEntriesInsert, upper, resume]
  rfl

theorem mapResumeThen (g : Int64 → Int64) (cell : Variable) :
    (cell.mapResume f).mapResume g = cell.mapResume (g ∘ f) := by
  simp only [mapResume, Table.mapEntries, List.map_map]
  congr 3
  funext entry
  obtain ⟨key, value⟩ := entry
  simp only [Function.comp_apply, mapEntry]
  split
  · cases value <;> rfl
  · rfl

end Variable

namespace Store

def mapResume (f : Int64 → Int64) (store : Store) : Store := ⟨store.cells.mapEntries fun _ => Variable.mapResume f⟩

def unplaced (store : Store) : Store := store.mapResume fun _ => 0

variable (f : Int64 → Int64) (store : Store)

theorem mapResumeGet (name : Text) :
    (store.mapResume f).get? name = (store.get? name).map (Variable.mapResume f) :=
  Table.getMapEntries _ _ _

theorem mapResumePut (name : Text) (cell : Variable) :
    (store.mapResume f).put name (cell.mapResume f) = (store.put name cell).mapResume f :=
  congrArg Store.mk (Table.mapEntriesInsert (fun _ => Variable.mapResume f) store.cells name cell)

theorem mapResumeTwice (g : Int64 → Int64) : (store.mapResume f).mapResume g = store.mapResume (g ∘ f) := by
  simp only [mapResume, Table.mapEntries, List.map_map, mk.injEq, Table.mk.injEq]
  refine List.map_congr_left fun entry _ => ?_
  simp only [Function.comp_apply, Variable.mapResumeThen]

theorem unplacedMapResume : (store.mapResume f).unplaced = store.unplaced := mapResumeTwice f store _

theorem mapResumeInitial : initial.mapResume f = initial := rfl

theorem mapResumeRead : (store.mapResume f).read = store.read := by
  funext name
  unfold read
  rw [mapResumeGet]
  cases store.get? name <;> rfl

theorem mapResumeCell (name : Text) (type : ValueType) :
    (store.mapResume f).cell name type = (store.cell name type).mapResume f := by
  unfold cell
  rw [mapResumeGet]
  cases store.get? name <;> rfl

theorem mapResumeRecord (result : Bool) :
    (store.mapResume f).recordCondition result = (store.recordCondition result).mapResume f := by
  unfold recordCondition
  rw [mapResumeGet]
  cases store.get? conditionName with
  | none => rfl
  | some cell => exact mapResumePut f store _ { cell with data := some (.bool result) }

theorem mapResumeAssign (name : Text) (type : ValueType) (flags : List Text) (value : Value) :
    (store.mapResume f).assign name type flags value =
      ((store.assign name type flags value).1, (store.assign name type flags value).2.mapResume f) := by
  have taken := mapResumePut f store name (store.cell name type)
  unfold assign
  simp only [mapResumeCell, Variable.mapResumeType, Variable.mapResumeFlag, Variable.mapResumeData,
    Variable.mapResumeName, taken]
  split
  · rfl
  · split
    · rfl
    · cases value.coerce (store.cell name type).type with
      | none => rfl
      | some stored =>
        have put := mapResumePut f store name { (store.cell name type).addFlags flags with data := some stored }
        exact Prod.ext rfl put

theorem mapResumeOpen (name : Text) (lower upper : Int64) (resume target : Nat)
    (moved : f (Int64.ofNat resume) = Int64.ofNat target) :
    (store.mapResume f).openLoop name lower upper target =
      ((store.openLoop name lower upper resume).1, (store.openLoop name lower upper resume).2.mapResume f) := by
  have taken := mapResumePut f store name (store.cell name .integer)
  have put := mapResumePut f store name ({ (store.cell name .integer).addFlags [Variable.loopFlag] with
    data := some (.int lower) }.withLoop ⟨upper, Int64.ofNat resume⟩)
  rw [← Variable.mapResumeWithLoop, LoopState.mapResume, moved] at put
  unfold openLoop
  simp only [mapResumeCell, Variable.mapResumeType, Variable.mapResumeFlag, Variable.mapResumeData, taken]
  split
  · rfl
  · split
    · rfl
    · exact Prod.ext rfl put

theorem mapResumeBack (name : Text) (g : Nat → Nat)
    (moved : ∀ cell state, store.get? name = some cell → cell.loop = some state →
      (state.mapResume f).resumeLine = state.resumeLine.map g) :
    (store.mapResume f).loopBack name =
      ((store.loopBack name).1.map (Option.map g), (store.loopBack name).2.mapResume f) := by
  rw [loopBackView, loopBackView, mapResumeGet]
  cases found : store.get? name with
  | none => rfl
  | some cell =>
    simp only [Option.map_some, Variable.mapResumeFlag, Variable.mapResumeName, Variable.mapResumeData,
      Variable.mapResumeLoop]
    by_cases flagged : cell.hasFlag Variable.loopFlag = true
    · cases loop : cell.loop with
      | none => simp [flagged, Except.map]
      | some state =>
        have upper : (state.mapResume f).upper = state.upper := rfl
        simp only [Option.map_some, upper, moved cell state found loop, flagged, Bool.not_true, Bool.false_eq_true,
          if_false]
        rcases cell.data with _ | ⟨current | _ | _ | _⟩
        · rfl
        · have put := mapResumePut f store name { cell with data := some (.int (current + 1)) }
          by_cases below : current < state.upper
          · simp only [below, if_true]
            exact Prod.ext rfl put
          · simp only [below, if_false]
            rfl
        · rfl
        · rfl
        · rfl
    · simp [flagged, Except.map]

end Store
end Sigil
