import Sigil.Fault
import Sigil.Table
import Sigil.Value.Coerce

/-!
Variables. A variable is pinned to the type of its first assignment, gathers flags, and may carry
the state of a counted loop. A constant that has a value is never written again. The cell named `?`
holds the result of the last condition.
-/
namespace Sigil

structure Variable where
  name : Text
  type : ValueType
  flags : List Text
  data : Option Value
  auxiliary : Table Value
  deriving DecidableEq, Repr

structure LoopState where
  upper : Int64
  resume : Int64
  deriving DecidableEq, Repr

namespace Variable

def constFlag : Text := "const".toList

def loopFlag : Text := "loop".toList

def systemFlag : Text := "system".toList

def upperKey : Text := "upper".toList

def resumeKey : Text := "loopback".toList

def fresh (name : Text) (type : ValueType) : Variable := ⟨name, type, [], none, Table.empty⟩

def hasFlag (cell : Variable) (flag : Text) : Bool := cell.flags.contains flag

def addFlags (cell : Variable) (flags : List Text) : Variable :=
  { cell with flags := flags.foldl (fun set flag => Text.insertOrdered flag set) cell.flags }

def auxiliaryInt (cell : Variable) (key : Text) : Except Fault Int64 :=
  match cell.auxiliary.get? key with
  | some (.int n) => .ok n
  | _ => .error (.notALoop cell.name)

def withLoop (cell : Variable) (state : LoopState) : Variable :=
  { cell with
    auxiliary := (cell.auxiliary.insert upperKey (.int state.upper)).insert resumeKey (.int state.resume) }

def loop (cell : Variable) : Option LoopState :=
  match cell.auxiliaryInt upperKey, cell.auxiliaryInt resumeKey with
  | .ok upper, .ok resume => some ⟨upper, resume⟩
  | _, _ => none

end Variable

namespace LoopState

def entries (state : LoopState) : Table Value :=
  ⟨[(Variable.upperKey, .int state.upper), (Variable.resumeKey, .int state.resume)]⟩

/-- A negative word names no line. -/
def resumeLine (state : LoopState) : Option Nat :=
  if 0 ≤ state.resume.toInt then some state.resume.toInt.toNat else none

end LoopState

structure Store where
  cells : Table Variable
  deriving DecidableEq, Repr

namespace Store

def conditionName : Text := ['?']

def conditionCell : Variable :=
  ⟨conditionName, .boolean, [Variable.systemFlag], some (.bool false), Table.empty⟩

def initial : Store := ⟨Table.empty.insert conditionName conditionCell⟩

def get? (store : Store) (name : Text) : Option Variable := store.cells.get? name

def put (store : Store) (name : Text) (cell : Variable) : Store := ⟨store.cells.insert name cell⟩

@[simp] theorem getPut (store : Store) (name other : Text) (cell : Variable) :
    (store.put name cell).get? other = if name = other then some cell else store.get? other :=
  Table.getInsert store.cells name other cell

def read (store : Store) (name : Text) : Except Fault Value :=
  match store.get? name with
  | none => .error (.unknownVariable name)
  | some cell =>
    match cell.data with
    | none => .error (.unresolvedValue name)
    | some value => .ok value

def cell (store : Store) (name : Text) (type : ValueType) : Variable :=
  (store.get? name).getD (Variable.fresh name type)

/-- Gives a variable a value of its type. A new name is taken even if the value does not fit. -/
def assign (store : Store) (name : Text) (type : ValueType) (flags : List Text) (value : Value) :
    Except Fault Unit × Store :=
  let cell := store.cell name type
  let taken := store.put name cell
  if cell.type ≠ type then (.error (.typeMismatch (.redeclared name cell.type type)), taken)
  else if (cell.hasFlag Variable.constFlag || flags.contains Variable.constFlag) && cell.data.isSome then
    (.error (.constantRedefinition name), taken)
  else match value.coerce cell.type with
    | none => (.error (.typeMismatch (.notStorable value cell.type cell.name)), taken)
    | some stored => (.ok (), store.put name { cell.addFlags flags with data := some stored })

def recordCondition (store : Store) (result : Bool) : Store :=
  match store.get? conditionName with
  | none => store
  | some cell => store.put conditionName { cell with data := some (.bool result) }

def openLoop (store : Store) (name : Text) (lower upper : Int64) (resume : Nat) :
    Except Fault Unit × Store :=
  let cell := store.cell name .integer
  let taken := store.put name cell
  if cell.type ≠ .integer then (.error (.typeMismatch (.counterNotInteger name cell.type)), taken)
  else if cell.hasFlag Variable.constFlag && cell.data.isSome then
    (.error (.constantRedefinition name), taken)
  else
    let opened := cell.addFlags [Variable.loopFlag]
    (.ok (), store.put name ({ opened with data := some (.int lower) }.withLoop ⟨upper, Int64.ofNat resume⟩))

def loopBack (store : Store) (name : Text) : Except Fault (Option Nat) × Store :=
  match store.get? name with
  | none => (.error (.unknownVariable name), store)
  | some cell =>
    if !cell.hasFlag Variable.loopFlag then (.error (.notALoop name), store)
    else match cell.auxiliaryInt Variable.upperKey with
      | .error fault => (.error fault, store)
      | .ok upper =>
        match cell.auxiliaryInt Variable.resumeKey with
        | .error fault => (.error fault, store)
        | .ok resume =>
          match cell.data with
          | some (.int current) =>
            if current < upper then
              let later := { cell with data := some (.int (current + 1)) }
              (.ok (LoopState.resumeLine ⟨upper, resume⟩), store.put name later)
            else (.ok none, store)
          | _ => (.error (.unresolvedValue name), store)

end Store
end Sigil
