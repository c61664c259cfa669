import Sigil.Expansion
import Sigil.Operand
import Sigil.Settings

/-!
A machine executes the lines of an expanded program. Lines are counted from one, and the counter
stands on the line to execute next.
-/
namespace Sigil

inductive Status where
  | running
  | halted
  | failed
  deriving DecidableEq, Repr

structure Machine (ω : Type) where
  lines : Array Text
  counter : Nat
  store : Store
  registry : Registry ω
  settings : Settings
  status : Status
  /-- How many nested calls are open. -/
  depth : Nat
  world : ω

namespace Machine
variable {ω : Type}

def ofLines (lines : List Text) (registry : Registry ω) (settings : Settings) (world : ω) : Machine ω where
  lines := lines.toArray
  counter := 1
  store := Store.initial
  registry := registry
  settings := settings
  status := if lines.isEmpty then .halted else .running
  depth := 0
  world := world

def load (source : Text) (settings : Settings) (loader : Loader ω) (world : ω) :
    Except Report (Machine ω) :=
  match Expansion.expand loader Registry.initial source with
  | (.ok program, registry) => .ok (ofLines program.lines registry settings world)
  | (.error report, _) => .error report

def register (machine : Machine ω) (module name : Text) (function : HostFunction ω) : Machine ω :=
  { machine with registry := machine.registry.register module name function }

def scope (machine : Machine ω) : Scope ω :=
  ⟨machine.store, machine.registry, machine.settings.maxCallDepth⟩

def line? (machine : Machine ω) (number : Nat) : Option Text :=
  match number with
  | 0 => none
  | index + 1 => machine.lines[index]?

def endWithin (lines : Array Text) (label : Text) : Nat → Nat → Option Nat
  | 0, _ => none
  | left + 1, index =>
    match lines[index]? with
    | none => none
    | some line =>
      if Statement.endLabel line = some label then some (index + 1)
      else endWithin lines label left (index + 1)

def endLine? (machine : Machine ω) (label : Text) : Option Nat :=
  endWithin machine.lines label (machine.lines.size - machine.counter) machine.counter

theorem endWithinEq (lines : Array Text) (label : Text) (left index : Nat) (all : lines.size ≤ index + left) :
    endWithin lines label left index =
      ((lines.toList.drop index).findIdx? fun line => Statement.endLabel line = some label).map
        fun offset => index + offset + 1 := by
  induction left generalizing index with
  | zero =>
    have past : lines.toList.drop index = [] := List.drop_eq_nil_of_le (by simpa using all)
    rw [past]; rfl
  | succ left ih =>
    by_cases inside : index < lines.size
    · have here : lines[index]? = some lines[index] := Array.getElem?_eq_getElem inside
      have split : lines.toList.drop index = lines[index] :: lines.toList.drop (index + 1) :=
        List.drop_eq_getElem_cons (by simpa using inside)
      simp only [endWithin, here, split, List.findIdx?_cons]
      by_cases ends : Statement.endLabel lines[index] = some label
      · simp [ends]
      · simp only [ends, if_false, decide_false, Bool.false_eq_true, Option.map_map]
        rw [ih (index + 1) (by omega)]
        congr 1
        funext offset
        simp only [Function.comp_apply]
        omega
    · have past : lines.toList.drop index = [] := List.drop_eq_nil_of_le (by simpa using inside)
      rw [past]
      simp [endWithin, Array.getElem?_eq_none (Nat.le_of_not_lt inside)]

end Machine
end Sigil
