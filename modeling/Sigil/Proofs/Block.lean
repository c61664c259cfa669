import Sigil.Condition
import Sigil.Machine.Step
import Sigil.Proofs.Statement
import Sigil.Registry.Journal

/-! Structured programs. A block is a sequence of simple lines, counted loops and conditionals, with blocks
inside. Its lines are what the machine is given; its own run follows the structure and knows no jumps. -/
namespace Sigil

inductive Block where
  | finish
  | line (text : Text) (next : Block)
  | loop (opening name lower upper : Text) (body : Block) (closing : Text) (next : Block)
  | conditional (opening label condition : Text) (body : Block) (closing : Text) (next : Block)
  deriving DecidableEq, Repr

def Statement.isSimple : Statement → Bool
  | .call _ | .assign _ | .nothing => true
  | _ => false

namespace Block

def lines : Block → List Text
  | .finish => []
  | .line text next => text :: next.lines
  | .loop opening _ _ _ body closing next => opening :: (body.lines ++ closing :: next.lines)
  | .conditional opening _ _ body closing next => opening :: (body.lines ++ closing :: next.lines)

/- The lines say what the structure says, no line inside a loop opens or closes the same counter, and no line
inside a conditional ends the same label. A line that cannot be read counts as simple. -/
def WellFormed : Block → Prop
  | .finish => True
  | .line text next => (Statement.parse text).toOption.all Statement.isSimple = true ∧ next.WellFormed
  | .loop opening name lower upper body closing next =>
    Statement.parse opening = .ok (.openLoop name lower upper) ∧ Statement.parse closing = .ok (.loopBack name) ∧
      (∀ line ∈ body.lines, (Statement.parse line).toOption.bind Statement.loop? ≠ some name) ∧
      body.WellFormed ∧ next.WellFormed
  | .conditional opening label condition body closing next =>
    Statement.parse opening = .ok (.conditional label condition) ∧ Statement.endLabel closing = some label ∧
      (∀ line ∈ body.lines, Statement.endLabel line ≠ some label) ∧ body.WellFormed ∧ next.WellFormed

instance decidableWellFormed : (block : Block) → Decidable block.WellFormed
  | .finish => .isTrue trivial
  | .line _ next =>
    have := decidableWellFormed next
    inferInstanceAs (Decidable (_ ∧ _))
  | .loop _ _ _ _ body _ next =>
    have := decidableWellFormed body
    have := decidableWellFormed next
    inferInstanceAs (Decidable (_ ∧ _))
  | .conditional _ _ _ body _ next =>
    have := decidableWellFormed body
    have := decidableWellFormed next
    inferInstanceAs (Decidable (_ ∧ _))

end Block

structure Memory (ω : Type) where
  store : Store
  world : ω

inductive Outcome (ω : Type) where
  | done (memory : Memory ω)
  | failed (fault : Fault) (line : Nat) (memory : Memory ω)

def Outcome.done? {ω : Type} : Outcome ω → Option (Memory ω)
  | .done memory => some memory
  | .failed _ _ _ => none

/- Goes on where a run is done. No outcome stands for a run that has not ended yet. -/
def Outcome.andThen {ω : Type} (outcome : Option (Outcome ω)) (next : Memory ω → Option (Outcome ω)) :
    Option (Outcome ω) :=
  match outcome with
  | some (.done memory) => next memory
  | other => other

def Nested.outermost {ω α : Type} (computation : Eval (Nested ω) α) : Eval ω α := fun world =>
  let (result, after) := computation.run ⟨0, world⟩
  (result, after.world)

structure Host (ω : Type) where
  registry : Registry ω
  limit : Nat

namespace Host
variable {ω : Type} (host : Host ω)

def scope (memory : Memory ω) : Scope ω := ⟨memory.store, host.registry, host.limit⟩

def call (memory : Memory ω) (call : Call) : Except Fault Unit × Memory ω :=
  match (Nested.outermost ((host.scope memory).call call)).run memory.world with
  | (.ok _, world) => (.ok (), { memory with world })
  | (.error fault, world) => (.error fault, { memory with world })

def assign (memory : Memory ω) (assignment : Assignment) : Except Fault Unit × Memory ω :=
  match (Nested.outermost ((host.scope memory).value assignment.value)).run memory.world with
  | (.error fault, world) => (.error fault, { memory with world })
  | (.ok value, world) =>
    let (result, store) := memory.store.assign assignment.name assignment.type assignment.flags value
    (result, ⟨store, world⟩)

def perform (memory : Memory ω) (text : Text) : Except Fault Unit × Memory ω :=
  match Statement.parse text with
  | .error cause => (.error (.malformed cause), memory)
  | .ok (.call call) => host.call memory call
  | .ok (.assign assignment) => host.assign memory assignment
  | .ok _ => (.ok (), memory)

def openCounter (memory : Memory ω) (name lower upper : Text) : Except Fault Int64 × Memory ω :=
  match (Nested.outermost (Machine.bounds (host.scope memory) lower upper)).run memory.world with
  | (.error fault, world) => (.error fault, { memory with world })
  | (.ok (low, high), world) =>
    let (result, store) := memory.store.openLoop name low high 0
    (result.map fun _ => high, ⟨store, world⟩)

def test (memory : Memory ω) (condition : Text) : Except Fault Bool × Memory ω :=
  match (Nested.outermost (Condition.evaluate (host.scope memory).value condition)).run memory.world with
  | (.error fault, world) => (.error fault, { memory with world })
  | (.ok result, world) => (.ok result, ⟨memory.store.recordCondition result, world⟩)

end Host

namespace Store

def count? (store : Store) (name : Text) : Option Int64 :=
  match store.read name with
  | .ok (.int current) => some current
  | _ => none

def withCount (store : Store) (name : Text) (count : Int64) : Store :=
  match store.get? name with
  | some cell => store.put name { cell with data := some (.int count) }
  | none => store

end Store

namespace Block
variable {ω : Type}

def repeated (body : Memory ω → Option (Outcome ω)) (name : Text) (upper : Int64) :
    Nat → Memory ω → Option (Outcome ω)
  | 0, _ => none
  | laps + 1, memory =>
    Outcome.andThen (body memory) fun after =>
      match after.store.count? name with
      | some current =>
        if current < upper then
          repeated body name upper laps { after with store := after.store.withCount name (current + 1) }
        else some (.done after)
      | none => some (.done after)

/- The run of a block whose first line has the given number. Each loop is given so many laps; if they do not
suffice there is no outcome. -/
def run (host : Host ω) (laps : Nat) : Block → Nat → Memory ω → Option (Outcome ω)
  | .finish, _, memory => some (.done memory)
  | .line text next, number, memory =>
    match host.perform memory text with
    | (.error fault, after) => some (.failed fault number after)
    | (.ok (), after) => next.run host laps (number + 1) after
  | .loop _ name lower upper body _ next, number, memory =>
    match host.openCounter memory name lower upper with
    | (.error fault, after) => some (.failed fault number after)
    | (.ok high, after) =>
      Outcome.andThen (repeated (body.run host laps (number + 1)) name high laps after)
        (next.run host laps (number + body.lines.length + 2))
  | .conditional _ _ condition body _ next, number, memory =>
    match host.test memory condition with
    | (.error fault, after) => some (.failed fault number after)
    | (.ok true, after) =>
      Outcome.andThen (body.run host laps (number + 1) after)
        (next.run host laps (number + body.lines.length + 2))
    | (.ok false, after) => next.run host laps (number + body.lines.length + 2) after

def Executes (block : Block) (host : Host ω) (world : ω) (outcome : Outcome ω) : Prop :=
  ∃ laps, block.run host laps 1 ⟨Store.initial, world⟩ = some outcome

end Block
end Sigil
