import Sigil.Fault

/-!
Computations on a world that may end in a fault. What was done to the world before the fault stays.
-/
namespace Sigil

def Eval (ω α : Type) := ω → Except Fault α × ω

namespace Eval
variable {ω α β : Type}

def run (computation : Eval ω α) (world : ω) : Except Fault α × ω := computation world

def fail (fault : Fault) : Eval ω α := fun world => (.error fault, world)

def andThen (first : Eval ω α) (next : α → Eval ω β) : Eval ω β := fun world =>
  match first.run world with
  | (.ok a, after) => (next a).run after
  | (.error fault, after) => (.error fault, after)

instance : Monad (Eval ω) where
  pure a := fun world => (.ok a, world)
  bind := andThen

def ofExcept (result : Except Fault α) : Eval ω α := fun world => (result, world)

def ofReading (result : Except SyntaxFault α) : Eval ω α := ofExcept (result.mapError .malformed)

@[simp] theorem runPure (a : α) (world : ω) : (pure a : Eval ω α).run world = (.ok a, world) := rfl

@[simp] theorem runFail (fault : Fault) (world : ω) :
    (fail fault : Eval ω α).run world = (.error fault, world) := rfl

@[simp] theorem runOfExcept (result : Except Fault α) (world : ω) :
    (ofExcept result).run world = (result, world) := rfl

theorem runBind (first : Eval ω α) (next : α → Eval ω β) (world : ω) :
    (first >>= next).run world =
      match first.run world with
      | (.ok a, after) => (next a).run after
      | (.error fault, after) => (.error fault, after) := rfl

instance : LawfulMonad (Eval ω) := LawfulMonad.mk' (Eval ω)
  (fun x => funext fun world => by
    change Eval.run (x >>= fun a => pure a) world = x.run world
    rw [runBind]
    cases x.run world with
    | mk result after => cases result <;> rfl)
  (fun _ _ => rfl)
  (fun x f g => funext fun world => by
    change Eval.run ((x >>= f) >>= g) world = Eval.run (x >>= fun a => f a >>= g) world
    simp only [runBind]
    cases x.run world with
    | mk result after => cases result <;> rfl)

end Eval
end Sigil
