import Sigil.Proofs.Depth
import Sigil.Proofs.Journal
import Sigil.Proofs.Verdict

/-! The limit on nested calls only cuts runs short. Under a wider limit every step is the same until one fails for
the depth of its calls, and in that step the wider limit repeats the calls to the host that were made and may then
go on. -/
namespace Sigil

variable {ω α β : Type} {before : ω → ω → Prop}

structure Registry.Onward (before : ω → ω → Prop) (registry : Registry ω) : Prop where
  refl : ∀ world, before world world
  trans : ∀ {first second third}, before first second → before second third → before first third
  calls : ∀ {module name function}, registry.resolve module name = .ok function →
    ∀ args world, before world (function.call args world).2

namespace Eval

/- The narrow computation is the wide one, except where it is cut short for its depth; there the wide one is further. -/
structure Cuts (before : ω → ω → Prop) (limit : Nat) (narrow wide : Eval (Nested ω) α) : Prop where
  alike : ∀ state, narrow.run state = wide.run state ∨
    (narrow.run state).1 = .error (.callDepthExceeded limit) ∧
      before (narrow.run state).2.world (wide.run state).2.world
  onward : ∀ state, before state.world (wide.run state).2.world

variable {limit : Nat} {registry : Registry ω}

theorem cutsOfExcept (order : registry.Onward before) (result : Except Fault α) :
    Cuts before limit (ofExcept result) (ofExcept result) :=
  ⟨fun _ => .inl rfl, fun _ => order.refl _⟩

theorem cutsBind (order : registry.Onward before) {first first' : Eval (Nested ω) α}
    {next next' : α → Eval (Nested ω) β} (head : Cuts before limit first first')
    (tail : ∀ a, Cuts before limit (next a) (next' a)) :
    Cuts before limit (first >>= next) (first' >>= next') := by
  have further state : before (first'.run state).2.world ((first' >>= next').run state).2.world := by
    rw [runBind]
    cases first'.run state with
    | mk result middle =>
      cases result with
      | error fault => exact order.refl _
      | ok a => exact (tail a).onward middle
  refine ⟨fun state => ?_, fun state => order.trans (head.onward state) (further state)⟩
  rcases head.alike state with same | ⟨failed, ahead⟩
  · rw [runBind, runBind, same]
    cases first'.run state with
    | mk result middle =>
      cases result with
      | error fault => exact .inl rfl
      | ok a => exact (tail a).alike middle
  · right
    have beyond := order.trans ahead (further state)
    rw [runBind first]
    cases ran : first.run state with
    | mk result middle =>
      rw [ran] at failed beyond
      cases failed
      exact ⟨rfl, beyond⟩

theorem cutsDeeper {narrow wide : Eval (Nested ω) α} (inner : Cuts before limit narrow wide) :
    Cuts before limit (Nested.deeper narrow) (Nested.deeper wide) := by
  refine ⟨fun state => ?_, fun state => inner.onward { state with depth := state.depth + 1 }⟩
  rcases inner.alike { state with depth := state.depth + 1 } with same | cut
  · left
    simp only [run, Nested.deeper] at same ⊢
    rw [same]
  · exact .inr cut

end Eval

namespace Scope

def limited (scope : Scope ω) (limit : Nat) : Scope ω := { scope with limit }

variable {scope : Scope ω} {wider : Nat}

theorem cutsCheck (order : scope.registry.Onward before) (room : scope.limit ≤ wider) :
    scope.checkDepth.Cuts before scope.limit (scope.limited wider).checkDepth := by
  have kept state : ((scope.limited wider).checkDepth.run state).2 = state := by
    simp only [Eval.run, checkDepth]
    split <;> rfl
  refine ⟨fun state => ?_, fun state => ?_⟩
  · by_cases full : scope.limit ≤ state.depth
    · right
      rw [kept]
      simp only [Eval.run, checkDepth, full, if_true, true_and]
      exact order.refl _
    · left
      have free : ¬wider ≤ state.depth := by omega
      simp only [Eval.run, checkDepth, limited, full, free, if_false]
  · rw [kept]
    exact order.refl _

theorem cutsInvoke (order : scope.registry.Onward before) (call : Call)
    {arguments arguments' : Eval (Nested ω) (List Value)} (inner : arguments.Cuts before scope.limit arguments') :
    (scope.invoke call arguments).Cuts before scope.limit ((scope.limited wider).invoke call arguments') := by
  unfold invoke
  change (Eval.ofExcept (scope.registry.resolve call.module call.name) >>= _).Cuts before scope.limit
    (Eval.ofExcept (scope.registry.resolve call.module call.name) >>= _)
  cases resolved : scope.registry.resolve call.module call.name with
  | error fault => exact Eval.cutsOfExcept order (.error fault)
  | ok function =>
    change (Eval.ofExcept (function.arity.check call.module call.name call.args.length) >>= _).Cuts before scope.limit
      (Eval.ofExcept (function.arity.check call.module call.name call.args.length) >>= _)
    refine Eval.cutsBind order (Eval.cutsOfExcept order _) fun _ => Eval.cutsBind order inner fun args => ?_
    refine ⟨fun _ => .inl rfl, fun state => ?_⟩
    have moved := order.calls resolved args state.world
    simp only [Eval.run]
    split <;> rename_i called <;> rwa [called] at moved

theorem limitedRelates (order : scope.registry.Onward before) (room : scope.limit ≤ wider) :
    Scope.Relates (Eval.Cuts before scope.limit) scope (scope.limited wider) where
  returns a := Eval.cutsOfExcept order (.ok a)
  fails fault := Eval.cutsOfExcept order (.error fault)
  binds head tail := Eval.cutsBind order head tail
  deepens inner := Eval.cutsDeeper inner
  checks := cutsCheck order room
  invokes call _ _ inner := cutsInvoke order call inner
  reads := rfl

end Scope

namespace Machine
variable {machine : Machine ω} {wider : Settings}

def limited (machine : Machine ω) (settings : Settings) : Machine ω := { machine with settings }

theorem concludedWorld (machine : Machine ω) (statement : Statement) (computation : Eval (Nested ω) statement.Finding) :
    (machine.evaluateThen computation fun after => after.conclude statement).2.world =
      (computation.run ⟨machine.depth, machine.world⟩).2.world := by
  simp only [evaluateThen, evaluate]
  cases computation.run ⟨machine.depth, machine.world⟩ with
  | mk result after => cases result <;> rfl

theorem executeCut (order : machine.registry.Onward before) (room : machine.settings.maxCallDepth ≤ wider.maxCallDepth)
    (line : Text) :
    (machine.limited wider).execute line = ((machine.execute line).1, (machine.execute line).2.limited wider) ∨
      (∃ limit, (machine.execute line).1 = .error (.callDepthExceeded limit)) ∧
        before (machine.execute line).2.world ((machine.limited wider).execute line).2.world := by
  simp only [executeEq]
  cases Statement.parse line with
  | error cause => exact .inl rfl
  | ok statement =>
    have ordered : machine.scope.registry.Onward before := order
    have cuts := (Scope.limitedRelates ordered room).findings statement
    cases ran : (machine.scope.findings statement).run ⟨machine.depth, machine.world⟩ with
    | mk result after =>
      rcases cuts.alike ⟨machine.depth, machine.world⟩ with same | ⟨failed, ahead⟩
      · left
        have went : ((machine.limited wider).scope.findings statement).run
            ⟨(machine.limited wider).depth, (machine.limited wider).world⟩ = (result, after) := same.symm.trans ran
        simp only [evaluateThen, evaluate, ran, went]
        cases result <;> rfl
      · right
        rw [ran] at failed ahead
        cases failed
        refine ⟨⟨machine.scope.limit, by simp only [evaluateThen, evaluate, ran]⟩, ?_⟩
        rw [concludedWorld, concludedWorld, ran]
        exact ahead

theorem stepCut (order : machine.registry.Onward before) (room : machine.settings.maxCallDepth ≤ wider.maxCallDepth) :
    (machine.limited wider).step = (machine.step.1, machine.step.2.limited wider) ∨
      machine.Overruns ∧ before machine.step.2.world (machine.limited wider).step.2.world := by
  by_cases running : machine.status = .running
  · have active : (machine.limited wider).status = .running := running
    cases here : machine.line? machine.counter with
    | none =>
      have there : (machine.limited wider).line? (machine.limited wider).counter = none := here
      simp only [step, running, here, active, there]
      exact .inl rfl
    | some line =>
      have there : (machine.limited wider).line? (machine.limited wider).counter = some line := here
      rcases executeCut order room line with same | ⟨failed, ahead⟩
      · left
        cases ran : machine.execute line with
        | mk result after =>
          rw [ran] at same
          cases result with
          | ok => rw [stepOk running here ran, stepOk active there same]; rfl
          | error fault => rw [stepError running here ran, stepError active there same]; rfl
      · right
        obtain ⟨_, _, after⟩ := stepAfter running here
        obtain ⟨_, _, afterWide⟩ := stepAfter active there
        rw [after, afterWide]
        exact ⟨(overrunsExecuting running here).mpr failed, ahead⟩
  · left
    have ended : (machine.limited wider).status ≠ .running := running
    rw [stepEnded running, stepEnded ended]
    rfl

theorem stepAlike (room : machine.settings.maxCallDepth ≤ wider.maxCallDepth) (within : ¬machine.Overruns) :
    (machine.limited wider).step = (machine.step.1, machine.step.2.limited wider) := by
  have free : machine.registry.Onward fun _ _ => True := ⟨fun _ => trivial, fun _ _ => trivial, fun _ _ _ => trivial⟩
  rcases stepCut free room with same | ⟨overruns, _⟩
  · exact same
  · exact absurd overruns within

theorem journaledOnward (registry : Registry ω) :
    registry.journaled.Onward fun earlier later => earlier.calls <+: later.calls where
  refl journal := List.prefix_rfl
  trans := List.IsPrefix.trans
  calls {module name function} resolved args journal := by
    rw [Registry.resolveJournaled] at resolved
    obtain ⟨plain, _, rfl⟩ := mapOk resolved
    exact List.prefix_append _ _

theorem callsCut (room : machine.settings.maxCallDepth ≤ wider.maxCallDepth) :
    machine.calls <+: (machine.limited wider).calls ∧
      (¬machine.Overruns → (machine.limited wider).calls = machine.calls) := by
  have same : (machine.noting []).Overruns ↔ machine.Overruns := by
    unfold Overruns
    rw [noted]
  have order : (machine.noting []).registry.Onward fun earlier later => earlier.calls <+: later.calls :=
    journaledOnward machine.registry
  have space : (machine.noting []).settings.maxCallDepth ≤ wider.maxCallDepth := room
  rcases stepCut order space with alike | ⟨overruns, ahead⟩
  · have equal : (machine.limited wider).calls = machine.calls :=
      congrArg (fun stepped => stepped.2.world.calls) alike
    exact ⟨equal ▸ List.prefix_rfl, fun _ => equal⟩
  · exact ⟨ahead, fun within => absurd (same.mp overruns) within⟩

theorem actAllKeeps (machine : Machine ω) (actions : List (Action ω)) : (machine.actAll actions).lines = machine.lines ∧
    (machine.actAll actions).settings = machine.settings ∧ (machine.actAll actions).depth = machine.depth := by
  induction actions generalizing machine with
  | nil => exact ⟨rfl, rfl, rfl⟩
  | cons action actions ih =>
    obtain ⟨lines, settings, depth⟩ := ih (machine.act action)
    cases action with
    | step =>
      obtain ⟨sameLines, sameSettings, sameDepth⟩ := stepKeeps machine
      exact ⟨lines.trans sameLines, settings.trans sameSettings, depth.trans sameDepth⟩
    | register module name function => exact ⟨lines, settings, depth⟩

theorem actAllAlike (room : machine.settings.maxCallDepth ≤ wider.maxCallDepth) (actions : List (Action ω))
    (within : ∀ earlier later, actions = earlier ++ .step :: later → ¬(machine.actAll earlier).Overruns) :
    (machine.limited wider).actAll actions = (machine.actAll actions).limited wider := by
  induction actions generalizing machine with
  | nil => rfl
  | cons action actions ih =>
    have alike : (machine.limited wider).act action = (machine.act action).limited wider := by
      cases action with
      | step => exact congrArg Prod.snd (stepAlike room (within [] actions rfl))
      | register module name function => rfl
    have same : (machine.act action).settings = machine.settings := (actAllKeeps machine [action]).2.1
    change ((machine.limited wider).act action).actAll actions = _
    rw [alike]
    refine ih (same ▸ room) fun earlier later split => ?_
    exact within (action :: earlier) later (by rw [split]; rfl)

theorem loadLimited (source : Text) (narrow wider : Settings) (loader : Loader ω) (world : ω) :
    load source wider loader world = (load source narrow loader world).map (·.limited wider) := by
  unfold load
  split <;> rfl

theorem loadSettings {source : Text} {settings : Settings} {loader : Loader ω} {world : ω}
    (accepted : load source settings loader world = .ok machine) : machine.settings = settings := by
  unfold load at accepted
  split at accepted
  · cases accepted
    rfl
  · simp at accepted

theorem depthLimitCuts (source : Text) (loader : Loader ω) (world : ω) {narrow wider : Settings}
    (room : narrow.maxCallDepth ≤ wider.maxCallDepth) :
    load source wider loader world = (load source narrow loader world).map (·.limited wider) ∧
    (∀ (scope : Scope ω) token state, ((scope.value token).run state).2.depth = state.depth) ∧
    ∀ machine, load source narrow loader world = .ok machine →
      (∀ actions, (machine.actAll actions).Overruns ↔ (machine.actAll actions).Overreaches narrow.maxCallDepth) ∧
      ((∀ line ∈ machine.lines, line.count '!' ≤ narrow.maxCallDepth) → ∀ actions, ¬(machine.actAll actions).Overruns) ∧
      ∀ actions, (∀ earlier later, actions = earlier ++ .step :: later → ¬(machine.actAll earlier).Overruns) →
        (machine.limited wider).actAll actions = (machine.actAll actions).limited wider ∧
        (machine.actAll actions).calls <+: ((machine.actAll actions).limited wider).calls ∧
        (¬(machine.actAll actions).Overruns →
          ((machine.actAll actions).limited wider).step =
            ((machine.actAll actions).step.1, (machine.actAll actions).step.2.limited wider) ∧
          ((machine.actAll actions).limited wider).calls = (machine.actAll actions).calls) := by
  refine ⟨loadLimited source narrow wider loader world, fun scope token => (scope.tameValue token).depth, ?_⟩
  intro machine accepted
  have settings := loadSettings accepted
  have reaches actions :
      (machine.actAll actions).Overruns ↔ (machine.actAll actions).Overreaches narrow.maxCallDepth := by
    obtain ⟨_, same, depth⟩ := actAllKeeps machine actions
    rw [overrunsIff (depth.trans (loadSound accepted).depth), same, settings]
  refine ⟨reaches, fun few actions overruns => ?_, fun actions within => ?_⟩
  · obtain ⟨line, member, many⟩ := ((reaches actions).mp overruns).marks
    rw [(actAllKeeps machine actions).1] at member
    exact absurd many (Nat.not_lt.mpr (few line member))
  · have space : (machine.actAll actions).settings.maxCallDepth ≤ wider.maxCallDepth := by
      rw [(actAllKeeps machine actions).2.1, settings]
      exact room
    obtain ⟨made, equal⟩ := callsCut space
    refine ⟨actAllAlike (settings ▸ room) actions within, made, fun inside => ⟨stepAlike space inside, equal inside⟩⟩

def echoing (name : Text) : Action Unit :=
  .register Call.defaultModule name ⟨.variadic 1, fun args world => (.ok (args.headD (.bool false)), world)⟩

def pairing : List Text := ["!echo: (3)".toList, "!pair: (!echo: (7)), (!echo: (!echo: (1)))".toList]

theorem depthLimitCutsNested : ∃ machine : Machine Unit,
    load (Text.joinLines pairing) (.withDepth 1) Catalog.empty.load () = .ok machine ∧
    (∀ actions, ¬((machine.limited (.withDepth 4)).actAll actions).Overruns) ∧ ∃ narrow,
    machine.actAll [echoing "echo".toList, echoing "pair".toList, .step] = narrow ∧
    (machine.limited (.withDepth 2)).actAll [echoing "echo".toList, echoing "pair".toList, .step] =
      narrow.limited (.withDepth 2) ∧
    narrow.Overruns ∧ narrow.Overreaches 1 ∧ narrow.calls <+: (narrow.limited (.withDepth 2)).calls ∧
    narrow.calls = [⟨"program".toList, "echo".toList, [.int 7]⟩] ∧
    (narrow.limited (.withDepth 2)).calls = [⟨"program".toList, "echo".toList, [.int 7]⟩,
      ⟨"program".toList, "echo".toList, [.int 1]⟩, ⟨"program".toList, "echo".toList, [.int 1]⟩,
      ⟨"program".toList, "pair".toList, [.int 7, .int 1]⟩] := by
  have accepted (settings : Settings) : load (Text.joinLines pairing) settings Catalog.empty.load () =
      .ok (ofLines pairing Registry.initial settings ()) := rfl
  have room : (Settings.withDepth 1).maxCallDepth ≤ (Settings.withDepth 2).maxCallDepth := by decide
  obtain ⟨reaches, _, alike⟩ := (depthLimitCuts (Text.joinLines pairing) Catalog.empty.load () room).2.2 _ (accepted _)
  have roomy := ((depthLimitCuts (Text.joinLines pairing) Catalog.empty.load () (Nat.le_refl _)).2.2 _
    (accepted (.withDepth 4))).2.1 (by decide +kernel)
  have overruns : ((ofLines pairing Registry.initial (.withDepth 1) ()).actAll
      [echoing "echo".toList, echoing "pair".toList, .step]).Overruns :=
    ⟨⟨.callDepthExceeded 1, 2, "!pair: (!echo: (7)), (!echo: (!echo: (1)))".toList, .executing⟩, by decide +kernel, rfl⟩
  have smooth : ((ofLines pairing Registry.initial (.withDepth 1) ()).actAll
      [echoing "echo".toList, echoing "pair".toList]).step.1 = .ok .running := by
    decide +kernel
  obtain ⟨same, ahead, _⟩ := alike [echoing "echo".toList, echoing "pair".toList, .step] (by
    intro earlier later split
    match earlier with
    | [] => simp [echoing] at split
    | [_] => simp [echoing] at split
    | [_, _] =>
      cases split
      rintro ⟨report, failed, _⟩
      exact nomatch smooth.symm.trans failed
    | _ :: _ :: _ :: _ => simp at split)
  exact ⟨_, accepted _, roomy, _, rfl, same, overruns, (reaches _).mp overruns, ahead, by decide +kernel,
    by decide +kernel⟩

end Machine
end Sigil
