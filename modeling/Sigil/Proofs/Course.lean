import Sigil.Proofs.Journal

/-! The course of an evaluation. A function is looked up and its arguments are counted before any of them is
evaluated; they are then evaluated from the left, each once, up to the first that fails, and the function is called
with their values if none has failed. So the host is called in the order in which the calls of the text are closed,
and a fault only cuts that order short. -/
namespace Sigil

variable {ω α β : Type}

namespace Eval
variable {σ τ ε : Type} {note : σ → List ε → τ}

/- From a state a computation comes to a result and a state, and where a log is kept it enters these items there. -/
structure Course (note : σ → List ε → τ) (plain : Eval σ α) (logged : Eval τ α) (state : σ)
    (result : Except Fault α) (made : List ε) (after : σ) : Prop where
  ran : plain.run state = (result, after)
  entered : ∀ earlier, logged.run (note state earlier) = (result, note after (earlier ++ made))

theorem courseQuiet (result : Except Fault α) (state : σ) :
    Course note (ofExcept result) (ofExcept result) state result [] state :=
  ⟨rfl, fun earlier => by rw [List.append_nil]; rfl⟩

variable {first : Eval σ α} {first' : Eval τ α} {next : α → Eval σ β} {next' : α → Eval τ β}
  {state middle after : σ} {made more : List ε}

theorem Course.stops {fault : Fault} (course : Course note first first' state (.error fault) made after) :
    Course note (first >>= next) (first' >>= next') state (.error fault) made after where
  ran := by rw [runBind, course.ran]
  entered earlier := by rw [runBind, course.entered]

theorem Course.andThen {a : α} {result : Except Fault β}
    (head : Course note first first' state (.ok a) made middle)
    (tail : Course note (next a) (next' a) middle result more after) :
    Course note (first >>= next) (first' >>= next') state result (made ++ more) after where
  ran := by
    rw [runBind, head.ran]
    exact tail.ran
  entered earlier := by
    rw [runBind, head.entered, ← List.append_assoc]
    exact tail.entered (earlier ++ made)

theorem Course.map {result : Except Fault α} (course : Course note first first' state result made after) (f : α → β) :
    Course note (first >>= fun a => pure (f a)) (first' >>= fun a => pure (f a)) state (result.map f) made after := by
  cases result with
  | error fault => exact course.stops
  | ok a =>
    have last : Course note (pure (f a) : Eval σ β) (pure (f a)) after (.ok (f a)) [] after :=
      courseQuiet (.ok (f a)) after
    rw [← List.append_nil made]
    exact course.andThen last

theorem Course.deeper {inner : Eval (Nested ω) α} {inner' : Eval (Nested (Journal ω)) α} {state : Nested ω}
    {result : Except Fault α} {made : List HostCall} {world : ω}
    (course : Course Nested.noting inner inner' ⟨state.depth + 1, state.world⟩ result made ⟨state.depth + 1, world⟩) :
    Course Nested.noting (Nested.deeper inner) (Nested.deeper inner') state result made ⟨state.depth, world⟩ where
  ran := by
    have ran := course.ran
    simp only [run, Nested.deeper] at ran ⊢
    rw [ran]
    rfl
  entered earlier := by
    have entered := course.entered earlier
    simp only [run, Nested.deeper, Nested.noting] at entered ⊢
    rw [entered]
    rfl

end Eval

namespace Scope

mutual

/- What a token comes to inside the calls that are open: a value or a fault, the calls made to the host on the way,
oldest first, and the world that they leave. -/
inductive Yields (scope : Scope ω) : Nested ω → Text → Except Fault Value → List HostCall → ω → Prop where
  | unreadable {state token fault} (read : Operand.ofToken token = .error fault) :
      Yields scope state token (.error fault) [] state.world
  | literal {state token value} (read : Operand.ofToken token = .ok (.literal value)) :
      Yields scope state token (.ok value) [] state.world
  | stored {state token name} (read : Operand.ofToken token = .ok (.stored name)) :
      Yields scope state token (scope.store.read name) [] state.world
  | tooDeep {state token text} (read : Operand.ofToken token = .ok (.nested text))
      (full : scope.limit ≤ state.depth) :
      Yields scope state token (.error (.callDepthExceeded scope.limit)) [] state.world
  | malformed {state token text cause} (read : Operand.ofToken token = .ok (.nested text))
      (room : state.depth < scope.limit) (parsed : Statement.parseCall text = .error cause) :
      Yields scope state token (.error (.malformed cause)) [] state.world
  | nested {state token text call result made world} (read : Operand.ofToken token = .ok (.nested text))
      (room : state.depth < scope.limit) (parsed : Statement.parseCall text = .ok call)
      (inner : Dispatches scope ⟨state.depth + 1, state.world⟩ call result made world) :
      Yields scope state token result made world

inductive Dispatches (scope : Scope ω) : Nested ω → Call → Except Fault Value → List HostCall → ω → Prop where
  | unresolved {state call fault} (failed : scope.registry.resolve call.module call.name = .error fault) :
      Dispatches scope state call (.error fault) [] state.world
  | miscounted {state call function fault} (resolved : scope.registry.resolve call.module call.name = .ok function)
      (refused : function.arity.Refuses call.module call.name call.args.length fault) :
      Dispatches scope state call (.error fault) [] state.world
  | stopped {state call function fault made world}
      (resolved : scope.registry.resolve call.module call.name = .ok function)
      (counted : function.arity.Admits call.args.length)
      (arguments : Converts scope state call.args (.error fault) made world) :
      Dispatches scope state call (.error fault) made world
  | called {state call function values made middle answer world}
      (resolved : scope.registry.resolve call.module call.name = .ok function)
      (counted : function.arity.Admits call.args.length)
      (arguments : Converts scope state call.args (.ok values) made middle)
      (answered : function.call values middle = (answer, world)) :
      Dispatches scope state call (answer.mapError (.hostFailure call.module call.name))
        (made ++ [⟨call.module, call.name, values⟩]) world

inductive Converts (scope : Scope ω) : Nested ω → List Text → Except Fault (List Value) → List HostCall → ω → Prop where
  | finished {state} : Converts scope state [] (.ok []) [] state.world
  | stopped {state token rest fault made world} (failed : Yields scope state token (.error fault) made world) :
      Converts scope state (token :: rest) (.error fault) made world
  | onward {state token value made middle rest result more world}
      (first : Yields scope state token (.ok value) made middle)
      (later : Converts scope ⟨state.depth, middle⟩ rest result more world) :
      Converts scope state (token :: rest) (result.map (value :: ·)) (made ++ more) world

end

variable {scope : Scope ω}

theorem courseCheck {state : Nested ω} (room : state.depth < scope.limit) :
    Eval.Course Nested.noting scope.checkDepth scope.journaled.checkDepth state (.ok ()) [] state := by
  have free : ¬scope.limit ≤ state.depth := by omega
  constructor
  · simp [Eval.run, checkDepth, free]
  · intro earlier
    simp [Eval.run, checkDepth, journaled, Nested.noting, free]

theorem courseFull {state : Nested ω} (full : scope.limit ≤ state.depth) :
    Eval.Course Nested.noting scope.checkDepth scope.journaled.checkDepth state
      (.error (.callDepthExceeded scope.limit)) [] state := by
  constructor
  · simp [Eval.run, checkDepth, full]
  · intro earlier
    simp [Eval.run, checkDepth, journaled, Nested.noting, full]

def answering (function : HostFunction ω) (call : Call) (values : List Value) : Eval (Nested ω) Value := fun state =>
  match function.call values state.world with
  | (.ok value, world) => (.ok value, { state with world })
  | (.error message, world) => (.error (.hostFailure call.module call.name message), { state with world })

theorem invokeUnresolved {call : Call} {fault : Fault} (arguments : Eval (Nested ω) (List Value))
    (failed : scope.registry.resolve call.module call.name = .error fault) :
    scope.invoke call arguments = .fail fault := by
  rw [invoke, failed]
  rfl

theorem invokeResolved {call : Call} {function : HostFunction ω} (arguments : Eval (Nested ω) (List Value))
    (resolved : scope.registry.resolve call.module call.name = .ok function) :
    scope.invoke call arguments = Eval.ofExcept (function.arity.check call.module call.name call.args.length) >>=
      fun _ => arguments >>= answering function call := by
  rw [invoke, resolved]
  rfl

theorem invokeMiscounted {call : Call} {function : HostFunction ω} {fault : Fault}
    (arguments : Eval (Nested ω) (List Value)) (resolved : scope.registry.resolve call.module call.name = .ok function)
    (refused : function.arity.Refuses call.module call.name call.args.length fault) :
    scope.invoke call arguments = .fail fault := by
  rw [invokeResolved arguments resolved, Arity.checkFails.mpr refused]
  rfl

theorem invokeReady {call : Call} {function : HostFunction ω} (arguments : Eval (Nested ω) (List Value))
    (resolved : scope.registry.resolve call.module call.name = .ok function)
    (counted : function.arity.Admits call.args.length) :
    scope.invoke call arguments = arguments >>= answering function call := by
  rw [invokeResolved arguments resolved, Arity.checkPasses.mpr counted]
  rfl

theorem resolvedJournaled {call : Call} {function : HostFunction ω}
    (resolved : scope.registry.resolve call.module call.name = .ok function) :
    scope.journaled.registry.resolve call.module call.name = .ok (function.recorded call.module call.name) := by
  rw [journaled, Registry.resolveJournaled, resolved]
  rfl

theorem courseAnswer {call : Call} {function : HostFunction ω} {values : List Value} {answer : Except Text Value}
    {depth : Nat} {middle world : ω} (answered : function.call values middle = (answer, world)) :
    Eval.Course Nested.noting (answering function call values)
      (answering (function.recorded call.module call.name) call values) ⟨depth, middle⟩
      (answer.mapError (.hostFailure call.module call.name)) [⟨call.module, call.name, values⟩] ⟨depth, world⟩ where
  ran := by
    simp only [Eval.run, answering, answered]
    cases answer <;> rfl
  entered earlier := by
    simp only [Eval.run, answering, Nested.noting, HostFunction.recordedCall, answered]
    cases answer <;> rfl

def Follows (scope : Scope ω) (token : Text) : Prop :=
  ∀ ⦃state result made world⦄, scope.Yields state token result made world →
    Eval.Course Nested.noting (scope.value token) (scope.journaled.value token) state result made ⟨state.depth, world⟩

variable {state : Nested ω} {made : List HostCall} {world : ω}

theorem Converts.courseOf {tokens : List Text} {result : Except Fault (List Value)}
    (each : ∀ token ∈ tokens, scope.Follows token)
    (converts : scope.Converts state tokens result made world) :
    Eval.Course Nested.noting (tokens.mapM scope.value) (tokens.mapM scope.journaled.value) state result made
      ⟨state.depth, world⟩ := by
  induction tokens generalizing state result made with
  | nil =>
    cases converts
    exact Eval.courseQuiet (.ok []) state
  | cons token rest ih =>
    have first := each token List.mem_cons_self
    rw [List.mapM_cons, List.mapM_cons]
    cases converts with
    | stopped failed => exact (first failed).stops
    | onward head later =>
      have tail := ih (fun other member => each other (List.mem_cons_of_mem token member)) later
      exact (first head).andThen (tail.map _)

theorem Dispatches.courseOf {call : Call} {result : Except Fault Value}
    (each : ∀ token ∈ call.args, scope.Follows token)
    (dispatches : scope.Dispatches state call result made world) :
    Eval.Course Nested.noting (scope.call call) (scope.journaled.call call) state result made ⟨state.depth, world⟩ := by
  rw [Scope.call, Scope.call]
  cases dispatches with
  | unresolved failed =>
    have absent : scope.journaled.registry.resolve call.module call.name = _ :=
      (scope.registry.resolveJournaled _ _).trans (congrArg _ failed)
    rw [invokeUnresolved _ failed, invokeUnresolved _ absent]
    exact Eval.courseQuiet (.error _) state
  | miscounted resolved refused =>
    rw [invokeMiscounted _ resolved refused, invokeMiscounted _ (resolvedJournaled resolved) refused]
    exact Eval.courseQuiet (.error _) state
  | stopped resolved counted arguments =>
    rw [invokeReady _ resolved counted, invokeReady _ (resolvedJournaled resolved) counted]
    exact (arguments.courseOf each).stops
  | called resolved counted arguments answered =>
    rw [invokeReady _ resolved counted, invokeReady _ (resolvedJournaled resolved) counted]
    exact (arguments.courseOf each).andThen (courseAnswer answered)

theorem valueFollows (scope : Scope ω) (token : Text) : scope.Follows token := by
  induction token using Operand.tokenInduction with
  | step token ih =>
    intro state result made world yields
    rw [valueEq, valueEq]
    cases yields with
    | unreadable read =>
      rw [read]
      exact Eval.courseQuiet (.error _) state
    | literal read =>
      rw [read]
      exact Eval.courseQuiet (.ok _) state
    | stored read =>
      rw [read]
      exact Eval.courseQuiet _ state
    | tooDeep read full =>
      rw [read]
      exact (courseFull full).stops
    | malformed read room parsed =>
      simp only [read, parsed]
      exact (courseCheck room).andThen (Eval.courseQuiet (.error _) state)
    | @nested _ _ text call _ _ _ read room parsed inner =>
      -- The arguments of the call inside are shorter than the token.
      simp only [read, parsed]
      exact (courseCheck room).andThen (inner.courseOf (ih text call read parsed)).deeper

theorem Dispatches.course {call : Call} {result : Except Fault Value}
    (dispatches : scope.Dispatches state call result made world) :
    Eval.Course Nested.noting (scope.call call) (scope.journaled.call call) state result made ⟨state.depth, world⟩ :=
  dispatches.courseOf fun token _ => scope.valueFollows token

theorem convertsExists {tokens : List Text}
    (each : ∀ token ∈ tokens, ∀ state, ∃ result made world, scope.Yields state token result made world)
    (state : Nested ω) : ∃ result made world, scope.Converts state tokens result made world := by
  induction tokens generalizing state with
  | nil => exact ⟨_, _, _, .finished⟩
  | cons token rest ih =>
    obtain ⟨result, made, middle, first⟩ := each token List.mem_cons_self state
    cases result with
    | error fault => exact ⟨_, _, _, .stopped first⟩
    | ok value =>
      obtain ⟨_, _, _, later⟩ := ih (fun other member => each other (List.mem_cons_of_mem token member))
        ⟨state.depth, middle⟩
      exact ⟨_, _, _, .onward first later⟩

theorem dispatchesExists {call : Call}
    (each : ∀ token ∈ call.args, ∀ state, ∃ result made world, scope.Yields state token result made world)
    (state : Nested ω) : ∃ result made world, scope.Dispatches state call result made world := by
  cases resolved : scope.registry.resolve call.module call.name with
  | error fault => exact ⟨_, _, _, .unresolved resolved⟩
  | ok function =>
    cases counted : function.arity.check call.module call.name call.args.length with
    | error fault => exact ⟨_, _, _, .miscounted resolved (Arity.checkFails.mp counted)⟩
    | ok =>
      have admitted := Arity.checkPasses.mp counted
      obtain ⟨result, made, middle, arguments⟩ := convertsExists each state
      cases result with
      | error fault => exact ⟨_, _, _, .stopped resolved admitted arguments⟩
      | ok values => exact ⟨_, _, _, .called resolved admitted arguments rfl⟩

theorem yieldsExists (scope : Scope ω) (token : Text) (state : Nested ω) :
    ∃ result made world, scope.Yields state token result made world := by
  induction token using Operand.tokenInduction generalizing state with
  | step token ih =>
    cases read : Operand.ofToken token with
    | error fault => exact ⟨_, _, _, .unreadable read⟩
    | ok operand =>
      cases operand with
      | literal value => exact ⟨_, _, _, .literal read⟩
      | stored name => exact ⟨_, _, _, .stored read⟩
      | nested text =>
        rcases Nat.lt_or_ge state.depth scope.limit with room | full
        · cases parsed : Statement.parseCall text with
          | error cause => exact ⟨_, _, _, .malformed read room parsed⟩
          | ok call =>
            obtain ⟨_, _, _, inner⟩ := dispatchesExists (ih text call read parsed) ⟨state.depth + 1, state.world⟩
            exact ⟨_, _, _, .nested read room parsed inner⟩
        · exact ⟨_, _, _, .tooDeep read full⟩

end Scope

def HostCall.target (call : HostCall) : Text × Text := (call.module, call.name)

/- The functions that a token names in its calls, in the order in which the calls are closed. -/
def Operand.targets (token : Text) : List (Text × Text) :=
  match kind : ofToken token with
  | .ok (.nested text) =>
    match parsed : Statement.parseCall text with
    | .ok call =>
      call.args.attach.flatMap (fun ⟨arg, member⟩ =>
        have : arg.length < token.length := nestedArgumentShorter kind parsed member
        targets arg) ++ [(call.module, call.name)]
    | .error _ => []
  | _ => []
termination_by token.length

def Call.targets (call : Call) : List (Text × Text) :=
  call.args.flatMap Operand.targets ++ [(call.module, call.name)]

theorem Operand.targetsNested {token text : Text} {call : Call} (read : ofToken token = .ok (.nested text))
    (parsed : Statement.parseCall text = .ok call) : targets token = call.targets := by
  rw [targets]
  split
  · rename_i other kind
    cases read.symm.trans kind
    split
    · rename_i found again
      cases parsed.symm.trans again
      rw [Call.targets, List.flatMap_subtype fun _ _ => rfl, List.unattach_attach]
    · rename_i cause again
      cases parsed.symm.trans again
  · rename_i other
    exact absurd read (other text)

theorem Operand.targetsPlain {token : Text} (read : ∀ text, ofToken token ≠ .ok (.nested text)) :
    targets token = [] := by
  rw [targets]
  split
  · rename_i text kind
    exact absurd kind (read text)
  · rfl

structure HostCall.Follow (targets : List (Text × Text)) (result : Except Fault α) (made : List HostCall) : Prop where
  front : made.map HostCall.target <+: targets
  whole : ∀ a, result = .ok a → made.map HostCall.target = targets

namespace HostCall

theorem followFault (targets : List (Text × Text)) (fault : Fault) :
    Follow targets (.error fault : Except Fault α) [] :=
  ⟨List.nil_prefix, fun a same => by cases same⟩

theorem Follow.stops {targets : List (Text × Text)} {fault : Fault} {made : List HostCall}
    (follow : Follow targets (.error fault : Except Fault α) made) (more : List (Text × Text)) :
    Follow (targets ++ more) (.error fault : Except Fault β) made :=
  ⟨follow.front.trans (List.prefix_append targets more), fun a same => by cases same⟩

theorem Follow.andThen {targets more : List (Text × Text)} {a : α} {result : Except Fault β}
    {made others : List HostCall} (head : Follow targets (.ok a) made) (tail : Follow more result others) :
    Follow (targets ++ more) result (made ++ others) where
  front := by
    rw [List.map_append, head.whole a rfl, List.prefix_append_right_inj]
    exact tail.front
  whole b same := by rw [List.map_append, head.whole a rfl, tail.whole b same]

end HostCall

namespace Scope
variable {scope : Scope ω} {state : Nested ω} {made : List HostCall} {world : ω}

theorem Converts.follow {tokens : List Text} {result : Except Fault (List Value)}
    (each : ∀ token ∈ tokens, ∀ {state result made world}, scope.Yields state token result made world →
      HostCall.Follow (Operand.targets token) result made)
    (converts : scope.Converts state tokens result made world) :
    HostCall.Follow (tokens.flatMap Operand.targets) result made := by
  induction tokens generalizing state result made with
  | nil =>
    cases converts
    exact ⟨List.nil_prefix, fun _ _ => rfl⟩
  | cons token rest ih =>
    rw [List.flatMap_cons]
    cases converts with
    | stopped failed => exact (each token List.mem_cons_self failed).stops _
    | @onward _ _ value _ _ _ result more _ first later =>
      have tail := ih (fun other member => each other (List.mem_cons_of_mem token member)) later
      have both := (each token List.mem_cons_self first).andThen tail
      refine ⟨both.front, fun values same => ?_⟩
      obtain ⟨rest, found, _⟩ := mapOk same
      exact both.whole rest found

theorem Dispatches.follow {call : Call} {result : Except Fault Value}
    (each : ∀ token ∈ call.args, ∀ {state result made world}, scope.Yields state token result made world →
      HostCall.Follow (Operand.targets token) result made)
    (dispatches : scope.Dispatches state call result made world) : HostCall.Follow call.targets result made := by
  cases dispatches with
  | unresolved failed => exact HostCall.followFault _ _
  | miscounted resolved refused => exact HostCall.followFault _ _
  | stopped resolved counted arguments => exact (arguments.follow each).stops _
  | called resolved counted arguments answered =>
    exact (arguments.follow each).andThen ⟨List.prefix_rfl, fun _ _ => rfl⟩

theorem Yields.follow {token : Text} {result : Except Fault Value}
    (yields : scope.Yields state token result made world) :
    HostCall.Follow (Operand.targets token) result made := by
  induction token using Operand.tokenInduction generalizing state result made world with
  | step token ih =>
    cases yields with
    | unreadable read => exact HostCall.followFault _ _
    | literal read =>
      rw [Operand.targetsPlain (by simp [read])]
      exact ⟨List.prefix_rfl, fun _ _ => rfl⟩
    | stored read =>
      rw [Operand.targetsPlain (by simp [read])]
      exact ⟨List.prefix_rfl, fun _ _ => rfl⟩
    | tooDeep read full => exact HostCall.followFault _ _
    | malformed read room parsed => exact HostCall.followFault _ _
    | @nested _ _ text call _ _ _ read room parsed inner =>
      rw [Operand.targetsNested read parsed]
      exact inner.follow fun token member => ih text call read parsed token member

end Scope

namespace Machine

structure Settles (machine : Machine ω) (plain : Eval (Nested ω) α) (noted : Eval (Nested (Journal ω)) α)
    (result : Except Fault α) (made : List HostCall) (world : ω) : Prop where
  evaluated : machine.evaluate plain = (result, { machine with world })
  entered : ∀ earlier, (machine.noting earlier).evaluate noted =
    (result, { machine with world }.noting (earlier ++ made))

theorem courseSettles {machine : Machine ω} {plain : Eval (Nested ω) α} {noted : Eval (Nested (Journal ω)) α}
    {result : Except Fault α} {made : List HostCall} {world : ω}
    (course : Eval.Course Nested.noting plain noted ⟨machine.depth, machine.world⟩ result made ⟨machine.depth, world⟩) :
    machine.Settles plain noted result made world where
  evaluated := by rw [evaluate, course.ran]
  entered earlier := by
    have entered : noted.run ⟨(machine.noting earlier).depth, (machine.noting earlier).world⟩ = _ :=
      course.entered earlier
    rw [evaluate, entered]
    rfl

theorem callOrder (machine : Machine ω) (call : Call) :
    (∃ result made world, machine.scope.Dispatches ⟨machine.depth, machine.world⟩ call result made world) ∧
    (∀ result made world, machine.scope.Dispatches ⟨machine.depth, machine.world⟩ call result made world →
      machine.Settles (machine.scope.call call) (machine.scope.journaled.call call) result made world ∧
      made.map HostCall.target <+: call.targets ∧
      ∀ value, result = .ok value → made.map HostCall.target = call.targets) ∧
    ∀ token, (∃ result made world, machine.scope.Yields ⟨machine.depth, machine.world⟩ token result made world) ∧
      ∀ result made world, machine.scope.Yields ⟨machine.depth, machine.world⟩ token result made world →
        machine.Settles (machine.scope.value token) (machine.scope.journaled.value token) result made world ∧
        made.map HostCall.target <+: Operand.targets token ∧
        ∀ value, result = .ok value → made.map HostCall.target = Operand.targets token := by
  constructor
  · exact Scope.dispatchesExists (fun token _ => machine.scope.yieldsExists token) _
  constructor
  · intro result made world dispatches
    have follow := dispatches.follow fun _ _ => Scope.Yields.follow
    exact ⟨courseSettles dispatches.course, follow.front, follow.whole⟩
  intro token
  constructor
  · exact machine.scope.yieldsExists token _
  · intro result made world yields
    exact ⟨courseSettles (machine.scope.valueFollows token yields), yields.follow.front, yields.follow.whole⟩

end Machine
end Sigil
