import Sigil.Proofs.Flattening

/-! The machine on the lines of a block does what the structured run of the block does: each way to build a
block keeps the agreement, and so does a whole program that is loaded from its source. -/
namespace Sigil.Machine
variable {ω : Type} {base : Machine ω} {memory : Memory ω} {store : Store} {number : Nat}

def Counts (lines : List Text) (name : Text) : Prop :=
  ∃ line ∈ lines, (Statement.parse line).toOption.bind Statement.loop? = some name

theorem Counts.of {lines more : List Text} (within : lines ⊆ more) {name : Text} (counts : Counts lines name) :
    Counts more name := by
  obtain ⟨line, member, found⟩ := counts
  exact ⟨line, within member, found⟩

theorem closingFound {first : Nat} {label closing : Text} {body : List Text} (store : Store) (world : ω)
    (placed : base.Holds (first + 1) body) (here : base.line? (first + 1 + body.length) = some closing)
    (ends : Statement.endLabel closing = some label) (free : ∀ line ∈ body, Statement.endLabel line ≠ some label) :
    (base.place first store world).endLine? label = some (first + 1 + body.length) := by
  refine endLineIff.mpr ⟨?_, ⟨closing, here, ends⟩, ?_⟩
  · change first < _
    omega
  · intro other later earlier given
    obtain ⟨text, found, ended⟩ := given
    change first < other at later
    obtain ⟨index, rfl⟩ : ∃ index, other = first + 1 + index := ⟨other - (first + 1), by omega⟩
    have inside : index < body.length := by omega
    have line := placed (List.getElem?_eq_getElem inside)
    cases line.symm.trans found
    exact free _ (List.getElem_mem inside) ended

def Follows (base : Machine ω) (laps : Nat) (block : Block) : Prop :=
  ∀ ⦃first memory store⦄, base.Holds first block.lines → memory.Held store →
    base.Agrees laps first (first + block.lines.length) store memory.world (Counts block.lines)
      (block.run base.host laps first memory)

section Blocks
variable {laps : Nat} {body next : Block} {opening closing name lower upper label condition text : Text}

theorem lineFollows (flat : base.depth = 0)
    (simple : (Statement.parse text).toOption.all Statement.isSimple = true)
    (rest : base.Follows laps next) : base.Follows laps (.line text next) := by
  intro first memory store placed held
  obtain ⟨last, performs, kept⟩ := simplePerforms flat held first simple
  unfold Block.run
  cases performed : base.host.perform memory text with
  | mk result after =>
    rw [performed] at performs
    cases result with
    | error fault => exact performs.fails placed.head _ _ _
    | ok =>
      have length : first + (Block.line text next).lines.length = first + 1 + next.lines.length := by
        simp only [Block.lines, List.length_cons]
        omega
      rw [length]
      exact Agrees.lead (leadsStep (performs.steps placed.head)) (fun name _ => kept name)
        ((rest placed.tail performs.held).mono (Nat.le_refl laps) fun _ => Counts.of (List.subset_cons_self _ _))

theorem nextFollows {lines : List Text} {first : Nat} {outcome : Option (Outcome ω)} {world : ω}
    (inner : base.Agrees laps (first + 1) (first + 1 + body.lines.length + 1) store world (Counts lines) outcome)
    (rest : base.Follows laps next) (placed : base.Holds (first + 1 + body.lines.length) (closing :: next.lines))
    (within : next.lines ⊆ lines) :
    base.Agrees laps (first + 1) (first + 1 + body.lines.length + 1 + next.lines.length) store world (Counts lines)
      (Outcome.andThen outcome (next.run base.host laps (first + body.lines.length + 2))) := by
  refine inner.andThen fun after stored held kept => ?_
  rw [show first + body.lines.length + 2 = first + 1 + body.lines.length + 1 by omega]
  exact (rest placed.tail held).mono (Nat.le_refl laps) fun _ => Counts.of within

theorem loopFollows (flat : base.depth = 0) (countable : base.Countable)
    (opens : Statement.parse opening = .ok (.openLoop name lower upper))
    (closes : Statement.parse closing = .ok (.loopBack name))
    (free : ∀ line ∈ body.lines, (Statement.parse line).toOption.bind Statement.loop? ≠ some name)
    (inside : base.Follows laps body) (rest : base.Follows laps next) :
    base.Follows laps (.loop opening name lower upper body closing next) := by
  intro first memory store placed held
  have behind : base.Holds (first + 1 + body.lines.length) (closing :: next.lines) := placed.tail.right
  have length : first + (Block.loop opening name lower upper body closing next).lines.length =
      first + 1 + body.lines.length + 1 + next.lines.length := by
    simp only [Block.lines, List.length_cons, List.length_append]
    omega
  obtain ⟨last, performs, looped⟩ := openingPerforms flat held first opens
  unfold Block.run
  cases performed : base.host.openCounter memory name lower upper with
  | mk result after =>
    rw [performed] at performs looped
    cases result with
    | error fault => exact performs.fails placed.head _ _ _
    | ok high =>
      have closed : ¬Counts body.lines name := fun ⟨line, member, found⟩ => free line member found
      have own (other : Text) (outside : ¬Counts (Block.loop opening name lower upper body closing next).lines other) :
          last.loop? other = store.loop? other := by
        have different : name ≠ other := by
          intro same
          subst same
          exact outside ⟨opening, by simp [Block.lines], by simp [opens, Except.toOption, Statement.loop?]⟩
        rw [looped high rfl, if_neg different]
      have carried := (looped high rfl name).trans (if_pos rfl)
      have repeats := repeatedAgrees (fun memory store held => inside placed.tail.left held) behind.head closes closed
        (countable placed.head opens) laps (Nat.le_refl laps) performs.held carried
      rw [length]
      refine Agrees.lead (leadsStep (performs.steps placed.head)) own (nextFollows (repeats.mono (Nat.le_refl laps) ?_)
        rest behind ?_)
      · exact fun _ => Counts.of fun line member => by simp [Block.lines, member]
      · exact fun line member => by simp [Block.lines, member]

theorem conditionalFollows (flat : base.depth = 0)
    (parsed : Statement.parse opening = .ok (.conditional label condition))
    (ends : Statement.endLabel closing = some label)
    (free : ∀ line ∈ body.lines, Statement.endLabel line ≠ some label)
    (inside : base.Follows laps body) (rest : base.Follows laps next) :
    base.Follows laps (.conditional opening label condition body closing next) := by
  intro first memory store placed held
  have behind : base.Holds (first + 1 + body.lines.length) (closing :: next.lines) := placed.tail.right
  have length : first + (Block.conditional opening label condition body closing next).lines.length =
      first + 1 + body.lines.length + 1 + next.lines.length := by
    simp only [Block.lines, List.length_cons, List.length_append]
    omega
  have found := closingFound store memory.world placed.tail.left behind.head ends free
  have performs := conditionalPerforms flat held parsed found
  unfold Block.run
  cases tested : base.host.test memory condition with
  | mk result after =>
    rw [tested] at performs
    cases result with
    | error fault => exact ⟨opening, _, endsFault (placeFault placed.head performs.2), performs.1.same, rfl⟩
    | ok result =>
      obtain ⟨recorded, executed⟩ := performs
      have step := placeStep placed.head executed
      rw [length]
      refine Agrees.lead (leadsStep step) (fun _ _ => Store.recordKeepsLoop result) ?_
      cases result with
      | true =>
        -- The body runs, and the closing line says nothing.
        have silent (stored : Store) (world : ω) : (base.place (first + 1 + body.lines.length) stored world).Leads
            (base.place (first + 1 + body.lines.length + 1) stored world) :=
          leadsStep (placeStep behind.head (by simp only [execute, Statement.endSilent ends]; rfl))
        have inner := (inside placed.tail.left recorded).onward silent
        refine nextFollows (inner.mono (Nat.le_refl laps) ?_) rest behind ?_
        · exact fun _ => Counts.of fun line member => by simp [Block.lines, member]
        · exact fun line member => by simp [Block.lines, member]
      | false =>
        rw [show first + body.lines.length + 2 = first + 1 + body.lines.length + 1 by omega]
        exact (rest behind.tail recorded).mono (Nat.le_refl laps) fun _ =>
          Counts.of fun line member => by simp [Block.lines, member]

theorem wellFormedFollows (flat : base.depth = 0) (countable : base.Countable) (laps : Nat) (block : Block)
    (well : block.WellFormed) : base.Follows laps block := by
  induction block with
  | finish => exact fun _ _ store _ held => ⟨store, held, fun _ _ => rfl, leadsRefl _⟩
  | line text next rest => exact lineFollows flat well.1 (rest well.2)
  | loop opening name lower upper body closing next inside rest =>
    obtain ⟨opens, closes, free, inner, behind⟩ := well
    exact loopFollows flat countable opens closes free (inside inner) (rest behind)
  | conditional opening label condition body closing next inside rest =>
    obtain ⟨parsed, ends, free, inner, behind⟩ := well
    exact conditionalFollows flat parsed ends free (inside inner) (rest behind)

end Blocks

def Answers (machine : Machine ω) : Outcome ω → Prop
  | .done memory => machine.Comes (.ok ()) memory.store memory.world
  | .failed fault number memory =>
    ∃ text, machine.Comes (.error ⟨fault, number, text, .executing⟩) memory.store memory.world

theorem answersUnique {machine : Machine ω} {one two : Outcome ω} (first : machine.Answers one)
    (second : machine.Answers two) : one = two := by
  rcases one with ⟨⟨store, world⟩⟩ | ⟨fault, number, ⟨store, world⟩⟩ <;>
    rcases two with ⟨⟨store', world'⟩⟩ | ⟨fault', number', ⟨store', world'⟩⟩
  · obtain ⟨final, ends, rfl, rfl⟩ := first
    obtain ⟨last, again, rfl, rfl⟩ := second
    rw [(endsUnique ends again).2]
  · obtain ⟨final, ends, _⟩ := first
    obtain ⟨text, last, again, _⟩ := second
    exact nomatch (endsUnique ends again).1
  · obtain ⟨text, final, ends, _⟩ := first
    obtain ⟨last, again, _⟩ := second
    exact nomatch (endsUnique ends again).1
  · obtain ⟨text, final, ends, rfl, rfl⟩ := first
    obtain ⟨other, last, again, rfl, rfl⟩ := second
    obtain ⟨same, rfl⟩ := endsUnique ends again
    cases same
    rfl

section Program
variable {block : Block} {registry : Registry ω} {settings : Settings} {world : ω}

theorem linesAgree (well : block.WellFormed) (countable : (ofLines block.lines registry settings world).Countable)
    (laps : Nat) :
    (ofLines block.lines registry settings world).Agrees laps 1 (1 + block.lines.length) Store.initial world
      (Counts block.lines) (block.run ⟨registry, settings.maxCallDepth⟩ laps 1 ⟨Store.initial, world⟩) := by
  have held : (⟨Store.initial, world⟩ : Memory ω).Held Store.initial :=
    ⟨Store.initialCoherent, Store.mapResumeInitial _⟩
  refine wellFormedFollows rfl countable laps block well ?_ held
  intro index line here
  rw [Nat.add_comm]
  simpa [line?, ofLines] using here

theorem executesAnswers (well : block.WellFormed) (countable : (ofLines block.lines registry settings world).Countable)
    {outcome : Outcome ω} (executes : block.Executes ⟨registry, settings.maxCallDepth⟩ world outcome) :
    (ofLines block.lines registry settings world).Answers outcome := by
  obtain ⟨laps, ran⟩ := executes
  have agrees := linesAgree well countable laps
  rw [ran] at agrees
  rw [ofLinesPlace]
  rcases outcome with ⟨after⟩ | ⟨fault, number, after⟩
  · obtain ⟨next, held, _, leads⟩ := agrees
    have past : (ofLines block.lines registry settings world).lines.size < 1 + block.lines.length := by
      simp [ofLines]
    refine ⟨_, leads.ends.mpr ((endsHalted (placeHalted past)).mpr ⟨rfl, rfl⟩), held.same, rfl⟩
  · obtain ⟨text, final, ends, store, left⟩ := agrees
    exact ⟨text, final, ends, store, left⟩

theorem answersExecutes (well : block.WellFormed) (countable : (ofLines block.lines registry settings world).Countable)
    {outcome : Outcome ω} (answers : (ofLines block.lines registry settings world).Answers outcome) :
    block.Executes ⟨registry, settings.maxCallDepth⟩ world outcome := by
  have ended : ∃ result final, (ofLines block.lines registry settings world).Ends result final := by
    rcases outcome with ⟨after⟩ | ⟨fault, number, after⟩
    · obtain ⟨final, ends, _⟩ := answers
      exact ⟨_, final, ends⟩
    · obtain ⟨text, final, ends, _⟩ := answers
      exact ⟨_, final, ends⟩
  obtain ⟨result, final, steps, ran⟩ := ended
  -- With as many laps as the machine takes steps, the structured run comes to an outcome.
  have agrees := linesAgree well countable steps
  cases found : block.run ⟨registry, settings.maxCallDepth⟩ steps 1 ⟨Store.initial, world⟩ with
  | none =>
    rw [found] at agrees
    rw [ofLinesPlace] at ran
    exact absurd agrees (endsNotLasts ran)
  | some other =>
    have same := answersUnique (executesAnswers well countable ⟨steps, found⟩) answers
    exact ⟨steps, same ▸ found⟩

theorem answersIff (well : block.WellFormed) (countable : (ofLines block.lines registry settings world).Countable)
    (outcome : Outcome ω) :
    (ofLines (Text.settled block.lines) registry settings world).Answers outcome ↔
      block.Executes ⟨registry, settings.maxCallDepth⟩ world outcome := by
  have settled : (ofLines (Text.settled block.lines) registry settings world).Answers outcome ↔
      (ofLines block.lines registry settings world).Answers outcome := by
    rcases outcome with ⟨after⟩ | ⟨fault, number, after⟩
    · exact settledComes countable
    · exact exists_congr fun text => settledComes countable
  exact settled.trans ⟨answersExecutes well countable, executesAnswers well countable⟩

end Program

/- The functions are registered anew once the program is loaded, whatever it included, and over a journal: a run
leaves the world and every call that was made, in order. The size of a text in memory fits a signed word. -/
theorem structuredRun {source : Text} {settings : Settings} {loader : Loader (Journal ω)} {world : ω}
    {loaded : Machine (Journal ω)} {block : Block} (accepted : load source settings loader ⟨world, []⟩ = .ok loaded)
    (flattening : Expansion.trimmedLines source = block.lines) (well : block.WellFormed)
    (plain : Expansion.Plain block.lines) (size : source.length < 2 ^ 63) (registry : Registry ω) :
    (∀ store journal, ({ loaded with registry := registry.journaled } : Machine (Journal ω)).HaltsWith store journal ↔
      block.Executes ⟨registry.journaled, settings.maxCallDepth⟩ ⟨world, []⟩ (.done ⟨store, journal⟩)) ∧
    ∀ fault number store journal,
      ({ loaded with registry := registry.journaled } : Machine (Journal ω)).FailsWith fault number store journal ↔
        block.Executes ⟨registry.journaled, settings.maxCallDepth⟩ ⟨world, []⟩
          (.failed fault number ⟨store, journal⟩) := by
  have lines : ({ loaded with registry := registry.journaled } : Machine (Journal ω)) =
      ofLines (Text.settled block.lines) registry.journaled settings ⟨world, []⟩ := by
    rw [Expansion.loadPlain (flattening ▸ plain), flattening] at accepted
    split at accepted <;> cases accepted
    rfl
  have countable : (ofLines block.lines registry.journaled settings ⟨world, []⟩).Countable :=
    flattening ▸ Expansion.trimmedCountable size registry.journaled settings ⟨world, []⟩
  have fine : (ofLines (Text.settled block.lines) registry.journaled settings ⟨world, []⟩).status ≠ .failed := by
    simp only [ofLines]
    split <;> simp
  rw [lines]
  constructor
  · intro store journal
    exact (haltsIff fine).trans (answersIff well countable (.done ⟨store, journal⟩))
  · intro fault number store journal
    exact (failsIff fine).trans (answersIff well countable (.failed fault number ⟨store, journal⟩))

theorem structuredRunNoting : ∃ loaded : Machine (Journal Unit), ∃ store,
    load "@n $i 1 2\n?if $odd | $i = 1\n!note: ($i),\n?end $odd\n@b $i".toList Settings.default
        Catalog.empty.load ⟨(), []⟩ =
      .ok loaded ∧
    ({ loaded with registry := (Registry.initial.register Call.defaultModule "note".toList
      ⟨.fixed 1, fun _ world => (.ok (.str []), world)⟩).journaled } : Machine (Journal Unit)).HaltsWith store
        ⟨(), [⟨Call.defaultModule, "note".toList, [.int 1]⟩]⟩ := by
  let block : Block := .loop "@n $i 1 2".toList ['i'] ['1'] ['2']
    (.conditional "?if $odd | $i = 1".toList "odd".toList "$i = 1".toList
      (.line "!note: ($i),".toList .finish) "?end $odd".toList .finish) "@b $i".toList .finish
  let registry : Registry Unit := Registry.initial.register Call.defaultModule "note".toList
    ⟨.fixed 1, fun _ world => (.ok (.str []), world)⟩
  have accepted : load "@n $i 1 2\n?if $odd | $i = 1\n!note: ($i),\n?end $odd\n@b $i".toList Settings.default
      Catalog.empty.load (⟨(), []⟩ : Journal Unit) =
      .ok (ofLines block.lines Registry.initial Settings.default ⟨(), []⟩) := rfl
  have called : ((block.run ⟨registry.journaled, 64⟩ 2 1 ⟨Store.initial, ⟨(), []⟩⟩).bind Outcome.done?).map
      (fun memory => memory.world.calls) = some [⟨Call.defaultModule, "note".toList, [.int 1]⟩] := by decide +kernel
  have flattening : Expansion.trimmedLines "@n $i 1 2\n?if $odd | $i = 1\n!note: ($i),\n?end $odd\n@b $i".toList =
      block.lines := by decide +kernel
  have well : block.WellFormed := by decide +kernel
  have halts := (structuredRun accepted flattening well (by decide +kernel) (by decide) registry).1
  obtain ⟨memory, ended, calls⟩ := Option.map_eq_some_iff.mp called
  obtain ⟨outcome, found, done⟩ := Option.bind_eq_some_iff.mp ended
  refine ⟨_, memory.store, accepted, (halts _ _).mpr ⟨2, ?_⟩⟩
  rw [← calls]
  cases outcome with
  | done last =>
    cases done
    exact found
  | failed fault number last => simp [Outcome.done?] at done

end Sigil.Machine
