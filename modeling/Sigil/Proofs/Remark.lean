import Sigil.Console.Functions
import Sigil.Proofs.Program

/-! A blank line or a comment, put anywhere into a source text, changes nothing that can be seen of its run
but the numbers of the lines behind it. -/
namespace Sigil
variable {ω : Type}

def RunsTo (source : Text) (settings : Settings) (loader : Loader ω) (world : ω)
    (result : Except Report Unit) (after : ω) : Prop :=
  match Machine.load source settings loader world with
  | .error report => result = .error report ∧ after = world
  | .ok machine => ∃ store, machine.Comes result store after

def Shows (source : Text) (settings : Settings) (loader : Loader ω) (world seen : ω) : Prop :=
  match Machine.load source settings loader world with
  | .error _ => seen = world
  | .ok machine => machine.Passes seen

def Text.isRemark (line : Text) : Bool :=
  match line.trim with
  | [] => true
  | c :: _ => c == '#'

theorem remarkTrimmed {line : Text} (remark : line.isRemark = true) :
    line.trim = [] ∨ ∃ rest, line.trim = '#' :: rest ∧ line.trim.trim = '#' :: Text.trimEnd rest := by
  unfold Text.isRemark at remark
  split at remark <;> rename_i trimmed
  · exact .inl trimmed
  · rename_i c rest
    cases eq_of_beq remark
    exact .inr ⟨rest, trimmed, by rw [trimmed, Text.trimVisible (by decide)]⟩

theorem remarkSilent {line : Text} (remark : line.isRemark = true) : Statement.parse line.trim = .ok .nothing := by
  rcases remarkTrimmed remark with empty | ⟨rest, _, again⟩
  · rw [empty]
    rfl
  · simp [Statement.parse, again]

theorem remarkUnlabelled {line : Text} (remark : line.isRemark = true) : Statement.endLabel line.trim = none := by
  rcases remarkTrimmed remark with empty | ⟨rest, _, again⟩
  · rw [empty]
    rfl
  · rw [Statement.endLabel, again]
    rfl

theorem remarkUndirected {line : Text} (remark : line.isRemark = true) : Directive.ofLine? line.trim = none := by
  rcases remarkTrimmed remark with empty | ⟨rest, trimmed, _⟩
  · rw [empty]
    rfl
  · rw [trimmed]
    rfl

def Insertion.ofRemark (before : List Text) (line : Text) (behind : List Text) (remark : line.isRemark = true) :
    Insertion :=
  ⟨before.map Text.trim, line.trim, behind.map Text.trim, remarkSilent remark, remarkUnlabelled remark⟩

section Plain
variable {source : Text} {settings : Settings} {loader : Loader ω} {world : ω}

theorem runsToPlain (plain : Expansion.Plain (Expansion.trimmedLines source))
    (countable : ∀ registry : Registry ω,
      (Machine.ofLines (Expansion.trimmedLines source) registry settings world).Countable)
    {result : Except Report Unit} {after : ω} :
    RunsTo source settings loader world result after ↔
      match Expansion.gather loader 1 (Expansion.trimmedLines source) Registry.initial [] with
      | (.ok _, registry) =>
        ∃ store, (Machine.ofLines (Expansion.trimmedLines source) registry settings world).Comes result store after
      | (.error report, _) => result = .error report ∧ after = world := by
  unfold RunsTo
  rw [Expansion.loadPlain plain]
  cases Expansion.gather loader 1 (Expansion.trimmedLines source) Registry.initial [] with
  | mk gathered registry =>
    cases gathered with
    | error report => exact Iff.rfl
    | ok rules => exact exists_congr fun store => settledComes (countable registry)

theorem showsPlain (plain : Expansion.Plain (Expansion.trimmedLines source))
    (countable : ∀ registry : Registry ω,
      (Machine.ofLines (Expansion.trimmedLines source) registry settings world).Countable)
    {seen : ω} :
    Shows source settings loader world seen ↔
      match Expansion.gather loader 1 (Expansion.trimmedLines source) Registry.initial [] with
      | (.ok _, registry) => (Machine.ofLines (Expansion.trimmedLines source) registry settings world).Passes seen
      | (.error _, _) => seen = world := by
  unfold Shows
  rw [Expansion.loadPlain plain]
  cases Expansion.gather loader 1 (Expansion.trimmedLines source) Registry.initial [] with
  | mk gathered registry =>
    cases gathered with
    | error report => exact Iff.rfl
    | ok rules => exact settledPasses (countable registry) seen

end Plain

structure Insertion.Between (insertion : Insertion) (source inserted : Text) : Prop where
  short : Expansion.trimmedLines source = insertion.short
  long : Expansion.trimmedLines inserted = insertion.long
  undirected : Directive.ofLine? insertion.line = none
  plain : Expansion.Plain insertion.short
  size : inserted.length < 2 ^ 63

namespace Insertion.Between
variable {insertion : Insertion} {source inserted : Text}

theorem plainLong (between : insertion.Between source inserted) : Expansion.Plain insertion.long := by
  intro other member rule
  rcases List.mem_append.mp member with early | late
  · exact between.plain other (List.mem_append_left _ early) rule
  · rcases List.mem_cons.mp late with rfl | late
    · simp [between.undirected]
    · exact between.plain other (List.mem_append_right _ late) rule

theorem gather (between : insertion.Between source inserted) (loader : Loader ω) :
    Expansion.gather loader 1 insertion.long Registry.initial [] =
      ((Expansion.gather loader 1 insertion.short Registry.initial []).1.mapError (Report.shiftFrom insertion.place),
        (Expansion.gather loader 1 insertion.short Registry.initial []).2) := by
  have inserts := Expansion.gatherInsert loader between.undirected 1 insertion.before insertion.behind
    Registry.initial []
  rwa [Nat.add_comm 1] at inserts

variable (between : insertion.Between source inserted) (settings : Settings) (loader : Loader ω) (world : ω)
include between

theorem longCountable (registry : Registry ω) : (Machine.ofLines insertion.long registry settings world).Countable :=
  between.long ▸ Expansion.trimmedCountable between.size registry settings world

theorem shortCountable (registry : Registry ω) : (Machine.ofLines insertion.short registry settings world).Countable :=
  (Insertion.startAligned (between.longCountable settings world registry)).shortCountable

theorem runs (result : Except Report Unit) (after : ω) :
    RunsTo inserted settings loader world result after ↔
      ∃ first, RunsTo source settings loader world first after ∧
        result = first.mapError (Report.shiftFrom insertion.place) := by
  rw [runsToPlain (between.long ▸ between.plainLong) (between.long ▸ between.longCountable settings world),
    between.long, between.gather]
  simp only [runsToPlain (between.short ▸ between.plain) (between.short ▸ between.shortCountable settings world),
    between.short]
  cases Expansion.gather loader 1 insertion.short Registry.initial [] with
  | mk gathered registry =>
    cases gathered with
    | error report =>
      constructor
      · intro given
        obtain ⟨rfl, rfl⟩ := given
        exact ⟨.error report, ⟨rfl, rfl⟩, rfl⟩
      · intro given
        obtain ⟨_, ⟨rfl, rfl⟩, rfl⟩ := given
        exact ⟨rfl, rfl⟩
    | ok rules =>
      simp only [mapErrorOk, Insertion.linesComes (between.longCountable settings world registry)]
      constructor
      · intro given
        obtain ⟨store, first, comes, same⟩ := given
        exact ⟨first, ⟨store, comes⟩, same⟩
      · intro given
        obtain ⟨first, ⟨store, comes⟩, same⟩ := given
        exact ⟨store, first, comes, same⟩

theorem shows (seen : ω) :
    Shows inserted settings loader world seen ↔ Shows source settings loader world seen := by
  rw [showsPlain (between.long ▸ between.plainLong) (between.long ▸ between.longCountable settings world),
    between.long, between.gather, showsPlain (between.short ▸ between.plain)
      (between.short ▸ between.shortCountable settings world), between.short]
  cases Expansion.gather loader 1 insertion.short Registry.initial [] with
  | mk gathered registry =>
    cases gathered with
    | error report => exact Iff.rfl
    | ok rules => exact Insertion.linesPasses (between.longCountable settings world registry) seen

end Insertion.Between

/- The size of a text in memory fits a signed word. -/
theorem remarkInvisible {source inserted line : Text} {before behind : List Text}
    (original : source.lines = before ++ behind) (longer : inserted.lines = before ++ line :: behind)
    (remark : line.isRemark = true) (plain : Expansion.Plain (Expansion.trimmedLines source))
    (size : inserted.length < 2 ^ 63) (settings : Settings) (loader : Loader ω) (world : ω) :
    (∀ result after, RunsTo inserted settings loader world result after ↔
      ∃ first, RunsTo source settings loader world first after ∧
        result = first.mapError (Report.shiftFrom (before.length + 1))) ∧
    ∀ seen, Shows inserted settings loader world seen ↔ Shows source settings loader world seen := by
  let insertion := Insertion.ofRemark before line behind remark
  have short : Expansion.trimmedLines source = insertion.short := by
    simp [Expansion.trimmedLines, original, insertion, Insertion.ofRemark, Insertion.short]
  have long : Expansion.trimmedLines inserted = insertion.long := by
    simp [Expansion.trimmedLines, longer, insertion, Insertion.ofRemark, Insertion.long]
  have place : insertion.place = before.length + 1 := by simp [insertion, Insertion.ofRemark, Insertion.place]
  have between : insertion.Between source inserted := ⟨short, long, remarkUndirected remark, short ▸ plain, size⟩
  rw [← place]
  exact ⟨between.runs settings loader world, between.shows settings loader world⟩

theorem remarkBehindOpening :
    RunsTo "+include std\n@n $i 1 2\n# body\n!std print: ($i),\n@b $i\n!std halt:".toList Settings.default
      Console.catalog.load (Console.ofInput [])
      (.error ⟨.unknownFunction "std".toList "halt".toList, 6, "!std halt:".toList, .executing⟩)
      ⟨["2\n".toList, "1\n".toList], [], false⟩ := by
  have original : Text.lines "+include std\n@n $i 1 2\n!std print: ($i),\n@b $i\n!std halt:".toList =
      ["+include std".toList, "@n $i 1 2".toList] ++
        ["!std print: ($i),".toList, "@b $i".toList, "!std halt:".toList] := by decide
  have longer : Text.lines "+include std\n@n $i 1 2\n# body\n!std print: ($i),\n@b $i\n!std halt:".toList =
      ["+include std".toList, "@n $i 1 2".toList] ++
        "# body".toList :: ["!std print: ($i),".toList, "@b $i".toList, "!std halt:".toList] := by decide
  have invisible := (remarkInvisible original longer (by decide) (by decide) (by decide) Settings.default
    Console.catalog.load (Console.ofInput [])).1
  refine (invisible _ _).mpr
    ⟨.error ⟨.unknownFunction "std".toList "halt".toList, 5, "!std halt:".toList, .executing⟩, ?_, rfl⟩
  exact Machine.comesReport (show Machine.report? _ 9 = _ by decide +kernel) (by decide +kernel)

end Sigil
