import Sigil.Proofs.Remark
import Sigil.Proofs.Substitution

/-! The lines of an expanded program. Each is the line that was written, trimmed and rewritten, up to the blanks
around it. A directive says nothing to the machine as long as no rule takes away the sign it begins with. -/
namespace Sigil

theorem mappedAt {α β γ : Type} {f : α → γ} {g : β → γ} {xs : List α} {ys : List β} (same : xs.map f = ys.map g)
    {index : Nat} {y : β} (here : ys[index]? = some y) : ∃ x, xs[index]? = some x ∧ f x = g y := by
  have found : (xs.map f)[index]? = some (g y) := by
    rw [same, List.getElem?_map, here]
    rfl
  rw [List.getElem?_map] at found
  exact Option.map_eq_some_iff.mp found

def Text.Muted (text : Text) : Prop := text.head? = some '+' ∨ text.head? = some '#'

theorem Text.mutedTrim {text : Text} (muted : text.Muted) : text.trim.Muted := by
  cases text with
  | nil => simp [Muted] at muted
  | cons c rest =>
    have visible : isBlank c = false := by
      rcases muted with plus | hash
      · cases plus
        decide
      · cases hash
        decide
    rw [trimVisible visible]
    exact muted

theorem Statement.mutedSilent {line : Text} (muted : line.trim.Muted) : parse line = .ok .nothing := by
  unfold parse
  cases trimmed : line.trim with
  | nil => rfl
  | cons c rest =>
    rw [trimmed, Text.Muted, List.head?_cons, Option.some.injEq, Option.some.injEq] at muted
    exact if_pos muted

namespace Rule

theorem applyMuted {rule : Rule} (filled : rule.needle ≠ []) {text : Text} (muted : text.Muted)
    (spared : rule.needle <+: text → rule.replacement.Muted) : (rule.apply text).Muted := by
  by_cases starts : rule.needle <+: text
  · have fresh := spared starts
    obtain ⟨rest, rfl⟩ := starts
    rw [apply, Text.replaceStart filled]
    cases replaced : rule.replacement with
    | nil => simp [replaced, Text.Muted] at fresh
    | cons c tail => rwa [replaced] at fresh
  · cases text with
    | nil => simp [Text.Muted] at muted
    | cons c rest =>
      rw [apply, Text.replaceOther starts]
      exact muted

/- A rule whose needle the line begins with, when its turn comes, puts another such sign there. -/
def Spare (rules : List Rule) (line : Text) : Prop :=
  ∀ before rule behind, rules = before ++ rule :: behind → rule.needle <+: applyAll before line →
    rule.replacement.Muted

theorem Spare.muted {rules : List Rule} (filled : ∀ rule ∈ rules, rule.needle ≠ []) {line : Text}
    (spare : Spare rules line) (muted : line.Muted) : (applyAll rules line).Muted := by
  induction rules generalizing line with
  | nil => exact muted
  | cons rule rest ih =>
    have own := applyMuted (filled rule List.mem_cons_self) muted (spare [] rule rest rfl)
    refine ih (fun other member => filled other (List.mem_cons_of_mem rule member)) ?_ own
    intro before other behind same
    exact spare (rule :: before) other behind (congrArg (rule :: ·) same)

end Rule

namespace Expansion
variable {ω : Type}

theorem expandedLines {loader : Loader ω} {registry loaded : Registry ω} {source program : Text}
    (expanded : expand loader registry source = (.ok program, loaded)) :
    ∃ rules, Rule.Merged (written source) rules ∧ (∀ rule ∈ rules, rule.Inline) ∧
      program.lines.map Text.trim =
        (Text.settled (source.lines.map fun line => Rule.applyAll rules line.trim)).map Text.trim := by
  unfold expand at expanded
  split at expanded
  · rename_i rules _ gathered
    cases expanded
    have merged : Rule.Merged (written source) rules := gatherMerged Rule.mergedNil gathered
    have inLine rule (member : rule ∈ rules) := writtenInline source rule (merged.members member)
    refine ⟨rules, merged, inLine, ?_⟩
    rw [applyAllJoined inLine, Text.joinedTrimmed, trimmedLines, List.map_map]
    · rfl
    · intro line member
      obtain ⟨raw, there, rfl⟩ := List.mem_map.mp member
      exact applyAllUnbroken inLine (trimmedWhole source raw there).unbroken
  · simp at expanded

theorem directivesSilent {loader : Loader ω} {registry loaded : Registry ω} {source program : Text}
    (expanded : expand loader registry source = (.ok program, loaded)) :
    ∃ rules, Rule.Merged (written source) rules ∧
      ∀ (index : Nat) (raw : Text), source.lines[index]? = some raw → raw.trim.head? = some '+' →
        Rule.Spare rules raw.trim →
        ∃ line, program.lines[index]? = some line ∧ Statement.parse line = .ok .nothing := by
  obtain ⟨rules, merged, inLine, rewritten⟩ := expandedLines expanded
  refine ⟨rules, merged, fun index raw here directive spare => ?_⟩
  have muted := spare.muted (fun rule member => (inLine rule member).filled) (.inl directive)
  have filled : Rule.applyAll rules raw.trim ≠ [] := by
    intro empty
    simp [empty, Text.Muted] at muted
  have kept : (Text.settled (source.lines.map fun line => Rule.applyAll rules line.trim))[index]? =
      some (Rule.applyAll rules raw.trim) := Text.settledKeeps (by simp [here]) filled
  obtain ⟨line, there, same⟩ := mappedAt rewritten kept
  exact ⟨line, there, Statement.mutedSilent (same ▸ Text.mutedTrim muted)⟩

theorem directivesSilentRenamed : ∃ loaded line,
    expand Console.catalog.load Registry.initial "+include std\n+replace +in +re".toList =
      (.ok "+reclude std\n+replace +re +re".toList, loaded) ∧
    (Text.lines "+reclude std\n+replace +re +re".toList)[0]? = some line ∧ Statement.parse line = .ok .nothing := by
  have expanded : ∃ loaded, expand Console.catalog.load Registry.initial "+include std\n+replace +in +re".toList =
      (.ok "+reclude std\n+replace +re +re".toList, loaded) := ⟨_, rfl⟩
  obtain ⟨loaded, expanded⟩ := expanded
  obtain ⟨rules, merged, silent⟩ := directivesSilent expanded
  have only : written "+include std\n+replace +in +re".toList = [⟨"+in".toList, "+re".toList⟩] := rfl
  rw [only] at merged
  have spare : Rule.Spare rules "+include std".toList := by
    intro before rule behind same _
    have member : rule ∈ rules := by simp [same]
    rw [List.mem_singleton.mp (merged.members member)]
    exact .inl rfl
  obtain ⟨line, here, nothing⟩ := silent 0 "+include std".toList rfl rfl spare
  exact ⟨loaded, line, expanded, here, nothing⟩

theorem directiveOverwritten : ∃ loaded,
    expand Console.catalog.load Registry.initial "+include std\n+replace + *\n!std print: (\"ok\"),".toList =
      (.ok "*include std\n*replace * *\n!std print: (\"ok\"),".toList, loaded) ∧
    Statement.parse "*include std".toList = .error (.unknownStatement "*include std".toList) ∧
    RunsTo "+include std\n+replace + *\n!std print: (\"ok\"),".toList Settings.default Console.catalog.load
      (Console.ofInput [])
      (.error ⟨.malformed (.unknownStatement "*include std".toList), 1, "*include std".toList, .executing⟩)
      (Console.ofInput []) := by
  refine ⟨_, rfl, rfl, ?_⟩
  exact Machine.comesReport (show Machine.report? _ 1 = _ by decide +kernel) (by decide +kernel)

end Expansion
end Sigil
