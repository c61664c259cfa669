import Sigil.Proofs.Insertion

/-! A loaded program runs as its trimmed lines do: the empty last line that loading loses says nothing. -/
namespace Sigil
variable {ω : Type}

namespace Expansion

theorem trimmedCountable {source : Text} (size : source.length < 2 ^ 63) (registry : Registry ω)
    (settings : Settings) (world : ω) :
    (Machine.ofLines (trimmedLines source) registry settings world).Countable := by
  intro number line name lower upper here opens
  cases number with
  | zero => simp [Machine.line?] at here
  | succ index =>
    have found : (trimmedLines source)[index]? = some line := by simpa [Machine.line?, Machine.ofLines] using here
    rw [trimmedLines, List.getElem?_map] at found
    obtain ⟨raw, there, rfl⟩ := Option.map_eq_some_iff.mp found
    have room := Text.linesRoom there
    have short := Text.trimLength raw
    have long := Statement.openLength opens
    omega

end Expansion

def Insertion.last (lines : List Text) : Insertion := ⟨lines, [], [], rfl, rfl⟩

section Settled
variable {lines : List Text} {registry : Registry ω} {settings : Settings} {world : ω}

theorem lastLong (lines : List Text) : (Insertion.last lines).long = lines ++ [[]] := rfl

theorem lastShort (lines : List Text) : (Insertion.last lines).short = lines := List.append_nil lines

theorem lastReport {original : Except Report Unit} {store : Store} {after : ω}
    (comes : (Machine.ofLines lines registry settings world).Comes original store after) :
    original.mapError (Report.shiftFrom (Insertion.last lines).place) = original := by
  cases original with
  | ok => rfl
  | error report =>
    obtain ⟨final, ends, _⟩ := comes
    have inside : report.line ≤ lines.length := (Machine.insideLine (Machine.endsReport ends).1).2
    have place : ¬(Insertion.last lines).place ≤ report.line := by
      simp only [Insertion.place, Insertion.last]
      omega
    simp [Report.shiftFrom, shiftFrom, place]

theorem settledComes (countable : (Machine.ofLines lines registry settings world).Countable)
    {result : Except Report Unit} {store : Store} {after : ω} :
    (Machine.ofLines (Text.settled lines) registry settings world).Comes result store after ↔
      (Machine.ofLines lines registry settings world).Comes result store after := by
  rcases Text.settledCases lines with same | dropped
  · rw [same]
  · have long := (lastLong (Text.settled lines)).trans dropped.symm
    rw [← long] at countable
    rw [← long, Insertion.linesComes countable, lastShort, long]
    constructor
    · intro comes
      exact ⟨result, comes, (lastReport comes).symm⟩
    · intro given
      obtain ⟨original, comes, rfl⟩ := given
      rwa [lastReport comes]

theorem settledPasses (countable : (Machine.ofLines lines registry settings world).Countable) (seen : ω) :
    (Machine.ofLines (Text.settled lines) registry settings world).Passes seen ↔
      (Machine.ofLines lines registry settings world).Passes seen := by
  rcases Text.settledCases lines with same | dropped
  · rw [same]
  · have long := (lastLong (Text.settled lines)).trans dropped.symm
    rw [← long] at countable
    have passes := Insertion.linesPasses countable seen
    rw [lastShort, long] at passes
    exact passes.symm

end Settled
end Sigil
