import Mathlib.Data.List.DropRight
import Sigil.Machine.Basic
import Sigil.Proofs.Statement

/-! The lines of a source text and what loading makes of them. Without replacements the program is the list
of trimmed lines, but for a last line that is empty, which joining and cutting again loses. -/
namespace Sigil

def shiftFrom (place number : Nat) : Nat := if place ≤ number then number + 1 else number

def Report.shiftFrom (place : Nat) (report : Report) : Report :=
  { report with line := Sigil.shiftFrom place report.line }

namespace Text

structure Whole (line : Text) : Prop where
  unbroken : '\n' ∉ line
  closed : line.getLast? ≠ some '\r'

theorem lineStart {c : Char} {rest : Text} (unbroken : c ≠ '\n') (joined : c = '\r' → rest.head? ≠ some '\n') :
    lines (c :: rest) = match lines rest with
      | [] => [[c]]
      | line :: more => (c :: line) :: more := by
  rw [lines.eq_def]
  split
  · contradiction
  · rename_i same
    cases same
    contradiction
  · rename_i same
    cases same
    simp at joined
  · rename_i same
    cases same
    rfl

def withoutReturn (line : Text) : Text := if line.getLast? = some '\r' then line.dropLast else line

theorem linesBreak {line : Text} (unbroken : '\n' ∉ line) (rest : Text) :
    lines (line ++ '\n' :: rest) = line.withoutReturn :: lines rest := by
  induction line with
  | nil => rw [List.nil_append, lines]; rfl
  | cons c tail ih =>
    obtain ⟨first, later⟩ := not_or.mp (mt List.mem_cons.mpr unbroken)
    cases tail with
    | nil =>
      by_cases ends : c = '\r'
      · subst ends
        rw [List.singleton_append, lines]
        rfl
      · rw [List.singleton_append, lineStart (Ne.symm first) fun same => absurd same ends, lines]
        simp [withoutReturn, ends]
    | cons d tail =>
      have joined : c = '\r' → (d :: tail ++ '\n' :: rest).head? ≠ some '\n' := by
        intro _ broken
        exact later (List.mem_cons.mpr (.inl (Option.some.inj broken).symm))
      rw [List.cons_append, lineStart (Ne.symm first) joined, ih later]
      simp only [withoutReturn, List.getLast?_cons_cons, List.dropLast_cons_cons]
      split <;> rfl

theorem linesAlone {line : Text} (unbroken : '\n' ∉ line) (filled : line ≠ []) : lines line = [line] := by
  induction line with
  | nil => contradiction
  | cons c tail ih =>
    obtain ⟨first, later⟩ := not_or.mp (mt List.mem_cons.mpr unbroken)
    have joined : c = '\r' → tail.head? ≠ some '\n' := fun _ broken => later (List.mem_of_head? broken)
    rw [lineStart (Ne.symm first) joined]
    cases tail with
    | nil => rfl
    | cons d rest => rw [ih later (by simp)]

theorem Whole.linesAppend {line : Text} (whole : line.Whole) (rest : Text) :
    lines (line ++ '\n' :: rest) = line :: lines rest := by
  rw [linesBreak whole.unbroken, withoutReturn, if_neg whole.closed]

def settled : List Text → List Text
  | [] => []
  | [line] => if line.isEmpty then [] else [line]
  | line :: next :: more => line :: settled (next :: more)

theorem joinLinesLines {all : List Text} (whole : ∀ line ∈ all, Whole line) : (joinLines all).lines = settled all := by
  induction all with
  | nil => rfl
  | cons line more ih =>
    have own := whole line List.mem_cons_self
    have others := ih fun other member => whole other (List.mem_cons_of_mem line member)
    cases more with
    | nil =>
      cases line with
      | nil => rfl
      | cons c rest => exact linesAlone own.unbroken (List.cons_ne_nil c rest)
    | cons next rest =>
      rw [joinLines, own.linesAppend, others, settled]
      simp

theorem settledCases (all : List Text) : settled all = all ∨ all = settled all ++ [[]] := by
  induction all with
  | nil => exact .inl rfl
  | cons line more ih =>
    cases more with
    | nil => cases line <;> simp [settled]
    | cons next rest =>
      rw [settled]
      rcases ih with same | dropped
      · exact .inl (by rw [same])
      · exact .inr (by rw [List.cons_append, ← dropped])

theorem settledInside {all : List Text} {index : Nat} {line : Text} (here : (settled all)[index]? = some line) :
    all[index]? = some line := by
  rcases settledCases all with same | dropped
  · rwa [same] at here
  · have inside := (List.getElem?_eq_some_iff.mp here).1
    rw [dropped, List.getElem?_append_left inside, here]

theorem settledKeeps {all : List Text} {index : Nat} {line : Text} (here : all[index]? = some line)
    (filled : line ≠ []) :
    (settled all)[index]? = some line := by
  rcases settledCases all with same | dropped
  · rwa [same]
  · rw [dropped, List.getElem?_append] at here
    split at here
    · exact here
    · have last := List.mem_of_getElem? here
      exact absurd (List.mem_singleton.mp last) filled

theorem linesUnbroken (text : Text) : ∀ line ∈ text.lines, '\n' ∉ line := by
  fun_induction lines text with
  | case1 => simp
  | case2 rest ih => simpa using ih
  | case3 rest ih => simpa using ih
  | case4 c rest broken joined ended ih => simpa [eq_comm] using broken
  | case5 c rest broken joined first more cut ih =>
    rw [cut] at ih
    intro line member
    rcases List.mem_cons.mp member with rfl | later
    · intro broke
      rcases List.mem_cons.mp broke with same | inside
      · exact broken same.symm
      · exact ih first List.mem_cons_self inside
    · exact ih line (List.mem_cons_of_mem first later)

theorem linesRoom {text line : Text} {index : Nat} (here : text.lines[index]? = some line) :
    index + line.length ≤ text.length := by
  fun_induction lines text generalizing index line with
  | case1 => simp at here
  | case2 rest ih =>
    cases index with
    | zero =>
      cases here
      exact Nat.zero_le _
    | succ index =>
      have room := ih here
      simp only [List.length_cons]
      omega
  | case3 rest ih =>
    cases index with
    | zero =>
      cases here
      exact Nat.zero_le _
    | succ index =>
      have room := ih here
      simp only [List.length_cons]
      omega
  | case4 c rest broken joined ended ih =>
    cases index with
    | zero =>
      cases here
      simp
    | succ index => simp at here
  | case5 c rest broken joined first more cut ih =>
    rw [cut] at ih
    cases index with
    | zero =>
      cases here
      have room : 0 + first.length ≤ rest.length := ih rfl
      simp only [List.length_cons]
      omega
    | succ index =>
      have room : index + 1 + line.length ≤ rest.length := ih here
      simp only [List.length_cons]
      omega

theorem trimEndCons {c : Char} (visible : isBlank c = false) (rest : Text) :
    trimEnd (c :: rest) = c :: trimEnd rest := by
  simp only [trimEnd, List.reverse_cons, List.dropWhile_append]
  split <;> rename_i empty
  · simp [visible, List.isEmpty_iff.mp empty]
  · simp

theorem trimVisible {c : Char} (visible : isBlank c = false) (rest : Text) : trim (c :: rest) = c :: trimEnd rest := by
  rw [trim, trimStart, List.dropWhile_cons, visible]
  exact trimEndCons visible rest

theorem trimTrim (text : Text) : text.trim.trim = text.trim := by
  unfold trim
  cases start : text.trimStart with
  | nil => rfl
  | cons c rest =>
    have visible := trimStartBlankFree start
    rw [trimEndCons visible, trimStart, List.dropWhile_cons, visible]
    simp only [Bool.false_eq_true, if_false, trimEndCons visible, List.cons.injEq, true_and]
    simp only [trimEnd, List.reverse_reverse, List.dropWhile_idempotent]

theorem trimSublist (text : Text) : text.trim.Sublist text := by
  have back : text.trimStart.trimEnd.Sublist text.trimStart := by
    have cut := (List.dropWhile_sublist isBlank (l := text.trimStart.reverse)).reverse
    rwa [List.reverse_reverse] at cut
  exact back.trans (List.dropWhile_sublist isBlank)

theorem trimEndLast {text : Text} {c : Char} (last : text.trimEnd.getLast? = some c) : isBlank c = false := by
  simp only [trimEnd, List.getLast?_reverse] at last
  cases start : text.reverse.dropWhile isBlank with
  | nil => simp [start] at last
  | cons d rest =>
    rw [start] at last
    cases last
    exact trimStartBlankFree start

theorem trimWhole {line : Text} (unbroken : '\n' ∉ line) : line.trim.Whole := by
  refine ⟨fun member => unbroken ((trimSublist line).subset member), fun last => ?_⟩
  have blank := trimEndLast last
  revert blank
  decide

theorem trimEnding (text : Text) {ending : Text} (blank : ∀ c ∈ ending, isBlank c = true) :
    trim (text ++ ending) = trim text := by
  have cut (front : Text) : trimEnd (front ++ ending) = trimEnd front := by
    rw [trimEnd, List.reverse_append, List.dropWhile_append_of_pos (by simpa using blank), trimEnd]
  unfold trim
  rw [trimStart, List.dropWhile_append]
  split
  · rename_i none
    rw [List.dropWhile_eq_nil_iff.mpr blank, trimStart, List.isEmpty_iff.mp none]
  · exact cut _

theorem trimAround {left right : Text} (before : ∀ c ∈ left, isBlank c = true) (behind : ∀ c ∈ right, isBlank c = true)
    (text : Text) : trim (left ++ (text ++ right)) = text.trim := by
  have start : trim (left ++ (text ++ right)) = trim (text ++ right) := by
    rw [trim, trimStart, List.dropWhile_append_of_pos before, trim, trimStart]
  rw [start, trimEnding text behind]

theorem withoutReturnTrim (line : Text) : line.withoutReturn.trim = line.trim := by
  unfold withoutReturn
  split
  · rename_i last
    have blank : ∀ c ∈ ['\r'], isBlank c = true := List.forall_mem_singleton.mpr (by decide)
    rw [← trimEnding line.dropLast blank, List.dropLast_append_getLast? _ last]
  · rfl

theorem joinedTrimmed {all : List Text} (unbroken : ∀ line ∈ all, '\n' ∉ line) :
    (joinLines all).lines.map trim = (settled all).map trim := by
  induction all with
  | nil => rfl
  | cons line more ih =>
    have own := unbroken line List.mem_cons_self
    have others := ih fun other member => unbroken other (List.mem_cons_of_mem line member)
    cases more with
    | nil =>
      cases line with
      | nil => rfl
      | cons c rest => exact congrArg (List.map trim) (linesAlone own (List.cons_ne_nil c rest))
    | cons next rest =>
      rw [joinLines, linesBreak own, settled, List.map_cons, List.map_cons, others, withoutReturnTrim]
      simp

end Text

theorem Statement.endSilent {line label : Text} (ends : endLabel line = some label) : parse line = .ok .nothing := by
  have again : endLabel line.trim = some label := by
    rw [← ends, endLabel, endLabel, Text.trimTrim]
  have sign : ∃ rest, line.trim = '?' :: rest := by
    unfold endLabel at ends
    split at ends
    · rename_i marked
      simp only [markedName, bind, Option.bind_eq_some_iff] at marked
      obtain ⟨rest, keyword, _⟩ := marked
      exact ⟨_, expectSplit keyword⟩
    · simp at ends
  obtain ⟨rest, trimmed⟩ := sign
  rw [trimmed] at again
  simp [parse, trimmed, parseConditional, again]

namespace Expansion
variable {ω : Type}

theorem trimmedWhole (source : Text) : ∀ line ∈ trimmedLines source, line.Whole := by
  intro line member
  obtain ⟨raw, there, rfl⟩ := List.mem_map.mp member
  exact Text.trimWhole (Text.linesUnbroken source raw there)

def Plain (lines : List Text) : Prop := ∀ line ∈ lines, ∀ rule, Directive.ofLine? line ≠ some (.ok (.substitute rule))

instance (lines : List Text) : Decidable (Plain lines) :=
  decidable_of_iff (∀ line ∈ lines, (match Directive.ofLine? line with
      | some (.ok (.substitute _)) => false
      | _ => true) = true) <| by
    refine forall₂_congr fun line _ => ⟨fun other rule found => ?_, fun other => ?_⟩
    · simp [found] at other
    · split
      · rename_i rule found
        exact absurd found (other rule)
      · rfl

theorem gatherPlain {loader : Loader ω} {number : Nat} {lines : List Text} {registry loaded : Registry ω}
    {rules kept : List Rule} (plain : Plain lines)
    (h : gather loader number lines registry rules = (.ok kept, loaded)) : kept = rules := by
  induction lines generalizing number registry with
  | nil =>
    cases h
    rfl
  | cons line more ih =>
    have others : Plain more := fun other member => plain other (List.mem_cons_of_mem line member)
    unfold gather at h
    split at h
    · exact ih others h
    · simp at h
    · rename_i rule found
      exact absurd found (plain line List.mem_cons_self rule)
    · split at h
      · exact ih others h
      · simp at h

theorem loadPlain {source : Text} {settings : Settings} {loader : Loader ω} {world : ω}
    (plain : Plain (trimmedLines source)) :
    Machine.load source settings loader world =
      match gather loader 1 (trimmedLines source) Registry.initial [] with
      | (.ok _, registry) => .ok (Machine.ofLines (Text.settled (trimmedLines source)) registry settings world)
      | (.error report, _) => .error report := by
  unfold Machine.load expand
  cases gathered : gather loader 1 (trimmedLines source) Registry.initial [] with
  | mk result registry =>
    cases result with
    | error report => rfl
    | ok rules =>
      have none := gatherPlain plain gathered
      simp only [none, Rule.applyAll, List.foldl_nil, Text.joinLinesLines (trimmedWhole source)]

theorem loadedPlain {source : Text} {settings : Settings} {loader : Loader ω} {world : ω} {start : Machine ω}
    (plain : Plain (trimmedLines source)) (loaded : Machine.load source settings loader world = .ok start) :
    start.lines = (Text.settled (trimmedLines source)).toArray := by
  rw [loadPlain plain] at loaded
  split at loaded
  · cases loaded
    rfl
  · simp at loaded

theorem gatherBehind (loader : Loader ω) {place number : Nat} (later : place ≤ number) (lines : List Text)
    (registry : Registry ω) (rules : List Rule) :
    gather loader (number + 1) lines registry rules =
      ((gather loader number lines registry rules).1.mapError (Report.shiftFrom place),
        (gather loader number lines registry rules).2) := by
  induction lines generalizing number registry rules with
  | nil => rfl
  | cons line more ih =>
    unfold gather
    split
    · exact ih (by omega) registry rules
    · simp [Report.shiftFrom, shiftFrom, later]
    · exact ih (by omega) registry _
    · split
      · exact ih (by omega) _ rules
      · simp [Report.shiftFrom, shiftFrom, later]

theorem gatherInsert (loader : Loader ω) {line : Text} (silent : Directive.ofLine? line = none)
    (number : Nat) (before behind : List Text) (registry : Registry ω) (rules : List Rule) :
    gather loader number (before ++ line :: behind) registry rules =
      ((gather loader number (before ++ behind) registry rules).1.mapError (Report.shiftFrom (number + before.length)),
        (gather loader number (before ++ behind) registry rules).2) := by
  induction before generalizing number registry rules with
  | nil =>
    rw [List.nil_append, List.nil_append, gather, silent]
    exact gatherBehind loader (Nat.le_refl number) behind registry rules
  | cons first before ih =>
    have place : number + (first :: before).length = number + 1 + before.length := by
      simp only [List.length_cons]
      omega
    have earlier : ¬number + 1 + before.length ≤ number := by omega
    rw [List.cons_append, List.cons_append, place]
    unfold gather
    split
    · exact ih _ registry rules
    · simp [Report.shiftFrom, shiftFrom, earlier]
    · exact ih _ registry _
    · split
      · exact ih _ _ rules
      · simp [Report.shiftFrom, shiftFrom, earlier]

end Expansion
end Sigil
