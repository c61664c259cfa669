import Sigil.Proofs.Written

/-! Lists of arguments as they can be written: blanks, groups in parentheses with commas between them, and perhaps one
more comma. The reader takes exactly these texts, each of them is such a list in one way only, and it answers what
stands in the groups. -/
namespace Sigil.Token

@[ext] structure Gap where
  text : Text
  blank : ∀ c ∈ text, Text.isBlank c = true

@[ext] structure Group where
  inner : Text
  balanced : Balanced inner

namespace Gap

def Ends (rest : Text) : Prop := ∀ c, rest.head? = some c → Text.isBlank c = false

def leading (text : Text) : Gap := ⟨text.takeWhile Text.isBlank, fun _ member => List.mem_takeWhile_imp member⟩

theorem leadingSplit (text : Text) : (leading text).text ++ text.trimStart = text := List.takeWhile_append_dropWhile

theorem leadingAll {text : Text} (nothing : text.trimStart = []) : (leading text).text = text := by
  have split := leadingSplit text
  rwa [nothing, List.append_nil] at split

theorem nothing (gap : Gap) : gap.text.trimStart = [] := List.dropWhile_eq_nil_iff.mpr gap.blank

theorem endsComma (rest : Text) : Ends (',' :: rest) := by
  intro c found
  cases found
  decide

theorem trimStart (gap : Gap) {rest : Text} (ends : Ends rest) : Text.trimStart (gap.text ++ rest) = rest :=
  (Text.takenWhole gap.blank ends).2

theorem unique {gap other : Gap} {rest more : Text} (ends : Ends rest) (otherEnds : Ends more)
    (same : gap.text ++ rest = other.text ++ more) : gap = other ∧ rest = more := by
  obtain ⟨taken, left⟩ := Text.takenWhole gap.blank ends
  obtain ⟨otherTaken, otherLeft⟩ := Text.takenWhole other.blank otherEnds
  rw [same] at taken left
  exact ⟨Gap.ext (taken.symm.trans otherTaken), left.symm.trans otherLeft⟩

end Gap

namespace Group

def text (group : Group) : Text := Statement.inParens group.inner

theorem ends (group : Group) (rest : Text) : Gap.Ends (group.text ++ rest) := by
  intro c found
  cases found
  decide

theorem closes (group : Group) (rest : Text) :
    closeGroup (.outside 1) (group.inner ++ ')' :: rest) = some (group.inner, rest) :=
  closeGroupIff.mpr ⟨group.balanced, rfl⟩

theorem unique {group other : Group} {rest more : Text} (same : group.text ++ rest = other.text ++ more) :
    group = other ∧ rest = more := by
  have inside : group.inner ++ ')' :: rest = other.inner ++ ')' :: more := by
    simpa [text, Statement.inParens] using same
  have closed := group.closes rest
  rw [inside, other.closes more, Option.some.injEq, Prod.mk.injEq] at closed
  exact ⟨Group.ext closed.1.symm, closed.2.symm⟩

end Group

structure Separated where
  before : Gap
  behind : Gap
  group : Group

inductive Listing where
  | blank (gap : Gap)
  | groups (lead : Gap) (first : Group) (others : List Separated) (comma : Option Gap) (last : Gap)

namespace Listing

def ending : Option Gap → Gap → Text
  | none, last => last.text
  | some gap, last => gap.text ++ ',' :: last.text

def tail (others : List Separated) (comma : Option Gap) (last : Gap) : Text :=
  (others.flatMap fun other => other.before.text ++ ',' :: (other.behind.text ++ other.group.text)) ++ ending comma last

def text : Listing → Text
  | blank gap => gap.text
  | groups lead first others comma last => lead.text ++ (first.text ++ tail others comma last)

def args : Listing → List Text
  | blank _ => []
  | groups _ first others _ _ => first.inner.trim :: others.map fun other => other.group.inner.trim

theorem readBlank (gap : Gap) : arguments gap.text = .ok [] := by
  rw [arguments]
  split
  · rfl
  · rename_i start
    simp [gap.nothing] at start

theorem readLast (lead : Gap) (first : Group) (last : Gap) :
    arguments (lead.text ++ (first.text ++ last.text)) = .ok [first.inner.trim] := by
  rw [Group.text, argumentsGroup lead.blank first.balanced, last.nothing]

theorem readNext (lead : Gap) (first : Group) (before : Gap) (more : Text) :
    arguments (lead.text ++ (first.text ++ (before.text ++ ',' :: more))) =
      (arguments more).map (first.inner.trim :: ·) := by
  rw [Group.text, argumentsGroup lead.blank first.balanced, before.trimStart (Gap.endsComma more)]
  exact if_pos rfl

theorem tailCons (other : Separated) (others : List Separated) (comma : Option Gap) (last : Gap) :
    tail (other :: others) comma last =
      other.before.text ++ ',' :: (groups other.behind other.group others comma last).text := by
  simp [tail, text]

theorem readGroups (lead : Gap) (first : Group) (others : List Separated) (comma : Option Gap) (last : Gap) :
    arguments (groups lead first others comma last).text = .ok (groups lead first others comma last).args := by
  induction others generalizing lead first with
  | nil =>
    cases comma with
    | none => exact readLast lead first last
    | some gap =>
      have read := readNext lead first gap last.text
      rw [readBlank] at read
      exact read
  | cons other others ih =>
    rw [text, tailCons, readNext, ih]
    rfl

theorem read (listing : Listing) : arguments listing.text = .ok listing.args := by
  cases listing with
  | blank gap => exact readBlank gap
  | groups lead first others comma last => exact readGroups lead first others comma last

def prepend (lead : Gap) (first : Group) (before : Gap) : Listing → Listing
  | blank gap => groups lead first [] (some before) gap
  | groups behind second others comma last => groups lead first (⟨before, behind, second⟩ :: others) comma last

theorem prependText (lead : Gap) (first : Group) (before : Gap) (listing : Listing) :
    (listing.prepend lead first before).text = lead.text ++ (first.text ++ (before.text ++ ',' :: listing.text)) := by
  cases listing with
  | blank gap => rfl
  | groups => rw [prepend, text, tailCons]

theorem prependArgs (lead : Gap) (first : Group) (before : Gap) (listing : Listing) :
    (listing.prepend lead first before).args = first.inner.trim :: listing.args := by
  cases listing <;> rfl

theorem written {input : Text} {args : List Text} (h : arguments input = .ok args) :
    ∃ listing : Listing, listing.text = input ∧ listing.args = args := by
  fun_induction arguments input generalizing args with
  | case1 input start =>
    cases h
    exact ⟨blank (.leading input), Gap.leadingAll start, rfl⟩
  | case2 => simp at h
  | case3 input tail inner rest close after start =>
    cases h
    obtain ⟨balanced, rfl⟩ := closeGroupIff.mp close
    have split := Gap.leadingSplit input
    rw [start] at split
    refine ⟨groups (.leading input) ⟨inner, balanced⟩ [] none (.leading rest), ?_, rfl⟩
    simpa [text, Group.text, Listing.tail, ending, Statement.inParens, Gap.leadingAll after] using split
  | case4 input tail inner rest close more start after smaller ih =>
    obtain ⟨others, found, same⟩ := mapOk h
    cases same
    obtain ⟨balanced, rfl⟩ := closeGroupIff.mp close
    obtain ⟨listing, rfl, rfl⟩ := ih found
    have split := Gap.leadingSplit input
    have behind := Gap.leadingSplit rest
    rw [start] at split
    rw [after] at behind
    refine ⟨listing.prepend (.leading input) ⟨inner, balanced⟩ (.leading rest), ?_, prependArgs _ _ _ listing⟩
    rw [prependText]
    simpa [Group.text, Statement.inParens, behind] using split
  | case5 => simp at h
  | case6 => simp at h

theorem endingUnique {comma other : Option Gap} {last otherLast : Gap}
    (same : ending comma last = ending other otherLast) : comma = other ∧ last = otherLast := by
  have closed (gap last last' : Gap) : last.text ≠ gap.text ++ ',' :: last'.text := by
    intro written
    have blank := last.blank ',' (by simp [written])
    revert blank
    decide
  cases comma with
  | none =>
    cases other with
    | none => exact ⟨rfl, Gap.ext same⟩
    | some gap => exact absurd same (closed gap last otherLast)
  | some gap =>
    cases other with
    | none => exact absurd same.symm (closed gap otherLast last)
    | some otherGap =>
      obtain ⟨rfl, rest⟩ := Gap.unique (Gap.endsComma _) (Gap.endsComma _) same
      exact ⟨rfl, Gap.ext (List.cons_inj_right ',' |>.mp rest)⟩

theorem groupsUnique {lead otherLead : Gap} {first otherFirst : Group} {others more : List Separated}
    {comma otherComma : Option Gap} {last otherLast : Gap} (count : others.length = more.length)
    (same : (groups lead first others comma last).text = (groups otherLead otherFirst more otherComma otherLast).text) :
    groups lead first others comma last = groups otherLead otherFirst more otherComma otherLast := by
  induction others generalizing lead otherLead first otherFirst more with
  | nil =>
    obtain rfl := List.length_eq_zero_iff.mp count.symm
    obtain ⟨rfl, rest⟩ := Gap.unique (first.ends _) (otherFirst.ends _) same
    obtain ⟨rfl, ended⟩ := Group.unique rest
    obtain ⟨rfl, rfl⟩ := endingUnique ended
    rfl
  | cons other others ih =>
    cases more with
    | nil => simp at count
    | cons next more =>
      obtain ⟨rfl, rest⟩ := Gap.unique (first.ends _) (otherFirst.ends _) same
      obtain ⟨rfl, tails⟩ := Group.unique rest
      rw [tailCons, tailCons] at tails
      obtain ⟨before, separated⟩ := Gap.unique (Gap.endsComma _) (Gap.endsComma _) tails
      have later := ih (by simpa using count) (List.cons_inj_right ',' |>.mp separated)
      obtain ⟨gap, behind, group⟩ := other
      obtain ⟨otherGap, otherBehind, otherGroup⟩ := next
      cases before
      cases later
      rfl

theorem textInjective : Function.Injective text := by
  intro listing other same
  -- Both are read as the same arguments, so that they have as many groups.
  have args : listing.args = other.args := by
    have read := listing.read
    rw [same, other.read] at read
    exact (Except.ok.inj read).symm
  cases listing with
  | blank gap =>
    cases other with
    | blank otherGap => exact congrArg blank (Gap.ext same)
    | groups => simp [Listing.args] at args
  | groups lead first others comma last =>
    cases other with
    | blank => simp [Listing.args] at args
    | groups otherLead otherFirst more otherComma otherLast =>
      refine groupsUnique ?_ same
      simpa [Listing.args] using congrArg List.length args

theorem listingsRead :
    (∀ (input : Text) (args : List Text),
      arguments input = .ok args ↔ ∃ listing : Listing, listing.text = input ∧ listing.args = args) ∧
    Function.Injective text ∧
    ∀ lead first others comma last, arguments (groups lead first others (some comma) last).text =
      arguments (groups lead first others none last).text := by
  refine ⟨fun input args => ⟨written, ?_⟩, textInjective, fun lead first others comma last => ?_⟩
  · rintro ⟨listing, rfl, rfl⟩
    exact listing.read
  · rw [readGroups, readGroups]
    rfl

end Listing

end Sigil.Token
