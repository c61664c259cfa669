import Sigil.Expansion
import Sigil.Proofs.Written

/-! Replacement over a whole program is replacement in each of its lines. A needle is a word, so it holds no line
break and no occurrence of it reaches across one; a replacement comes from one line, so it brings none in. -/
namespace Sigil

namespace Text
variable {needle replacement text : Text}

structure First (needle text before rest : Text) : Prop where
  here : text = before ++ needle ++ rest
  least : ∀ shorter tail, text = shorter ++ needle ++ tail → before.length ≤ shorter.length

theorem First.tail {c : Char} {rest before behind : Text} (first : First needle (c :: rest) (c :: before) behind) :
    First needle rest before behind where
  here := by simpa using first.here
  least shorter tail same := by
    have longer := first.least (c :: shorter) tail (by simp [same])
    simpa using longer

theorem firstExists (found : needle <:+: text) : ∃ before rest, First needle text before rest := by
  induction text with
  | nil =>
    obtain rfl := List.infix_nil.mp found
    exact ⟨[], [], rfl, fun _ _ _ => Nat.zero_le _⟩
  | cons c tail ih =>
    by_cases starts : needle <+: c :: tail
    · obtain ⟨rest, same⟩ := starts
      exact ⟨[], rest, same.symm, fun _ _ _ => Nat.zero_le _⟩
    · obtain ⟨before, rest, first⟩ := ih ((List.infix_cons_iff.mp found).resolve_left starts)
      refine ⟨c :: before, rest, by simp [first.here], fun shorter behind same => ?_⟩
      cases shorter with
      | nil => exact absurd ⟨behind, same.symm⟩ starts
      | cons d shorter =>
        rw [List.cons_append, List.cons_append, List.cons.injEq] at same
        exact Nat.succ_le_succ (first.least shorter behind same.2)

theorem replaceSkip (skip : Nat) (text : Text) :
    replaceFrom needle replacement skip text = replace needle replacement (text.drop skip) := by
  induction text generalizing skip with
  | nil => cases skip <;> rfl
  | cons c rest ih =>
    cases skip with
    | zero => rfl
    | succ skip => rw [replaceFrom, ih, List.drop_succ_cons]

theorem replaceStart (filled : needle ≠ []) (rest : Text) :
    replace needle replacement (needle ++ rest) = replacement ++ replace needle replacement rest := by
  obtain ⟨c, tail, rfl⟩ := List.exists_cons_of_ne_nil filled
  have starts : (c :: tail).isPrefixOf (c :: (tail ++ rest)) = true := List.isPrefixOf_iff_prefix.mpr ⟨rest, rfl⟩
  rw [replace, List.cons_append, replaceFrom, if_pos starts, replaceSkip, List.length_cons, Nat.add_sub_cancel,
    List.drop_left]

theorem replaceOther {c : Char} {rest : Text} (other : ¬needle <+: c :: rest) :
    replace needle replacement (c :: rest) = c :: replace needle replacement rest := by
  rw [replace, replaceFrom, if_neg (mt List.isPrefixOf_iff_prefix.mp other), replace]

theorem replaceFree (free : ¬needle <:+: text) : replace needle replacement text = text := by
  induction text with
  | nil => rfl
  | cons c rest ih =>
    obtain ⟨other, later⟩ := not_or.mp (mt List.infix_cons_iff.mpr free)
    rw [replaceOther other, ih later]

theorem replaceFirst (filled : needle ≠ []) {before rest : Text} (first : First needle text before rest) :
    replace needle replacement text = before ++ replacement ++ replace needle replacement rest := by
  induction before generalizing text with
  | nil => rw [first.here, List.nil_append, replaceStart filled, List.nil_append]
  | cons c before ih =>
    cases text with
    | nil => simpa using first.here
    | cons d text =>
      obtain ⟨rfl, _⟩ := List.cons.inj first.here
      have other : ¬needle <+: d :: text := by
        rintro ⟨tail, same⟩
        have least := first.least [] tail same.symm
        simp at least
      rw [replaceOther other, ih first.tail, List.cons_append, List.cons_append]

theorem prefixLine (unbroken : '\n' ∉ needle) (line rest : Text) :
    needle.isPrefixOf (line ++ '\n' :: rest) = needle.isPrefixOf line := by
  induction needle generalizing line with
  | nil => simp
  | cons d needle ih =>
    obtain ⟨other, later⟩ := not_or.mp (mt List.mem_cons.mpr unbroken)
    cases line with
    | nil => simp [List.isPrefixOf, Ne.symm other]
    | cons c line => simp [List.isPrefixOf, ih later]

theorem replaceFromLine (filled : needle ≠ []) (unbroken : '\n' ∉ needle) {skip : Nat} {line : Text}
    (inside : skip ≤ line.length) (rest : Text) :
    replaceFrom needle replacement skip (line ++ '\n' :: rest) =
      replaceFrom needle replacement skip line ++ '\n' :: replace needle replacement rest := by
  induction line generalizing skip with
  | nil =>
    obtain rfl : skip = 0 := Nat.le_zero.mp inside
    have other : ¬needle <+: '\n' :: rest := by
      rintro ⟨tail, same⟩
      obtain ⟨c, needle, rfl⟩ := List.exists_cons_of_ne_nil filled
      obtain ⟨rfl, _⟩ := List.cons.inj same
      exact unbroken List.mem_cons_self
    exact replaceOther other
  | cons c line ih =>
    cases skip with
    | succ skip =>
      rw [List.cons_append, replaceFrom, replaceFrom]
      exact ih (Nat.le_of_succ_le_succ inside)
    | zero =>
      rw [List.cons_append, replaceFrom, replaceFrom, ← List.cons_append, prefixLine unbroken]
      split
      · rename_i starts
        have short := (List.isPrefixOf_iff_prefix.mp starts).length_le
        rw [List.length_cons] at short
        rw [ih (by omega), List.append_assoc]
      · rw [ih (Nat.zero_le _), List.cons_append]

theorem replaceJoined (filled : needle ≠ []) (unbroken : '\n' ∉ needle) (lines : List Text) :
    replace needle replacement (joinLines lines) = joinLines (lines.map (replace needle replacement)) := by
  induction lines with
  | nil => rfl
  | cons line more ih =>
    cases more with
    | nil => rfl
    | cons next rest =>
      rw [joinLines, replace, replaceFromLine filled unbroken (Nat.zero_le _), ih]
      · rfl
      · simp

theorem replaceUnbroken (kept : '\n' ∉ text) (added : '\n' ∉ replacement) :
    '\n' ∉ replace needle replacement text := by
  have any (skip : Nat) : '\n' ∉ replaceFrom needle replacement skip text := by
    induction text generalizing skip with
    | nil => cases skip <;> simp [replaceFrom]
    | cons c rest ih =>
      obtain ⟨other, later⟩ := not_or.mp (mt List.mem_cons.mpr kept)
      cases skip with
      | succ skip => exact ih later skip
      | zero =>
        rw [replaceFrom]
        split
        · simp [added, ih later]
        · simp [other, ih later]
  exact any 0

theorem fieldsJoined {lines : List Text} (filled : lines ≠ []) (unbroken : ∀ line ∈ lines, '\n' ∉ line) :
    fields '\n' (joinLines lines) = lines := by
  induction lines with
  | nil => contradiction
  | cons line more ih =>
    have own := unbroken line List.mem_cons_self
    cases more with
    | nil => exact fieldsAlone own
    | cons next rest =>
      have later := ih (by simp) fun other member => unbroken other (List.mem_cons_of_mem line member)
      rw [joinLines, fieldsAppend own, later]
      simp

end Text

namespace Rule

/- Every occurrence of the needle is replaced, where each is the first one behind the last. -/
inductive Rewrites (rule : Rule) : Text → Text → Prop where
  | free {text} (none : ¬rule.needle <:+: text) : Rewrites rule text text
  | found {text before rest result} (first : Text.First rule.needle text before rest)
      (more : Rewrites rule rest result) : Rewrites rule text (before ++ rule.replacement ++ result)

theorem rewritesApply {rule : Rule} (filled : rule.needle ≠ []) (text : Text) :
    rule.Rewrites text (rule.apply text) := by
  by_cases found : rule.needle <:+: text
  · obtain ⟨before, rest, first⟩ := Text.firstExists found
    have shorter : rest.length < text.length := by
      have positive := List.length_pos_iff.mpr filled
      rw [first.here, List.length_append, List.length_append]
      omega
    rw [Rule.apply, Text.replaceFirst filled first]
    exact .found first (rewritesApply filled rest)
  · rw [Rule.apply, Text.replaceFree found]
    exact .free found
termination_by text.length

theorem rewritesIff {rule : Rule} (filled : rule.needle ≠ []) {text result : Text} :
    rule.Rewrites text result ↔ result = rule.apply text := by
  constructor
  · intro rewrites
    induction rewrites with
    | free none => exact (Text.replaceFree none).symm
    | found first more ih => rw [ih, Rule.apply, Rule.apply, Text.replaceFirst filled first]
  · rintro rfl
    exact rewritesApply filled text

structure Inline (rule : Rule) : Prop where
  filled : rule.needle ≠ []
  needle : '\n' ∉ rule.needle
  replacement : '\n' ∉ rule.replacement

/- The rules that count, of those written: each needle once, at the place where it is first written, and with the
replacement that is written for it last. -/
structure Merged (written rules : List Rule) : Prop where
  order : rules.map Rule.needle = (written.map Rule.needle).eraseDups
  distinct : (rules.map Rule.needle).Nodup
  latest : ∀ rule ∈ rules, ∃ before behind, written = before ++ rule :: behind ∧
    ∀ other ∈ behind, other.needle ≠ rule.needle

theorem mergedNil : Merged [] [] := ⟨rfl, List.nodup_nil, by simp⟩

theorem eraseDupsConcat (names : List Text) (name : Text) :
    (names ++ [name]).eraseDups = if name ∈ names then names.eraseDups else names.eraseDups ++ [name] := by
  rw [List.eraseDups_append]
  by_cases known : name ∈ names <;> simp [List.removeAll, List.eraseDups_cons, known]

theorem recordNeedles (rule : Rule) (rules : List Rule) :
    (rule.record rules).map Rule.needle =
      if rule.needle ∈ rules.map Rule.needle then rules.map Rule.needle
      else rules.map Rule.needle ++ [rule.needle] := by
  induction rules with
  | nil => simp [record]
  | cons first rest ih =>
    rw [record]
    split
    · rename_i same
      simp [same]
    · rename_i other
      rw [List.map_cons, ih]
      split <;> rename_i known <;> simp [known, Ne.symm other]

theorem recordMember {rule other : Rule} {rules : List Rule} (distinct : (rules.map Rule.needle).Nodup)
    (member : other ∈ rule.record rules) : other = rule ∨ other ∈ rules ∧ other.needle ≠ rule.needle := by
  induction rules with
  | nil => exact .inl (by simpa [record] using member)
  | cons first rest ih =>
    obtain ⟨fresh, distinct⟩ := List.nodup_cons.mp distinct
    rw [record] at member
    split at member
    · rename_i same
      rcases List.mem_cons.mp member with here | later
      · exact .inl here
      · refine .inr ⟨List.mem_cons_of_mem first later, fun again => fresh ?_⟩
        exact List.mem_map.mpr ⟨other, later, again.trans same.symm⟩
    · rename_i different
      rcases List.mem_cons.mp member with rfl | later
      · exact .inr ⟨List.mem_cons_self, different⟩
      · rcases ih distinct later with here | ⟨there, apart⟩
        · exact .inl here
        · exact .inr ⟨List.mem_cons_of_mem first there, apart⟩

theorem Merged.record {written rules : List Rule} (merged : Merged written rules) (rule : Rule) :
    Merged (written ++ [rule]) (rule.record rules) where
  order := by
    have known : rule.needle ∈ rules.map Rule.needle ↔ rule.needle ∈ written.map Rule.needle := by
      rw [merged.order, List.mem_eraseDups]
    rw [recordNeedles, List.map_append, List.map_singleton, eraseDupsConcat, ← merged.order]
    simp only [known]
  distinct := by
    rw [recordNeedles]
    split
    · exact merged.distinct
    · rename_i fresh
      simpa [List.nodup_append, merged.distinct] using fresh
  latest other member := by
    rcases recordMember merged.distinct member with rfl | ⟨old, different⟩
    · exact ⟨written, [], rfl, by simp⟩
    · obtain ⟨before, behind, rfl, last⟩ := merged.latest other old
      refine ⟨before, behind ++ [rule], by simp, fun later there => ?_⟩
      rcases List.mem_append.mp there with inside | added
      · exact last later inside
      · rw [List.mem_singleton.mp added]
        exact Ne.symm different

theorem Merged.members {written rules : List Rule} (merged : Merged written rules) {rule : Rule}
    (member : rule ∈ rules) :
    rule ∈ written := by
  obtain ⟨before, behind, rfl, _⟩ := merged.latest rule member
  simp

end Rule

namespace Directive

def rule? (line : Text) : Option Rule :=
  match ofLine? line with
  | some (.ok (.substitute rule)) => some rule
  | _ => none

theorem splitWordInside {text word rest : Text} (h : splitWord text = (word, rest)) :
    (∀ c ∈ word, Text.isBlank c = false) ∧ rest.Sublist text := by
  simp only [splitWord, Prod.mk.injEq] at h
  obtain ⟨rfl, rfl⟩ := h
  constructor
  · intro c member
    simpa using List.mem_takeWhile_imp member
  · exact (Text.trimSublist _).trans ((List.dropWhile_sublist _).trans (List.dropWhile_sublist _))

theorem parseRule {line directive : Text} {rule : Rule} (h : parse line directive = .ok (.substitute rule)) :
    rule.needle ≠ [] ∧ (∀ c ∈ rule.needle, Text.isBlank c = false) ∧ rule.replacement.Sublist directive := by
  unfold parse at h
  cases keyed : splitWord directive with
  | mk keyword rest =>
    cases worded : splitWord rest with
    | mk needle replacement =>
      simp only [keyed, worded] at h
      split at h
      · split at h <;> simp at h
      · split at h
        · split at h
          · simp at h
          · rename_i filled
            cases h
            have word := splitWordInside worded
            exact ⟨by simpa using filled, word.1, word.2.trans (splitWordInside keyed).2⟩
        · simp at h

theorem ruleInline {line : Text} {rule : Rule} (h : rule? line = some rule) (unbroken : '\n' ∉ line) : rule.Inline := by
  unfold rule? at h
  split at h <;> cases h
  rename_i read
  unfold ofLine? at read
  split at read
  · rename_i directive
    obtain ⟨filled, visible, inside⟩ := parseRule (Option.some.inj read)
    refine ⟨filled, fun member => ?_, fun member => unbroken ?_⟩
    · have blank := visible '\n' member
      revert blank
      decide
    · exact List.mem_cons_of_mem _ (inside.subset member)
  · simp at read

end Directive

namespace Expansion
variable {ω : Type}

def written (source : Text) : List Rule := (trimmedLines source).filterMap Directive.rule?

theorem gatherMerged {loader : Loader ω} {number : Nat} {lines : List Text} {registry loaded : Registry ω}
    {earlier rules kept : List Rule} (merged : Rule.Merged earlier rules)
    (h : gather loader number lines registry rules = (.ok kept, loaded)) :
    Rule.Merged (earlier ++ lines.filterMap Directive.rule?) kept := by
  induction lines generalizing number registry earlier rules with
  | nil =>
    cases h
    simpa using merged
  | cons line more ih =>
    unfold gather at h
    split at h <;> rename_i read
    · simpa [Directive.rule?, read] using ih merged h
    · simp at h
    · rename_i rule
      simpa [Directive.rule?, read] using ih (merged.record rule) h
    · split at h
      · simpa [Directive.rule?, read] using ih merged h
      · simp at h

theorem applyAllJoined {rules : List Rule} (inLine : ∀ rule ∈ rules, rule.Inline) (lines : List Text) :
    Rule.applyAll rules (Text.joinLines lines) = Text.joinLines (lines.map (Rule.applyAll rules)) := by
  induction rules generalizing lines with
  | nil => exact congrArg Text.joinLines (List.map_id lines).symm
  | cons rule rest ih =>
    have own := inLine rule List.mem_cons_self
    have others := ih fun other member => inLine other (List.mem_cons_of_mem rule member)
    calc Rule.applyAll (rule :: rest) (Text.joinLines lines)
        = Rule.applyAll rest (rule.apply (Text.joinLines lines)) := rfl
      _ = Rule.applyAll rest (Text.joinLines (lines.map rule.apply)) := by
          rw [Rule.apply, Text.replaceJoined own.filled own.needle]; rfl
      _ = Text.joinLines ((lines.map rule.apply).map (Rule.applyAll rest)) := others _
      _ = Text.joinLines (lines.map (Rule.applyAll (rule :: rest))) := by rw [List.map_map]; rfl

theorem applyAllUnbroken {rules : List Rule} (inLine : ∀ rule ∈ rules, rule.Inline) {line : Text}
    (unbroken : '\n' ∉ line) : '\n' ∉ Rule.applyAll rules line := by
  induction rules generalizing line with
  | nil => exact unbroken
  | cons rule rest ih =>
    have own := inLine rule List.mem_cons_self
    refine ih (fun other member => inLine other (List.mem_cons_of_mem rule member)) ?_
    exact Text.replaceUnbroken unbroken own.replacement

theorem writtenInline (source : Text) : ∀ rule ∈ written source, rule.Inline := by
  intro rule member
  obtain ⟨line, there, read⟩ := List.mem_filterMap.mp member
  exact Directive.ruleInline read (trimmedWhole source line there).unbroken

theorem expandedByLine {loader : Loader ω} {registry loaded : Registry ω} {source program : Text}
    (expanded : expand loader registry source = (.ok program, loaded)) :
    ∃ rules, Rule.Merged (written source) rules ∧
      (∀ rule ∈ rules, ∀ text result, rule.Rewrites text result ↔ result = rule.apply text) ∧
      program = Text.joinLines (source.lines.map fun line => Rule.applyAll rules line.trim) ∧
      (source.lines ≠ [] →
        Text.fields '\n' program = source.lines.map fun line => Rule.applyAll rules line.trim) := by
  unfold expand at expanded
  split at expanded
  · rename_i rules _ gathered
    cases expanded
    have merged : Rule.Merged (written source) rules := gatherMerged Rule.mergedNil gathered
    have inLine rule (member : rule ∈ rules) := writtenInline source rule (merged.members member)
    have byLine := applyAllJoined inLine (trimmedLines source)
    rw [trimmedLines, List.map_map] at byLine
    refine ⟨rules, merged, fun rule member text result => Rule.rewritesIff (inLine rule member).filled, byLine, ?_⟩
    intro filled
    rw [trimmedLines, byLine]
    refine Text.fieldsJoined (by simpa using filled) fun line member => ?_
    obtain ⟨raw, there, rfl⟩ := List.mem_map.mp member
    exact applyAllUnbroken inLine (Text.trimWhole (Text.linesUnbroken source raw there)).unbroken
  · simp at expanded

theorem expandedByLineChained :
    expand Catalog.empty.load (Registry.initial : Registry Unit)
        "+replace x z\n+replace y w\n  +replace x y y\ny x".toList =
      (.ok "+replace w w z\n+replace w w\n+replace w w w w\nw w w".toList, Registry.initial) ∧
    ∃ rules, Rule.Merged [⟨['x'], ['z']⟩, ⟨['y'], ['w']⟩, ⟨['x'], ['y', ' ', 'y']⟩] rules ∧
      Text.fields '\n' "+replace w w z\n+replace w w\n+replace w w w w\nw w w".toList =
        ["+replace x z".toList, "+replace y w".toList, "+replace x y y".toList, "y x".toList].map
          (Rule.applyAll rules) := by
  have expanded : expand Catalog.empty.load (Registry.initial : Registry Unit)
      "+replace x z\n+replace y w\n  +replace x y y\ny x".toList =
        (.ok "+replace w w z\n+replace w w\n+replace w w w w\nw w w".toList, Registry.initial) := rfl
  obtain ⟨rules, merged, _, _, kept⟩ := expandedByLine expanded
  exact ⟨expanded, rules, merged, kept (by decide)⟩

end Expansion
end Sigil
