import Sigil.Proofs.Listing

/-! Operands between blanks. A text that can be cut into operands is made of them and of the blanks around them, and
with any other blanks between them they are cut out again. A text that cannot be cut is one that ends inside a string
or a group, as a single scan through all of it tells. -/
namespace Sigil.Token

/- Every blank of a word stands in a quoted string or in a group. A parenthesis that closes nothing is a character
like others. -/
inductive Compact : Text → Prop where
  | nil : Compact []
  | plain {c : Char} {rest : Text} (visible : Text.isBlank c = false) (free : c ≠ '"' ∧ c ≠ '(') (tail : Compact rest) :
      Compact (c :: rest)
  | quoted {body rest : Text} (string : StringBody body) (tail : Compact rest) : Compact ('"' :: (body ++ '"' :: rest))
  | group {inner rest : Text} (inside : Balanced inner) (tail : Compact rest) : Compact ('(' :: (inner ++ ')' :: rest))

theorem wordInside {here : Nesting} (c : Char) (rest : Text) (inside : here ≠ .outside 0) :
    word here (c :: rest) = ahead [c] (word (here.next c) rest) := wordStep rest fun both => inside both.1

theorem nextPlain {c : Char} (free : c ≠ '"' ∧ c ≠ '(') : (Nesting.outside 0).next c = .outside 0 := by
  simp only [Nesting.next, if_neg free.1, if_neg free.2]
  split <;> rfl

theorem wordString {body : Text} (string : StringBody body) (depth : Nat) (rest : Text) :
    word (.quoted depth) (body ++ '"' :: rest) = ahead (body ++ ['"']) (word (.outside depth) rest) := by
  induction string with
  | nil => exact wordInside '"' rest (by simp)
  | @plain c tail free _ ih =>
    have stay : (Nesting.quoted depth).next c = .quoted depth := by simp [Nesting.next, free]
    rw [List.cons_append, wordInside c _ (by simp), stay, ih, ← aheadAppend]
    rfl
  | @escaped c tail _ ih =>
    have slash : (Nesting.quoted depth).next '\\' = .escaped depth := rfl
    have back : (Nesting.escaped depth).next c = .quoted depth := rfl
    rw [List.cons_append, List.cons_append, wordInside '\\' _ (by simp), slash, wordInside c _ (by simp), back, ih,
      ← aheadAppend, ← aheadAppend]
    rfl

theorem stringEnds (depth : Nat) (text : Text) :
    (∃ body rest, StringBody body ∧ text = body ++ '"' :: rest) ∨ word (.quoted depth) text = none := by
  match text with
  | [] => exact .inr rfl
  | c :: tail =>
    by_cases quote : c = '"'
    · subst quote
      exact .inl ⟨[], tail, .nil, rfl⟩
    · by_cases slash : c = '\\'
      · subst slash
        match tail with
        | [] => exact .inr rfl
        | d :: tail =>
          rcases stringEnds depth tail with ⟨body, rest, string, rfl⟩ | never
          · exact .inl ⟨'\\' :: d :: body, rest, .escaped string, rfl⟩
          · have back : ((Nesting.quoted depth).next '\\').next d = .quoted depth := rfl
            refine .inr ?_
            rw [wordInside '\\' _ (by simp), wordInside d _ (by simp [Nesting.next]), back, never]
            rfl
      · rcases stringEnds depth tail with ⟨body, rest, string, rfl⟩ | never
        · exact .inl ⟨c :: body, rest, .plain ⟨quote, slash⟩ string, rfl⟩
        · have stay : (Nesting.quoted depth).next c = .quoted depth := by simp [Nesting.next, quote, slash]
          refine .inr ?_
          rw [wordInside c _ (by simp), stay, never]
          rfl
termination_by text.length

theorem Nesting.within {here : Nesting} (deep : 0 < here.depth) : here ≠ .outside 0 := by
  intro top
  rw [top] at deep
  exact Nat.lt_irrefl 0 deep

theorem wordUnclosed {here : Nesting} {text : Text} (deep : 0 < here.depth) (unclosed : closeGroup here text = none) :
    word here text = none := by
  induction text generalizing here with
  | nil => exact if_neg (Nesting.within deep)
  | cons c tail ih =>
    by_cases closes : here = .outside 1 ∧ c = ')'
    · simp [closeGroup, closes] at unclosed
    · rw [closeGroupStep tail closes] at unclosed
      have later := ih (Nesting.nextDepth deep closes) (Option.map_eq_none_iff.mp unclosed)
      rw [wordInside c tail (Nesting.within deep), later]
      rfl

theorem wordCompact {text taken rest : Text} (h : word (.outside 0) text = some (taken, rest)) : Compact taken := by
  match text with
  | [] =>
    cases h
    exact .nil
  | c :: tail =>
    cases blank : Text.isBlank c with
    | true =>
      simp only [word, blank, and_self, if_true, Option.some.injEq, Prod.mk.injEq] at h
      rw [← h.1]
      exact .nil
    | false =>
      rw [wordStep tail (by simp [blank])] at h
      obtain ⟨more, rfl, step⟩ := aheadSome h
      by_cases quote : c = '"'
      · subst quote
        rw [show (Nesting.outside 0).next '"' = .quoted 0 from rfl] at step
        rcases stringEnds 0 tail with ⟨body, after, string, rfl⟩ | never
        · rw [wordString string] at step
          obtain ⟨further, rfl, next⟩ := aheadSome step
          have shorter : after.length < ('"' :: (body ++ '"' :: after)).length := by simp; omega
          simpa using Compact.quoted string (wordCompact next)
        · simp [never] at step
      · by_cases opens : c = '('
        · subst opens
          rw [show (Nesting.outside 0).next '(' = .outside 1 from rfl] at step
          cases close : closeGroup (.outside 1) tail with
          | none => simp [wordUnclosed (by decide) close] at step
          | some found =>
            obtain ⟨inner, after⟩ := found
            rw [wordGroup (by decide) close] at step
            obtain ⟨further, rfl, next⟩ := aheadSome step
            obtain ⟨inside, rfl⟩ := closeGroupIff.mp close
            have shorter : after.length < ('(' :: (inner ++ ')' :: after)).length := by simp; omega
            simpa using Compact.group inside (wordCompact next)
        · rw [nextPlain ⟨quote, opens⟩] at step
          exact .plain blank ⟨quote, opens⟩ (wordCompact step)
termination_by text.length

theorem Compact.word {text : Text} (compact : Compact text) {rest : Text} (stops : Stops rest) :
    Token.word (.outside 0) (text ++ rest) = some (text, rest) := by
  induction compact with
  | nil => exact wordStops stops
  | @plain c tail visible free _ ih =>
    rw [List.cons_append, wordStep _ (by simp [visible]), nextPlain free, ih]
    rfl
  | @quoted body tail string _ ih =>
    have enter : (Nesting.outside 0).next '"' = .quoted 0 := rfl
    rw [List.cons_append, List.append_assoc, List.cons_append, wordStep _ (by decide), enter, wordString string, ih]
    simp [ahead]
  | @group inner tail inside _ ih =>
    have enter : (Nesting.outside 0).next '(' = .outside 1 := rfl
    rw [List.cons_append, List.append_assoc, List.cons_append, wordStep _ (by decide), enter,
      wordGroup (by decide) (closeGroupIff.mpr ⟨inside, rfl⟩), ih]
    simp [ahead]

theorem singleIff {text : Text} : Single text ↔ text ≠ [] ∧ Compact text := by
  constructor
  · intro single
    exact ⟨single.filled, wordCompact single.whole⟩
  · intro ⟨filled, compact⟩
    have alone := compact.word stopsNil
    rw [List.append_nil] at alone
    exact ⟨filled, alone⟩

theorem wordEnds {here : Nesting} {text taken rest : Text} (h : word here text = some (taken, rest)) :
    here.after taken = .outside 0 ∧ Stops rest := by
  induction text generalizing here taken with
  | nil =>
    simp only [word] at h
    split at h <;> cases h
    exact ⟨by assumption, stopsNil⟩
  | cons c tail ih =>
    by_cases blank : here = .outside 0 ∧ Text.isBlank c = true
    · simp only [word, blank, and_self, if_true, Option.some.injEq, Prod.mk.injEq] at h
      rw [← h.1, ← h.2, blank.1]
      refine ⟨rfl, fun d found => ?_⟩
      cases found
      exact blank.2
    · rw [wordStep tail blank] at h
      obtain ⟨more, rfl, step⟩ := aheadSome h
      have later := ih step
      exact later

structure Spacing (words : List Text) where
  lead : Gap
  gaps : List Gap
  count : gaps.length = words.length
  apart : ∀ gap ∈ gaps.dropLast, gap.text ≠ []

namespace Spacing
variable {words : List Text}

def text (spacing : Spacing words) : Text :=
  spacing.lead.text ++ (List.zipWith (fun word gap => word ++ gap.text) words spacing.gaps).flatten

theorem apartCons {gap : Gap} {gaps : List Gap} : (∀ other ∈ (gap :: gaps).dropLast, other.text ≠ []) ↔
    (gaps ≠ [] → gap.text ≠ []) ∧ ∀ other ∈ gaps.dropLast, other.text ≠ [] := by
  cases gaps <;> simp

theorem gapsFilled (spacing : Spacing words) : spacing.gaps ≠ [] ↔ words ≠ [] := by
  rw [← List.length_pos_iff, spacing.count, List.length_pos_iff]

theorem blankText (spacing : Spacing []) : spacing.text = spacing.lead.text := by
  simp [text]

def prepend (lead : Gap) (first : Text) (behind : Spacing words) (apart : words ≠ [] → behind.lead.text ≠ []) :
    Spacing (first :: words) where
  lead := lead
  gaps := behind.lead :: behind.gaps
  count := congrArg Nat.succ behind.count
  apart := apartCons.mpr ⟨fun filled => apart (behind.gapsFilled.mp filled), behind.apart⟩

theorem prependText (lead : Gap) (first : Text) (behind : Spacing words)
    (apart : words ≠ [] → behind.lead.text ≠ []) :
    (prepend lead first behind apart).text = lead.text ++ (first ++ behind.text) := by
  simp [text, prepend]

theorem behindFirst {first : Text} (spacing : Spacing (first :: words)) :
    ∃ behind apart, spacing = prepend spacing.lead first (behind : Spacing words) apart := by
  obtain ⟨lead, gaps, count, apart⟩ := spacing
  match gaps, count, apart with
  | gap :: gaps, count, apart =>
    obtain ⟨filled, others⟩ := apartCons.mp apart
    let behind : Spacing words := ⟨gap, gaps, Nat.succ.inj count, others⟩
    exact ⟨behind, fun more => filled (behind.gapsFilled.mpr more), rfl⟩

theorem stops (spacing : Spacing words) (apart : words ≠ [] → spacing.lead.text ≠ []) : Stops spacing.text := by
  intro c found
  cases lead : spacing.lead.text with
  | nil =>
    cases words with
    | nil => simp [spacing.blankText, lead] at found
    | cons first words => exact absurd lead (apart (List.cons_ne_nil first words))
  | cons d rest =>
    rw [text, lead] at found
    cases found
    exact spacing.lead.blank c (by simp [lead])

theorem leadFilled (spacing : Spacing words) (single : ∀ word ∈ words, Single word) (stops : Stops spacing.text) :
    words ≠ [] → spacing.lead.text ≠ [] := by
  intro filled lead
  cases words with
  | nil => exact filled rfl
  | cons first words =>
    obtain ⟨c, rest, same, visible⟩ := (single first List.mem_cons_self).starts
    obtain ⟨behind, apart, split⟩ := spacing.behindFirst
    have blank := stops c (by rw [split, prependText, lead, same]; rfl)
    simp [visible] at blank

theorem read (spacing : Spacing words) (single : ∀ word ∈ words, Single word) (whole : Text) :
    operandsOf whole spacing.text = .ok words := by
  induction words with
  | nil =>
    rw [blankText]
    exact operandsBlank whole spacing.lead.blank
  | cons first words ih =>
    obtain ⟨behind, apart, split⟩ := spacing.behindFirst
    rw [split, prependText,
      operandsStep whole spacing.lead.blank (single first List.mem_cons_self) (behind.stops apart),
      ih behind fun word member => single word (List.mem_cons_of_mem first member)]
    rfl

theorem written {whole text : Text} (h : operandsOf whole text = .ok words) :
    ∃ spacing : Spacing words, spacing.text = text := by
  fun_induction operandsOf whole text generalizing words with
  | case1 text start =>
    cases h
    exact ⟨⟨.leading text, [], rfl, by simp⟩, (blankText _).trans (Gap.leadingAll start)⟩
  | case2 => simp at h
  | case3 text c tail start first rest taken smaller ih =>
    obtain ⟨others, later, same⟩ := mapOk h
    cases same
    obtain ⟨behind, rfl⟩ := ih later
    have apart := behind.leadFilled (operandsSingle later) (wordEnds taken).2
    have split := Gap.leadingSplit text
    rw [start, wordSplit taken] at split
    exact ⟨prepend (.leading text) first behind apart, (prependText _ _ _ _).trans split⟩

end Spacing

theorem operandsIff {text : Text} {words : List Text} : operands text = .ok words ↔
    (∃ spacing : Spacing words, spacing.text = text) ∧ ∀ word ∈ words, word ≠ [] ∧ Compact word := by
  constructor
  · intro h
    exact ⟨Spacing.written h, fun word member => singleIff.mp (operandsSingle h word member)⟩
  · rintro ⟨⟨spacing, rfl⟩, compact⟩
    exact spacing.read (fun word member => singleIff.mpr (compact word member)) _

/- One scan through a text: how many groups are open at its end, and whether it ends in a string. In a string a
backslash takes the next character with it; a parenthesis that closes nothing leaves the count at zero. -/
def scan : Nat → Bool → Text → Nat × Bool
  | depth, inString, [] => (depth, inString)
  | depth, true, '\\' :: _ :: rest => scan depth true rest
  | depth, true, c :: rest => scan depth (c != '"') rest
  | depth, false, c :: rest =>
    if c = '"' then scan depth true rest
    else if c = '(' then scan (depth + 1) false rest
    else if c = ')' then scan (depth - 1) false rest
    else scan depth false rest

def Nesting.standing : Nesting → Nat × Bool
  | .outside depth => (depth, false)
  | .quoted depth | .escaped depth => (depth, true)

theorem scanAfter (depth : Nat) (inString : Bool) (text : Text) :
    scan depth inString text =
      (Nesting.after (if inString = true then .quoted depth else .outside depth) text).standing := by
  fun_induction scan depth inString text with
  | case1 depth inString => cases inString <;> rfl
  | case2 depth c rest ih => exact ih
  | case3 depth c rest other ih =>
    by_cases slash : c = '\\'
    · have last : rest = [] := by
        cases rest with
        | nil => rfl
        | cons d more => exact (other d more slash rfl).elim
      subst last slash
      rfl
    · have goes : (Nesting.quoted depth).next c = if (c != '"') = true then .quoted depth else .outside depth := by
        by_cases quote : c = '"' <;> simp [Nesting.next, slash, quote]
      rw [ih, ← goes]
      rfl
  | case4 depth rest ih => exact ih
  | case5 depth rest _ ih => exact ih
  | case6 depth rest _ _ ih => exact ih
  | case7 depth c rest quote opens closes ih =>
    have stay : (Nesting.outside depth).next c = .outside depth := by simp [Nesting.next, quote, opens, closes]
    rw [ih]
    simp [Nesting.after, stay]

theorem afterBlank {gap : Text} (blank : ∀ c ∈ gap, Text.isBlank c = true) (depth : Nat) :
    (Nesting.outside depth).after gap = .outside depth := by
  induction gap with
  | nil => rfl
  | cons c gap ih =>
    have stay : (Nesting.outside depth).next c = .outside depth := by
      simp [Nesting.next, blankPlain (blank c List.mem_cons_self)]
    have later := ih fun d member => blank d (List.mem_cons_of_mem c member)
    simpa [Nesting.after, stay] using later

theorem afterLead (text : Text) : (Nesting.outside 0).after text = (Nesting.outside 0).after text.trimStart := by
  have split := congrArg (Nesting.outside 0).after (Gap.leadingSplit text)
  rw [Nesting.afterAppend, afterBlank (Gap.leading text).blank] at split
  exact split.symm

theorem wordOpen {here : Nesting} {text : Text} (h : word here text = none) : here.after text ≠ .outside 0 := by
  induction text generalizing here with
  | nil =>
    simp only [word] at h
    split at h
    · simp at h
    · assumption
  | cons c tail ih =>
    by_cases blank : here = .outside 0 ∧ Text.isBlank c = true
    · simp [word, blank] at h
    · rw [wordStep tail blank] at h
      exact ih (Option.map_eq_none_iff.mp h)

theorem mapFailed {ε α β : Type} {f : α → β} {result : Except ε α} {fault : ε} :
    result.map f = .error fault ↔ result = .error fault := by
  cases result <;> simp [Except.map]

theorem operandsRefused {whole text : Text} {fault : SyntaxFault} :
    operandsOf whole text = .error fault ↔
      fault = .unbalanced whole.trim ∧ (Nesting.outside 0).after text ≠ .outside 0 := by
  fun_induction operandsOf whole text with
  | case1 text start =>
    have blank : (Nesting.outside 0).after text = .outside 0 := afterBlank (List.dropWhile_eq_nil_iff.mp start) 0
    simp [blank]
  | case2 text c tail start taken =>
    have unfinished := wordOpen taken
    rw [← start, ← afterLead text] at unfinished
    simp [unfinished, eq_comm]
  | case3 text c tail start first rest taken smaller ih =>
    rw [mapFailed, ih, afterLead text, start, wordSplit taken, Nesting.afterAppend, (wordEnds taken).1]

theorem scanOpen (text : Text) : ((scan 0 false text).2 = true ∨ 0 < (scan 0 false text).1) ↔
    (Nesting.outside 0).after text ≠ .outside 0 := by
  rw [scanAfter, if_neg Bool.false_ne_true]
  cases (Nesting.outside 0).after text with
  | outside depth => simp [Nesting.standing, Nat.pos_iff_ne_zero]
  | quoted depth => simp [Nesting.standing]
  | escaped depth => simp [Nesting.standing]

theorem operandsLossless (text : Text) :
    (∀ words, operands text = .ok words ↔
      (∃ spacing : Spacing words, spacing.text = text) ∧ ∀ word ∈ words, word ≠ [] ∧ Compact word) ∧
    (∀ words, operands text = .ok words → ∀ spacing : Spacing words, operands spacing.text = .ok words) ∧
    ∀ fault, operands text = .error fault ↔
      fault = .unbalanced text.trim ∧ ((scan 0 false text).2 = true ∨ 0 < (scan 0 false text).1) := by
  refine ⟨fun words => operandsIff, fun words h spacing => ?_, fun fault => ?_⟩
  · exact operandsIff.mpr ⟨⟨spacing, rfl⟩, (operandsIff.mp h).2⟩
  · rw [scanOpen]
    exact operandsRefused

end Sigil.Token
