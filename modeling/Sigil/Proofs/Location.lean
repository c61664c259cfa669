import Sigil.Diagnostic
import Sigil.Proofs.Expanded

/-! Where a report points. The number that a report carries is that of a line of the source text, the span that is
shown for it lies between two characters of that text, and what stands there is the line as it was written. -/
namespace Sigil

namespace Text

theorem utf8SizeEncode (text : Text) : text.utf8Size = text.utf8Encode.size := by
  induction text with
  | nil => rfl
  | cons c rest ih =>
    rw [utf8Size, ih, List.utf8Encode_cons, ByteArray.size_append, List.utf8Encode_singleton, List.size_toByteArray,
      String.length_utf8EncodeChar]

theorem endingSplit (line : Text) :
    ∃ ending, line = line.dropLineEnding ++ ending ∧ ∀ c ∈ ending, c = '\n' ∨ c = '\r' := by
  let ended := fun c : Char => c == '\n' || c == '\r'
  refine ⟨(line.reverse.takeWhile ended).reverse, ?_, fun c member => ?_⟩
  · have parts := congrArg List.reverse (List.takeWhile_append_dropWhile (p := ended) (l := line.reverse))
    rw [List.reverse_append, List.reverse_reverse] at parts
    exact parts.symm
  · simpa [ended] using List.mem_takeWhile_imp (List.mem_reverse.mp member)

theorem dropEndingTrim (line : Text) : line.dropLineEnding.trim = line.trim := by
  obtain ⟨ending, split, breaks⟩ := endingSplit line
  have blank : ∀ c ∈ ending, isBlank c = true := by
    intro c member
    rcases breaks c member with rfl | rfl <;> decide
  rw [← trimEnding line.dropLineEnding blank, ← split]

theorem dropEndingCons (c : Char) (rest : Text) :
    dropLineEnding (c :: rest) = if rest.dropLineEnding = [] then dropLineEnding [c] else c :: rest.dropLineEnding := by
  simp only [dropLineEnding, List.reverse_cons, List.dropWhile_append, List.isEmpty_iff, List.reverse_eq_nil_iff]
  split
  · rfl
  · simp

end Text

namespace Span

theorem piecesFlatten (text : Text) : (pieces text).flatten = text := by
  fun_induction pieces text with
  | case1 => rfl
  | case2 rest ih => simp [ih]
  | case3 c rest broken none ih => simpa [none] using ih
  | case4 c rest broken piece more cut ih => simpa [cut] using ih

theorem piecesLines (text : Text) : (pieces text).map Text.dropLineEnding = text.lines.map Text.dropLineEnding := by
  fun_induction Text.lines text with
  | case1 => rfl
  | case2 rest ih => simp [pieces, ih, Text.dropLineEnding]
  | case3 rest ih => simp [pieces, ih, Text.dropLineEnding]
  | case4 c rest broken joined none ih =>
    have other : c ≠ '\n' := broken
    rw [none, List.map_nil, List.map_eq_nil_iff] at ih
    simp [pieces, other, ih]
  | case5 c rest broken joined first more cut ih =>
    have other : c ≠ '\n' := broken
    rw [cut] at ih
    obtain ⟨piece, behind, cutPieces, same, others⟩ := List.map_eq_cons_iff.mp ih
    simp only [pieces, other, if_false, cutPieces, List.map_cons, others]
    rw [Text.dropEndingCons c piece, Text.dropEndingCons c first, same]

structure Covers (span : Span) (source text : Text) : Prop where
  starts : String.Pos.Raw.IsValid (String.ofList source) ⟨span.offset⟩
  ends : String.Pos.Raw.IsValid (String.ofList source) ⟨span.offset + span.length⟩
  inside : span.offset + span.length ≤ source.utf8Encode.size
  bytes : source.utf8Encode.extract span.offset (span.offset + span.length) = text.utf8Encode

theorem validBehind (front behind : Text) :
    String.Pos.Raw.IsValid (String.ofList (front ++ behind)) ⟨front.utf8Size⟩ := by
  refine String.Pos.Raw.isValid_ofList.mpr ⟨front.length, ?_⟩
  rw [List.take_left, String.utf8ByteSize, String.toByteArray_ofList, Text.utf8SizeEncode]

theorem coversBetween (front text behind : Text) :
    Covers ⟨front.utf8Size, text.utf8Size⟩ (front ++ text ++ behind) text := by
  have both : front.utf8Size + text.utf8Size = (front ++ text).utf8Size := by
    simp only [Text.utf8SizeEncode, List.utf8Encode_append, ByteArray.size_append]
  refine ⟨?_, ?_, ?_, ?_⟩
  · rw [List.append_assoc]
    exact validBehind front (text ++ behind)
  · simp only [both]
    exact validBehind (front ++ text) behind
  · simp only [Text.utf8SizeEncode, List.utf8Encode_append, ByteArray.size_append]
    omega
  · simp only [Text.utf8SizeEncode, List.append_assoc, List.utf8Encode_append]
    have moved := ByteArray.extract_append_size_add (a := front.utf8Encode) (b := text.utf8Encode ++ behind.utf8Encode)
      (i := 0) (j := text.utf8Encode.size)
    rw [Nat.add_zero] at moved
    rw [moved, ByteArray.extract_append_eq_left rfl]

theorem coversLine {source line : Text} {index : Nat} (here : source.lines[index]? = some line) :
    (ofLine source (index + 1)).Covers source line.dropLineEnding := by
  obtain ⟨piece, there, same⟩ := mappedAt (piecesLines source) here
  obtain ⟨ending, split, _⟩ := Text.endingSplit piece
  have parts : source = ((pieces source).take index).flatten ++ piece.dropLineEnding ++
      (ending ++ ((pieces source).drop (index + 1)).flatten) := by
    calc source = ((pieces source).take index ++ (pieces source).drop index).flatten := by
          rw [List.take_append_drop, piecesFlatten]
      _ = ((pieces source).take index).flatten ++ (piece ++ ((pieces source).drop (index + 1)).flatten) := by
          rw [List.drop_eq_getElem?_toList_append, there, List.flatten_append]
          rfl
      _ = _ := by
          nth_rewrite 1 [split]
          simp only [List.append_assoc]
  have covers := coversBetween ((pieces source).take index).flatten piece.dropLineEnding
    (ending ++ ((pieces source).drop (index + 1)).flatten)
  rw [← parts] at covers
  simp only [ofLine, there]
  rwa [← same]

end Span

namespace Expansion
variable {ω : Type}

theorem gatherReport {loader : Loader ω} {number : Nat} {lines : List Text} {registry after : Registry ω}
    {rules : List Rule} {report : Report} (h : gather loader number lines registry rules = (.error report, after)) :
    ∃ index, report.line = number + index ∧ lines[index]? = some report.sourceLine ∧ report.phase = .preprocessing := by
  induction lines generalizing number registry rules with
  | nil => simp [gather] at h
  | cons line more ih =>
    have later {registry : Registry ω} {rules : List Rule}
        (h : gather loader (number + 1) more registry rules = (.error report, after)) :
        ∃ index, report.line = number + index ∧ (line :: more)[index]? = some report.sourceLine ∧
          report.phase = .preprocessing := by
      obtain ⟨index, counted, here, phase⟩ := ih h
      exact ⟨index + 1, by omega, here, phase⟩
    unfold gather at h
    split at h
    · exact later h
    · cases h
      exact ⟨0, rfl, rfl, rfl⟩
    · exact later h
    · split at h
      · exact later h
      · cases h
        exact ⟨0, rfl, rfl, rfl⟩

theorem expandReport {loader : Loader ω} {registry after : Registry ω} {source : Text} {report : Report}
    (refused : expand loader registry source = (.error report, after)) :
    ∃ index line, report.line = index + 1 ∧ source.lines[index]? = some line ∧ report.sourceLine = line.trim ∧
      report.phase = .preprocessing := by
  unfold expand at refused
  split at refused
  · simp at refused
  · rename_i gathered
    cases refused
    obtain ⟨index, counted, here, phase⟩ := gatherReport gathered
    rw [trimmedLines, List.getElem?_map] at here
    obtain ⟨line, there, same⟩ := Option.map_eq_some_iff.mp here
    exact ⟨index, line, by omega, there, same.symm, phase⟩

theorem lineWritten {loader : Loader ω} {registry loaded : Registry ω} {source program text : Text} {index : Nat}
    (expanded : expand loader registry source = (.ok program, loaded)) (here : program.lines[index]? = some text) :
    ∃ rules line, Rule.Merged (written source) rules ∧ source.lines[index]? = some line ∧
      text.trim = (Rule.applyAll rules line.trim).trim := by
  obtain ⟨rules, merged, _, rewritten⟩ := expandedLines expanded
  obtain ⟨other, kept, same⟩ := mappedAt rewritten.symm here
  have inside := Text.settledInside kept
  rw [List.getElem?_map] at inside
  obtain ⟨line, there, rfl⟩ := Option.map_eq_some_iff.mp inside
  exact ⟨rules, line, merged, there, same.symm⟩

end Expansion

namespace Report
variable {ω : Type} {source : Text} {settings : Settings} {loader : Loader ω} {world : ω}

/- What the report quotes is this line, as it was written or as the rules have rewritten it. -/
structure Quotes (report : Report) (source line : Text) : Prop where
  preprocessing : report.phase = .preprocessing → report.sourceLine = line.trim
  plain : Expansion.Plain (Expansion.trimmedLines source) → report.sourceLine = line.trim
  executing : report.phase = .executing → ∃ rules, Rule.Merged (Expansion.written source) rules ∧
    report.sourceLine.trim = (Rule.applyAll rules line.trim).trim

theorem loadQuotes {report : Report} (failed : Machine.load source settings loader world = .error report) :
    ∃ index line, report.line = index + 1 ∧ source.lines[index]? = some line ∧ report.Quotes source line := by
  unfold Machine.load at failed
  split at failed
  · simp at failed
  · rename_i refused
    cases failed
    obtain ⟨index, line, counted, here, quoted, phase⟩ := Expansion.expandReport refused
    refine ⟨index, line, counted, here, fun _ => quoted, fun _ => quoted, fun executing => ?_⟩
    simp [phase] at executing

theorem runQuotes {report : Report} {start final : Machine ω}
    (loaded : Machine.load source settings loader world = .ok start) (ends : start.Ends (.error report) final) :
    ∃ index line, report.line = index + 1 ∧ source.lines[index]? = some line ∧ report.Quotes source line := by
  obtain ⟨here, phase⟩ := Machine.endsReport ends
  obtain ⟨index, counted⟩ := Nat.exists_eq_succ_of_ne_zero (Nat.pos_iff_ne_zero.mp (Machine.insideLine here).1)
  rw [counted] at here
  have found : start.lines[index]? = some report.sourceLine := here
  have plainly (plain : Expansion.Plain (Expansion.trimmedLines source)) :
      (Expansion.trimmedLines source)[index]? = some report.sourceLine := by
    rw [Expansion.loadedPlain plain loaded] at found
    exact Text.settledInside (by simpa using found)
  unfold Machine.load at loaded
  split at loaded
  · rename_i program registry expanded
    cases loaded
    have written : program.lines[index]? = some report.sourceLine := by simpa [Machine.ofLines] using found
    obtain ⟨rules, line, merged, there, same⟩ := Expansion.lineWritten expanded written
    refine ⟨index, line, counted, there, fun preprocessing => ?_, fun plain => ?_, fun _ => ⟨rules, merged, same⟩⟩
    · simp [phase] at preprocessing
    · have own := plainly plain
      rw [Expansion.trimmedLines, List.getElem?_map, there] at own
      exact (Option.some.inj own).symm
  · simp at loaded

theorem located {report : Report} {after : ω} (failed : RunsTo source settings loader world (.error report) after) :
    1 ≤ report.line ∧ report.line ≤ source.lines.length ∧
      ∃ line, source.lines[report.line - 1]? = some line ∧
        (∃ text, (Diagnostic.ofFailure source report.failure).span.Covers source text ∧ '\n' ∉ text ∧
          text.trim = line.trim) ∧
        report.Quotes source line := by
  have quoted : ∃ index line, report.line = index + 1 ∧ source.lines[index]? = some line ∧
      report.Quotes source line := by
    unfold RunsTo at failed
    split at failed
    · rename_i refused
      obtain ⟨same, _⟩ := failed
      cases same
      exact loadQuotes refused
    · rename_i loaded
      obtain ⟨_, _, ends, _⟩ := failed
      exact runQuotes loaded ends
  obtain ⟨index, line, counted, here, quotes⟩ := quoted
  have inside := (List.getElem?_eq_some_iff.mp here).1
  obtain ⟨ending, split, _⟩ := Text.endingSplit line
  have unbroken : '\n' ∉ line.dropLineEnding := by
    intro member
    apply Text.linesUnbroken source line (List.mem_of_getElem? here)
    rw [split]
    exact List.mem_append_left ending member
  refine ⟨by omega, by omega, line, by simpa [counted] using here, ⟨line.dropLineEnding, ?_, unbroken,
    Text.dropEndingTrim line⟩, quotes⟩
  rw [Diagnostic.ofFailure, Report.failure, counted]
  exact Span.coversLine here

def rewrittenCall : Text := "# \u00e9\r\n+replace stop halt\r\n  !stop: \r\n".toList

theorem locatedRewritten :
    RunsTo rewrittenCall Settings.default Console.catalog.load (Console.ofInput [])
      (.error ⟨.unknownFunction "program".toList "halt".toList, 3, "!halt:".toList, .executing⟩)
      (Console.ofInput []) ∧
    (∃ text, Span.Covers ⟨26, 9⟩ rewrittenCall text ∧ text.trim = "!stop:".toList) ∧
    ∃ rules, Rule.Merged [⟨"stop".toList, "halt".toList⟩] rules ∧
      Text.trim "!halt:".toList = (Rule.applyAll rules "!stop:".toList).trim := by
  have failed : RunsTo rewrittenCall Settings.default Console.catalog.load (Console.ofInput [])
      (.error ⟨.unknownFunction "program".toList "halt".toList, 3, "!halt:".toList, .executing⟩)
      (Console.ofInput []) :=
    Machine.comesReport (show Machine.report? _ 3 = _ by decide +kernel) (by decide +kernel)
  obtain ⟨_, _, line, here, ⟨text, covers, _, same⟩, quotes⟩ := located failed
  cases here
  exact ⟨failed, ⟨text, covers, same⟩, quotes.executing rfl⟩

end Report
end Sigil
