import TwoPass.Proofs.Assembly.Numbering
import TwoPass.Proofs.Macro.Characters

namespace TwoPass

namespace Macro

/-- Without macros every line is its own expansion. -/
theorem expand_empty (line : Text) : (expand .empty line).result = .ok [line] := by
  have hCall : callOf? .empty line = none := by
    cases hCall : callOf? .empty line with
    | none => rfl
    | some called =>
        obtain ⟨call, m⟩ := called
        simp [callOf?_eq_some_iff] at hCall
  rw [expand, expandWithin, hCall]
  rfl

/-- A comment at the start of a line keeps it from being part of a definition's frame. -/
theorem delimits_hash (rest : Text) : delimits ('#' :: rest) = false := rfl

end Macro

/-- A source without definitions passes the sweep unchanged. -/
theorem Sweep.run_plain {lines : List StreamLine}
    (h : ∀ line ∈ lines, Macro.delimits line.text = false) :
    (start.run lines).result = .ok (lines, .empty) := by
  induction lines with
  | nil => rfl
  | cons line rest ih =>
      have hTakes : start.Takes line start [line] := by
        change start.Takes line start ([line.text].map fun text => { line with text })
        exact .expands (h line (by simp)) rfl (Macro.expand_empty line.text)
      have hRest := ih fun later hMem => h later (by simp [hMem])
      exact run_cons_eq_ok_iff.mpr ⟨start, [line], rest, hTakes, hRest, rfl⟩

/-- A stream that is written out as a source, each text followed by a line feed, leads to the same
texts with no macros, and to the same assembly apart from line numbers: the same records, listing,
symbols and image, or the same error. Two things could spoil this, a carriage return at the end of a
text and a text that opens or closes a definition without being a comment. -/
theorem expanded_source_means_same {source : Text} {stream : List StreamLine} {macros : MacroTable}
    (hSweep : (sweep source).result = .ok (stream, macros))
    (hReturn : ∀ line ∈ stream, line.text.getLast? ≠ some '\r')
    (hPlain : ∀ line ∈ stream, line.text.head? ≠ some '#' → Macro.delimits line.text = false) :
    ∃ expanded,
      (sweep (Text.unlines (stream.map StreamLine.text))).result = .ok (expanded, .empty) ∧
      expanded.map StreamLine.text = stream.map StreamLine.text ∧
      ∀ sizing sink,
        (Assembly.run sizing sink (Text.unlines (stream.map StreamLine.text))).unnumbered =
          (Assembly.run sizing sink source).unnumbered := by
  have hFeed := not_mem_of_sweep hSweep
  have hLines : (sourceLines (Text.unlines (stream.map StreamLine.text))).map StreamLine.text =
      stream.map StreamLine.text := by
    rw [map_text_sourceLines]
    apply Text.lines_unlines
    · simpa using hFeed
    · simpa using hReturn
  have hDelimits : ∀ line ∈ sourceLines (Text.unlines (stream.map StreamLine.text)),
      Macro.delimits line.text = false := by
    intro line hMem
    have hText : line.text ∈ stream.map StreamLine.text :=
      hLines ▸ List.mem_map_of_mem hMem
    obtain ⟨written, hWritten, hEq⟩ := List.mem_map.mp hText
    rw [← hEq]
    by_cases hHash : written.text.head? = some '#'
    · obtain ⟨rest, hRest⟩ := List.head?_eq_some_iff.mp hHash
      rw [hRest]
      exact Macro.delimits_hash rest
    · exact hPlain written hWritten hHash
  have hExpanded := Sweep.run_plain hDelimits
  refine ⟨_, hExpanded, hLines, ?_⟩
  intro sizing sink
  exact Assembly.unnumbered_run_eq sizing sink hExpanded hSweep hLines

/-- A program in which one macro calls another, with a label in front of the call. -/
def nested : Text :=
  "MACRO inc(reg)\nadd reg, r0, 1\nENDMACRO\nMACRO both(a)\ninc(a)\nENDMACRO\ngo: both(r2)\nWORD go".toList

def nestedLines : List StreamLine :=
  [⟨1, "# MACRO inc(reg)".toList⟩, ⟨2, "# add reg, r0, 1".toList⟩, ⟨3, "# ENDMACRO".toList⟩,
    ⟨4, "# MACRO both(a)".toList⟩, ⟨5, "# inc(a)".toList⟩, ⟨6, "# ENDMACRO".toList⟩,
    ⟨7, "#go: both(r2)".toList⟩, ⟨7, "go:".toList⟩, ⟨7, "#inc(r2)".toList⟩,
    ⟨7, "add r2, r0, 1".toList⟩, ⟨8, "WORD go".toList⟩]

theorem expanded_source_means_same_nested :
    (∃ macros, (sweep nested).result = .ok (nestedLines, macros)) ∧
      (∀ line ∈ nestedLines, line.text.getLast? ≠ some '\r') ∧
      (∀ line ∈ nestedLines, line.text.head? ≠ some '#' → Macro.delimits line.text = false) ∧
      (Assembly.run .exact (.writer none) nested).result.toOption.isSome = true ∧
      (Assembly.run .exact (.writer none)
          (Text.unlines (nestedLines.map StreamLine.text))).unnumbered =
        (Assembly.run .exact (.writer none) nested).unnumbered := by
  obtain ⟨macros, hSweep⟩ :
      ∃ macros, (sweep nested).result = .ok (nestedLines, macros) := ⟨_, by rfl⟩
  have hReturn : ∀ line ∈ nestedLines, line.text.getLast? ≠ some '\r' := by decide +kernel
  have hPlain : ∀ line ∈ nestedLines, line.text.head? ≠ some '#' →
      Macro.delimits line.text = false := by decide +kernel
  obtain ⟨expanded, -, -, hRuns⟩ := expanded_source_means_same hSweep hReturn hPlain
  exact ⟨⟨macros, hSweep⟩, hReturn, hPlain, by decide +kernel, hRuns .exact (.writer none)⟩

end TwoPass
