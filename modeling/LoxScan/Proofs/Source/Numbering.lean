import LoxScan.Proofs.Source.Ahead
import LoxScan.Proofs.Source.Lines

/-!
# Cursors and line numbers

The number of lines of a text is counted twice as well: there are as many
lines to look up as `lineCount` says, so looking one up fails for zero and
past that number only (`lineText_eq_error_iff`).

A cursor that is not at the end stands on one of them, and its column is
an index into it. Only carriage returns can be missing there, and of these
only the ones with nothing else between them and the end of the line
(`returns_or_getElem?`). At the end of the source a cursor may stand one
line further, where the empty line behind the last line feed would be.
-/

namespace LoxScan

namespace Text

/-- One line for each line feed, and one for what is left behind the last
of them. -/
def lineCount (cs : List Char) : Nat :=
  cs.count '\n' + if cs = [] ∨ cs.getLast? = some '\n' then 0 else 1

theorem lineCount_nil : lineCount [] = 0 := rfl

theorem lineCount_of_notMem {line : List Char} (h : '\n' ∉ line) (hne : line ≠ []) :
    lineCount line = 1 := by
  have hlast : line.getLast? ≠ some '\n' := fun hlast => h (List.mem_of_getLast? hlast)
  rw [lineCount, List.count_eq_zero.mpr h, if_neg (not_or.mpr ⟨hne, hlast⟩)]

theorem lineCount_line_append {line : List Char} (h : '\n' ∉ line) (rest : List Char) :
    lineCount (line ++ '\n' :: rest) = lineCount rest + 1 := by
  have hcount : (line ++ '\n' :: rest).count '\n' = rest.count '\n' + 1 := by
    rw [List.count_append, List.count_eq_zero.mpr h, List.count_cons_self, Nat.zero_add]
  have hends : (line ++ '\n' :: rest = [] ∨ (line ++ '\n' :: rest).getLast? = some '\n')
      ↔ (rest = [] ∨ rest.getLast? = some '\n') := by
    cases rest with
    | nil => simp
    | cons c rest => simp [List.getLast?_append, List.getLast?_cons_cons]
  rw [lineCount, lineCount, hcount, if_congr hends rfl rfl, Nat.add_right_comm]

theorem length_lines (cs : List Char) : (lines cs).length = lineCount cs := by
  -- one line after the other, as they are split off
  fun_induction lines cs with
  | case1 cs hdrop hempty => rw [List.isEmpty_iff.mp hempty, lineCount_nil, List.length_nil]
  | case2 cs hdrop hne =>
      have hline : '\n' ∉ cs := by
        intro hmem
        simpa using List.dropWhile_eq_nil_iff.mp hdrop '\n' hmem
      rw [lineCount_of_notMem hline (by simpa using hne), List.length_singleton]
  | case3 cs c rest hdrop ih =>
      have hhead : c ∈ (cs.dropWhile (· ≠ '\n')).head? := by
        rw [hdrop]
        rfl
      obtain rfl : c = '\n' := by simpa using head_dropWhile c hhead
      have hsplit := List.takeWhile_append_dropWhile (p := (· ≠ '\n')) (l := cs)
      rw [hdrop] at hsplit
      rw [← hsplit, lineCount_line_append notMem_takeWhile_ne, List.length_cons, ih]

/-- Where a line has lost carriage returns at its end, a character is
found at its index, or it is one of them. -/
theorem returns_or_getElem? {indent rest shown returns : List Char} {c : Char}
    (h : indent ++ c :: rest = shown ++ returns) (hreturns : Returns returns) :
    Returns (c :: rest) ∨ shown[indent.length]? = some c := by
  rcases List.append_eq_append_iff.mp h with ⟨more, rfl, hmore⟩ | ⟨more, -, hmore⟩
  · cases more with
    | nil =>
        rw [List.nil_append] at hmore
        exact Or.inl (hmore ▸ hreturns)
    | cons d more =>
        obtain rfl := (List.cons.inj hmore).1
        right
        rw [List.getElem?_append_right (Nat.le_refl _), Nat.sub_self]
        rfl
  · rw [hmore] at hreturns
    exact Or.inl fun d hd => hreturns d (List.mem_append_right more hd)

end Text

open Text

/-- There is no line zero and none past the last one, and the error says
so. -/
theorem lineText_eq_error_iff (cs : List Char) (n : UInt32) (e : SourceError) :
    lineText cs n = .error e
      ↔ (n = 0 ∨ lineCount cs < n.toNat) ∧ e = .invalidLineNumber n.toNat (lineCount cs) := by
  simp only [lineText, length_lines]
  by_cases hzero : n = 0
  · rw [if_pos hzero, Except.error.injEq]
    exact ⟨fun h => ⟨Or.inl hzero, h.symm⟩, fun h => h.2.symm⟩
  rw [if_neg hzero]
  have hpos : 0 < n.toNat := by
    refine Nat.pos_of_ne_zero fun h => hzero (UInt32.toNat_inj.mp ?_)
    rw [h]
    rfl
  cases hfound : (lines cs)[n.toNat - 1]? with
  | none =>
      have hlt : lineCount cs < n.toNat := by
        have := List.getElem?_eq_none_iff.mp hfound
        rw [length_lines] at this
        omega
      rw [Except.error.injEq]
      exact ⟨fun h => ⟨Or.inr hlt, h.symm⟩, fun h => h.2.symm⟩
  | some text =>
      obtain ⟨hlt, -⟩ := List.getElem?_eq_some_iff.mp hfound
      rw [length_lines] at hlt
      constructor
      · intro h
        cases h
      · rintro ⟨hn | hn, -⟩
        · exact absurd hn hzero
        · omega

namespace Cursor

/-- `shown` is the line of the source under the number of the cursor, and
the character at the cursor's column is the one it stands on, unless that
belongs to the end of the line. -/
structure Shows (c : Cursor) (source : String) (shown : List Char) : Prop where
  found : lineText source.toList c.position.line = .ok shown
  oneLine : '\n' ∉ shown
  current : c.current = '\n'
    ∨ (c.current = '\r' ∧ Returns (c.rest.takeWhile (· ≠ '\n')))
    ∨ shown[c.position.column.toNat - 1]? = some c.current

theorem index_of_at {c : Cursor} {front indent : List Char} (h : c.At (front ++ indent))
    (hstarts : StartsLine front) (hindent : '\n' ∉ indent)
    (hsize : c.source.toList.length + 1 < UInt32.size) :
    c.position.column.toNat - 1 = indent.length := by
  have hle : (front ++ indent).length ≤ c.source.toList.length := by
    rw [h.source]
    exact (List.prefix_append ..).length_le
  have hfits : (front ++ indent).length + 1 < UInt32.size := by omega
  have hcolumn := (Position.counts_after hfits).column
  rw [← columnAfter, columnAfter_indent hstarts hindent, ← h.position] at hcolumn
  rw [hcolumn, Nat.add_sub_cancel_left]

theorem exists_shows {c : Cursor} {before : List Char} (h : c.At before)
    (hsize : c.source.toList.length + 1 < UInt32.size) (hend : c.isAtEnd = false) :
    ∃ shown, c.Shows c.source shown := by
  have hne : c.rest ≠ [] := by simpa [isAtEnd] using hend
  obtain ⟨d, rest, hrest⟩ := List.exists_cons_of_ne_nil hne
  have hcurrent : c.current = d := by
    rw [current, peek_of_at h, hrest]
    rfl
  obtain ⟨front, indent, rfl, hindent, hline⟩ := exists_lineAt before hne
  rw [← h.source] at hline
  obtain ⟨shown, returns, hfound, hsplit, hreturns⟩ := exists_lineText hline hsize
  refine ⟨shown, ?_, ?_, ?_⟩
  · rw [h.position, Position.after, lineAfter_indent hindent]
    exact hfound
  · intro hmem
    exact hline.oneLine (hsplit ▸ List.mem_append_left returns hmem)
  by_cases hd : d = '\n'
  · exact Or.inl (hcurrent.trans hd)
  have htake : c.rest.takeWhile (· ≠ '\n') = d :: rest.takeWhile (· ≠ '\n') := by
    rw [hrest, List.takeWhile_cons, if_pos (decide_eq_true hd)]
  rw [htake] at hsplit ⊢
  rw [hcurrent, index_of_at h hline.starts hindent hsize]
  rcases returns_or_getElem? hsplit hreturns with hreturns | hfound
  · exact Or.inr (Or.inl ⟨hreturns d (List.mem_cons_self ..), hreturns⟩)
  · exact Or.inr (Or.inr hfound)

/-- At the end a cursor has counted every line feed. -/
theorem line_of_isAtEnd {c : Cursor} {before : List Char} (h : c.At before)
    (hsize : c.source.toList.length + 1 < UInt32.size) (hend : c.isAtEnd = true) :
    c.position.line.toNat = 1 + c.source.toList.count '\n' := by
  have hsource := h.source
  rw [List.isEmpty_iff.mp hend, List.append_nil] at hsource
  rw [h.position, hsource]
  exact (Position.counts_after (hsource ▸ hsize)).line

end Cursor

/-- Counting lines while reading and looking them up agree, at every
cursor over a source short enough for its lines and columns to be
counted. -/
theorem lines_agree {source : String} (hsize : source.length < UInt32.size - 1) :
    (∀ c, (Cursor.ofSource source).Reaches c → c.isAtEnd = false →
        ∃ shown, c.Shows source shown)
      ∧ (∀ c, (Cursor.ofSource source).Reaches c → c.isAtEnd = true →
        (c.position.line.toNat = lineCount source.toList
            ∨ c.position.line.toNat = lineCount source.toList + 1)
          ∧ (c.position.line.toNat = lineCount source.toList + 1
            ↔ source = "" ∨ source.toList.getLast? = some '\n'))
      ∧ ∀ n e, lineText source.toList n = .error e
          ↔ (n = 0 ∨ lineCount source.toList < n.toNat)
            ∧ e = .invalidLineNumber n.toNat (lineCount source.toList) := by
  have hreached : ∀ c, (Cursor.ofSource source).Reaches c →
      c.source = source ∧ ∃ before, c.At before := by
    intro c hc
    obtain ⟨before, hsource, hat⟩ := hc.exists_at (Cursor.at_ofSource source)
    exact ⟨hsource, _, hat⟩
  have hlength : source.toList.length + 1 < UInt32.size := by
    rw [String.length_toList]
    omega
  refine ⟨?_, ?_, lineText_eq_error_iff source.toList⟩
  · intro c hc hend
    obtain ⟨rfl, before, hat⟩ := hreached c hc
    exact Cursor.exists_shows hat hlength hend
  · intro c hc hend
    obtain ⟨rfl, before, hat⟩ := hreached c hc
    rw [Cursor.line_of_isAtEnd hat hlength hend, lineCount, ← String.toList_eq_nil_iff]
    split
    case isTrue h => exact ⟨Or.inr (Nat.add_comm ..), fun _ => h, fun _ => Nat.add_comm ..⟩
    case isFalse h =>
      exact ⟨Or.inl (Nat.add_comm ..), fun heq => by omega, fun h' => absurd h' h⟩

/-- Carriage returns in front of a line feed, of a letter and of the end. -/
theorem lines_agree_returns :
    "\té\r\r\n\rx\r".length < UInt32.size - 1
      ∧ (∃ shown, ((Cursor.ofSource "\té\r\r\n\rx\r").advanceBy 5).Shows "\té\r\r\n\rx\r" shown)
      ∧ ((Cursor.ofSource "\té\r\r\n\rx\r").advanceBy 8).position.line.toNat
          = lineCount "\té\r\r\n\rx\r".toList
      ∧ lineText "\té\r\r\n\rx\r".toList 3 = .error (.invalidLineNumber 3 2) := by
  have hsize : "\té\r\r\n\rx\r".length < UInt32.size - 1 := by decide
  obtain ⟨hshows, hstands, herror⟩ := lines_agree hsize
  refine ⟨hsize, hshows _ (Cursor.reaches_advanceBy ..) (by decide), ?_, ?_⟩
  · obtain ⟨hline, hpast⟩ := hstands _ (Cursor.reaches_advanceBy 8 _) (by decide)
    exact hline.resolve_right fun h => absurd (hpast.mp h) (by decide)
  · exact (herror 3 (.invalidLineNumber 3 2)).mpr ⟨by decide, by decide⟩

end LoxScan
