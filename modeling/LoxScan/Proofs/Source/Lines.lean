import Mathlib.Data.List.Induction
import LoxScan.Proofs.Source.Place
import LoxScan.Proofs.Text.Runs

/-!
# The lines of a source

Lines are counted in two ways: a position counts the line feeds before
it, and a line is looked up among the pieces between line feeds. Behind a
text at which a line starts the two agree (`drop_lines`), so the line
found under the number of a position is the one the position stands on
(`LineAt.exists_lineText`).

The line found may lack carriage returns at its end and nothing else. What
does not end in a carriage return is not cut by that
(`isPrefix_of_returns`).
-/

namespace LoxScan

namespace Text

def Returns (cs : List Char) : Prop := ∀ c ∈ cs, c = '\r'

theorem exists_stripReturn (line : List Char) :
    ∃ returns, line = stripReturn line ++ returns ∧ Returns returns := by
  unfold stripReturn
  split
  case isTrue h =>
    obtain ⟨front, rfl⟩ := List.getLast?_eq_some_iff.mp h
    exact ⟨['\r'], by rw [List.dropLast_concat], by simp [Returns]⟩
  case isFalse => exact ⟨[], (List.append_nil _).symm, by simp [Returns]⟩

/-- A text that ends in another character ends before carriage returns
do. -/
theorem isPrefix_of_returns {cs shown returns : List Char} (h : cs <+: shown ++ returns)
    (hreturns : Returns returns) (hcs : cs.getLast? ≠ some '\r') : cs <+: shown := by
  rcases List.prefix_or_prefix_of_prefix h (List.prefix_append shown returns) with h' | h'
  · exact h'
  obtain ⟨more, rfl⟩ := h'
  cases hmore : more.getLast? with
  | none => simp [List.getLast?_eq_none_iff.mp hmore]
  | some c =>
      have hsub : more <+: returns := (List.prefix_append_right_inj shown).mp h
      have hc := hreturns c (hsub.subset (List.mem_of_getLast? hmore))
      rw [List.getLast?_append, hmore, hc] at hcs
      exact absurd rfl hcs

/-! ## Lines between line feeds -/

theorem lines_nil : lines [] = [] := by
  simp [lines]

theorem lines_of_notMem {line : List Char} (h : '\n' ∉ line) (hne : line ≠ []) :
    lines line = [line] := by
  have hdrop := List.dropWhile_eq_nil_iff.mpr (ne_of_mem_run h)
  rw [lines]
  split
  case h_1 => rw [if_neg (by simpa using hne)]
  case h_2 hcons =>
    rw [hdrop] at hcons
    cases hcons

theorem lines_line_append {line : List Char} (h : '\n' ∉ line) (rest : List Char) :
    lines (line ++ '\n' :: rest) = stripReturn line :: lines rest := by
  have hstop : ∀ c ∈ ('\n' :: rest).head?, c = '\n' := by simp
  rw [lines]
  split
  case h_1 hnil =>
    rw [dropWhile_stop h hstop] at hnil
    cases hnil
  case h_2 hcons =>
    rw [dropWhile_stop h hstop] at hcons
    rw [takeWhile_stop h hstop, (List.cons.inj hcons).2]

theorem lines_flatMap {texts : List (List Char)} (h : ∀ text ∈ texts, '\n' ∉ text) :
    lines (texts.flatMap (· ++ ['\n'])) = texts.map stripReturn := by
  induction texts with
  | nil => exact lines_nil
  | cons text texts ih =>
      obtain ⟨htext, htexts⟩ := List.forall_mem_cons.mp h
      rw [List.flatMap_cons, List.append_assoc, List.singleton_append, lines_line_append htext,
        ih htexts, List.map_cons]

/-- Texts of some lines each, one after the other, are so many times that
number of lines. -/
theorem length_lines_join {α : Type} {text : α → String} {n : Nat} {xs : List α}
    (h : ∀ x ∈ xs, ∃ texts : List (List Char), texts.length = n ∧ (∀ t ∈ texts, '\n' ∉ t)
      ∧ (text x).toList = texts.flatMap (· ++ ['\n'])) :
    (lines (String.join (xs.map text)).toList).length = n * xs.length := by
  have hall : ∃ texts : List (List Char), texts.length = n * xs.length
      ∧ (∀ t ∈ texts, '\n' ∉ t)
      ∧ (String.join (xs.map text)).toList = texts.flatMap (· ++ ['\n']) := by
    induction xs with
    | nil => exact ⟨[], by simp⟩
    | cons x xs ih =>
        obtain ⟨hx, hxs⟩ := List.forall_mem_cons.mp h
        obtain ⟨texts, hlength, hlines, htext⟩ := hx
        obtain ⟨texts', hlength', hlines', htext'⟩ := ih hxs
        refine ⟨texts ++ texts', ?_, ?_, ?_⟩
        · rw [List.length_append, hlength, hlength', List.length_cons, Nat.mul_succ, Nat.add_comm]
        · exact List.forall_mem_append.mpr ⟨hlines, hlines'⟩
        · rw [List.map_cons, String.join_cons, String.toList_append, htext, htext',
            List.flatMap_append]
  obtain ⟨texts, hlength, hlines, htext⟩ := hall
  rw [htext, lines_flatMap hlines, List.length_map, hlength]

theorem length_stripReturn_le (line : List Char) : (stripReturn line).length ≤ line.length := by
  obtain ⟨returns, hline, -⟩ := exists_stripReturn line
  have hlength := congrArg List.length hline
  rw [List.length_append] at hlength
  omega

theorem length_le_of_mem_lines {cs line : List Char} (h : line ∈ lines cs) :
    line.length ≤ cs.length := by
  fun_induction lines cs with
  | case1 cs hdrop hempty => exact absurd h List.not_mem_nil
  | case2 cs hdrop hne => rw [List.mem_singleton.mp h]
  | case3 cs c rest hdrop ih =>
      have hrest : (c :: rest).length ≤ cs.length := by
        rw [← hdrop]
        exact (List.dropWhile_suffix _).length_le
      rcases List.mem_cons.mp h with rfl | hmem
      · exact (length_stripReturn_le _).trans (List.takeWhile_prefix _).length_le
      · have hline := ih hmem
        rw [List.length_cons] at hrest
        omega

theorem startsLine_of_line_append {line front : List Char}
    (h : StartsLine (line ++ '\n' :: front)) : StartsLine front := by
  cases hlast : front.getLast? with
  | none => exact Or.inl (List.getLast?_eq_none_iff.mp hlast)
  | some c =>
      obtain ⟨front, rfl⟩ := List.getLast?_eq_some_iff.mp hlast
      rcases h with h | ⟨line', h⟩
      · simp at h
      · rw [← List.cons_append, ← List.append_assoc] at h
        exact Or.inr ⟨front, congrArg (front ++ ·) (List.append_inj' h rfl).2⟩

/-- Behind a text at which a line starts the lines go on by themselves. -/
theorem drop_lines {front : List Char} (h : StartsLine front) (rest : List Char) :
    (lines (front ++ rest)).drop (front.count '\n') = lines rest := by
  -- one line after the other, until no line feed is left before the rest
  induction hn : front.count '\n' generalizing front with
  | zero =>
      rcases h with rfl | ⟨line, rfl⟩
      · rfl
      · simp at hn
  | succ n ih =>
      have hmem : '\n' ∈ front := List.count_pos_iff.mp (by omega)
      obtain ⟨line, front, rfl, hline⟩ := List.eq_append_cons_of_mem hmem
      rw [List.append_assoc, List.cons_append, lines_line_append hline, List.drop_succ_cons]
      refine ih (startsLine_of_line_append h) ?_
      rw [List.count_append, List.count_eq_zero.mpr hline, List.count_cons_self] at hn
      omega

/-! ## The line of a place -/

/-- `line` is a whole line of a text, `front` before it and `rest` behind
it. -/
structure LineAt (cs front line rest : List Char) : Prop where
  split : cs = front ++ (line ++ rest)
  starts : StartsLine front
  oneLine : '\n' ∉ line
  ends : ∀ c ∈ rest.head?, c = '\n'
  nonempty : line ++ rest ≠ []

/-- The column is the number of characters before it on the line. -/
theorem columnAfter_indent {front indent : List Char} (h : StartsLine front)
    (hindent : '\n' ∉ indent) : columnAfter (front ++ indent) = 1 + indent.length := by
  have hrun : '\n' ∉ indent.reverse := by rwa [List.mem_reverse]
  rw [columnAfter_append h, columnAfter, List.takeWhile_eq_self_iff.mpr (ne_of_mem_run hrun),
    List.length_reverse]

theorem lineAfter_indent {front indent : List Char} (hindent : '\n' ∉ indent) :
    lineAfter (front ++ indent) = lineAfter front := by
  rw [lineAfter_append, List.count_eq_zero.mpr hindent, Nat.add_zero]

theorem exists_startsLine (before : List Char) :
    ∃ front indent, before = front ++ indent ∧ StartsLine front ∧ '\n' ∉ indent := by
  induction before using List.reverseRecOn with
  | nil => exact ⟨[], [], rfl, Or.inl rfl, List.not_mem_nil⟩
  | append_singleton before c ih =>
      obtain ⟨front, indent, rfl, hstarts, hindent⟩ := ih
      by_cases hc : c = '\n'
      · exact ⟨front ++ indent ++ ['\n'], [], by simp [hc], Or.inr ⟨_, rfl⟩, List.not_mem_nil⟩
      · exact ⟨front, indent ++ [c], by simp, hstarts, by simp [hindent, Ne.symm hc]⟩

/-- Every place but the end is on a line. -/
theorem exists_lineAt (before : List Char) {after : List Char} (h : after ≠ []) :
    ∃ front indent, before = front ++ indent ∧ '\n' ∉ indent
      ∧ LineAt (before ++ after) front (indent ++ after.takeWhile (· ≠ '\n'))
        (after.dropWhile (· ≠ '\n')) := by
  obtain ⟨front, indent, rfl, hstarts, hindent⟩ := exists_startsLine before
  refine ⟨front, indent, rfl, hindent, ?_, hstarts, ?_, ?_, ?_⟩
  · rw [List.append_assoc, List.append_assoc, List.takeWhile_append_dropWhile]
  · rw [List.mem_append, not_or]
    exact ⟨hindent, notMem_takeWhile_ne⟩
  · simpa using head_dropWhile (p := (· ≠ '\n'))
  · rw [List.append_assoc, List.takeWhile_append_dropWhile]
    exact List.append_ne_nil_of_right_ne_nil _ h

theorem LineAt.head?_lines {cs front line rest : List Char} (h : LineAt cs front line rest) :
    (lines (line ++ rest)).head? = some (if rest = [] then line else stripReturn line) := by
  cases rest with
  | nil =>
      have hne : line ≠ [] := by simpa using h.nonempty
      rw [List.append_nil, lines_of_notMem h.oneLine hne, if_pos rfl]
      rfl
  | cons c rest =>
      obtain rfl := h.ends c rfl
      rw [lines_line_append h.oneLine, if_neg (List.cons_ne_nil _ _)]
      rfl

theorem LineAt.getElem?_lines {cs front line rest : List Char} (h : LineAt cs front line rest) :
    (lines cs)[front.count '\n']? = some (if rest = [] then line else stripReturn line) := by
  rw [← h.head?_lines, ← drop_lines h.starts (line ++ rest), List.head?_drop, ← h.split]

end Text

open Text

/-- A line is found under the number of a place on it, carriage returns
at its end left out. -/
theorem exists_lineText {cs front line rest : List Char} (h : LineAt cs front line rest)
    (hsize : cs.length + 1 < UInt32.size) :
    ∃ shown returns, lineText cs (UInt32.ofNat (lineAfter front)) = .ok shown
      ∧ line = shown ++ returns ∧ Returns returns := by
  have hnumber : (UInt32.ofNat (lineAfter front)).toNat = 1 + front.count '\n' := by
    have hlength : front.length ≤ cs.length := by
      rw [h.split, List.length_append]
      exact Nat.le_add_right ..
    exact UInt32.toNat_ofNat_of_lt'
      (Nat.lt_of_le_of_lt ((lineAfter_le_length front).trans (by omega)) hsize)
  have hfound := h.getElem?_lines
  obtain ⟨returns, hline, hreturns⟩ :
      ∃ returns, line = (if rest = [] then line else stripReturn line) ++ returns
        ∧ Returns returns := by
    split
    · exact ⟨[], (List.append_nil _).symm, by simp [Returns]⟩
    · exact exists_stripReturn line
  generalize (if rest = [] then line else stripReturn line) = found at hfound hline
  obtain ⟨returns', hfound', hreturns'⟩ := exists_stripReturn found
  refine ⟨stripReturn found, returns' ++ returns, ?_, ?_, ?_⟩
  · have hzero : UInt32.ofNat (lineAfter front) ≠ 0 := by
      intro hzero
      rw [hzero] at hnumber
      simp at hnumber
      omega
    rw [lineText, if_neg hzero, hnumber, Nat.add_sub_cancel_left, hfound]
  · rw [← List.append_assoc, ← hfound', ← hline]
  · exact fun c hc => (List.mem_append.mp hc).elim (hreturns' c) (hreturns c)

end LoxScan
