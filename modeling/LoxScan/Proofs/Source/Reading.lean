import LoxScan.Source.Cursor
import LoxScan.Proofs.Source.Place

/-!
# What a cursor has read

A cursor is tied to its source by the text it has passed, `Cursor.At`.
Moving on only makes that text longer (`Reaches.exists_at`), so whatever
a reader does with a cursor its place is a count, and between two stops
of one reading there is always a slice:

> `slice?_of_at`: the offsets of the stops are boundaries, in order and
> inside the source, and what lies between them is what was read.
-/

namespace LoxScan

namespace Cursor

/-- The cursor has passed exactly the text `before`. -/
structure At (c : Cursor) (before : List Char) : Prop where
  source : c.source.toList = before ++ c.rest
  position : c.position = Position.after before

theorem at_ofSource (source : String) : (Cursor.ofSource source).At [] :=
  ⟨rfl, rfl⟩

theorem advance_of_cons {c : Cursor} {d : Char} {rest : List Char} (h : c.rest = d :: rest) :
    c.advance = { c with rest := rest, position := c.position.next d } := by
  obtain ⟨source, rest', position⟩ := c
  obtain rfl : rest' = d :: rest := h
  rfl

theorem advanceBy_of_append {text after : List Char} {c : Cursor} (h : c.rest = text ++ after) :
    c.advanceBy text.length
      = { c with rest := after, position := c.position.passing text } := by
  induction text generalizing c with
  | nil =>
      obtain ⟨source, rest, position⟩ := c
      obtain rfl : rest = after := h
      rfl
  | cons d text ih =>
      have hend : c.isAtEnd = false := by
        rw [isAtEnd, h]
        rfl
      rw [List.length_cons, advanceBy, hend, advance_of_cons h]
      exact ih rfl

/-! ## Moving on -/

/-- From one cursor to another by moving on. -/
inductive Reaches (c : Cursor) : Cursor → Prop
  | refl : Reaches c c
  | advance {c' : Cursor} : Reaches c c' → Reaches c c'.advance
  | accept {c' : Cursor} (expected : Char) :
      Reaches c c' → Reaches c (c'.accept expected).2

theorem accept_eq (c : Cursor) (expected : Char) :
    (c.accept expected).2 = c ∨ (c.accept expected).2 = c.advance := by
  unfold accept
  split
  · exact Or.inl rfl
  · split
    · exact Or.inr rfl
    · exact Or.inl rfl

theorem Reaches.trans {c c' c'' : Cursor} (h : c.Reaches c') (h' : c'.Reaches c'') :
    c.Reaches c'' := by
  induction h' with
  | refl => exact h
  | advance _ ih => exact .advance ih
  | accept expected _ ih => exact .accept expected ih

theorem reaches_advanceBy (n : Nat) (c : Cursor) : c.Reaches (c.advanceBy n) := by
  induction n generalizing c with
  | zero => exact .refl
  | succ n ih =>
      rw [advanceBy]
      split
      · exact .refl
      · exact (Reaches.advance .refl).trans (ih c.advance)

theorem at_advance_of_cons {c : Cursor} {before : List Char} (h : c.At before) {d : Char}
    {rest : List Char} (hr : c.rest = d :: rest) :
    c.advance.source = c.source ∧ c.advance.At (before ++ [d]) := by
  rw [advance_of_cons hr]
  refine ⟨rfl, ?_, ?_⟩
  · rw [h.source, hr, List.append_assoc, List.singleton_append]
  · rw [Position.after_concat, ← h.position]

theorem at_advance {c : Cursor} {before : List Char} (h : c.At before) :
    ∃ text, c.advance.source = c.source ∧ c.advance.At (before ++ text) := by
  cases hr : c.rest with
  | nil =>
      have hsame : c.advance = c := by
        rw [advance, hr]
      rw [hsame]
      exact ⟨[], rfl, by rwa [List.append_nil]⟩
  | cons d rest => exact ⟨[d], at_advance_of_cons h hr⟩

/-- What is read on the way comes behind what was read before. -/
theorem Reaches.exists_at {c c' : Cursor} (h : c.Reaches c') {before : List Char}
    (hat : c.At before) : ∃ text, c'.source = c.source ∧ c'.At (before ++ text) := by
  induction h with
  | refl => exact ⟨[], rfl, by rwa [List.append_nil]⟩
  | advance _ ih =>
      obtain ⟨text, hsource, hat⟩ := ih
      obtain ⟨more, hsame, hmore⟩ := at_advance hat
      exact ⟨text ++ more, hsame.trans hsource, by rwa [← List.append_assoc]⟩
  | accept expected _ ih =>
      obtain ⟨text, hsource, hat⟩ := ih
      rcases accept_eq _ expected with heq | heq
      · rw [heq]
        exact ⟨text, hsource, hat⟩
      · rw [heq]
        obtain ⟨more, hsame, hmore⟩ := at_advance hat
        exact ⟨text ++ more, hsame.trans hsource, by rwa [← List.append_assoc]⟩

section Between

variable {c c' : Cursor} {before text : List Char} (h : c.At before)
  (h' : c'.At (before ++ text)) (hsource : c'.source = c.source)

include h h' hsource

theorem rest_eq_append : c.rest = text ++ c'.rest := by
  have hsplit := h.source.symm.trans (hsource ▸ h'.source)
  rwa [List.append_assoc, List.append_cancel_left_eq] at hsplit

theorem advanceBy_of_at : c.advanceBy text.length = c' := by
  rw [advanceBy_of_append (rest_eq_append h h' hsource), h.position, ← Position.after_append,
    ← h'.position, ← hsource]

/-- Of two cursors over one source the one behind reaches the other. -/
theorem reaches_of_at : c.Reaches c' := by
  rw [← advanceBy_of_at h h' hsource]
  exact reaches_advanceBy ..

end Between

/-! ## Slices -/

theorem slice?_of_at {c : Cursor} {before text : List Char} (h : c.At (before ++ text)) :
    c.slice? (Text.byteLength before) c.position.offset = some (String.ofList text) := by
  rw [slice?, h.source, h.position]
  exact congrArg (Option.map String.ofList) (Text.slice?_append before text c.rest)

theorem slice?_remaining {c : Cursor} {before : List Char} (h : c.At before) :
    c.slice? c.position.offset c.source.utf8ByteSize = some c.remaining := by
  have hslice := Text.slice?_append before c.rest []
  rw [List.append_nil, ← h.source, Text.byteLength_toList] at hslice
  rw [slice?, h.position]
  exact congrArg (Option.map String.ofList) hslice

theorem offset_le {c : Cursor} {before : List Char} (h : c.At before) :
    c.position.offset ≤ c.source.utf8ByteSize := by
  rw [← Text.byteLength_toList, h.source, Text.byteLength_append, h.position]
  exact Nat.le_add_right ..

end Cursor

end LoxScan
