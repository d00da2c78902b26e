import Mathlib.Data.List.TakeWhile

/-!
# Runs of one class

A run is cut off where its class ends: all of its characters are in the
class, and the first one behind it is not. Such a cut can be made in one
place only, so a text made of a run and what stops it tells both.
-/

namespace LoxScan

theorem head_dropWhile {p : Char → Bool} {cs : List Char} :
    ∀ c ∈ (cs.dropWhile p).head?, p c = false := by
  intro c hc
  have h := List.head?_dropWhile_not p cs
  rw [Option.mem_def.mp hc] at h
  exact h

theorem takeWhile_run {p : Char → Bool} {run after : List Char}
    (hr : ∀ c ∈ run, p c = true) (ha : ∀ c ∈ after.head?, p c = false) :
    (run ++ after).takeWhile p = run := by
  rw [List.takeWhile_append_of_pos hr]
  cases after with
  | nil => simp
  | cons c after => simp [ha c rfl]

theorem dropWhile_run {p : Char → Bool} {run after : List Char}
    (hr : ∀ c ∈ run, p c = true) (ha : ∀ c ∈ after.head?, p c = false) :
    (run ++ after).dropWhile p = after := by
  rw [List.dropWhile_append_of_pos hr]
  cases after with
  | nil => simp
  | cons c after => simp [ha c rfl]

theorem run_append_dropWhile (p : Char → Bool) (c : Char) (cs : List Char) :
    c :: cs = (c :: cs.takeWhile p) ++ cs.dropWhile p := by
  rw [List.cons_append, List.takeWhile_append_dropWhile]

theorem notMem_takeWhile_ne {x : Char} {cs : List Char} :
    x ∉ cs.takeWhile (· ≠ x) := by
  intro h
  simpa using List.mem_takeWhile_imp h

/-- More text behind a run only makes it longer. -/
theorem takeWhile_isPrefix_append (p : Char → Bool) (cs more : List Char) :
    cs.takeWhile p <+: (cs ++ more).takeWhile p := by
  rw [List.takeWhile_append]
  split
  · exact (List.takeWhile_prefix p).trans (List.prefix_append ..)
  · exact List.prefix_rfl

section

variable {x : Char} {run after : List Char} (hr : x ∉ run) (ha : ∀ c ∈ after.head?, c = x)

include hr in
theorem ne_of_mem_run : ∀ c ∈ run, decide (c ≠ x) = true := by
  intro c hc
  rw [decide_eq_true_eq]
  rintro rfl
  exact hr hc

include ha in
theorem eq_of_mem_head? : ∀ c ∈ after.head?, decide (c ≠ x) = false := by
  intro c hc
  rw [decide_eq_false_iff_not, not_not]
  exact ha c hc

include hr ha

theorem takeWhile_stop : (run ++ after).takeWhile (· ≠ x) = run :=
  takeWhile_run (ne_of_mem_run hr) (eq_of_mem_head? ha)

theorem dropWhile_stop : (run ++ after).dropWhile (· ≠ x) = after :=
  dropWhile_run (ne_of_mem_run hr) (eq_of_mem_head? ha)

end

/-- Neither part holds the character that ends it. -/
theorem stop_inj {x : Char} {run run' after after' : List Char}
    (h : run ++ x :: after = run' ++ x :: after') (hr : x ∉ run) (hr' : x ∉ run') :
    run = run' ∧ after = after' := by
  have hstop {cs : List Char} : ∀ c ∈ (x :: cs).head?, c = x := by simp
  have hafter : x :: after = x :: after' := by
    rw [← dropWhile_stop hr hstop, h, dropWhile_stop hr' hstop]
  refine ⟨?_, (List.cons.inj hafter).2⟩
  rw [← takeWhile_stop hr hstop, h, takeWhile_stop hr' hstop]

end LoxScan
