import LoxScan.Prompt.Command
import LoxScan.Proofs.Text.Trim

/-!
# The grammar of commands

A command is a point and a name, alone or with an argument behind a
blank; blanks around it do not count. `PromptCommand.Says` is that
grammar on a text without blanks at its ends, and a line is read as a
command exactly if it is one by the grammar (`parse_grammar`).

No name has a blank in it, so the name ends at the first one and there is
one way to read a line. Behind that blank there always is an argument: the
text does not end in a blank.
-/

namespace LoxScan

open Text

namespace PromptCommand

/-- What a text says that has no blanks at its ends. -/
inductive Says : List Char → PromptCommand → Option (List Char) → Prop
  | alone (command : PromptCommand) : Says ('.' :: command.name) command none
  | given (command : PromptCommand) {b : Char} {rest argument : List Char} :
      isBlank b = true → Trims rest argument →
      Says ('.' :: (command.name ++ b :: rest)) command (some argument)

theorem isBlank_of_mem_name (command : PromptCommand) :
    ∀ c ∈ command.name, isBlank c = false := by
  have hnone : command.name.any isBlank = false := by cases command <;> rfl
  simpa using hnone

/-- There is more than blanks behind a blank that a text does not end
in. -/
theorem argument_ne_nil (word : List Char) {rest argument : List Char} {b : Char}
    (hbare : Bare (word ++ b :: rest)) (hb : isBlank b = true) (h : Trims rest argument) :
    argument ≠ [] := by
  rintro rfl
  obtain ⟨⟨front, back, rfl, hf, hback⟩, -⟩ := h
  have hall : Blanks (b :: (front ++ ([] ++ back))) := by
    intro c hc
    simp only [List.nil_append, List.mem_cons, List.mem_append] at hc
    rcases hc with rfl | hc | hc
    · exact hb
    · exact hf c hc
    · exact hback c hc
  have hne := List.cons_ne_nil b (front ++ ([] ++ back))
  have hlast := hbare.last _ (by
    rw [List.getLast?_append_of_ne_nil _ hne, List.getLast?_eq_some_getLast hne]
    rfl)
  rw [hall _ (List.getLast_mem hne)] at hlast
  cases hlast

theorem parse_of_says {line text : List Char} {command : PromptCommand}
    {argument : Option (List Char)} (ht : Trims line text) (h : Says text command argument) :
    parse line = some (command, argument) := by
  have htrim := trims_iff.mp ht
  have hname := ofName?_eq_some_iff.mpr (rfl : command.name = command.name)
  cases h with
  | alone =>
      simp only [parse, htrim, splitAtBlank_word command.isBlank_of_mem_name, hname]
      rfl
  | @given _ b rest argument hb hrest =>
      have hne := argument_ne_nil ('.' :: command.name) ht.bare hb hrest
      simp only [parse, htrim, splitAtBlank_append command.isBlank_of_mem_name hb, hname,
        Option.map_some, trims_iff.mp hrest]
      simp [Option.filter, hne]

theorem says_of_parse {line : List Char} {command : PromptCommand}
    {argument : Option (List Char)} (h : parse line = some (command, argument)) :
    Says (trim line) command argument := by
  have hbare := bare_trim line
  unfold parse at h
  split at h
  case h_2 => cases h
  case h_1 rest htrim =>
    rw [htrim] at hbare ⊢
    rcases exists_word rest with hword | ⟨word, b, behind, rfl, hword, hb⟩
    · rw [splitAtBlank_word hword] at h
      obtain ⟨c, hname, hc⟩ := Option.map_eq_some_iff.mp h
      obtain ⟨rfl, rfl⟩ := Prod.mk.inj hc
      rw [ofName?_eq_some_iff.mp hname]
      exact .alone c
    · rw [splitAtBlank_append hword hb] at h
      obtain ⟨c, hname, hc⟩ := Option.map_eq_some_iff.mp h
      have hrest := trims_trim behind
      have hne := argument_ne_nil ('.' :: word) hbare hb hrest
      obtain ⟨rfl, rfl⟩ := Prod.mk.inj hc
      rw [ofName?_eq_some_iff.mp hname]
      have hargument : ((some behind).map trim).filter (!·.isEmpty) = some (trim behind) := by
        simp [Option.filter, hne]
      rw [hargument]
      exact .given c hb hrest

theorem parse_eq_some_iff {line text : List Char} (ht : Trims line text)
    (command : PromptCommand) (argument : Option (List Char)) :
    parse line = some (command, argument) ↔ Says text command argument := by
  constructor
  · intro h
    rw [← trims_iff.mp ht]
    exact says_of_parse h
  · exact parse_of_says ht

/-- How a line is read, where `text` is what stands between the blanks at
its ends. -/
structure Parsed (line text : List Char) : Prop where
  trims : Trims line text
  unique : ∀ other, Trims line other → other = text
  command : ∀ command argument,
    parse line = some (command, argument) ↔ Says text command argument
  source : parse line = none ↔ ∀ command argument, ¬ Says text command argument
  argument : ∀ command argument, Says text command (some argument) → argument ≠ []
  one : ∀ {command command' argument argument'}, Says text command argument →
    Says text command' argument' → command = command' ∧ argument = argument'
  around : ∀ front back, Blanks front → Blanks back →
    parse (front ++ (line ++ back)) = parse line

theorem parsed_trim (line : List Char) : Parsed line (trim line) := by
  have hparse := parse_eq_some_iff (trims_trim line)
  refine ⟨trims_trim line, fun other h => (trims_iff.mp h).symm, hparse, ?_, ?_, ?_, ?_⟩
  · rw [Option.eq_none_iff_forall_ne_some]
    exact ⟨fun h c a hsays => h (c, a) ((hparse c a).mpr hsays),
      fun h (c, a) hsome => h c a ((hparse c a).mp hsome)⟩
  · rintro c argument hsays
    have hbare := bare_trim line
    generalize trim line = text at hsays hbare
    cases hsays with
    | given _ hb hrest => exact argument_ne_nil ('.' :: c.name) hbare hb hrest
  · intro c c' a a' h h'
    have heq := ((hparse c a).mpr h).symm.trans ((hparse c' a').mpr h')
    exact Prod.mk.inj (Option.some.inj heq)
  · intro front back hf hb
    rw [parse, parse, trim_between hf hb]

/-- A command that is written with an argument is read as that. -/
theorem parse_given (command : PromptCommand) {gap argument : List Char} (hgap : gap ≠ [])
    (hblanks : Blanks gap) (hargument : argument ≠ []) (hbare : Bare argument) :
    parse ('.' :: (command.name ++ (gap ++ argument))) = some (command, some argument) := by
  obtain ⟨b, gap, rfl⟩ := List.exists_cons_of_ne_nil hgap
  obtain ⟨hb, hblanks⟩ := List.forall_mem_cons.mp hblanks
  have htext : Bare ('.' :: (command.name ++ (b :: gap ++ argument))) := by
    rw [← List.append_assoc]
    exact hbare.append hargument (by decide) _
  exact parse_of_says (trims_of_bare htext) (.given command hb (hbare.trims_append hblanks))

/-- Every line is read by the grammar, and what is written by it is read
back. -/
theorem parse_grammar :
    (∀ line, ∃ text, Parsed line text)
      ∧ ∀ (command : PromptCommand) (gap argument : List Char),
        gap ≠ [] → Blanks gap → argument ≠ [] → Bare argument →
        parse ('.' :: (command.name ++ (gap ++ argument))) = some (command, some argument) := by
  constructor
  · intro line
    exact ⟨trim line, parsed_trim line⟩
  · intro command gap argument hgap hblanks hargument hbare
    exact parse_given command hgap hblanks hargument hbare

/-- Blanks of several kinds around an argument that holds some itself. -/
theorem parse_grammar_load :
    let gap := "\u00A0\t\u3000".toList
    let argument := "a \u2003b.lox".toList
    Blanks gap ∧ Bare argument
      ∧ parse ('.' :: (PromptCommand.load.name ++ (gap ++ argument))) =
        some (.load, some argument) := by
  intro gap argument
  have hgap : Blanks gap := List.all_eq_true.mp rfl
  have hargument : Bare argument := by constructor <;> (rintro c ⟨⟩; rfl)
  exact ⟨hgap, hargument,
    parse_grammar.2 .load gap argument (by decide) hgap (by decide) hargument⟩

end PromptCommand

end LoxScan
