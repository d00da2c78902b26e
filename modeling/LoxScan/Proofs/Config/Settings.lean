import Mathlib.Data.List.Basic
import LoxScan.Config.Document

/-!
# Settings in a document

Each setting has a key, and a value in every configuration. One entry of
a document puts one setting right and leaves the others as they are
(`Setting.exists_set_top`, `Setting.exists_set_prompt`), so a row of
entries puts right what it mentions, in whatever order (`exists_foldlM`).
What a document does not mention was at its default from the start, which
is why a part of the settings loads to just that part
(`Config.Holds.ofEntries`).
-/

namespace LoxScan

open Toml (Value Entries Origin)

/-- What a configuration file can set. -/
inductive Setting where
  | verbose
  | color
  | format
  | prompt
  | historyFile
  | maxHistory
  deriving DecidableEq

namespace Setting

/-- The settings at the top of a document. -/
def top : List Setting := [.verbose, .color, .format]

/-- The settings of the prompt, which have a table of their own. -/
def ofPrompt : List Setting := [.prompt, .historyFile, .maxHistory]

theorem mem_top_or_ofPrompt (s : Setting) : s ∈ top ∨ s ∈ ofPrompt := by cases s <;> decide

def key : Setting → String
  | .verbose => "verbose"
  | .color => "color"
  | .format => "format"
  | .prompt => "prompt"
  | .historyFile => "history_file"
  | .maxHistory => "max_history"

def value (c : Config) : Setting → Value
  | .verbose => .boolean c.verbose
  | .color => .boolean c.color
  | .format => .string c.format.name
  | .prompt => .string c.repl.prompt
  | .historyFile => .string c.repl.historyFile
  | .maxHistory => .integer c.repl.maxHistory.toNat

def entry (c : Config) (s : Setting) : String × Value := (s.key, s.value c)

def tableKey : String := "repl"

/-- The key a document has a setting under. -/
def outerKey (s : Setting) : String := if s ∈ ofPrompt then tableKey else s.key

theorem key_injective {s t : Setting} (h : s.key = t.key) : s = t := by
  cases s <;> cases t <;> first | rfl | exact absurd h (by decide)

theorem key_ne_tableKey (s : Setting) : s.key ≠ tableKey := by cases s <;> decide

theorem outerKey_of_not_mem {s : Setting} (hs : s ∉ ofPrompt) : s.outerKey = s.key := if_neg hs

theorem mem_ofPrompt_of_outerKey {s : Setting} (h : tableKey = s.outerKey) : s ∈ ofPrompt := by
  by_contra hs
  rw [outerKey_of_not_mem hs] at h
  exact s.key_ne_tableKey h.symm

theorem eq_of_outerKey {s t : Setting} (h : s.key = t.outerKey) : t = s := by
  unfold outerKey at h
  split at h
  · exact absurd h s.key_ne_tableKey
  · exact (key_injective h).symm

/-- Settings of the prompt depend on nothing else. -/
theorem value_repl {s : Setting} (hs : s ∈ ofPrompt) (c : Config) :
    s.value { repl := c.repl } = s.value c := by
  simp only [ofPrompt, List.mem_cons, List.not_mem_nil, or_false] at hs
  rcases hs with rfl | rfl | rfl <;> rfl

end Setting

theorem Format.name_injective {f g : Format} (h : f.name = g.name) : f = g := by
  have hf := Format.ofName?_name f
  rw [h, Format.ofName?_name] at hf
  exact (Option.some.inj hf).symm

theorem PromptSettings.ext_value {x y : PromptSettings}
    (h : ∀ s ∈ Setting.ofPrompt, s.value { repl := x } = s.value { repl := y }) : x = y := by
  obtain ⟨prompt, historyFile, maxHistory⟩ := x
  obtain ⟨prompt', historyFile', maxHistory'⟩ := y
  obtain rfl : prompt = prompt' := Value.string.inj (h .prompt (by decide))
  obtain rfl : historyFile = historyFile' := Value.string.inj (h .historyFile (by decide))
  obtain rfl : maxHistory = maxHistory' :=
    UInt64.toNat_inj.mp (Int.ofNat.inj (Value.integer.inj (h .maxHistory (by decide))))
  rfl

namespace Config

theorem ext_value {c d : Config} (h : ∀ s : Setting, s.value c = s.value d) : c = d := by
  have hrepl : c.repl = d.repl := PromptSettings.ext_value fun s hs => by
    rw [Setting.value_repl hs c, Setting.value_repl hs d]
    exact h s
  obtain ⟨verbose, color, format, repl⟩ := c
  obtain ⟨verbose', color', format', repl'⟩ := d
  obtain rfl : verbose = verbose' := Value.boolean.inj (h .verbose)
  obtain rfl : color = color' := Value.boolean.inj (h .color)
  obtain rfl : format = format' := Format.name_injective (Value.string.inj (h .format))
  obtain rfl : repl = repl' := hrepl
  rfl

/-- A configuration with only some of its settings, and the defaults for
the others. -/
def keep (kept : Setting → Bool) (c : Config) : Config :=
  let default : Config := {}
  { verbose := if kept .verbose then c.verbose else default.verbose
    color := if kept .color then c.color else default.color
    format := if kept .format then c.format else default.format
    repl :=
      { prompt := if kept .prompt then c.repl.prompt else default.repl.prompt
        historyFile := if kept .historyFile then c.repl.historyFile else default.repl.historyFile
        maxHistory := if kept .maxHistory then c.repl.maxHistory else default.repl.maxHistory } }

theorem value_keep (kept : Setting → Bool) (c : Config) (s : Setting) :
    s.value (c.keep kept) = if kept s then s.value c else s.value {} := by
  cases s <;> simp only [Setting.value, keep] <;> split <;> rfl

theorem value_keep_of_not_kept {kept : Setting → Bool} {s : Setting} (h : kept s = false)
    (c : Config) : s.value (c.keep kept) = s.value {} := by
  rw [value_keep, h]
  rfl

/-- The entries of some settings, as far as they are kept. -/
def entriesOf (kept : Setting → Bool) (c : Config) (settings : List Setting) : Entries :=
  (settings.filter kept).map (Setting.entry c)

/-- The entries are just these settings of a configuration, in any order,
with those of the prompt in their table. -/
inductive Holds (kept : Setting → Bool) (c : Config) : Entries → Prop
  | flat {entries : Entries} :
    entries.Perm (entriesOf kept c Setting.top) →
    (∀ s ∈ Setting.ofPrompt, kept s = false) →
    Holds kept c entries
  | nested {entries below : Entries} {origin : Origin} :
    entries.Perm ((Setting.tableKey, .table origin below) :: entriesOf kept c Setting.top) →
    below.Perm (entriesOf kept c Setting.ofPrompt) →
    Holds kept c entries

end Config

/-! ## Rows of entries -/

/-- A row of steps of which each puts something right and leaves right
what was right: it goes through, and what any of them puts right is right
in the end. -/
theorem exists_foldlM {ε σ α ι : Type} {f : σ → α → Except ε σ} {Right : σ → ι → Prop}
    {covers : α → ι → Prop} {as : List α}
    (hstep : ∀ a ∈ as, ∀ s, ∃ next, f s a = .ok next ∧
      ∀ i, Right s i ∨ covers a i → Right next i) (s : σ) :
    ∃ last, as.foldlM f s = .ok last ∧
      ∀ i, Right s i ∨ (∃ a ∈ as, covers a i) → Right last i := by
  induction as generalizing s with
  | nil => exact ⟨s, rfl, fun i h => h.resolve_right (by simp)⟩
  | cons a as ih =>
      obtain ⟨next, hnext, hright⟩ := hstep a (List.mem_cons_self ..) s
      obtain ⟨last, hlast, hrest⟩ :=
        ih (fun a' ha' => hstep a' (List.mem_cons_of_mem _ ha')) next
      refine ⟨last, ?_, ?_⟩
      · rw [List.foldlM_cons, hnext]
        exact hlast
      · rintro i (hi | ⟨a', ha', hi⟩)
        · exact hrest i (Or.inl (hright i (Or.inl hi)))
        · rcases List.mem_cons.mp ha' with rfl | ha'
          · exact hrest i (Or.inl (hright i (Or.inr hi)))
          · exact hrest i (Or.inr ⟨a', ha', hi⟩)

namespace Setting

variable {c : Config} {s : Setting}

/-- An entry at the top of a document sets what its key says and nothing
else. -/
theorem exists_set_top (hs : s ∈ top) (x : Config) :
    ∃ next, x.set (s.entry c) = .ok next ∧
      ∀ t : Setting, t.value next = if t = s then t.value c else t.value x := by
  have hformat : x.set (entry c .format) = .ok { x with format := c.format } := by
    show (do return { x with format := ← Format.ofText c.format.name }) = _
    rw [Format.ofText, Format.ofName?_name]
    rfl
  simp only [top, List.mem_cons, List.not_mem_nil, or_false] at hs
  rcases hs with rfl | rfl | rfl
  · refine ⟨{ x with verbose := c.verbose }, rfl, fun t => ?_⟩
    cases t <;> rfl
  · refine ⟨{ x with color := c.color }, rfl, fun t => ?_⟩
    cases t <;> rfl
  · refine ⟨{ x with format := c.format }, hformat, fun t => ?_⟩
    cases t <;> rfl

/-- So does one in the table of the prompt. -/
theorem exists_set_prompt (hs : s ∈ ofPrompt) (x : PromptSettings) :
    ∃ next, x.set (s.entry c) = .ok next ∧
      ∀ t : Setting,
        t.value { repl := next } = if t = s then t.value c else t.value { repl := x } := by
  have hcount : x.set (entry c .maxHistory) = .ok { x with maxHistory := c.repl.maxHistory } := by
    show (do return { x with maxHistory := ← (Value.integer c.repl.maxHistory.toNat).toCount }) = _
    rw [Value.toCount, if_neg (by omega), Int.toNat_natCast, UInt64.ofNat_toNat]
    rfl
  simp only [ofPrompt, List.mem_cons, List.not_mem_nil, or_false] at hs
  rcases hs with rfl | rfl | rfl
  · refine ⟨{ x with prompt := c.repl.prompt }, rfl, fun t => ?_⟩
    cases t <;> rfl
  · refine ⟨{ x with historyFile := c.repl.historyFile }, rfl, fun t => ?_⟩
    cases t <;> rfl
  · refine ⟨{ x with maxHistory := c.repl.maxHistory }, hcount, fun t => ?_⟩
    cases t <;> rfl

/-- A table with settings of the prompt sets all of these and nothing
else. -/
theorem exists_set_table {table : Value} (h : PromptSettings.ofValue table = .ok c.repl)
    (x : Config) :
    ∃ next, x.set (tableKey, table) = .ok next ∧
      ∀ t : Setting, t.value next = if t ∈ ofPrompt then t.value c else t.value x := by
  refine ⟨{ x with repl := c.repl }, ?_, fun t => ?_⟩
  · show (do return { x with repl := ← PromptSettings.ofValue table }) = _
    rw [h]
    rfl
  · cases t <;> rfl

end Setting

namespace Config

variable {c : Config} {kept : Setting → Bool} {entries : Entries}

theorem entry_keep {s : Setting} (hs : kept s = true) : s.entry (c.keep kept) = s.entry c := by
  rw [Setting.entry, value_keep, if_pos hs, Setting.entry]

theorem mem_entriesOf {settings : List Setting} {e : String × Value} :
    e ∈ entriesOf kept c settings ↔ ∃ s ∈ settings, kept s = true ∧ e = s.entry c := by
  simp only [entriesOf, List.mem_map, List.mem_filter, and_assoc, eq_comm]

/-- The table of the prompt gives the settings it mentions, and the
defaults for the others. -/
theorem ofEntries_ofPrompt (h : entries.Perm (entriesOf kept c Setting.ofPrompt)) :
    PromptSettings.ofEntries entries = .ok (c.keep kept).repl := by
  have hstep : ∀ e ∈ entries, ∀ x : PromptSettings, ∃ next, x.set e = .ok next ∧
      ∀ t : Setting, (t ∈ Setting.ofPrompt → t.value { repl := x } = t.value (c.keep kept)) ∨
          e.1 = t.key →
        t ∈ Setting.ofPrompt → t.value { repl := next } = t.value (c.keep kept) := by
    intro e he x
    obtain ⟨s, hs, hkept, rfl⟩ := mem_entriesOf.mp (h.mem_iff.mp he)
    rw [← entry_keep hkept]
    obtain ⟨next, hset, hnext⟩ := Setting.exists_set_prompt (c := c.keep kept) hs x
    refine ⟨next, hset, fun t hright ht => ?_⟩
    rw [hnext]
    split
    · rfl
    · rename_i hne
      refine hright.resolve_right (fun hkey => hne ?_) ht
      exact (Setting.key_injective hkey).symm
  obtain ⟨last, hlast, hright⟩ := exists_foldlM hstep {}
  rw [PromptSettings.ofEntries, hlast]
  refine congrArg Except.ok (PromptSettings.ext_value fun t ht => ?_)
  rw [Setting.value_repl ht (c.keep kept)]
  refine hright t ?_ ht
  cases hkept : kept t with
  | true => exact Or.inr ⟨t.entry c, h.mem_iff.mpr (mem_entriesOf.mpr ⟨t, ht, hkept, rfl⟩), rfl⟩
  | false => exact Or.inl fun _ => (value_keep_of_not_kept hkept c).symm

/-- A document gives the settings it mentions, and the defaults for the
others. -/
theorem ofEntries_eq_keep (table : Value)
    (hmem : ∀ e ∈ entries,
      e = (Setting.tableKey, table) ∨ e ∈ entriesOf kept c Setting.top)
    (htop : ∀ e ∈ entriesOf kept c Setting.top, e ∈ entries)
    (hprompt : ∀ s ∈ Setting.ofPrompt, kept s = true → (Setting.tableKey, table) ∈ entries)
    (htable : PromptSettings.ofValue table = .ok (c.keep kept).repl) :
    ofEntries entries = .ok (c.keep kept) := by
  have hstep : ∀ e ∈ entries, ∀ x : Config, ∃ next, x.set e = .ok next ∧
      ∀ t : Setting, t.value x = t.value (c.keep kept) ∨ e.1 = t.outerKey →
        t.value next = t.value (c.keep kept) := by
    intro e he x
    rcases hmem e he with rfl | he
    · obtain ⟨next, hset, hnext⟩ := Setting.exists_set_table htable x
      refine ⟨next, hset, fun t ht => ?_⟩
      rw [hnext]
      split
      · rfl
      · rename_i hout
        exact ht.resolve_right fun hkey => hout (Setting.mem_ofPrompt_of_outerKey hkey)
    · obtain ⟨s, hs, hkept, rfl⟩ := mem_entriesOf.mp he
      rw [← entry_keep hkept]
      obtain ⟨next, hset, hnext⟩ := Setting.exists_set_top (c := c.keep kept) hs x
      refine ⟨next, hset, fun t ht => ?_⟩
      rw [hnext]
      split
      · rfl
      · rename_i hne
        exact ht.resolve_right fun hkey => hne (Setting.eq_of_outerKey hkey)
  obtain ⟨last, hlast, hright⟩ := exists_foldlM hstep {}
  rw [ofEntries, hlast]
  refine congrArg Except.ok (ext_value fun t => hright t ?_)
  cases hkept : kept t with
  | false => exact Or.inl (value_keep_of_not_kept hkept c).symm
  | true =>
      refine Or.inr ?_
      by_cases ht : t ∈ Setting.ofPrompt
      · exact ⟨_, hprompt t ht hkept, (if_pos ht).symm⟩
      · have htop' : t ∈ Setting.top := t.mem_top_or_ofPrompt.resolve_right ht
        exact ⟨t.entry c, htop _ (mem_entriesOf.mpr ⟨t, htop', hkept, rfl⟩),
          (Setting.outerKey_of_not_mem ht).symm⟩

theorem Holds.ofEntries (h : Holds kept c entries) : ofEntries entries = .ok (c.keep kept) := by
  cases h with
  | flat hentries hnone =>
      refine ofEntries_eq_keep (.table .header (entriesOf kept c Setting.ofPrompt))
        (fun e he => Or.inr (hentries.mem_iff.mp he)) (fun e he => hentries.mem_iff.mpr he)
        (fun s hs hkept => ?_) (ofEntries_ofPrompt (.refl _))
      rw [hnone s hs] at hkept
      cases hkept
  | @nested below origin hentries hbelow =>
      refine ofEntries_eq_keep (.table origin below)
        (fun e he => List.mem_cons.mp (hentries.mem_iff.mp he)) (fun e he => ?_)
        (fun s hs hkept => ?_) (ofEntries_ofPrompt hbelow)
      · exact hentries.mem_iff.mpr (List.mem_cons_of_mem _ he)
      · exact hentries.mem_iff.mpr (List.mem_cons_self ..)

end Config

end LoxScan
