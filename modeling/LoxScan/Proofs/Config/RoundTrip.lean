import Mathlib
import LoxScan.Proofs.Toml.Document
import LoxScan.Proofs.Config.Loading
import LoxScan.Proofs.Config.Settings

/-!
# Saving settings and loading them again

A document that is written has a line for each setting, and each line is
read as the entry it was written for (`Setting.written_item`). What is
saved stands in the file as it was written (`Config.exists_saveTo`), and a
file with a part of the settings is loaded to that part
(`Config.loadFrom_of_holds`), so a saved configuration is loaded as it was.
-/

namespace LoxScan

open Toml (Value Entries Item)

namespace Setting

variable {c : Config}

/-- What stands behind the key of a setting. -/
def text (c : Config) : Setting → List Char
  | .verbose => (toString c.verbose).toList
  | .color => (toString c.color).toList
  | .format => Toml.writeString c.format.name.toList
  | .prompt => Toml.writeString c.repl.prompt.toList
  | .historyFile => Toml.writeString c.repl.historyFile.toList
  | .maxHistory => (toString c.repl.maxHistory.toNat).toList

def item (c : Config) (s : Setting) : Item := ⟨s.key, s.text c, s.value c⟩

/-- Every setting can be written, save a count that no document holds. -/
def Fits (c : Config) (s : Setting) : Prop :=
  s = .maxHistory → c.repl.maxHistory.toNat ≤ Config.countLimit

theorem bare_key (s : Setting) : Toml.Bare s.key := by
  cases s <;> exact ⟨by decide, List.all_eq_true.mp rfl⟩

theorem exists_head_text (c : Config) (s : Setting) :
    ∃ d ds, s.text c = d :: ds ∧ Toml.isIndent d = false := by
  have hflag (b : Bool) : ∃ d ds, (toString b).toList = d :: ds ∧ Toml.isIndent d = false := by
    cases b with
    | true => exact ⟨'t', _, rfl, rfl⟩
    | false => exact ⟨'f', _, rfl, rfl⟩
  have hstring (cs : List Char) :
      ∃ d ds, Toml.writeString cs = d :: ds ∧ Toml.isIndent d = false := by
    obtain ⟨q, body, hwritten, hq⟩ := Toml.exists_quote_writeString cs
    rcases hq with rfl | rfl
    · exact ⟨_, body, hwritten, rfl⟩
    · exact ⟨_, body, hwritten, rfl⟩
  cases s with
  | verbose => exact hflag c.verbose
  | color => exact hflag c.color
  | format => exact hstring c.format.name.toList
  | prompt => exact hstring c.repl.prompt.toList
  | historyFile => exact hstring c.repl.historyFile.toList
  | maxHistory =>
      have hdigits := digits_toDigits c.repl.maxHistory.toNat
      obtain ⟨d, ds, hds⟩ := List.exists_cons_of_ne_nil hdigits.ne_nil
      have hd := hdigits.isDigit d (by rw [hds]; exact List.mem_cons_self ..)
      refine ⟨d, ds, by rw [text, toList_toString, hds], ?_⟩
      simp [Toml.isIndent, Toml.ne_of_isDigit hd (d := ' ') rfl,
        Toml.ne_of_isDigit hd (d := '\t') rfl]

theorem readValue?_text {s : Setting} (h : s.Fits c) (depth : Nat) (rest : List Char) :
    Toml.readValue? depth (s.text c ++ '\n' :: rest) = some (s.value c, '\n' :: rest) := by
  have hend : Toml.EndsString ('\n' :: rest) := ⟨by simp, by simp⟩
  cases s with
  | verbose => exact Toml.readValue?_boolean depth c.verbose _
  | color => exact Toml.readValue?_boolean depth c.color _
  | format => exact Toml.readValue?_writeString depth c.format.name hend
  | prompt => exact Toml.readValue?_writeString depth c.repl.prompt hend
  | historyFile => exact Toml.readValue?_writeString depth c.repl.historyFile hend
  | maxHistory =>
      have hcount : c.repl.maxHistory.toNat < 2 ^ 63 := by
        have := h rfl
        rw [Config.countLimit] at this
        omega
      rw [text, toList_toString]
      refine Toml.readValue?_toDigits depth hcount fun d hd => ?_
      obtain rfl : '\n' = d := Option.some.inj hd
      rfl

theorem written_item {s : Setting} (h : s.Fits c) : (s.item c).Written := by
  refine ⟨s.bare_key, fun rest => ?_⟩
  obtain ⟨d, ds, htext, hd⟩ := exists_head_text c s
  have hskip : Toml.skipIndent (s.text c ++ '\n' :: rest) = s.text c ++ '\n' :: rest := by
    refine Toml.skipIndent_of_head fun e he => ?_
    rw [htext] at he
    obtain rfl : d = e := Option.some.inj he
    exact hd
  exact (congrArg (Toml.readValue? _) hskip).trans (readValue?_text h _ rest)

end Setting

namespace Config

variable {c : Config} {kept : Setting → Bool}

/-- The lines of some settings, as far as they are kept. -/
def items (kept : Setting → Bool) (c : Config) (settings : List Setting) : List Item :=
  (settings.filter kept).map (Setting.item c)

/-- The document with some of the settings of a configuration. The table
of the prompt is left out if nothing is in it. -/
def document (kept : Setting → Bool) (c : Config) : String :=
  String.ofList (
    if Setting.ofPrompt.any kept then
      (items kept c Setting.top).flatMap Item.line ++
        '\n' :: '[' :: (Setting.tableKey.toList ++ ']' :: '\n' ::
          (items kept c Setting.ofPrompt).flatMap Item.line)
    else (items kept c Setting.top).flatMap Item.line)

theorem text_eq_document (c : Config) : c.text = c.document (fun _ => true) := by
  have hkept : Setting.ofPrompt.any (fun _ => true) = true := rfl
  have hlines (settings : List Setting) : (items (fun _ => true) c settings).flatMap Item.line =
      settings.flatMap fun s => (s.item c).line := by
    rw [items, List.filter_true, List.flatMap_map]
  unfold text document
  rw [if_pos hkept, hlines, hlines]
  refine congrArg String.ofList ?_
  simp [Setting.top, Setting.ofPrompt, Item.line, Setting.item, Setting.key, Setting.tableKey,
    Setting.text]

theorem written_of_mem_items (h : ∀ s, kept s = true → s.Fits c) {settings : List Setting} :
    ∀ i ∈ items kept c settings, i.Written := by
  intro i hi
  obtain ⟨s, hs, rfl⟩ := List.mem_map.mp hi
  exact Setting.written_item (h s (List.mem_filter.mp hs).2)

theorem nodup_key_items (kept : Setting → Bool) (c : Config) {settings : List Setting}
    (h : settings.Nodup) :
    ((items kept c settings).map Item.key).Nodup := by
  rw [items, List.map_map]
  exact List.Nodup.map (fun _ _ => Setting.key_injective) (h.filter kept)

theorem map_entry_items (settings : List Setting) :
    (items kept c settings).map Item.entry = entriesOf kept c settings := by
  rw [items, List.map_map, entriesOf]
  rfl

/-- A document with some of the settings is read as just these. -/
theorem exists_holds_document (h : ∀ s, kept s = true → s.Fits c) :
    ∃ entries, Toml.read? (c.document kept) = some entries ∧ Holds kept c entries := by
  have htop := nodup_key_items kept c (show Setting.top.Nodup by decide)
  have hprompt := nodup_key_items kept c (show Setting.ofPrompt.Nodup by decide)
  unfold document
  split
  · have hnew : Setting.tableKey ∉ (items kept c Setting.top).map Item.key := by
      intro hmem
      obtain ⟨i, hi, hkey⟩ := List.mem_map.mp hmem
      obtain ⟨s, hs, rfl⟩ := List.mem_map.mp hi
      exact s.key_ne_tableKey hkey
    have htable : Toml.Bare Setting.tableKey := ⟨by decide, List.all_eq_true.mp rfl⟩
    refine ⟨_, Toml.read?_table (written_of_mem_items h) htop htable hnew
      (written_of_mem_items h) hprompt, ?_⟩
    rw [map_entry_items, map_entry_items]
    exact .nested (List.perm_append_singleton _ _) (.refl _)
  · rename_i hnone
    refine ⟨_, Toml.read?_lines (written_of_mem_items h) htop, ?_⟩
    rw [map_entry_items]
    exact .flat (.refl _) (by simpa using hnone)

/-! ## Saving and loading -/

/-- What saving does first. -/
def makeParent (path : String) : OnTree (Except DiskFault Unit) :=
  match Path.parent? path with
  | some directory => MonadDisk.makeDirectories directory
  | none => pure (.ok ())

/-- The directories above the path are there or can be made, and a file
can be put there then. -/
def Writable (tree : FileTree) (path : String) : Prop :=
  ∃ made, makeParent path tree = (.ok (), made) ∧
    ∃ content after, made.write path content = .ok after

theorem adds_makeParent (path : String) : OnTree.Adds (makeParent path) := by
  unfold makeParent
  split
  · exact .makeNested _
  · exact .pure _

variable {path : String} {tree made : FileTree}

theorem saveTo_run (h : makeParent path tree = (.ok (), made)) :
    (c.saveTo path : OnTree (Except Failure Unit)) tree =
      match c.toText with
      | .error fault => (.error (.config fault), made)
      | .ok text =>
        (do
          match ← MonadDisk.write path text with
          | .error cause => return .error (.disk cause)
          | .ok () => return .ok () : OnTree (Except Failure Unit)) made := by
  unfold makeParent at h
  unfold saveTo
  cases hparent : Path.parent? path with
  | none | some directory =>
      simp only [hparent] at h ⊢
      rw [OnDisk.bind_run, h]
      cases c.toText <;> rfl

/-- What is saved is written as it stands. -/
theorem exists_saveTo (hfits : c.repl.maxHistory.toNat ≤ countLimit) (h : Writable tree path) :
    ∃ after, (c.saveTo path : OnTree (Except Failure Unit)) tree = (.ok (), after) ∧
      after.readText path = .ok c.text := by
  obtain ⟨made, hmade, content, _, hwrite⟩ := h
  obtain ⟨place, -, -, -, -, hput⟩ := FileTree.exists_of_write hwrite
  have htext : c.toText = .ok c.text := if_neg (Nat.not_lt.mpr hfits)
  refine ⟨_, ?_, FileTree.readText_of_write (hput c.text.toUTF8)⟩
  rw [saveTo_run hmade, htext]
  dsimp only
  rw [OnDisk.bind_run, OnTree.write_run (hput _)]
  rfl

/-- What cannot be saved is refused before anything is written. -/
theorem saveTo_of_countLimit_lt (hlarge : countLimit < c.repl.maxHistory.toNat)
    (hmade : makeParent path tree = (.ok (), made)) :
    (c.saveTo path : OnTree (Except Failure Unit)) tree =
      (.error (.config .countTooLarge), made) := by
  have htext : c.toText = .error .countTooLarge := if_pos hlarge
  rw [saveTo_run hmade, htext]

/-- A file with some of the settings is loaded to these and the defaults
of the others. -/
theorem loadFrom_of_holds {text : String} {entries : Entries}
    (htext : tree.readText path = .ok text) (hread : Toml.read? text = some entries)
    (h : Holds kept c entries) :
    (loadFrom path : OnTree (Except Failure Config)) tree = (.ok (c.keep kept), tree) := by
  have hfile : Disk.readText tree path = .ok text := htext
  rw [loadFrom_run_of_hasPath (FileTree.hasPath_of_readText htext), hfile]
  dsimp only
  rw [ofText, hread]
  dsimp only
  rw [h.ofEntries]
  rfl

/-- A configuration that is saved is loaded as it was. A file with some of
the settings, and for all of them that fit there is one, is loaded to
these and the defaults of the others. A count that does not fit is refused
and leaves every file as it was. -/
theorem save_load (c : Config) :
    (c.repl.maxHistory.toNat ≤ countLimit → ∀ tree path, Writable tree path →
      ∃ after, (c.saveTo path : OnTree (Except Failure Unit)) tree = (.ok (), after) ∧
        (loadFrom path : OnTree (Except Failure Config)) after = (.ok c, after)) ∧
    (∀ kept : Setting → Bool,
      (∀ tree path text entries, FileTree.readText tree path = .ok text →
        Toml.read? text = some entries → Holds kept c entries →
          (loadFrom path : OnTree (Except Failure Config)) tree = (.ok (c.keep kept), tree)) ∧
      ((∀ s, kept s = true → s.Fits c) →
        ∃ entries, Toml.read? (c.document kept) = some entries ∧ Holds kept c entries)) ∧
    (countLimit < c.repl.maxHistory.toNat → ∀ tree path, Writable tree path →
      ∃ after, (c.saveTo path : OnTree (Except Failure Unit)) tree =
          (.error (.config .countTooLarge), after) ∧
        (Failure.config .countTooLarge).exitCode = 78 ∧
        ∀ file content, tree.read file = .ok content → after.read file = .ok content) := by
  refine ⟨fun hfits tree path h => ?_, fun kept => ⟨?_, exists_holds_document⟩,
    fun hlarge tree path h => ?_⟩
  · obtain ⟨after, hsave, htext⟩ := exists_saveTo hfits h
    have hfits' (s : Setting) (_ : true = true) : s.Fits c := fun _ => hfits
    obtain ⟨entries, hread, hholds⟩ := exists_holds_document hfits'
    rw [← text_eq_document] at hread
    exact ⟨after, hsave, loadFrom_of_holds htext hread hholds⟩
  · intro tree path text entries
    exact loadFrom_of_holds
  · obtain ⟨made, hmade, -⟩ := h
    have hadds : FileTree.Extends tree made := by
      have hadds := adds_makeParent path tree
      rwa [hmade] at hadds
    exact ⟨made, saveTo_of_countLimit_lt hlarge hmade, rfl, fun file content => hadds.read⟩

theorem save_load_nested :
    (∃ after,
      (saveTo { color := false, repl := { prompt := "'\"\\\n", historyFile := "\x01" } }
        "etc/loxc.toml" : OnTree (Except Failure Unit)) ⟨[], []⟩ = (.ok (), after) ∧
      (loadFrom "etc/loxc.toml" : OnTree (Except Failure Config)) after =
        (.ok { color := false, repl := { prompt := "'\"\\\n", historyFile := "\x01" } }, after)) ∧
    (∃ tree, (loadFrom "loxc.toml" : OnTree (Except Failure Config)) tree =
      (.ok { format := .json, repl := { prompt := ">> " } }, tree)) ∧
    ∃ after,
      (saveTo { repl := { maxHistory := 0x8000000000000000 } } "loxc.toml" :
        OnTree (Except Failure Unit)) ⟨[(["loxc.toml"], .file ⟨#[120]⟩)], []⟩ =
          (.error (.config .countTooLarge), after) ∧
      (Failure.config .countTooLarge).exitCode = 78 ∧
      after.read "loxc.toml" = .ok ⟨#[120]⟩ := by
  have hnested : Writable ⟨[], []⟩ "etc/loxc.toml" := by
    have htarget : FileTree.target ⟨[(["etc"], .directory)], []⟩ "etc/loxc.toml" =
        .ok (some ["etc", "loxc.toml"]) := by decide +kernel
    exact ⟨_, by cbv, ⟨#[]⟩, _, FileTree.bind_eq_ok_iff.mpr ⟨_, htarget, rfl⟩⟩
  have hhere (content : ByteArray) : FileTree.write ⟨[], []⟩ "loxc.toml" content =
      .ok ⟨[(["loxc.toml"], .file content)], []⟩ := by
    have htarget : FileTree.target ⟨[], []⟩ "loxc.toml" = .ok (some ["loxc.toml"]) := by
      decide +kernel
    exact FileTree.bind_eq_ok_iff.mpr ⟨_, htarget, rfl⟩
  have hthere : Writable ⟨[(["loxc.toml"], .file ⟨#[120]⟩)], []⟩ "loxc.toml" := by
    have htarget : FileTree.target ⟨[(["loxc.toml"], .file ⟨#[120]⟩)], []⟩ "loxc.toml" =
        .ok (some ["loxc.toml"]) := by decide +kernel
    exact ⟨⟨[(["loxc.toml"], .file ⟨#[120]⟩)], []⟩, by cbv, ⟨#[]⟩, _,
      FileTree.bind_eq_ok_iff.mpr ⟨_, htarget, rfl⟩⟩
  refine ⟨(save_load _).1 (by decide) _ _ hnested, ?_, ?_⟩
  · let c : Config := { verbose := true, format := .json, repl := { prompt := ">> " } }
    let kept (s : Setting) : Bool := s = .format || s = .prompt
    have hfits (s : Setting) (h : kept s = true) : s.Fits c := by
      rintro rfl
      cases h
    obtain ⟨entries, hread, hholds⟩ := ((save_load c).2.1 kept).2 hfits
    have htext := FileTree.readText_of_write (hhere (c.document kept).toUTF8)
    exact ⟨_, ((save_load c).2.1 kept).1 _ _ _ _ htext hread hholds⟩
  · let c : Config := { repl := { maxHistory := 0x8000000000000000 } }
    obtain ⟨after, hsave, hcode, hkept⟩ := (save_load c).2.2 (by decide) _ _ hthere
    exact ⟨after, hsave, hcode, hkept _ _ (FileTree.read_of_write (hhere _))⟩

end Config

end LoxScan
