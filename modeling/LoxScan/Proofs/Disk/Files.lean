import Mathlib.Data.List.Basic
import LoxScan.Disk.Access

/-!
# Files that were written

A path goes through directories only, so it leads to the same place in
any tree that has the same directories (`Same.walk`). Putting a file where
no directory is takes none away, and that is why a file that was written
is found again under the path it was written to (`read_of_write`), even if
the path climbs. Making directories adds some and changes nothing else
(`Extends`), so whatever was found before is found afterwards.
-/

namespace LoxScan.FileTree

variable {tree more : FileTree} {place : List String}

theorem entry?_put {entry : Entry} (hplace : place ≠ []) :
    FileTree.entry? (tree.put place entry) place = some entry := by
  rw [FileTree.entry?, if_neg hplace, put, List.lookup_cons_self]

theorem entry?_put_of_ne {entry : Entry} {other : List String} (hne : other ≠ place) :
    FileTree.entry? (tree.put place entry) other = tree.entry? other := by
  unfold entry? put
  split
  · rfl
  have hcons : (other == place) = false := by simpa using hne
  simp only [List.lookup_cons, hcons]
  induction tree.entries with
  | nil => rfl
  | cons e es ih =>
      obtain ⟨key, value⟩ := e
      by_cases hkey : key = place
      · have hother : (other == key) = false := by
          rw [hkey]
          exact hcons
        rw [List.filter_cons_of_neg (by simpa using hkey), ih, List.lookup_cons, hother]
      · rw [List.filter_cons_of_pos (by simpa using hkey), List.lookup_cons, List.lookup_cons, ih]

/-! ## Accesses that succeed -/

/-- A run of accesses succeeds where each of them does. -/
theorem bind_eq_ok_iff {ε α β : Type} {x : Except ε α} {f : α → Except ε β} {b : β} :
    x >>= f = .ok b ↔ ∃ a, x = .ok a ∧ f a = .ok b := by
  cases x with
  | error e => simp [bind, Except.bind]
  | ok a => simp [bind, Except.bind]

section Access

variable {path : String}

theorem find_eq_ok_iff {e : Entry} :
    tree.find path = .ok e ↔
      ∃ start, tree.startOf path = .ok start ∧
        ∃ place, tree.walk start (Path.names path) = .ok place ∧
          tree.entry? place = some e ∧ (Path.endsInSlash path = true → e = .directory) := by
  simp only [find, bind_eq_ok_iff]
  refine exists_congr fun start => and_congr_right fun _ =>
    exists_congr fun place => and_congr_right fun _ => ?_
  rcases tree.entry? place with _ | ⟨content⟩ | _
  · simp
  · cases Path.endsInSlash path
    · simp [pure, Except.pure]
    · simp only [if_true, reduceCtorEq, Option.some.injEq, true_imp_iff, false_iff]
      rintro ⟨rfl, h⟩
      cases h
  · simp only [pure, Except.pure, Except.ok.injEq, Option.some.injEq]
    exact ⟨fun h => ⟨h, fun _ => h.symm⟩, And.left⟩

theorem read_eq_ok_iff {content : ByteArray} :
    tree.read path = .ok content ↔ tree.find path = .ok (.file content) := by
  rw [read, bind_eq_ok_iff]
  constructor
  · rintro ⟨⟨content'⟩ | _, hfind, hfile⟩
    · cases hfile
      exact hfind
    · cases hfile
  · intro h
    exact ⟨_, h, rfl⟩

/-- A place a path would name is reached by its names, if the last one
can exist at all. -/
theorem exists_walk_of_target (htarget : tree.target path = .ok (some place))
    (hshort : overlong place = false) :
    ∃ start, tree.startOf path = .ok start ∧ tree.walk start (Path.names path) = .ok place := by
  obtain ⟨start, hstart, hrest⟩ := bind_eq_ok_iff.mp htarget
  refine ⟨start, hstart, ?_⟩
  cases hnames : (Path.names path).reverse with
  | nil =>
      rw [hnames] at hrest
      cases hrest
  | cons last before =>
      rw [hnames] at hrest
      obtain ⟨dir, hwalk, hrest⟩ := bind_eq_ok_iff.mp hrest
      obtain ⟨⟨⟩, hdir, hrest⟩ := bind_eq_ok_iff.mp hrest
      by_cases hdots : last = "." ∨ last = ".."
      · rw [if_pos hdots] at hrest
        cases hrest
      rw [if_neg hdots] at hrest
      obtain rfl : dir ++ [last] = place := Option.some.inj (Except.ok.inj hrest)
      have hlast : tree.step dir last = .ok (dir ++ [last]) := by
        have hlimit : ¬ nameLimit < last.utf8ByteSize := by
          rw [overlong, List.getLast?_concat] at hshort
          simpa using hshort
        rw [step, hdir]
        simp only [not_or] at hdots
        simp [bind, Except.bind, pure, Except.pure, hdots, hlimit]
      rw [List.reverse_eq_iff.mp hnames, List.reverse_cons, walk, List.foldlM_append]
      exact bind_eq_ok_iff.mpr ⟨dir, hwalk, by simp [hlast]⟩

theorem exists_of_makeDirectory (hmake : tree.makeDirectory path = .ok more) :
    ∃ place, tree.entry? place = none ∧ more = tree.put place .directory := by
  obtain ⟨_ | place, htarget, hrest⟩ := bind_eq_ok_iff.mp hmake
  · cases hrest
  refine ⟨place, ?_⟩
  cases hlong : overlong place with
  | true => simp [hlong] at hrest
  | false =>
      cases hentry : tree.entry? place with
      | some e => simp [hlong, hentry] at hrest
      | none =>
          refine ⟨rfl, ?_⟩
          simpa [hlong, hentry, pure, Except.pure, eq_comm] using hrest

/-- Whether a file can be written does not depend on what it is to
hold. -/
theorem exists_of_write {content : ByteArray} (hwrite : tree.write path content = .ok more) :
    ∃ place, tree.target path = .ok (some place) ∧ Path.endsInSlash path = false ∧
      overlong place = false ∧ tree.entry? place ≠ some .directory ∧
      ∀ other, tree.write path other = .ok (tree.put place (.file other)) := by
  obtain ⟨_ | place, htarget, hrest⟩ := bind_eq_ok_iff.mp hwrite
  · cases hrest
  refine ⟨place, htarget, ?_⟩
  cases hslash : Path.endsInSlash path with
  | true => simp [hslash] at hrest
  | false =>
      cases hlong : overlong place with
      | true => simp [hslash, hlong] at hrest
      | false =>
          have hplace : tree.entry? place ≠ some .directory := by
            intro hentry
            simp [hslash, hlong, hentry] at hrest
          refine ⟨rfl, rfl, hplace, fun other => ?_⟩
          refine bind_eq_ok_iff.mpr ⟨_, htarget, ?_⟩
          rcases hentry : tree.entry? place with _ | ⟨content'⟩ | _
          · simp [hslash, hlong, hentry, pure, Except.pure]
          · simp [hslash, hlong, hentry, pure, Except.pure]
          · exact absurd hentry hplace

end Access

/-! ## Trees with the same directories -/

/-- Where there is a directory in the one tree there is one in the
other. -/
structure Same (tree more : FileTree) : Prop where
  workingDirectory : more.workingDirectory = tree.workingDirectory
  directory : ∀ place, tree.entry? place = some .directory → more.entry? place = some .directory

theorem requireDirectory_eq_ok_iff :
    tree.requireDirectory place = .ok () ↔ tree.entry? place = some .directory := by
  unfold requireDirectory
  split <;> simp_all

namespace Same

variable (h : Same tree more)

include h

theorem startOf (path : String) : more.startOf path = tree.startOf path := by
  rw [FileTree.startOf, FileTree.startOf, h.workingDirectory]

theorem requireDirectory (hdir : tree.requireDirectory place = .ok ()) :
    more.requireDirectory place = .ok () :=
  requireDirectory_eq_ok_iff.mpr (h.directory _ (requireDirectory_eq_ok_iff.mp hdir))

theorem step {name : String} {next : List String} (hstep : tree.step place name = .ok next) :
    more.step place name = .ok next := by
  unfold FileTree.step at hstep ⊢
  cases hdir : tree.requireDirectory place with
  | error fault =>
      rw [hdir] at hstep
      cases hstep
  | ok =>
      rw [hdir] at hstep
      rw [h.requireDirectory hdir]
      exact hstep

theorem walk {names : List String} {last : List String} (hwalk : tree.walk place names = .ok last) :
    more.walk place names = .ok last := by
  induction names generalizing place with
  | nil => exact hwalk
  | cons name names ih =>
      rw [FileTree.walk, List.foldlM_cons] at hwalk ⊢
      cases hstep : tree.step place name with
      | error fault =>
          rw [hstep] at hwalk
          cases hwalk
      | ok next =>
          rw [hstep] at hwalk
          rw [h.step hstep]
          exact ih hwalk

end Same

/-- Whatever stands in the one tree stands in the other. -/
structure Extends (tree more : FileTree) : Prop where
  workingDirectory : more.workingDirectory = tree.workingDirectory
  entry : ∀ place e, tree.entry? place = some e → more.entry? place = some e

namespace Extends

theorem refl (tree : FileTree) : Extends tree tree := ⟨rfl, fun _ _ h => h⟩

theorem trans {last : FileTree} (h : Extends tree more) (h' : Extends more last) :
    Extends tree last :=
  ⟨h'.workingDirectory.trans h.workingDirectory,
    fun place e he => h'.entry place e (h.entry place e he)⟩

theorem same (h : Extends tree more) : Same tree more :=
  ⟨h.workingDirectory, fun place => h.entry place .directory⟩

theorem put (h : tree.entry? place = none) (entry : Entry) :
    Extends tree (tree.put place entry) := by
  refine ⟨rfl, fun other e he => ?_⟩
  have hne : other ≠ place := by
    rintro rfl
    rw [h] at he
    cases he
  rwa [entry?_put_of_ne hne]

theorem find {path : String} {e : Entry} (h : Extends tree more) (hfind : tree.find path = .ok e) :
    more.find path = .ok e := by
  obtain ⟨start, hstart, place, hwalk, hentry, hslash⟩ := find_eq_ok_iff.mp hfind
  refine find_eq_ok_iff.mpr ⟨start, ?_, place, h.same.walk hwalk, h.entry place e hentry, hslash⟩
  rw [h.same.startOf, hstart]

theorem read {path : String} {content : ByteArray} (h : Extends tree more)
    (hread : tree.read path = .ok content) : more.read path = .ok content :=
  read_eq_ok_iff.mpr (h.find (read_eq_ok_iff.mp hread))

theorem makeDirectory {path : String} (hmake : tree.makeDirectory path = .ok more) :
    Extends tree more := by
  obtain ⟨place, hnone, rfl⟩ := exists_of_makeDirectory hmake
  exact put hnone .directory

end Extends

/-! ## What was written -/

theorem Same.put (h : tree.entry? place ≠ some .directory) (entry : Entry) :
    Same tree (tree.put place entry) := by
  refine ⟨rfl, fun other hdir => ?_⟩
  have hne : other ≠ place := by
    rintro rfl
    exact h hdir
  rwa [entry?_put_of_ne hne]

/-- A file that was written is found under the path it was written to,
with what was written. -/
theorem read_of_write {path : String} {content : ByteArray}
    (hwrite : tree.write path content = .ok more) : more.read path = .ok content := by
  obtain ⟨place, htarget, hslash, hshort, hplace, hput⟩ := exists_of_write hwrite
  obtain rfl : tree.put place (.file content) = more :=
    Except.ok.inj ((hput content).symm.trans hwrite)
  obtain ⟨start, hstart, hwalk⟩ := exists_walk_of_target htarget hshort
  have hsame := Same.put hplace (.file content)
  refine read_eq_ok_iff.mpr (find_eq_ok_iff.mpr ⟨start, ?_, place, hsame.walk hwalk, ?_, ?_⟩)
  · rw [hsame.startOf, hstart]
  · apply entry?_put
    rintro rfl
    exact hplace rfl
  · rw [hslash]
    exact fun h => nomatch h

theorem readText_of_write {path text : String} (hwrite : tree.write path text.toUTF8 = .ok more) :
    more.readText path = .ok text := by
  have htext : String.fromUTF8? text.toUTF8 = some text := by
    have hvalid : text.toUTF8.IsValidUTF8 := text.isValidUTF8
    rw [String.fromUTF8?, dif_pos hvalid]
    rfl
  refine bind_eq_ok_iff.mpr ⟨_, read_of_write hwrite, ?_⟩
  rw [htext]
  rfl

theorem hasPath_of_readText {path text : String} (hread : tree.readText path = .ok text) :
    tree.hasPath path = true := by
  obtain ⟨content, hcontent, -⟩ := bind_eq_ok_iff.mp hread
  rw [hasPath, read_eq_ok_iff.mp hcontent]
  rfl

end LoxScan.FileTree

namespace LoxScan.OnDisk

variable {σ α β : Type}

theorem bind_run (x : OnDisk σ α) (f : α → OnDisk σ β) (disk : σ) :
    (x >>= f) disk = f (x disk).1 (x disk).2 := rfl

variable [Disk σ] (path : String) (disk : σ)

theorem hasPath_run :
    (MonadDisk.hasPath path : OnDisk σ Bool) disk = (Disk.hasPath disk path, disk) := rfl

theorem readText_run :
    (MonadDisk.readText path : OnDisk σ (Except DiskFault String)) disk =
      (Disk.readText disk path, disk) := rfl

end LoxScan.OnDisk

namespace LoxScan.OnTree

open FileTree (Extends)

variable {α β : Type}

theorem write_run {path text : String} {tree more : FileTree}
    (h : tree.write path text.toUTF8 = .ok more) :
    (MonadDisk.write path text : OnTree (Except DiskFault Unit)) tree = (.ok (), more) := by
  show OnDisk.change (·.write path text.toUTF8) tree = _
  rw [OnDisk.change, h]

/-! ## Programs that only add to the tree -/

/-- A program that takes nothing away, whatever it comes to. -/
def Adds (x : OnTree α) : Prop := ∀ tree, Extends tree (x tree).2

namespace Adds

theorem pure (a : α) : Adds (Pure.pure a : OnTree α) := Extends.refl

theorem ask (answer : FileTree → α) : Adds (OnDisk.ask answer) := Extends.refl

theorem bind {x : OnTree α} {f : α → OnTree β} (hx : Adds x) (hf : ∀ a, Adds (f a)) :
    Adds (x >>= f) :=
  fun tree => (hx tree).trans (hf (x tree).1 (x tree).2)

theorem makeDirectory (path : String) :
    Adds (MonadDisk.makeDirectory path : OnTree (Except DiskFault Unit)) := by
  intro tree
  show Extends tree (OnDisk.change (·.makeDirectory path) tree).2
  unfold OnDisk.change
  split
  · rename_i h
    exact .makeDirectory h
  · exact .refl tree

theorem settle (path : String) (fault : DiskFault) :
    Adds (MonadDisk.settle path fault : OnTree (Except DiskFault Unit)) := by
  rw [MonadDisk.settle]
  refine bind (ask _) fun found => ?_
  split <;> exact pure _

theorem makeNested (paths : List String) :
    Adds (MonadDisk.makeNested paths : OnTree (Except DiskFault Unit)) := by
  induction paths with
  | nil => exact pure _
  | cons path above ih =>
      rw [MonadDisk.makeNested]
      split
      · exact pure _
      refine bind (makeDirectory path) fun made => ?_
      split
      · exact pure _
      · -- the directory it stands in is missing, so that one is made first
        refine bind ih fun made => ?_
        split
        · exact pure _
        refine bind (makeDirectory path) fun made => ?_
        split
        · exact pure _
        · exact settle path _
      · exact settle path _

end Adds

end LoxScan.OnTree
