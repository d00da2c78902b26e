import LoxScan.Config.Store
import LoxScan.Proofs.Disk.Files

/-!
# Which configuration a run has

Loading asks the disk questions and changes nothing, so whatever the disk
answers it comes to one thing. `Config.Loads` says to what: the file asked
for, or else the first place that leads anywhere, decides alone, and each
way in which that file can be of no use has its own failure.
-/

namespace LoxScan

namespace Config

variable {σ : Type} [Disk σ]

/-- The file that decides, if there is one. -/
def file? (env : Environment) (disk : σ) (path : Option String) : Option String :=
  path.or ((places env).find? (Disk.hasPath disk))

/-- What loading a configuration comes to. -/
inductive Loads (env : Environment) (disk : σ) (path : Option String) :
    Except Failure Config → Prop
  | absent : file? env disk path = none → Loads env disk path (.ok {})
  | missing {file : String} :
    file? env disk path = some file →
    Disk.hasPath disk file = false →
    Loads env disk path (.error (.config (.notFound file)))
  | unreadable {file : String} {cause : DiskFault} :
    file? env disk path = some file →
    Disk.hasPath disk file = true →
    Disk.readText disk file = .error cause →
    Loads env disk path (.error (.disk cause))
  | malformed {file text : String} {fault : ConfigFault} :
    file? env disk path = some file →
    Disk.hasPath disk file = true →
    Disk.readText disk file = .ok text →
    ofText file text = .error fault →
    Loads env disk path (.error (.config fault))
  | loaded {file text : String} {c : Config} :
    file? env disk path = some file →
    Disk.hasPath disk file = true →
    Disk.readText disk file = .ok text →
    ofText file text = .ok c →
    Loads env disk path (.ok c)

variable {env : Environment} {disk : σ} {path : Option String}

theorem exists_loads (env : Environment) (disk : σ) (path : Option String) :
    ∃ l, Loads env disk path l := by
  cases hfile : file? env disk path with
  | none => exact ⟨_, .absent hfile⟩
  | some file =>
    cases hpath : Disk.hasPath disk file with
    | false => exact ⟨_, .missing hfile hpath⟩
    | true =>
      cases htext : Disk.readText disk file with
      | error cause => exact ⟨_, .unreadable hfile hpath htext⟩
      | ok text =>
        cases hc : ofText file text with
        | error fault => exact ⟨_, .malformed hfile hpath htext hc⟩
        | ok c => exact ⟨_, .loaded hfile hpath htext hc⟩

theorem firstPresent_run (paths : List String) (disk : σ) :
    (firstPresent paths : OnDisk σ (Option String)) disk =
      (paths.find? (Disk.hasPath disk), disk) := by
  induction paths with
  | nil => rfl
  | cons file files ih =>
      rw [firstPresent, OnDisk.bind_run, OnDisk.hasPath_run, List.find?_cons]
      cases Disk.hasPath disk file with
      | true => rfl
      | false => exact ih

theorem load_of_file?_eq_none (h : file? env disk path = none) :
    (load env path : OnDisk σ (Except Failure Config)) disk = (.ok {}, disk) := by
  cases path with
  | some file => cases h
  | none =>
      have h : (places env).find? (Disk.hasPath disk) = none := h
      rw [load, OnDisk.bind_run, firstPresent_run, h]
      rfl

theorem load_of_file?_eq_some {file : String} (h : file? env disk path = some file) :
    (load env path : OnDisk σ (Except Failure Config)) disk =
      (loadFrom file : OnDisk σ (Except Failure Config)) disk := by
  cases path with
  | some file' =>
      obtain rfl : file' = file := Option.some.inj h
      rfl
  | none =>
      have h : (places env).find? (Disk.hasPath disk) = some file := h
      rw [load, OnDisk.bind_run, firstPresent_run, h]

theorem loadFrom_run_of_hasPath {file : String} (h : Disk.hasPath disk file = true) :
    (loadFrom file : OnDisk σ (Except Failure Config)) disk =
      (match Disk.readText disk file with
        | .error cause => .error (.disk cause)
        | .ok text => (ofText file text).mapError .config, disk) := by
  rw [loadFrom, OnDisk.bind_run, OnDisk.hasPath_run, h, if_pos rfl, OnDisk.bind_run,
    OnDisk.readText_run]
  cases Disk.readText disk file with
  | error cause => rfl
  | ok text =>
      dsimp only
      cases ofText file text <;> rfl

/-- Loading from a disk comes to what `Loads` says and leaves the disk as
it is. -/
theorem Loads.run {l : Except Failure Config} (h : Loads env disk path l) :
    (load env path : OnDisk σ (Except Failure Config)) disk = (l, disk) := by
  cases h with
  | absent hfile => exact load_of_file?_eq_none hfile
  | @missing file hfile hpath =>
      rw [load_of_file?_eq_some hfile, loadFrom, OnDisk.bind_run, OnDisk.hasPath_run, hpath]
      rfl
  | unreadable hfile hpath htext =>
      rw [load_of_file?_eq_some hfile, loadFrom_run_of_hasPath hpath, htext]
  | malformed hfile hpath htext hc | loaded hfile hpath htext hc =>
      rw [load_of_file?_eq_some hfile, loadFrom_run_of_hasPath hpath, htext]
      simp only [hc, Except.mapError]

theorem Loads.unique {l l' : Except Failure Config} (h : Loads env disk path l)
    (h' : Loads env disk path l') : l = l' :=
  congrArg Prod.fst (h.run.symm.trans h'.run)

/-- The file is of no use in itself, or it cannot be read. -/
theorem Loads.cases_of_error {f : Failure} (h : Loads env disk path (.error f)) :
    (∃ fault, f = .config fault) ∨ ∃ cause, f = .disk cause := by
  cases h with
  | missing | malformed => exact Or.inl ⟨_, rfl⟩
  | unreadable => exact Or.inr ⟨_, rfl⟩

end Config

end LoxScan
