import LoxScan.CommandLine.Run
import LoxScan.Proofs.Config.Loading
import LoxScan.Proofs.Output.Reports

/-!
# Runs on scripts

A run on scripts may end in five ways, and what stands in its way first
decides (`ScriptRun`). The exit code, the output and the error stream
tell the same story in each of them: an output that is not empty belongs
to a script that was read, and then the exit code says whether the error
stream has diagnostics.

The log goes to the error stream and colors are for diagnostics, so of a
run's settings only the format shows in what else it leaves behind
(`ScriptRun.same`).
-/

namespace LoxScan

/-- What a run leaves behind: its exit code and what its streams hold. -/
structure Finished where
  code : UInt8
  out : ByteArray
  err : ByteArray

/-- Carries out an outcome. A stream that fails ends the run with its own
failure, which the error stream is still told. -/
def Streams.finish (s : Streams) (o : Outcome) : Finished :=
  match s.performAll o.effects with
  | (none, s) => { code := o.code, out := s.out.taken, err := s.err.taken }
  | (some failure, s) =>
    let s := (s.perform (.complain (failure.report ++ "\n"))).2
    { code := failure.exitCode, out := s.out.taken, err := s.err.taken }

/-- A whole run on a disk and on streams that take everything. -/
def Finished.ofRun {σ : Type} [Disk σ] (env : Environment) (terminal : Bool)
    (arguments : List String) (input : ByteArray) (disk : σ) : Finished :=
  Streams.unlimited.finish ((run env terminal arguments input : OnDisk σ Outcome) disk).1

/-- How a run on scripts ends, where `l` is what loading its configuration
comes to. What the error stream tells of a file that is no configuration
is left open: the parser has its own words for it. -/
structure ScriptRun {σ : Type} [Disk σ] (terminal : Bool) (disk : σ) (r : Request)
    (l : Except Failure Config) (e : Finished) : Prop where
  tooMany :
    1 < r.scripts.length →
    e = { code := 64, out := .empty, err := (usageText ++ "\n").toUTF8 }
  badConfig {fault : ConfigFault} :
    r.scripts.length = 1 →
    l = .error (.config fault) →
    e.code = 78 ∧ e.out = .empty ∧
      ∀ file, fault = .notFound file →
        e.err = ((Failure.config fault).report ++ "\n").toUTF8
  unreadableConfig {cause : DiskFault} :
    r.scripts.length = 1 →
    l = .error (.disk cause) →
    e = { code := 74, out := .empty, err := ((Failure.disk cause).report ++ "\n").toUTF8 }
  unreadable {script : String} {c : Config} {cause : DiskFault} :
    r.scripts = [script] →
    l = .ok c →
    Disk.readText disk script = .error cause →
    e.code = 74 ∧ e.out = .empty ∧
      ((c.verbose || r.verbose) = false →
        e.err = ((Failure.unreadable script cause).report ++ "\n").toUTF8)
  scanned {script source : String} {c : Config} :
    r.scripts = [script] →
    l = .ok c →
    Disk.readText disk script = .ok source →
    e.out = outBytes (r.format.getD c.format) (scan source).tokens ∧
    e.code = (if (scan source).diagnostics = [] then 0 else 65) ∧
      ((c.verbose || r.verbose) = false →
        e.err =
          errBytes (c.color && !r.noColor && terminal) source (scan source).diagnostics ∧
        (e.err = .empty ↔ e.code = 0))

/-! ## Outcomes carried out -/

theorem Streams.finish_unlimited (o : Outcome) :
    unlimited.finish o =
      { code := o.code
        out := Sink.bytesOf Effect.outText o.effects
        err := Sink.bytesOf Effect.errText o.effects } := by
  rw [finish, performAll_unlimited]
  simp only [taken_out_offered, taken_err_offered]

/-- A run that fails before it has written anything but its log. -/
theorem Streams.finish_failure (o : Options) (entries : List LogEntry) (f : Failure) :
    unlimited.finish (.failure (o.trace entries) f) =
      { code := f.exitCode
        out := .empty
        err := Sink.bytesOf Effect.errText (o.trace entries) ++ (f.report ++ "\n").toUTF8 } := by
  have hout : Sink.bytesOf Effect.outText [.complain (f.report ++ "\n")] = .empty := rfl
  rw [finish_unlimited, Outcome.failure]
  simp only [Sink.bytesOf_append, outBytes_trace, hout, ByteArray.empty_append,
    Sink.bytesOf_singleton, Effect.errText]

/-! ## The ways to an end -/

section

variable {σ : Type} [Disk σ] {env : Environment} {arguments : List String} {disk : σ} {r : Request}
  {script : String} (terminal : Bool) (input : ByteArray)

theorem run_of_tooMany (hr : Request.parse env arguments = .ok r) (h : 1 < r.scripts.length) :
    (run env terminal arguments input : OnDisk σ Outcome) disk =
      (.failure [] (.usage usageText), disk) := by
  simp only [run, start, hr, h, ↓reduceIte]
  rfl

theorem run_of_not_loaded (hr : Request.parse env arguments = .ok r) (h : r.scripts.length = 1)
    {f : Failure} (hl : Config.Loads env disk r.config (.error f)) :
    (run env terminal arguments input : OnDisk σ Outcome) disk = (.failure [] f, disk) := by
  have h : ¬ 1 < r.scripts.length := by omega
  simp only [run, start, hr, h, ↓reduceIte]
  rw [OnDisk.bind_run, OnDisk.bind_run, hl.run]
  rfl

theorem run_of_loaded (hr : Request.parse env arguments = .ok r) (h : r.scripts = [script])
    {c : Config} (hl : Config.Loads env disk r.config (.ok c)) :
    let o := Options.ofConfig (c.override r terminal)
    ∃ entries, (run env terminal arguments input : OnDisk σ Outcome) disk =
      (runScript o (o.trace entries) script : OnDisk σ Outcome) disk := by
  have hone : ¬ 1 < [script].length := Nat.lt_irrefl 1
  simp only [run, start, hr, h, hone, ↓reduceIte]
  rw [OnDisk.bind_run, OnDisk.bind_run, hl.run]
  exact ⟨_, rfl⟩

theorem runScript_of_error {o : Options} {begun : List Effect} {cause : DiskFault}
    (h : Disk.readText disk script = .error cause) :
    (runScript o begun script : OnDisk σ Outcome) disk =
      (.failure begun (.unreadable script cause), disk) := by
  rw [runScript, OnDisk.bind_run, OnDisk.readText_run, h]
  rfl

theorem runScript_of_ok {o : Options} {begun : List Effect} {source : String}
    (h : Disk.readText disk script = .ok source) :
    ∃ before after, (runScript o begun script : OnDisk σ Outcome) disk =
      ({ code := if (scan source).diagnostics = [] then 0 else 65
         effects := begun ++ o.trace before ++ (reportSource o source).1 ++ o.trace after },
        disk) := by
  have hcode : (if (reportSource o source).2.hasErrors then Outcome.dataError else 0) =
      if (scan source).diagnostics = [] then 0 else 65 := by
    have hreport : (reportSource o source).2 = Report.ofScan (scan source) := rfl
    by_cases hds : (scan source).diagnostics = []
    · rw [hreport, if_pos hds, if_neg fun h => Report.hasErrors_iff.mp h hds]
    · rw [hreport, if_neg hds, if_pos (Report.hasErrors_iff.mpr hds)]
      rfl
  rw [runScript, OnDisk.bind_run, OnDisk.readText_run, h, ← hcode]
  exact ⟨_, _, rfl⟩

end

/-! ## How they end -/

theorem ScriptRun.of_run {σ : Type} [Disk σ] {env : Environment} {arguments : List String}
    {disk : σ} {r : Request} {l : Except Failure Config} (terminal : Bool) (input : ByteArray)
    (hr : Request.parse env arguments = .ok r) (hl : Config.Loads env disk r.config l) :
    ScriptRun terminal disk r l (.ofRun env terminal arguments input disk) where
  tooMany := by
    intro h
    rw [Finished.ofRun, run_of_tooMany terminal input hr h]
    exact Streams.finish_failure {} [] _
  badConfig := by
    rintro fault h rfl
    have hfailure := Streams.finish_failure {} [] (.config fault)
    rw [Finished.ofRun, run_of_not_loaded terminal input hr h hl]
    exact ⟨congrArg Finished.code hfailure, congrArg Finished.out hfailure,
      fun _ _ => congrArg Finished.err hfailure⟩
  unreadableConfig := by
    rintro cause h rfl
    rw [Finished.ofRun, run_of_not_loaded terminal input hr h hl]
    exact Streams.finish_failure {} [] _
  unreadable := by
    rintro script c cause h rfl hread
    obtain ⟨entries, hrun⟩ := run_of_loaded terminal input hr h hl
    rw [Finished.ofRun, hrun, runScript_of_error hread, Streams.finish_failure]
    refine ⟨rfl, rfl, fun hquiet => ?_⟩
    rw [Options.trace_of_not_verbose hquiet]
    exact ByteArray.empty_append
  scanned := by
    rintro script source c h rfl hread
    obtain ⟨entries, hrun⟩ := run_of_loaded terminal input hr h hl
    obtain ⟨before, after, hscript⟩ := runScript_of_ok hread
    rw [Finished.ofRun, hrun, hscript, Streams.finish_unlimited]
    refine ⟨?_, rfl, fun hquiet => ?_⟩
    · simp only [Sink.bytesOf_append, outBytes_trace, outBytes_reportSource,
        ByteArray.empty_append, ByteArray.append_empty]
      rfl
    · have hquiet : (Options.ofConfig (c.override r terminal)).verbose = false := hquiet
      have herr := errBytes_reportSource hquiet source
      simp only [Options.trace_of_not_verbose hquiet, List.nil_append, List.append_nil, herr,
        errBytes_eq_empty_iff]
      refine ⟨rfl, ?_⟩
      by_cases hds : (scan source).diagnostics = []
      · exact iff_of_true hds (if_pos hds)
      · exact iff_of_false hds (by rw [if_neg hds]; decide)

/-! ## What verbosity and color leave alone -/

/-- Two runs on the same scripts that write tokens in the same format, be
it asked for or configured. How verbose they are and whether in color may
differ, in what they are asked and in their configurations. -/
structure SameButLook {σ σ' : Type} [Disk σ] [Disk σ'] (disk : σ) (disk' : σ') (r r' : Request)
    (l l' : Except Failure Config) : Prop where
  scripts : r'.scripts = r.scripts
  format : l'.map (r'.format.getD ·.format) = l.map (r.format.getD ·.format)
  content : ∀ script ∈ r.scripts, Disk.readText disk' script = Disk.readText disk script

namespace SameButLook

variable {σ σ' : Type} [Disk σ] [Disk σ'] {disk : σ} {disk' : σ'} {r r' : Request}
  {l l' : Except Failure Config}

theorem eq_error {f : Failure} (h : SameButLook disk disk' r r' (.error f) l') :
    l' = .error f := by
  have hformat := h.format
  cases l' with
  | error f' =>
      cases hformat
      rfl
  | ok c' => cases hformat

theorem exists_ok {c : Config} (h : SameButLook disk disk' r r' (.ok c) l') :
    ∃ c' : Config, l' = .ok c' ∧ r'.format.getD c'.format = r.format.getD c.format := by
  have hformat := h.format
  cases l' with
  | error f' => cases hformat
  | ok c' => exact ⟨c', rfl, Except.ok.inj hformat⟩

end SameButLook

theorem ScriptRun.same {σ σ' : Type} [Disk σ] [Disk σ'] {env : Environment}
    {terminal terminal' : Bool} {disk : σ} {disk' : σ'} {r r' : Request}
    {l l' : Except Failure Config} {e e' : Finished}
    (h : ScriptRun terminal disk r l e) (h' : ScriptRun terminal' disk' r' l' e')
    (hs : r.scripts ≠ []) (hl : Config.Loads env disk r.config l)
    (hsame : SameButLook disk disk' r r' l l') :
    e'.out = e.out ∧ e'.code = e.code := by
  -- whatever decides how the first run ends decides the same for the second
  have hscripts := hsame.scripts
  by_cases hmany : 1 < r.scripts.length
  · rw [h.tooMany hmany, h'.tooMany (hscripts ▸ hmany)]
    exact ⟨rfl, rfl⟩
  have hone : r.scripts.length = 1 := by
    have := List.length_pos_iff.mpr hs
    omega
  cases l with
  | error f =>
      have hl' := hsame.eq_error
      rcases hl.cases_of_error with ⟨fault, rfl⟩ | ⟨cause, rfl⟩
      · obtain ⟨hcode, hout, -⟩ := h.badConfig hone rfl
        obtain ⟨hcode', hout', -⟩ := h'.badConfig (hscripts ▸ hone) hl'
        exact ⟨hout'.trans hout.symm, hcode'.trans hcode.symm⟩
      · rw [h.unreadableConfig hone rfl, h'.unreadableConfig (hscripts ▸ hone) hl']
        exact ⟨rfl, rfl⟩
  | ok c =>
      obtain ⟨c', hl', hformat⟩ := hsame.exists_ok
      obtain ⟨script, hscript⟩ := List.length_eq_one_iff.mp hone
      have hscript' : r'.scripts = [script] := hscripts.trans hscript
      have hread := hsame.content script (hscript ▸ List.mem_singleton_self script)
      cases htext : Disk.readText disk script with
      | error cause =>
          obtain ⟨hcode, hout, -⟩ := h.unreadable hscript rfl htext
          obtain ⟨hcode', hout', -⟩ := h'.unreadable hscript' hl' (hread.trans htext)
          exact ⟨hout'.trans hout.symm, hcode'.trans hcode.symm⟩
      | ok source =>
          obtain ⟨hout, hcode, -⟩ := h.scanned hscript rfl htext
          obtain ⟨hout', hcode', -⟩ := h'.scanned hscript' hl' (hread.trans htext)
          refine ⟨?_, hcode'.trans hcode.symm⟩
          rw [hout', hout, hformat]

/-- A run on scripts ends as `ScriptRun` says, whatever the disk answers,
and any other that may differ in verbosity and color has the same output
and exit code. -/
theorem run_scripts {σ : Type} [Disk σ] (env : Environment) (terminal : Bool)
    (arguments : List String) (input : ByteArray) (disk : σ) {r : Request}
    (hr : Request.parse env arguments = .ok r) (hs : r.scripts ≠ []) :
    ∃ l, Config.Loads env disk r.config l ∧
      ScriptRun terminal disk r l (.ofRun env terminal arguments input disk) ∧
      ∀ {σ' : Type} [Disk σ'] (env' : Environment) (terminal' : Bool) (arguments' : List String)
        (input' : ByteArray) (disk' : σ') (r' : Request) (l' : Except Failure Config),
        Request.parse env' arguments' = .ok r' →
        Config.Loads env' disk' r'.config l' →
        SameButLook disk disk' r r' l l' →
        (Finished.ofRun env' terminal' arguments' input' disk').out =
            (Finished.ofRun env terminal arguments input disk).out ∧
          (Finished.ofRun env' terminal' arguments' input' disk').code =
            (Finished.ofRun env terminal arguments input disk).code := by
  obtain ⟨l, hl⟩ := Config.exists_loads env disk r.config
  have hrun := ScriptRun.of_run terminal input hr hl
  refine ⟨l, hl, hrun, ?_⟩
  intro σ' _ env' terminal' arguments' input' disk' r' l' hr' hl' hsame
  exact hrun.same (.of_run terminal' input' hr' hl') hs hl hsame

/-- A script of one stray character, and a configuration that makes a run
on it verbose. -/
theorem run_scripts_stray :
    let env : Environment := { bindings := [], accountHome := none }
    let script := (["w", "a.lox"], Entry.file "@".toUTF8)
    let config := (["w", "loxc.toml"], Entry.file "verbose = true\n".toUTF8)
    let tree : FileTree := { entries := [(["w"], .directory), script], workingDirectory := ["w"] }
    let tree' : FileTree := { tree with entries := tree.entries ++ [config] }
    let e := Finished.ofRun env true ["a.lox"] .empty tree
    let e' := Finished.ofRun env false ["-f", "text", "--no-color", "a.lox"] .empty tree'
    e.code = 65 ∧ e.out = outBytes .text (scan "@").tokens ∧
      e.err = errBytes true "@" (scan "@").diagnostics ∧ e.err ≠ .empty ∧
      e'.out = e.out ∧ e'.code = e.code := by
  intro env script config tree tree' e e'
  have hnames : Path.names "a.lox" = ["a.lox"] := by decide +kernel
  have hread : tree.readText "a.lox" = .ok "@" := by
    rw [FileTree.readText, FileTree.read, FileTree.find, hnames]
    rfl
  have hread' : tree'.readText "a.lox" = .ok "@" := by
    rw [FileTree.readText, FileTree.read, FileTree.find, hnames]
    rfl
  have htext : tree'.readText "loxc.toml" = .ok "verbose = true\n" := by
    have hnames : Path.names "loxc.toml" = ["loxc.toml"] := by decide +kernel
    rw [FileTree.readText, FileTree.read, FileTree.find, hnames]
    rfl
  have hl : Config.Loads env tree none (.ok {}) := .absent (by decide +kernel)
  have hl' : Config.Loads env tree' none (.ok { verbose := true }) :=
    .loaded (show Config.file? env tree' none = some "loxc.toml" by decide +kernel)
      (by decide +kernel) htext rfl
  obtain ⟨l, hloads, hrun, hsame⟩ :=
    run_scripts env true ["a.lox"] .empty tree (r := { scripts := ["a.lox"] }) rfl (by decide)
  obtain rfl := hloads.unique hl
  obtain ⟨hout, hcode, herr⟩ := hrun.scanned rfl rfl hread
  obtain ⟨herr, hempty⟩ := herr rfl
  have h65 : e.code = 65 := hcode.trans (by decide +kernel)
  refine ⟨h65, hout, herr, fun h => absurd (h65.symm.trans (hempty.mp h)) (by decide), ?_⟩
  refine hsame env false ["-f", "text", "--no-color", "a.lox"] .empty tree'
    { scripts := ["a.lox"], noColor := true, format := some .text } _ rfl hl' ⟨rfl, rfl, ?_⟩
  intro path hpath
  obtain rfl := List.mem_singleton.mp hpath
  exact hread'.trans hread.symm

end LoxScan
