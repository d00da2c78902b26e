import Mathlib.Data.List.Forall2
import LoxScan.Prompt.Session
import LoxScan.Proofs.Disk.Files
import LoxScan.Proofs.Prompt.Lines

/-!
# Sessions at the prompt

No line ends a session but one that asks to leave. What goes wrong in a
line, an error in its text or a file that cannot be read, is said on the
error stream, and the next line is read.

> `Session.converse_eq`: a session is its lines up to the first that asks to
> leave, each of them what it is by itself.

That holds in every setting in which files can be reached, so files may
change from line to line. On a disk that only the session uses nothing
changes them, and then what a session writes is what its lines write,
whatever the disk answers (`answers_kept`).
-/

namespace LoxScan

def isExit (line : String) : Bool :=
  match PromptCommand.parse line.toList with
  | some (.exit, _) => true
  | _ => false

theorem isExit_iff {line : String} :
    isExit line = true ↔ ∃ argument, PromptCommand.parse line.toList = some (.exit, argument) := by
  unfold isExit
  split
  case h_1 argument h => exact iff_of_true rfl ⟨argument, h⟩
  case h_2 hno => exact iff_of_false Bool.false_ne_true fun ⟨argument, h⟩ => hno argument h

theorem parse_of_isEmpty {cs : List Char} (h : (Text.trim cs).isEmpty = true) :
    PromptCommand.parse cs = none := by
  rw [PromptCommand.parse, List.isEmpty_iff.mp h]

/-! ## One line -/

section

variable {m : Type → Type} [Monad m] [MonadDisk m] (o : Options)

theorem evalLine_of_parse {line : String} {command : PromptCommand}
    {argument : Option (List Char)}
    (h : PromptCommand.parse line.toList = some (command, argument)) :
    (evalLine o line : m _) = command.perform o argument := by
  have hblank : ¬ (Text.trim line.toList).isEmpty = true := by
    intro hblank
    rw [parse_of_isEmpty hblank] at h
    cases h
  rw [evalLine, if_neg hblank, h]

theorem evalLine_of_isExit {line : String} (h : isExit line = true) :
    (evalLine o line : m _) = pure ([], .leave) := by
  obtain ⟨argument, hparse⟩ := isExit_iff.mp h
  rw [evalLine_of_parse o hparse]
  rfl

/-- Any other line goes on, whatever it does. -/
theorem evalLine_goOn [LawfulMonad m] {line : String} (h : isExit line = false) :
    (fun answer => (answer.1, .goOn)) <$> (evalLine o line : m _) = evalLine o line := by
  unfold evalLine
  split
  case isTrue => rw [map_pure]
  case isFalse =>
    split
    case h_2 => rw [map_pure]
    case h_1 command argument hparse =>
      cases command with
      | exit => rw [isExit_iff.mpr ⟨argument, hparse⟩] at h; cases h
      | help | clear | version => exact map_pure ..
      | load =>
          cases argument with
          | none => exact map_pure ..
          | some path => simp [PromptCommand.perform]

end

/-! ## A line on a disk -/

section

variable {σ : Type} [Disk σ] (o : Options) (line : String) (disk : σ)

def saidBy : List Effect := ((evalLine o line : OnDisk σ _) disk).1.1

theorem loadScript_run (path : String) :
    (loadScript o path : OnDisk σ (List Effect)) disk =
      (match Disk.readText disk path with
        | .ok source => (reportSource o source).1
        | .error cause =>
          [.complain ("Error: " ++ (Failure.unreadable path cause).message ++ "\n")], disk) := by
  rw [loadScript, OnDisk.bind_run, OnDisk.readText_run]
  cases Disk.readText disk path <;> rfl

variable {line} in
theorem evalLine_load {path : List Char}
    (h : PromptCommand.parse line.toList = some (.load, some path)) :
    (evalLine o line : OnDisk σ _) disk =
      ((((loadScript o (String.ofList path) : OnDisk σ _) disk).1, .goOn), disk) := by
  have hload : (evalLine o line : OnDisk σ _) disk =
      ((loadScript o (String.ofList path) : OnDisk σ _) >>= fun effects =>
        pure (effects, LineOutcome.goOn)) disk :=
    congrFun (evalLine_of_parse o h) disk
  rw [hload, OnDisk.bind_run, loadScript_run]
  rfl

/-- No line changes a file. -/
theorem evalLine_snd : ((evalLine o line : OnDisk σ _) disk).2 = disk := by
  cases hparse : PromptCommand.parse line.toList with
  | none =>
      rw [evalLine, hparse]
      split <;> rfl
  | some answer =>
      obtain ⟨command, argument⟩ := answer
      cases command with
      | load =>
          cases argument with
          | none => rw [evalLine_of_parse o hparse]; rfl
          | some path => rw [evalLine_load o disk hparse]
      | _ => rw [evalLine_of_parse o hparse]; rfl

theorem evalLine_run :
    (evalLine o line : OnDisk σ (List Effect × LineOutcome)) disk =
      ((saidBy o line disk, if isExit line then .leave else .goOn), disk) := by
  refine Prod.ext (Prod.ext rfl ?_) (evalLine_snd o line disk)
  cases h : isExit line with
  | true => rw [evalLine_of_isExit o h]; rfl
  | false => rw [← evalLine_goOn o h]; rfl

end

/-! ## Lines in a row -/

/-- A piece of the input is text, and this line once its backspaces are
carried out. -/
def Prompt.Reads (input : Except DiskFault String) (line : String) : Prop :=
  ∃ typed, input = .ok typed ∧ cleanLine? typed = some line

namespace Session

section

variable {m : Type → Type} [Monad m] [LawfulMonad m] [MonadDisk m] (s : Session)

theorem converse_cons {input : Except DiskFault String} {line : String}
    (h : Prompt.Reads input line) (inputs : List (Except DiskFault String)) :
    (s.converse (input :: inputs) : m _) =
      if isExit line then pure (s.opening, .left)
      else do
        let answer ← evalLine s.options line
        let later ← s.converse inputs
        return (s.opening ++ answer.1 ++ later.1, later.2) := by
  obtain ⟨typed, rfl, hline⟩ := h
  cases hexit : isExit line with
  | true => simp [converse, respond, hline, evalLine_of_isExit _ hexit]
  | false =>
      simp only [converse, respond, hline]
      rw [← evalLine_goOn s.options hexit]
      simp

theorem converse_eq {inputs : List (Except DiskFault String)} {lines : List String}
    (h : List.Forall₂ Prompt.Reads inputs lines) :
    (s.converse inputs : m _) = do
      let parts ← (lines.takeWhile (!isExit ·)).mapM fun line =>
        Prod.fst <$> (evalLine s.options line : m _)
      return (parts.flatMap (s.opening ++ ·) ++ s.opening, .left) := by
  induction h with
  | nil => simp [converse]
  | @cons input line inputs lines hline _ ih =>
      rw [converse_cons s hline, List.takeWhile_cons]
      cases hexit : isExit line with
      | true => simp
      | false => simp [ih]

end

theorem converse_run {σ : Type} [Disk σ] (s : Session) (disk : σ)
    {inputs : List (Except DiskFault String)}
    {lines : List String} (h : List.Forall₂ Prompt.Reads inputs lines) :
    (s.converse inputs : OnDisk σ _) disk =
      (((lines.takeWhile (!isExit ·)).flatMap (fun line => s.opening ++ saidBy s.options line disk)
        ++ s.opening, .left), disk) := by
  have hpart (line : String) :
      (Prod.fst <$> evalLine s.options line : OnDisk σ _) disk =
        (saidBy s.options line disk, disk) :=
    congrArg (saidBy s.options line disk, ·) (evalLine_snd s.options line disk)
  have hparts (lines : List String) :
      (lines.mapM fun line => Prod.fst <$> evalLine s.options line : OnDisk σ _) disk =
        (lines.map (saidBy s.options · disk), disk) := by
    induction lines with
    | nil => rfl
    | cons line lines ih =>
        rw [List.mapM_cons, OnDisk.bind_run, hpart, OnDisk.bind_run, ih]
        rfl
  rw [converse_eq s h, OnDisk.bind_run, hparts]
  show (((List.map _ _).flatMap (s.opening ++ ·) ++ s.opening, _), disk) = _
  rw [List.flatMap_map]

end Session

/-! ## What is written -/

def inOrder (parts : List ByteArray) : ByteArray := parts.foldr (· ++ ·) .empty

theorem bytesOf_flatMap {α β : Type} {text : β → String} (f : α → List β) (xs : List α) :
    Sink.bytesOf text (xs.flatMap f) = inOrder (xs.map fun x => Sink.bytesOf text (f x)) := by
  induction xs with
  | nil => rfl
  | cons x xs ih => rw [List.flatMap_cons, Sink.bytesOf_append, ih]; rfl

namespace Streams

variable {σ : Type} [Disk σ] (format : Format) (color : Bool) (line : String) (disk : σ)

theorem answer_unlimited :
    unlimited.answer format color line disk =
      { result := .ok (if isExit line then .leave else .goOn)
        out := Sink.bytesOf Effect.outText (saidBy { format, color } line disk)
        err := Sink.bytesOf Effect.errText (saidBy { format, color } line disk) } := by
  rw [answer, evalLine_run]
  simp only [performAll_unlimited, taken_out_offered, taken_err_offered]

/-- Only streams make an answer fail. -/
theorem refuses_of_answer {s : Streams} {f : Failure}
    (h : (s.answer format color line disk).result = .error f) :
    s.Refuses (unlimited.answer format color line disk).out
      (unlimited.answer format color line disk).err f := by
  rw [answer_unlimited]
  rw [answer, evalLine_run] at h
  rcases hperform : s.performAll (saidBy { format, color } line disk) with ⟨_ | failure, after⟩
  · simp [hperform] at h
  · simp only [hperform, Except.error.injEq] at h
    exact refuses_of_performAll (by rw [hperform, h])

end Streams

/-- What a line at the prompt comes to where no stream fails. -/
structure Answered.Of {σ : Type} [Disk σ] (a : Answered) (format : Format) (color : Bool)
    (line : String) (disk : σ) : Prop where
  goesOn : ∃ outcome, a.result = .ok outcome
  leaves : a.result = .ok .leave ↔
    ∃ argument, PromptCommand.parse line.toList = some (.exit, argument)
  silent : a.result = .ok .leave → a.out = .empty ∧ a.err = .empty
  loaded : ∀ {path : List Char} {source : String},
    PromptCommand.parse line.toList = some (.load, some path) →
    Disk.readText disk (String.ofList path) = .ok source →
    a.out = (Streams.unlimited.report format color source).out ∧
      a.err = (Streams.unlimited.report format color source).err
  unreadable : ∀ {path : List Char} {cause : DiskFault},
    PromptCommand.parse line.toList = some (.load, some path) →
    Disk.readText disk (String.ofList path) = .error cause →
    a.out = .empty ∧
      a.err = ("Error: " ++ (Failure.unreadable (String.ofList path) cause).message ++ "\n").toUTF8

theorem Streams.answer_of {σ : Type} [Disk σ] (format : Format) (color : Bool) (line : String)
    (disk : σ) :
    (unlimited.answer format color line disk).Of format color line disk := by
  rw [answer_unlimited]
  have hload {path : List Char}
      (hparse : PromptCommand.parse line.toList = some (.load, some path)) :
      saidBy { format, color } line disk =
        ((loadScript { format, color } (String.ofList path) : OnDisk σ _) disk).1 := by
    rw [saidBy, evalLine_load _ disk hparse]
  refine ⟨⟨_, rfl⟩, ?_, ?_, ?_, ?_⟩
  · rw [← isExit_iff]
    cases isExit line <;> simp
  · intro hleave
    have hexit : isExit line = true := by
      by_contra hno
      simp [hno] at hleave
    rw [saidBy, evalLine_of_isExit _ hexit]
    exact ⟨rfl, rfl⟩
  · intro path source hparse hread
    rw [hload hparse, loadScript_run, hread, report_unlimited]
    exact ⟨outBytes_reportSource _ source, errBytes_reportSource rfl source⟩
  · intro path cause hparse hread
    rw [hload hparse, loadScript_run, hread]
    exact ⟨rfl, Sink.bytesOf_singleton _⟩

/-- A session that was held: how it ended and what the two streams hold. -/
structure Held where
  result : Except Failure Session.Ending
  out : ByteArray
  err : ByteArray

/-- Holds a session on an input that is known from the start. -/
def Streams.hold {σ : Type} [Disk σ] (s : Streams) (session : Session)
    (inputs : List (Except DiskFault String)) (disk : σ) : Held :=
  let (effects, ending) := ((session.converse inputs : OnDisk σ _) disk).1
  let (failure, after) := s.performAll effects
  { result := match failure with
      | some failure => .error failure
      | none => .ok ending
    out := after.out.taken
    err := after.err.taken }

section

variable (s : Session)

theorem outBytes_opening :
    Sink.bytesOf Effect.outText s.opening = (s.prompt.getD "").toUTF8 := by
  cases h : s.prompt <;> simp [Session.opening, h, Sink.bytesOf, Effect.outText]

theorem errBytes_opening : Sink.bytesOf Effect.errText s.opening = .empty := by
  refine Sink.bytesOf_eq_empty fun e he => ?_
  cases h : s.prompt with
  | none => simp [Session.opening, h] at he
  | some text =>
      simp only [Session.opening, h, List.mem_cons, List.not_mem_nil, or_false] at he
      rcases he with rfl | rfl <;> rfl

end

theorem Streams.hold_unlimited {σ : Type} [Disk σ] (format : Format) (color : Bool)
    (prompt : Option String) (disk : σ) {inputs : List (Except DiskFault String)}
    {lines : List String}
    (h : List.Forall₂ Prompt.Reads inputs lines) :
    let shown := (prompt.getD "").toUTF8
    let heard := lines.takeWhile (!isExit ·)
    unlimited.hold { options := { format, color }, prompt } inputs disk =
      { result := .ok .left
        out := inOrder
          (heard.map fun line => shown ++ (unlimited.answer format color line disk).out) ++ shown
        err := inOrder (heard.map fun line => (unlimited.answer format color line disk).err) } := by
  simp only [hold, Session.converse_run _ disk h, performAll_unlimited, taken_out_offered,
    taken_err_offered, Sink.bytesOf_append, bytesOf_flatMap, outBytes_opening, errBytes_opening,
    ByteArray.empty_append, ByteArray.append_empty, answer_unlimited]

/-- Only a line that asks to leave ends a session. Every other is answered
and followed by the next, whatever is wrong with it, and its answer fails
only if a stream does. -/
theorem answers_kept {σ : Type} [Disk σ] (format : Format) (color : Bool) :
    (∀ line (disk : σ), (Streams.unlimited.answer format color line disk).Of format color line disk)
      ∧ (∀ (s : Streams) line (disk : σ) failure,
          (s.answer format color line disk).result = .error failure →
          s.Refuses (Streams.unlimited.answer format color line disk).out
            (Streams.unlimited.answer format color line disk).err failure)
      ∧ ∀ (prompt : Option String) (inputs : List (Except DiskFault String)) (lines : List String),
          List.Forall₂ Prompt.Reads inputs lines →
          let session : Session := { options := { format, color }, prompt }
          let shown := (prompt.getD "").toUTF8
          let heard := lines.takeWhile (!isExit ·)
          (∀ disk : σ, Streams.unlimited.hold session inputs disk =
            { result := .ok .left
              out := inOrder (heard.map fun line =>
                shown ++ (Streams.unlimited.answer format color line disk).out) ++ shown
              err := inOrder (heard.map fun line =>
                (Streams.unlimited.answer format color line disk).err) })
          ∧ ∀ (m : Type → Type) [Monad m] [LawfulMonad m] [MonadDisk m],
            (session.converse inputs : m _) = do
              let parts ← heard.mapM fun line =>
                Prod.fst <$> (evalLine session.options line : m _)
              return (parts.flatMap (session.opening ++ ·) ++ session.opening, .left) := by
  refine ⟨Streams.answer_of format color, fun s line disk failure => ?_,
    fun prompt inputs lines h => ⟨fun disk => ?_, fun m => ?_⟩⟩
  · exact Streams.refuses_of_answer format color line disk
  · exact Streams.hold_unlimited format color prompt disk h
  · intro _ _ _
    exact Session.converse_eq _ h

/-- An error, a file that is missing, and a line behind the one that asks to
leave. -/
theorem answers_kept_exit :
    let tree : FileTree := { entries := [], workingDirectory := [] }
    let session : Session := { options := { format := .json, color := true }, prompt := none }
    let answer := fun line => Streams.unlimited.answer .json true line tree
    let lines := ["@", ".load a.lox", "\t.exit now", "x"]
    List.Forall₂ Prompt.Reads (lines.map .ok) lines
      ∧ (answer ".load a.lox").err =
          "Error: Could not read 'a.lox': No such file or directory (os error 2)\n".toUTF8
      ∧ Streams.unlimited.hold session (lines.map .ok) tree =
        { result := .ok .left
          out := inOrder [(answer "@").out, (answer ".load a.lox").out]
          err := inOrder [(answer "@").err, (answer ".load a.lox").err] } := by
  intro tree session answer lines
  obtain ⟨hline, -, hsession⟩ := answers_kept (σ := FileTree) .json true
  have hreads : List.Forall₂ Prompt.Reads (lines.map .ok) lines := by
    rw [List.forall₂_map_left_iff, List.forall₂_same]
    intro line hline
    have hclean : ∀ line ∈ lines, Prompt.cleanLine? line = some line := by decide +kernel
    exact ⟨line, rfl, hclean line hline⟩
  have hread : tree.readText "a.lox" = .error .notFound := by
    have hnames : Path.names "a.lox" = ["a.lox"] := by decide +kernel
    rw [FileTree.readText, FileTree.read, FileTree.find, hnames]
    rfl
  have hparse : PromptCommand.parse ".load a.lox".toList = some (.load, some "a.lox".toList) := by
    decide
  refine ⟨hreads, ((hline ".load a.lox" tree).unreadable hparse hread).2, ?_⟩
  have hheard : lines.takeWhile (!isExit ·) = ["@", ".load a.lox"] := by decide
  have hnone : (Option.getD none "").toUTF8 = ByteArray.empty := rfl
  have h := (hsession none _ _ hreads).1 tree
  simp only [hheard, hnone, ByteArray.empty_append, ByteArray.append_empty] at h
  exact h

end LoxScan
