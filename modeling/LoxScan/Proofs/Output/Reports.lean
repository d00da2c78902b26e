import LoxScan.Proofs.Output.Streams

/-!
# Reports

A report writes the records of the tokens to the output, flushes it, and
only then writes the diagnostics to the error stream. Each of the three
may fail, and then none that comes later is begun (`Streams.report_eq`).

What the streams are offered does not depend on whether they fail: it is
`outBytes` for the tokens and `errBytes` for the diagnostics.
-/

namespace LoxScan

/-- The records of tokens, without the flush after them. -/
def records (format : Format) (tokens : List Token) : List Effect :=
  tokens.flatMap (Token.effects format)

def complaints (color : Bool) (source : String) (ds : List Diagnostic) : List Effect :=
  ds.map fun d => .complain (d.render source color ++ "\n")

def outBytes (format : Format) (tokens : List Token) : ByteArray :=
  Sink.bytesOf Effect.outText (records format tokens)

def errBytes (color : Bool) (source : String) (ds : List Diagnostic) : ByteArray :=
  Sink.bytesOf Effect.errText (complaints color source ds)

/-- A report that was carried out: how it ended and what the two streams
hold. -/
structure Reported where
  result : Except Failure Report
  out : ByteArray
  err : ByteArray

/-- Reports on a source, without a log. -/
def Streams.report (s : Streams) (format : Format) (color : Bool) (source : String) :
    Reported :=
  let (effects, counts) := reportSource { format, color } source
  let (failure, after) := s.performAll effects
  { result := match failure with
      | some failure => .error failure
      | none => .ok counts
    out := after.out.taken
    err := after.err.taken }

/-- Diagnostics have one level, so to count the errors is to count them
all. -/
theorem Report.ofScan_eq (s : Scan) :
    ofScan s = { tokens := s.tokens.length, errors := s.diagnostics.length } := by
  refine congrArg (Report.mk s.tokens.length) (List.countP_eq_length.mpr fun d _ => ?_)
  cases d.level
  rfl

theorem reportSource_eq (format : Format) (color : Bool) (source : String) :
    reportSource { format, color } source =
      (writeTokens format (scan source).tokens ++ complaints color source (scan source).diagnostics,
        Report.ofScan (scan source)) := by
  simp only [reportSource, Options.trace, Bool.false_eq_true, ↓reduceIte, List.nil_append]
  rfl

theorem cases_of_mem_records {format : Format} {tokens : List Token} {e : Effect}
    (he : e ∈ records format tokens) :
    (format = .text ∧ ∃ t : Token, e = .print (t.listing ++ "\n"))
      ∨ (format = .json ∧ ((∃ t : Token, e = .printObject t.json) ∨ e = .print "\n")) := by
  obtain ⟨t, -, he⟩ := List.mem_flatMap.mp he
  cases format with
  | text => exact Or.inl ⟨rfl, t, List.mem_singleton.mp he⟩
  | json =>
      simp only [Token.effects, List.mem_cons, List.not_mem_nil, or_false] at he
      exact Or.inr ⟨rfl, he.imp_left fun he => ⟨t, he⟩⟩

theorem isOut_of_mem_records {format : Format} {tokens : List Token} :
    ∀ e ∈ records format tokens, e.IsOut := by
  intro e he
  rcases cases_of_mem_records he with ⟨-, t, rfl⟩ | ⟨-, ⟨t, rfl⟩ | rfl⟩ <;> trivial

theorem exists_of_mem_complaints {color : Bool} {source : String} {ds : List Diagnostic} :
    ∀ e ∈ complaints color source ds, ∃ text, e = .complain text := by
  intro e he
  obtain ⟨d, -, rfl⟩ := List.mem_map.mp he
  exact ⟨_, rfl⟩

/-! ## What a report has for each stream -/

theorem Options.trace_of_not_verbose {o : Options} (h : o.verbose = false)
    (entries : List LogEntry) : o.trace entries = [] := by
  rw [trace, h]
  rfl

theorem outBytes_trace (o : Options) (entries : List LogEntry) :
    Sink.bytesOf Effect.outText (o.trace entries) = .empty := by
  refine Sink.bytesOf_eq_empty fun e he => ?_
  unfold Options.trace at he
  split at he
  · obtain ⟨entry, -, rfl⟩ := List.mem_map.mp he
    rfl
  · cases he

theorem outBytes_complaints (color : Bool) (source : String) (ds : List Diagnostic) :
    Sink.bytesOf Effect.outText (complaints color source ds) = .empty := by
  refine Sink.bytesOf_eq_empty fun e he => ?_
  obtain ⟨text, rfl⟩ := exists_of_mem_complaints e he
  rfl

theorem outBytes_writeTokens (format : Format) (tokens : List Token) :
    Sink.bytesOf Effect.outText (writeTokens format tokens) = outBytes format tokens := by
  show Sink.bytesOf Effect.outText (records format tokens ++ [.flush]) = _
  rw [Sink.bytesOf_append, Sink.bytesOf_singleton]
  exact ByteArray.append_empty

theorem errBytes_writeTokens (format : Format) (tokens : List Token) :
    Sink.bytesOf Effect.errText (writeTokens format tokens) = .empty := by
  refine Sink.bytesOf_eq_empty fun e he => ?_
  rcases List.mem_append.mp he with he | he
  · have hout := isOut_of_mem_records e he
    cases e with
    | print | printObject => rfl
    | _ => cases hout
  · obtain rfl := List.mem_singleton.mp he
    rfl

/-- Whatever the log says, the output gets the tokens and nothing else. -/
theorem outBytes_reportSource (o : Options) (source : String) :
    Sink.bytesOf Effect.outText (reportSource o source).1 =
      outBytes o.format (scan source).tokens := by
  show Sink.bytesOf Effect.outText
    (o.trace _ ++ writeTokens o.format _ ++ complaints o.color source _) = _
  rw [Sink.bytesOf_append, Sink.bytesOf_append, outBytes_trace, outBytes_writeTokens,
    outBytes_complaints, ByteArray.empty_append, ByteArray.append_empty]

/-- Without a log, the error stream gets the diagnostics and nothing
else. -/
theorem errBytes_reportSource {o : Options} (h : o.verbose = false) (source : String) :
    Sink.bytesOf Effect.errText (reportSource o source).1 =
      errBytes o.color source (scan source).diagnostics := by
  obtain ⟨format, color, verbose⟩ := o
  obtain rfl : verbose = false := h
  rw [reportSource_eq, Sink.bytesOf_append, errBytes_writeTokens, ByteArray.empty_append]
  rfl

/-- Each diagnostic ends in a line feed, so none leaves no trace. -/
theorem errBytes_eq_empty_iff {color : Bool} {source : String} {ds : List Diagnostic} :
    errBytes color source ds = .empty ↔ ds = [] := by
  constructor
  · intro h
    cases ds with
    | nil => rfl
    | cons d ds =>
        have hcons : errBytes color source (d :: ds) =
            (d.render source color).toUTF8 ++ "\n".toUTF8 ++ errBytes color source ds := by
          rw [errBytes, complaints, List.map_cons, Sink.bytesOf_cons]
          exact congrArg (· ++ _) String.toByteArray_append
        have hsize := congrArg ByteArray.size (hcons.symm.trans h)
        have hline : "\n".toUTF8.size = 1 := rfl
        rw [ByteArray.size_append, ByteArray.size_append, ByteArray.size_empty] at hsize
        omega
  · rintro rfl
    rfl

theorem Report.hasErrors_iff {s : Scan} : (ofScan s).hasErrors = true ↔ s.diagnostics ≠ [] := by
  rw [ofScan_eq, hasErrors, decide_eq_true_iff, List.length_pos_iff]

namespace Streams

/-- How writing the records of tokens and flushing them fails, if it
does: the flush is not reached if a record fails. -/
def outFailure? (s : Streams) (format : Format) (tokens : List Token) : Option Failure :=
  match (s.out.writeAll Effect.outText (records format tokens)).1 with
  | some e => some (e.failure s.out.fault)
  | none => s.flushFault.map .disk

theorem performAll_writeTokens (s : Streams) (format : Format) (tokens : List Token) :
    s.performAll (writeTokens format tokens) =
      (s.outFailure? format tokens, { s with out := s.out.offered (outBytes format tokens) }) := by
  show s.performAll (records format tokens ++ [.flush]) = _
  rw [performAll_append, performAll_out isOut_of_mem_records]
  unfold outFailure?
  cases (s.out.writeAll Effect.outText (records format tokens)).1 with
  | some e => rfl
  | none =>
      simp only [Option.map_none, performAll, perform]
      cases s.flushFault <;> rfl

theorem performAll_diagnostics (s : Streams) (color : Bool) (source : String)
    (ds : List Diagnostic) :
    s.performAll (complaints color source ds) =
      (if s.err.Fits (errBytes color source ds) then none else some (.disk s.err.fault),
        { s with err := s.err.offered (errBytes color source ds) }) :=
  performAll_complaints exists_of_mem_complaints s

/-- What a report leaves behind: the diagnostics are written only where
nothing on the output failed. -/
theorem report_eq (s : Streams) (format : Format) (color : Bool) (source : String) :
    s.report format color source =
      match s.outFailure? format (scan source).tokens with
      | some failure =>
        { result := .error failure
          out := (s.out.offered (outBytes format (scan source).tokens)).taken
          err := s.err.taken }
      | none =>
        { result :=
            if s.err.Fits (errBytes color source (scan source).diagnostics) then
              .ok (Report.ofScan (scan source))
            else .error (.disk s.err.fault)
          out := (s.out.offered (outBytes format (scan source).tokens)).taken
          err := (s.err.offered (errBytes color source (scan source).diagnostics)).taken } := by
  unfold report
  rw [reportSource_eq]
  dsimp only
  rw [performAll_append, performAll_writeTokens]
  cases s.outFailure? format (scan source).tokens with
  | some failure => rfl
  | none =>
      simp only [performAll_diagnostics]
      by_cases hfits : s.err.Fits (errBytes color source (scan source).diagnostics)
      · simp only [if_pos hfits]
      · simp only [if_neg hfits]

/-- If every record fits, only the flush can fail. -/
theorem outFailure?_of_fits {s : Streams} {format : Format} {tokens : List Token}
    (h : s.out.Fits (outBytes format tokens)) :
    s.outFailure? format tokens = s.flushFault.map .disk := by
  rw [outFailure?, (Sink.writeAll_fst_eq_none_iff ..).mpr h]

theorem report_unlimited (format : Format) (color : Bool) (source : String) :
    unlimited.report format color source =
      { result := .ok (Report.ofScan (scan source))
        out := outBytes format (scan source).tokens
        err := errBytes color source (scan source).diagnostics } := by
  have hfits (bytes : ByteArray) : Sink.unlimited.Fits bytes := Sink.fits_of_unlimited rfl bytes
  have htaken (bytes : ByteArray) : (Sink.unlimited.offered bytes).taken = bytes :=
    Sink.taken_of_fits rfl (hfits bytes)
  rw [report_eq, outFailure?_of_fits (hfits _)]
  simp only [unlimited, Option.map_none, hfits, htaken, ↓reduceIte]

end Streams

end LoxScan
