import LoxScan.Proofs.Output.Reports
import LoxScan.Proofs.Text.Bytes
import LoxScan.Proofs.Token.Object

/-!
# Reports on streams that fill up

A stream that fills up holds the front of what it would have held, up to
its limit, and nothing that comes later is written anywhere
(`Streams.report_limited`).

In JSON the failure tells where the output was cut, in an object or
between two. The byte that was refused tells the same, as the object of
a token holds no line feed.
-/

namespace LoxScan

theorem Token.getElem_json_ne (t : Token) {i : Nat} (hi : i < t.json.toUTF8.size) :
    t.json.toUTF8[i] ≠ 10 := by
  intro h
  have hsmall : t.json.toUTF8[i].toNat < 128 := by
    rw [h]
    decide
  obtain ⟨c, hc, hline⟩ := Text.exists_of_getElem_toUTF8 hi hsmall
  have hvisible := t.visible_json c hc
  rw [hline, h] at hvisible
  exact absurd hvisible (by decide)

/-- A refused record is a failure of JSON if the refused byte is one of
an object. -/
theorem failure_of_mem_records {format : Format} {tokens : List Token} {e : Effect}
    (he : e ∈ records format tokens) {i : Nat} (hi : i < e.outText.toUTF8.size)
    (fault : DiskFault) :
    e.failure fault =
      if format = .json ∧ e.outText.toUTF8[i] ≠ 10 then .json fault else .disk fault := by
  rcases cases_of_mem_records he with ⟨rfl, t, rfl⟩ | ⟨rfl, ⟨t, rfl⟩ | rfl⟩
  · rfl
  · exact (if_pos ⟨rfl, t.getElem_json_ne hi⟩).symm
  · -- the only byte is the line feed
    have hsize : "\n".toUTF8.size = 1 := rfl
    obtain rfl : i = 0 := by
      change i < "\n".toUTF8.size at hi
      omega
    rfl

namespace Streams

theorem outFailure?_of_limit_lt {format : Format} {tokens : List Token} {n : Nat}
    (h : n < (outBytes format tokens).size) (err : Sink) (fault : DiskFault)
    (flushFault : Option DiskFault) :
    outFailure? { out := .limited n fault, err, flushFault } format tokens =
      some (if format = .json ∧ (outBytes format tokens)[n] ≠ 10 then .json fault
        else .disk fault) := by
  obtain ⟨e, he, hfailed, i, hi, hbyte⟩ := Sink.exists_of_limit_lt fault h
  have hbyte : (outBytes format tokens)[n] = e.outText.toUTF8[i] := hbyte
  rw [outFailure?, hfailed, hbyte]
  exact congrArg some (failure_of_mem_records he hi fault)

/-- What a report leaves on two streams that fill up, each at a limit of
its own, and on an output that may fail when it is flushed, compared with
what it leaves on streams that never fail. -/
theorem report_limited (source : String) (format : Format) (color : Bool) (kOut kErr : Nat)
    (outFault errFault : DiskFault) (flushFault : Option DiskFault) :
    let O := outBytes format (scan source).tokens
    let E := errBytes color source (scan source).diagnostics
    let s : Streams :=
      { out := .limited kOut outFault, err := .limited kErr errFault, flushFault }
    let counts : Report :=
      { tokens := (scan source).tokens.length, errors := (scan source).diagnostics.length }
    unlimited.report format color source = { result := .ok counts, out := O, err := E } ∧
    s.report format color source =
      if h : kOut < O.size then
        { result := .error
            (if format = .json ∧ O[kOut] ≠ 10 then .json outFault else .disk outFault)
          out := O.extract 0 kOut
          err := .empty }
      else
        match flushFault with
        | some fault => { result := .error (.disk fault), out := O, err := .empty }
        | none =>
          if kErr < E.size then
            { result := .error (.disk errFault), out := O, err := E.extract 0 kErr }
          else { result := .ok counts, out := O, err := E } := by
  intro O E s counts
  have hcounts : Report.ofScan (scan source) = counts := Report.ofScan_eq _
  rw [report_unlimited, report_eq, hcounts]
  refine ⟨rfl, ?_⟩
  by_cases hout : kOut < O.size
  · rw [dif_pos hout, outFailure?_of_limit_lt hout]
    simp only [s, Sink.taken_limited]
    rfl
  -- the output is complete, and the error stream is reached if it can be flushed
  have hfits : s.out.Fits O := (Sink.fits_limited kOut outFault).mpr (Nat.not_lt.mp hout)
  rw [dif_neg hout, outFailure?_of_fits hfits, Sink.taken_of_fits rfl hfits]
  cases flushFault with
  | some fault => rfl
  | none =>
      show Reported.mk (if s.err.Fits E then _ else _) O (s.err.offered E).taken = _
      by_cases herr : kErr < E.size
      · have hfits : ¬ s.err.Fits E := by rwa [Sink.fits_limited, Nat.not_le]
        rw [if_neg hfits, Sink.taken_limited]
        exact (if_pos herr).symm
      · have hfits : s.err.Fits E := (Sink.fits_limited kErr errFault).mpr (Nat.not_lt.mp herr)
        rw [if_pos hfits, Sink.taken_of_fits rfl hfits]
        exact (if_neg herr).symm

end Streams

end LoxScan
