import LoxScan.Proofs.Output.Limits
import LoxScan.Proofs.Scan.Whole

/-!
# Exit codes of refused output

Whoever runs a report sees of its failure the exit code. A stream that
fills up has one code, wherever that happens, with one exception: a byte
of the output that belongs to the JSON object of a token has the code of
a failure of JSON (`exitCode_of_refused`). The line feed behind the
object, the flush, the plain listing and the error stream have the code
of a disk.

The first byte of an output in JSON always is one of an object, so there
is no source whose tokens are free of the exception.
-/

namespace LoxScan

/-- The byte at this offset of the output in JSON is one of the object of
a token, and not of the line feed behind it. -/
def InObject (tokens : List Token) (n : Nat) : Prop :=
  ∃ front t back, tokens = front ++ t :: back ∧ (outBytes .json front).size ≤ n
    ∧ n < (outBytes .json front).size + t.json.toUTF8.size

/-! ## Bytes of objects -/

theorem outBytes_json_cons (t : Token) (tokens : List Token) :
    outBytes .json (t :: tokens) = t.json.toUTF8 ++ ("\n".toUTF8 ++ outBytes .json tokens) := by
  show Sink.bytesOf Effect.outText (.printObject t.json :: .print "\n" :: records .json tokens) = _
  rw [Sink.bytesOf_cons, Sink.bytesOf_cons]
  rfl

theorem inObject_cons_iff {t : Token} {tokens : List Token} {n : Nat} :
    InObject (t :: tokens) n ↔
      n < t.json.toUTF8.size
        ∨ t.json.toUTF8.size + 1 ≤ n ∧ InObject tokens (n - (t.json.toUTF8.size + 1)) := by
  have hsize (front : List Token) :
      (outBytes .json (t :: front)).size =
        t.json.toUTF8.size + 1 + (outBytes .json front).size := by
    have hline : "\n".toUTF8.size = 1 := rfl
    rw [outBytes_json_cons, ByteArray.size_append, ByteArray.size_append, hline]
    omega
  constructor
  · rintro ⟨front, u, back, hsplit, hstart, hstop⟩
    cases front with
    | nil =>
        obtain ⟨rfl, rfl⟩ := List.cons.inj hsplit
        have hnone : (outBytes .json []).size = 0 := rfl
        exact Or.inl (by omega)
    | cons v front =>
        obtain ⟨rfl, rfl⟩ := List.cons.inj hsplit
        rw [hsize] at hstart hstop
        exact Or.inr ⟨by omega, front, u, back, rfl, by omega, by omega⟩
  · rintro (h | ⟨hle, front, u, back, rfl, hstart, hstop⟩)
    · have hnone : (outBytes .json []).size = 0 := rfl
      exact ⟨[], t, tokens, rfl, by omega, by omega⟩
    · exact ⟨t :: front, u, back, rfl, by rw [hsize]; omega, by rw [hsize]; omega⟩

/-- The bytes of objects are those that are no line feeds. -/
theorem getElem_outBytes_ne_iff {tokens : List Token} {n : Nat}
    (hn : n < (outBytes .json tokens).size) :
    (outBytes .json tokens)[n] ≠ 10 ↔ InObject tokens n := by
  induction tokens generalizing n with
  | nil => exact absurd hn (Nat.not_lt_zero n)
  | cons t tokens ih =>
      have hline : "\n".toUTF8.size = 1 := rfl
      have hsize := congrArg ByteArray.size (outBytes_json_cons t tokens)
      rw [ByteArray.size_append, ByteArray.size_append, hline] at hsize
      simp only [outBytes_json_cons, inObject_cons_iff]
      by_cases hobject : n < t.json.toUTF8.size
      · rw [ByteArray.getElem_append_left hobject]
        exact iff_of_true (t.getElem_json_ne hobject) (Or.inl hobject)
      rw [ByteArray.getElem_append_right (Nat.not_lt.mp hobject), or_iff_right hobject]
      by_cases hend : n - t.json.toUTF8.size < "\n".toUTF8.size
      · rw [ByteArray.getElem_append_left hend]
        have hzero : n - t.json.toUTF8.size = 0 := by omega
        simp only [hzero]
        exact iff_of_false (fun h => h rfl) (by omega)
      · -- what is left are the records of the other tokens
        have hlater : n - t.json.toUTF8.size - "\n".toUTF8.size = n - (t.json.toUTF8.size + 1) := by
          omega
        rw [ByteArray.getElem_append_right (Nat.not_lt.mp hend), and_iff_right (by omega), ← ih]
        · simp only [hlater]
        · omega

/-! ## Codes -/

theorem size_json_pos (t : Token) : 0 < t.json.toUTF8.size := by
  rw [Token.json]
  exact Nat.pos_of_ne_zero fun h => by simp at h

/-- Every output in JSON starts with an object. -/
theorem inObject_zero (source : String) : InObject (scan source).tokens 0 := by
  obtain ⟨t, tokens, htokens⟩ : ∃ t tokens, (scan source).tokens = t :: tokens := by
    obtain ⟨gs, hseg⟩ := exists_segmented source.toList
    rw [(scan_of_segmented hseg).1]
    exact List.exists_cons_of_ne_nil (List.append_ne_nil_of_right_ne_nil _ (by simp))
  rw [htokens, inObject_cons_iff]
  exact Or.inl (size_json_pos t)

/-- The exit code of a report that fails. -/
def Reported.exitCode? (r : Reported) : Option UInt8 :=
  match r.result with
  | .ok _ => none
  | .error failure => some failure.exitCode

namespace Streams

/-- If the output fails, so does the report, and else the error stream
decides. -/
theorem exitCode?_report (s : Streams) (format : Format) (color : Bool) (source : String) :
    (s.report format color source).exitCode? =
      match s.outFailure? format (scan source).tokens with
      | some failure => some failure.exitCode
      | none =>
        if s.err.Fits (errBytes color source (scan source).diagnostics) then none
        else some 74 := by
  rw [report_eq]
  cases s.outFailure? format (scan source).tokens with
  | some failure => rfl
  | none =>
      show Reported.exitCode? { result := if _ then _ else _, out := _, err := _ } = _
      split <;> rfl

section

variable {source : String} {format : Format} {kOut : Nat} (color : Bool) (err : Sink)
  (outFault : DiskFault) (flushFault : Option DiskFault)

/-- The output is refused at a byte: all that matters is whether it is one
of an object. -/
theorem exitCode?_of_limit_lt (h : kOut < (outBytes format (scan source).tokens).size) :
    let s : Streams := { out := .limited kOut outFault, err, flushFault }
    let cut := format = .json ∧ InObject (scan source).tokens kOut
    cut ∧ (s.report format color source).exitCode? = some 70
      ∨ ¬ cut ∧ (s.report format color source).exitCode? = some 74 := by
  intro s cut
  have hbyte : format = .json ∧ (outBytes format (scan source).tokens)[kOut] ≠ 10 ↔ cut := by
    refine and_congr_right fun hformat => ?_
    subst hformat
    exact getElem_outBytes_ne_iff h
  rw [exitCode?_report, outFailure?_of_limit_lt h]
  by_cases hcut : cut
  · rw [if_pos (hbyte.mpr hcut)]
    exact Or.inl ⟨hcut, rfl⟩
  · rw [if_neg (mt hbyte.mp hcut)]
    exact Or.inr ⟨hcut, rfl⟩

/-- The output is taken: what is left has one code. -/
theorem exitCode?_of_le_limit (h : (outBytes format (scan source).tokens).size ≤ kOut) :
    let s : Streams := { out := .limited kOut outFault, err, flushFault }
    let refused := flushFault ≠ none
      ∨ ¬ err.Fits (errBytes color source (scan source).diagnostics)
    refused ∧ (s.report format color source).exitCode? = some 74
      ∨ ¬ refused ∧ (s.report format color source).exitCode? = none := by
  intro s refused
  rw [exitCode?_report, outFailure?_of_fits ((Sink.fits_limited kOut outFault).mpr h)]
  cases flushFault with
  | some fault => exact Or.inl ⟨Or.inl (Option.some_ne_none fault), rfl⟩
  | none =>
      by_cases hfits : err.Fits (errBytes color source (scan source).diagnostics)
      · exact Or.inr ⟨by simpa [refused] using hfits, if_pos hfits⟩
      · exact Or.inl ⟨Or.inr hfits, if_neg hfits⟩

end

/-- The exit codes of a report on two streams that fill up, each at a
limit of its own, and on an output that may fail when it is flushed. -/
theorem exitCode_of_refused (source : String) (format : Format) (color : Bool) (kOut kErr : Nat)
    (outFault errFault : DiskFault) (flushFault : Option DiskFault) :
    let tokens := (scan source).tokens
    let O := outBytes format tokens
    let E := errBytes color source (scan source).diagnostics
    let s : Streams :=
      { out := .limited kOut outFault, err := .limited kErr errFault, flushFault }
    let code? := (s.report format color source).exitCode?
    (code? = some 70 ↔ kOut < O.size ∧ format = .json ∧ InObject tokens kOut)
      ∧ (code? = some 74 ↔
          kOut < O.size ∧ ¬ (format = .json ∧ InObject tokens kOut)
            ∨ O.size ≤ kOut ∧ (flushFault ≠ none ∨ kErr < E.size))
      ∧ (code? = none ↔ O.size ≤ kOut ∧ flushFault = none ∧ E.size ≤ kErr)
      ∧ InObject tokens 0 := by
  intro tokens O E s code?
  by_cases hout : kOut < O.size
  · have hnot : ¬ O.size ≤ kOut := Nat.not_le.mpr hout
    obtain ⟨hcut, hcode⟩ | ⟨hcut, hcode⟩ :=
      exitCode?_of_limit_lt color s.err outFault flushFault hout
    · have hcode : code? = some 70 := hcode
      simp [hcode, hout, hnot, hcut, tokens, inObject_zero]
    · have hcode : code? = some 74 := hcode
      simp [hcode, hout, hnot, hcut, tokens, inObject_zero]
  · have hle : O.size ≤ kOut := Nat.not_lt.mp hout
    have hrefused := exitCode?_of_le_limit color s.err outFault flushFault hle
    simp only [s, Sink.fits_limited, Nat.not_le] at hrefused
    obtain ⟨hrefused, hcode⟩ | ⟨hrefused, hcode⟩ := hrefused
    · have hcode : code? = some 74 := hcode
      refine ⟨iff_of_false (by simp [hcode]) fun h => hout h.1,
        iff_of_true hcode (Or.inr ⟨hle, hrefused⟩),
        iff_of_false (by simp [hcode]) fun ⟨_, hflush, hfits⟩ => ?_, inObject_zero source⟩
      exact hrefused.elim (fun h => h hflush) (Nat.not_lt.mpr hfits)
    · have hcode : code? = none := hcode
      obtain ⟨hflush, hfits⟩ := not_or.mp hrefused
      refine ⟨iff_of_false (by simp [hcode]) fun h => hout h.1,
        iff_of_false (by simp [hcode]) ?_,
        iff_of_true hcode ⟨hle, not_not.mp hflush, Nat.not_lt.mp hfits⟩, inObject_zero source⟩
      exact fun h => h.elim (fun h => hout h.1) fun h => hrefused h.2

/-- An output that takes nothing: where the format is JSON, the code is not
that of a disk. -/
theorem exitCode_firstByte :
    let s : Streams := { unlimited with out := .limited 0 (.other "write limit reached") }
    0 < (outBytes .json (scan "").tokens).size
      ∧ (s.report .json false "").exitCode? = some 70
      ∧ (s.report .text false "").exitCode? = some 74 := by
  decide +kernel

end Streams

end LoxScan
