import Mathlib.Data.List.Forall2
import LoxScan.Proofs.Output.Reports

/-!
# Records on the output

The output is the records of the tokens in a row, a line feed after each
(`outBytes_eq`). If a record can always be split off the front of an
output, and tells something of its token, the output tells that of every
token (`forall₂_of_recordsText_eq`).
-/

namespace LoxScan

namespace Kind

theorem ofName?_name (k : Kind) : ofName? k.name = some k := by
  cases k with
  | symbol s => cases s <;> decide
  | keyword w => cases w <;> decide
  | _ => decide

theorem name_inj {k l : Kind} (h : k.name = l.name) : k = l := by
  have hname := ofName?_name k
  rw [h, ofName?_name] at hname
  exact (Option.some.inj hname).symm

end Kind

/-- A token as it is written, without the line feed after it. -/
def Token.record (format : Format) (t : Token) : List Char :=
  match format with
  | .text => t.listing.toList
  | .json => t.json.toList

def recordsText (format : Format) (tokens : List Token) : List Char :=
  tokens.flatMap fun t => t.record format ++ ['\n']

theorem recordsText_cons (format : Format) (t : Token) (tokens : List Token) :
    recordsText format (t :: tokens) = t.record format ++ '\n' :: recordsText format tokens := by
  rw [recordsText, List.flatMap_cons, List.append_assoc]
  rfl

/-- Records that can be told from what follows them are told apart in a
row. -/
theorem forall₂_of_recordsText_eq {format : Format} {P : Token → Prop} {R : Token → Token → Prop}
    (hsplit : ∀ {t u after after'}, P t → P u →
      t.record format ++ '\n' :: after = u.record format ++ '\n' :: after' →
      R t u ∧ after = after')
    {ts us : List Token} (hts : ∀ t ∈ ts, P t) (hus : ∀ u ∈ us, P u)
    (h : recordsText format ts = recordsText format us) : List.Forall₂ R ts us := by
  -- what follows a record is again a row of records, on both sides
  induction ts generalizing us with
  | nil =>
      cases us with
      | nil => exact .nil
      | cons u us => simp [recordsText] at h
  | cons t ts ih =>
      cases us with
      | nil => simp [recordsText] at h
      | cons u us =>
          obtain ⟨ht, hts⟩ := List.forall_mem_cons.mp hts
          obtain ⟨hu, hus⟩ := List.forall_mem_cons.mp hus
          rw [recordsText_cons, recordsText_cons] at h
          obtain ⟨htu, hrest⟩ := hsplit ht hu h
          exact .cons htu (ih hts hus hrest)

theorem outTexts_records (format : Format) (tokens : List Token) :
    Effect.outTexts (records format tokens) = String.ofList (recordsText format tokens) := by
  have htoken (t : Token) :
      (t.effects format).flatMap (fun e => e.outText.toList) = t.record format ++ ['\n'] := by
    cases format <;> simp [Token.effects, Effect.outText, Token.record]
  refine String.toList_injective ?_
  rw [Effect.outTexts, String.toList_join, List.flatMap_map, records, List.flatMap_assoc,
    String.toList_ofList, recordsText]
  exact congrArg (tokens.flatMap ·) (funext htoken)

theorem outBytes_eq (format : Format) (tokens : List Token) :
    outBytes format tokens = (String.ofList (recordsText format tokens)).toUTF8 :=
  congrArg String.toUTF8 (outTexts_records format tokens)

theorem outBytes_inj {format : Format} {ts us : List Token} :
    outBytes format ts = outBytes format us ↔ recordsText format ts = recordsText format us := by
  rw [outBytes_eq, outBytes_eq]
  exact String.toByteArray_inj.trans String.ofList_inj

/-- What writing tokens to an output that never fails comes to. -/
def written (format : Format) (tokens : List Token) : Option Failure × ByteArray :=
  let (failure, after) := Streams.unlimited.performAll (writeTokens format tokens)
  (failure, after.out.taken)

theorem written_eq (format : Format) (tokens : List Token) :
    written format tokens = (none, outBytes format tokens) := by
  have hfits : Sink.unlimited.Fits (outBytes format tokens) := Sink.fits_of_unlimited rfl _
  rw [written, Streams.performAll_writeTokens, Streams.outFailure?_of_fits hfits]
  exact congrArg (none, ·) (Sink.taken_of_fits rfl hfits)

end LoxScan
