import LoxScan.Proofs.Output.Records
import LoxScan.Proofs.Text.Runs
import LoxScan.Proofs.Token.Object

/-!
# Tokens as lines of JSON

In JSON the output has a line for each token, and each line is read back
as its token: a line feed in a text is escaped, so the line feeds of the
output are those at the ends of its lines. Two outputs are alike only if
their tokens are (`written_json`).
-/

namespace LoxScan

open Text.Json (Visible)

/-- Two tokens that no reader of their objects tells apart by more than
the number they may stand for. -/
structure Token.Agrees (t u : Token) : Prop where
  kind : t.kind = u.kind
  lexeme : t.lexeme = u.lexeme
  line : t.line = u.line
  text : ∀ s, t.literal = some (.text s) ↔ u.literal = some (.text s)

/-- A text records one token, up to its number. -/
theorem Token.agrees_of_recorded {t u : Token} {cs : List Char} (ht : t.Recorded cs)
    (hu : u.Recorded cs) : t.Agrees u := by
  obtain ⟨value, htold, hread⟩ := ht
  obtain ⟨value', hutold, hread'⟩ := hu
  rw [hread'] at hread
  simp only [Option.some.injEq, Text.Json.Value.object.injEq, List.cons.injEq, Prod.mk.injEq,
    Text.Json.Value.string.injEq, Text.Json.Value.number.injEq, Text.Json.Number.mk.injEq,
    true_and, and_true] at hread
  obtain ⟨hkind, hlexeme, rfl, hline⟩ := hread
  exact {
    kind := (Kind.name_inj hkind).symm
    lexeme := hlexeme.symm
    line := (UInt32.toNat_inj.mp hline).symm
    text := fun s => (htold.string s).symm.trans (hutold.string s) }

theorem notMem_of_visible {cs : List Char} (h : Visible cs) : '\n' ∉ cs :=
  fun hmem => absurd (h '\n' hmem) (by decide)

def jsonLines (tokens : List Token) : List (List Char) := tokens.map fun t => t.json.toList

theorem recordsText_json (tokens : List Token) :
    recordsText .json tokens = (jsonLines tokens).flatMap (· ++ ['\n']) := by
  rw [jsonLines, List.flatMap_map]
  rfl

theorem visible_jsonLines {tokens : List Token} : ∀ line ∈ jsonLines tokens, Visible line := by
  intro line hline
  obtain ⟨t, -, rfl⟩ := List.mem_map.mp hline
  exact t.visible_json

theorem forall_recorded_jsonLines (tokens : List Token) :
    List.Forall₂ Token.Recorded tokens (jsonLines tokens) := by
  rw [jsonLines, List.forall₂_map_right_iff, List.forall₂_same]
  exact fun t _ => t.recorded_json

theorem agrees_of_recordsText_eq {ts us : List Token}
    (h : recordsText .json ts = recordsText .json us) : List.Forall₂ Token.Agrees ts us := by
  refine forall₂_of_recordsText_eq (P := fun _ => True) (fun {t u _ _} _ _ h => ?_)
    (fun _ _ => trivial) (fun _ _ => trivial) h
  obtain ⟨(hline : t.json.toList = u.json.toList), hrest⟩ :=
    stop_inj h (notMem_of_visible t.visible_json) (notMem_of_visible u.visible_json)
  have hu := u.recorded_json
  rw [← hline] at hu
  exact ⟨Token.agrees_of_recorded t.recorded_json hu, hrest⟩

/-- Tokens written as JSON are one line each, without control characters
in it, that a reader of JSON takes for the object of that token. -/
theorem written_json (tokens : List Token) :
    (∃ lines : List (List Char),
      written .json tokens = (none, (String.ofList (lines.flatMap (· ++ ['\n']))).toUTF8)
      ∧ (∀ line ∈ lines, Visible line)
      ∧ List.Forall₂ Token.Recorded tokens lines)
    ∧ ∀ others : List Token, written .json tokens = written .json others →
        List.Forall₂ Token.Agrees tokens others := by
  refine ⟨⟨jsonLines tokens, ?_, visible_jsonLines, forall_recorded_jsonLines tokens⟩, ?_⟩
  · rw [written_eq, outBytes_eq, recordsText_json]
  · intro others h
    rw [written_eq, written_eq] at h
    exact agrees_of_recordsText_eq (outBytes_inj.mp (Prod.mk.inj h).2)

/-- Infinity has no form in JSON, and a reader cannot tell it from no
value. -/
theorem written_json_infinity :
    let quoted : Token :=
      { kind := .string, lexeme := "\"\x00\n\"", literal := some (.text "\x00\n"), line := 1 }
    let bare : Token := { kind := .number, lexeme := "1", literal := none, line := 2 }
    let infinite : Token := { bare with literal := some (.number .infinity) }
    written .json [quoted, bare] = written .json [quoted, infinite]
      ∧ List.Forall₂ Token.Agrees [quoted, bare] [quoted, infinite] := by
  intro quoted bare infinite
  have h : written .json [quoted, bare] = written .json [quoted, infinite] := by
    rw [written_eq, written_eq]
    exact congrArg (none, ·) (outBytes_inj.mpr (by decide))
  exact ⟨h, (written_json [quoted, bare]).2 [quoted, infinite] h⟩

end LoxScan
