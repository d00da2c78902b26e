import LoxScan.Proofs.Binary64.Decimals
import LoxScan.Proofs.Scan.Numbers
import LoxScan.Proofs.Scan.Spacing
import LoxScan.Proofs.Token.Object

/-!
# Numbers as they are rendered

There are three ways to write a number: a whole one in full, any other by
its shortest digits, and in JSON by its shortest digits with an exponent
if it is very great or small. Whichever is taken, what is written rounds
to the number again, and a rational rounds to one number only, so the
scanner and a reader of JSON both get back the bits they started from.
-/

namespace LoxScan

open Binary64 (IsNearest RoundsTo ofPattern unitsInOne)

/-- The rational a number in JSON stands for. -/
def Text.Json.Number.value (n : Text.Json.Number) : ℚ :=
  (if n.negative then -1 else 1) * (n.significand * 10 ^ n.exponent)

theorem value_of_writes {n : Text.Json.Number} {d : Decimal} (hsign : n.negative = false)
    (h : n.Writes d) : n.value = d.value := by
  obtain ⟨zeros, hdigits, hpoint⟩ := h
  rw [Text.Json.Number.value, hsign, if_neg Bool.false_ne_true, one_mul,
    Decimal.value_eq hdigits hpoint]

namespace Binary64

variable {x : Binary64}

theorem eq_ofPattern_of_isFinite (hx : x.isFinite = true) (hsign : x.isNegative = false) :
    x = ofPattern x.magnitude := by
  rw [isFinite, decide_eq_true_iff] at hx
  exact eq_ofPattern hsign hx.le

/-- Whatever rounds to a number has it as its nearest one. -/
theorem isNearest_iff_eq (hx : x.isFinite = true) (hsign : x.isNegative = false) {q : ℚ}
    (hq : 0 ≤ q) (h : RoundsTo (q * unitsInOne) x.magnitude) (y : Binary64) :
    IsNearest q y ↔ y = x := by
  rw [isNearest_iff hq h, ← eq_ofPattern_of_isFinite hx hsign]

theorem ofNumeral_eq (hx : x.isFinite = true) (hsign : x.isNegative = false) {text : List Char}
    {q : ℚ} (hq : Denotes text q) (h : RoundsTo (q * unitsInOne) x.magnitude) :
    ofNumeral text = x := by
  obtain ⟨p, hp, heq⟩ := exists_ofNumeral hq
  rw [heq, hp.unique h, ← eq_ofPattern_of_isFinite hx hsign]

end Binary64

/-- A lexeme without a line feed, scanned alone. -/
theorem scan_lexeme_line {kind : Kind} {text : List Char} {value : Option Literal}
    (h : IsLexeme kind text value) (hline : '\n' ∉ text) :
    (scan (String.ofList text)).diagnostics = []
      ∧ (scan (String.ofList text)).tokens =
        [{ kind, lexeme := String.ofList text, literal := value, line := 1 }, Token.eof 1] := by
  let p : Printed := ⟨kind, text, value, h, ' ', rfl, [], .none⟩
  obtain ⟨htokens, hdiagnostics⟩ := p.scan_lexeme
  refine ⟨hdiagnostics, htokens.trans ?_⟩
  have hend : Text.lineAfter text = 1 := by
    rw [Text.lineAfter, List.count_eq_zero_of_not_mem hline]
  show [_, Token.eof (UInt32.ofNat (Text.lineAfter text))] = _
  rw [hend]
  rfl

/-- A number that is not infinite scans back from its listing: digits, a
point and digits, which are one token of the same bits. In JSON it is a
number whose nearest one it is. -/
theorem scan_number_rendered (source : String) (t : Token) (ht : t ∈ (scan source).tokens)
    (hkind : t.kind = .number) :
    ∃ x, t.literal = some (.number x) ∧ (x.isFinite = true →
      let text := (Literal.number x).listing
      (∃ whole fraction, text = whole ++ '.' :: fraction ∧ Digits whole ∧ Digits fraction)
        ∧ (scan (String.ofList text)).diagnostics = []
        ∧ (scan (String.ofList text)).tokens =
          [{ kind := .number, lexeme := String.ofList text, literal := some (.number x),
             line := 1 },
            Token.eof 1]
        ∧ ∃ n, Text.Json.read? t.json.toList = some (t.object (.number n))
          ∧ ∀ y, IsNearest n.value y ↔ y = x) := by
  obtain ⟨q, p, hcarries, -⟩ := exists_carries ht hkind
  have hsign := Binary64.isNegative_ofPattern p
  refine ⟨ofPattern p, hcarries.literal, fun hx => ?_⟩
  generalize ofPattern p = x at *
  intro text
  obtain ⟨whole, fraction, r, htext, hwhole, hfraction, hdenotes, hrounds⟩ :=
    Binary64.exists_denotes_listing hx hsign
  refine ⟨⟨whole, fraction, htext, hwhole, hfraction⟩, ?_⟩
  have hlexeme := IsLexeme.fraction hwhole.ne_nil hwhole.isDigit hfraction.ne_nil hfraction.isDigit
  rw [← htext, Binary64.ofNumeral_eq hx hsign hdenotes hrounds] at hlexeme
  have hline : '\n' ∉ text := by
    intro hmem
    rw [show text = _ from htext, List.mem_append, List.mem_cons] at hmem
    rcases hmem with hmem | hmem | hmem
    · exact absurd (hwhole.isDigit _ hmem) (by decide)
    · exact absurd hmem (by decide)
    · exact absurd (hfraction.isDigit _ hmem) (by decide)
  obtain ⟨hdiagnostics, htokens⟩ := scan_lexeme_line hlexeme hline
  obtain ⟨n, hnegative, hwrites, htells⟩ := Token.tells_number hcarries.literal hx
  refine ⟨hdiagnostics, htokens, n, Token.read?_json htells, ?_⟩
  rw [value_of_writes (hnegative.trans hsign) hwrites]
  exact Binary64.isNearest_iff_eq hx hsign (Decimal.value_nonneg _)
    (Binary64.roundsTo_shortest .toEven hx)

/-- The number nearest to `10²³`: its listing is another numeral, and that
has the same bits. -/
theorem scan_number_rendered_whole :
    let t := Token.ofLexeme .number "100000000000000000000000".toList 1
    t ∈ (scan "100000000000000000000000").tokens
      ∧ ∃ x, t.literal = some (.number x) ∧ x.listing = "99999999999999991611392.0".toList
        ∧ (scan "99999999999999991611392.0").tokens =
          [{ kind := .number, lexeme := "99999999999999991611392.0",
             literal := some (.number x), line := 1 }, Token.eof 1] := by
  intro t
  have ht : t ∈ (scan "100000000000000000000000").tokens := by decide +kernel
  obtain ⟨x, hx, hrendered⟩ := scan_number_rendered _ t ht rfl
  obtain rfl : Binary64.ofNumeral "100000000000000000000000".toList = x := by
    simpa [t, Token.ofLexeme, Literal.ofLexeme?] using hx
  obtain ⟨-, -, htokens, -⟩ := hrendered (by decide +kernel)
  have hlisting : (Binary64.ofNumeral "100000000000000000000000".toList).listing =
      "99999999999999991611392.0".toList := by decide +kernel
  refine ⟨ht, _, hx, hlisting, ?_⟩
  have htext : String.ofList (Literal.listing
      (.number (Binary64.ofNumeral "100000000000000000000000".toList))) =
        "99999999999999991611392.0" := by
    rw [Literal.listing, hlisting, String.ofList_toList]
  rw [htext] at htokens
  exact htokens

end LoxScan
