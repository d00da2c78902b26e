import LoxScan.Proofs.Output.Records
import LoxScan.Proofs.Scan.Whole
import LoxScan.Proofs.Text.Runs

/-!
# The listing of a scan

A plain listing prints the text of a string as it is, so a string may
hold a line that looks like a record, and the listing of some tokens can
be that of others. Among the tokens of a scan it cannot
(`listing_eq_iff`): the first blank ends the name of the kind, the
name tells whether the lexeme ends at its second quote or at the next
blank, and the lexeme tells the literal.
-/

namespace LoxScan

/-! ## Lexemes by their kinds -/

namespace Kind

theorem blank_notMem_name (k : Kind) : ' ' ∉ k.name.toList := by
  cases k with
  | symbol s => cases s <;> decide
  | keyword w => cases w <;> decide
  | _ => decide

/-- What a lexeme looks like in a listing: quotes that stand at its ends
only, or no blank. -/
def Lists : Kind → List Char → Prop
  | .string, lexeme => ∃ body, lexeme = '"' :: (body ++ ['"']) ∧ '"' ∉ body
  | _, lexeme => ' ' ∉ lexeme

/-- The kind tells where the lexeme ends. -/
theorem Lists.inj {k : Kind} {text text' after after' : List Char} (ht : k.Lists text)
    (hu : k.Lists text') (h : text ++ ' ' :: after = text' ++ ' ' :: after') :
    text = text' ∧ after = after' := by
  cases k with
  | string =>
      obtain ⟨body, rfl, hbody⟩ := ht
      obtain ⟨body', rfl, hbody'⟩ := hu
      simp only [List.cons_append, List.append_assoc, List.nil_append, List.cons.injEq,
        true_and] at h
      obtain ⟨rfl, hafter⟩ := stop_inj h hbody hbody'
      exact ⟨rfl, (List.cons.inj hafter).2⟩
  | _ => exact stop_inj h ht hu

end Kind

theorem lists_of_isLexeme {k : Kind} {text : List Char} {value : Option Literal}
    (h : IsLexeme k text value) : k.Lists text := by
  have hdigits {cs : List Char} (h : ∀ c ∈ cs, isDigit c = true) : ' ' ∉ cs :=
    fun hmem => absurd (h ' ' hmem) (by decide)
  cases h with
  | symbol s => cases s <;> exact fun hmem => absurd hmem (by decide)
  | whole hne hd => exact hdigits hd
  | fraction hne hd hne' hd' =>
      show ' ' ∉ _
      simp [hdigits hd, hdigits hd']
  | string hq => exact ⟨_, rfl, hq⟩
  | keyword w => cases w <;> exact fun hmem => absurd hmem (by decide)
  | identifier hc hcs =>
      intro hmem
      rcases List.mem_cons.mp hmem with rfl | hmem
      · exact absurd hc (by decide)
      · exact absurd (hcs ' ' hmem) (by decide)

/-! ## Records of a scan -/

namespace Token

/-- A token of a scan, as far as a listing goes. -/
structure Listed (t : Token) : Prop where
  lexeme : t.kind.Lists t.lexeme.toList
  literal : t.literal = Literal.ofLexeme? t.kind t.lexeme.toList

/-- All of a token but its line. -/
def unplaced (t : Token) : Kind × String × Option Literal := (t.kind, t.lexeme, t.literal)

def literalListing (t : Token) : List Char :=
  match t.literal with
  | some l => l.listing
  | none => "null".toList

theorem record_text (t : Token) (after : List Char) :
    t.record .text ++ after =
      t.kind.name.toList ++ ' ' :: (t.lexeme.toList ++ ' ' :: (t.literalListing ++ after)) := by
  show t.listing.toList ++ after = _
  rw [listing, String.toList_ofList]
  simp only [List.append_assoc, List.cons_append]
  rfl

theorem listed_of_mem_scan {source : String} : ∀ t ∈ (scan source).tokens, t.Listed := by
  obtain ⟨gs, hseg⟩ := exists_segmented source.toList
  rw [(scan_of_segmented hseg).1]
  intro t ht
  rcases List.mem_append.mp ht with ht | ht
  · have h := Segment.isLexeme_of_mem_tokens hseg.wellFormed ht
    exact ⟨lists_of_isLexeme h, Segment.literal_of_isLexeme h⟩
  · obtain rfl := List.mem_singleton.mp ht
    exact ⟨List.not_mem_nil, rfl⟩

end Token

/-- A record ends where its literal does, whatever follows. -/
theorem unplaced_of_record_eq {t u : Token} {after after' : List Char} (ht : t.Listed)
    (hu : u.Listed)
    (h : t.record .text ++ '\n' :: after = u.record .text ++ '\n' :: after') :
    t.unplaced = u.unplaced ∧ after = after' := by
  rw [Token.record_text, Token.record_text] at h
  obtain ⟨hname, h⟩ := stop_inj h t.kind.blank_notMem_name u.kind.blank_notMem_name
  have hkind := Kind.name_inj (String.toList_injective hname)
  obtain ⟨hlexeme, h⟩ := ht.lexeme.inj (hkind ▸ hu.lexeme) h
  have hliteral : t.literal = u.literal := by
    rw [ht.literal, hu.literal, hkind, hlexeme]
  have hlisting : t.literalListing = u.literalListing := by
    rw [Token.literalListing, Token.literalListing, hliteral]
  rw [hlisting] at h
  refine ⟨?_, (List.cons.inj (List.append_cancel_left h)).2⟩
  rw [Token.unplaced, Token.unplaced, hkind, String.toList_injective hlexeme, hliteral]

/-- Lines are not listed. -/
theorem recordsText_text (tokens : List Token) :
    recordsText .text tokens =
      (tokens.map Token.unplaced).flatMap fun (kind, lexeme, literal) =>
        Token.record .text { kind, lexeme, literal, line := 0 } ++ ['\n'] := by
  rw [List.flatMap_map]
  rfl

/-- Two sources have one listing exactly if they have the same tokens, up
to their lines. -/
theorem listing_eq_iff (source source' : String) (color color' : Bool) :
    (Streams.unlimited.report .text color source).out =
        (Streams.unlimited.report .text color' source').out ↔
      (scan source).tokens.map Token.unplaced = (scan source').tokens.map Token.unplaced := by
  rw [Streams.report_unlimited, Streams.report_unlimited]
  constructor
  · intro h
    rw [← List.forall₂_eq_eq_eq, List.forall₂_map_left_iff, List.forall₂_map_right_iff]
    exact forall₂_of_recordsText_eq unplaced_of_record_eq Token.listed_of_mem_scan
      Token.listed_of_mem_scan (outBytes_inj.mp h)
  · intro h
    refine outBytes_inj.mpr ?_
    rw [recordsText_text, h, ← recordsText_text]

/-- A string that ends in what looks like the last record of a listing,
on other lines and with other text around it. -/
theorem listing_eq_spread :
    let plain := "\"a\nEOF  null\" 1.50"
    let spread := "# \"a\nEOF  null\"\n\t1.50 // b"
    (Streams.unlimited.report .text false plain).out =
        (Streams.unlimited.report .text true spread).out
      ∧ (scan plain).tokens.map Token.unplaced = (scan spread).tokens.map Token.unplaced := by
  intro plain spread
  have h : (Streams.unlimited.report .text false plain).out =
      (Streams.unlimited.report .text true spread).out := by
    rw [Streams.report_unlimited, Streams.report_unlimited]
    exact outBytes_inj.mpr (by decide +kernel)
  exact ⟨h, (listing_eq_iff plain spread false true).mp h⟩

/-- Tokens that no source has can share a listing. -/
example :
    recordsText .text [
        { kind := .identifier, lexeme := "a null\nEOF ", literal := none, line := 1 }] =
      recordsText .text [
        { kind := .identifier, lexeme := "a", literal := none, line := 1 }, Token.eof 1] := by
  decide

end LoxScan
