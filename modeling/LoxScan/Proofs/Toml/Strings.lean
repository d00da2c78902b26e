import Mathlib.Data.List.Infix
import LoxScan.Toml.Strings

/-!
# Strings read back

Whichever of its forms a string is written in, it is read as the text it
was written for (`readString?_writeString`). Of the text behind it only
the first character matters, since it could be taken for one more quote.

A form that shows a text as it is can be used if the reader would not
stop inside the text. On one line that is a text without the quote; over
several lines it is one without three quotes in a row, because a reader
that meets a quote looks for two more, and at the end up to two quotes
in front of the closing three still belong to the text.
-/

namespace LoxScan.Toml

section

variable {step : StringMode → Char → List Char → StringStep} {mode mode' : StringMode}
  {c : Char} {cs out rest : List Char}

theorem scanBody_emit (h : step mode c cs = .emit out mode') :
    scanBody step mode (c :: cs) =
      (scanBody step mode' cs).map fun p => (out ++ p.1, p.2) := by
  rw [scanBody, h]
  dsimp only
  cases scanBody step mode' cs <;> rfl

theorem scanBody_close (h : step mode c cs = .close out rest) :
    scanBody step mode (c :: cs) = some (out, rest) := by
  rw [scanBody, h]

end

/-! ## Escapes -/

/-- A digit of a character number. -/
def upperDigit (d : Nat) : Char :=
  if d < 10 then Char.ofNat (d + '0'.toNat) else Char.ofNat (d - 10 + 'A'.toNat)

theorem upperHex4_eq (n : Nat) :
    upperHex4 n = [upperDigit (n / 4096 % 16), upperDigit (n / 256 % 16),
      upperDigit (n / 16 % 16), upperDigit (n % 16)] := rfl

theorem hexValue?_upperDigit : ∀ d < 16, hexValue? (upperDigit d) = some d := by
  decide

section

variable {multi : Bool}

theorem scanBody_letter {letter c : Char} {cs : List Char}
    (h : quotedStep multi .escape letter cs = .emit [c] .plain) :
    scanBody (quotedStep multi) .plain ('\\' :: letter :: cs) =
      (scanBody (quotedStep multi) .plain cs).map fun p => (c :: p.1, p.2) := by
  have hmark : quotedStep multi .plain '\\' (letter :: cs) = .emit [] .escape := rfl
  rw [scanBody_emit hmark, scanBody_emit h, Option.map_map]
  rfl

/-- All but the last digit of a character number. -/
theorem scanBody_digit {digits value d : Nat} (hd : d < 16) (h : 1 < digits) (cs : List Char) :
    scanBody (quotedStep multi) (.code digits value) (upperDigit d :: cs) =
      (scanBody (quotedStep multi) (.code (digits - 1) (16 * value + d)) cs).map
        fun p => ([] ++ p.1, p.2) := by
  refine scanBody_emit ?_
  simp only [quotedStep, hexValue?_upperDigit d hd, if_pos h]

theorem scanBody_number {c : Char} (hc : c.toNat < 65536) (cs : List Char) :
    scanBody (quotedStep multi) .plain ('\\' :: 'u' :: (upperHex4 c.toNat ++ cs)) =
      (scanBody (quotedStep multi) .plain cs).map fun p => (c :: p.1, p.2) := by
  have hmark : quotedStep multi .plain '\\' ('u' :: (upperHex4 c.toNat ++ cs)) = .emit [] .escape :=
    rfl
  have hu : quotedStep multi .escape 'u' (upperHex4 c.toNat ++ cs) = .emit [] (.code 4 0) := rfl
  have hvalue : 16 * (16 * (16 * (16 * 0 + c.toNat / 4096 % 16) + c.toNat / 256 % 16)
      + c.toNat / 16 % 16) + c.toNat % 16 = c.toNat := by omega
  have hvalid : c.toNat.isValidChar := c.valid
  have hlast : quotedStep multi (.code 1 (16 * (16 * (16 * 0 + c.toNat / 4096 % 16)
      + c.toNat / 256 % 16) + c.toNat / 16 % 16)) (upperDigit (c.toNat % 16)) cs =
        .emit [c] .plain := by
    simp only [quotedStep, hexValue?_upperDigit _ (Nat.mod_lt _ (by decide : 0 < 16)), hvalue,
      Nat.lt_irrefl, if_false, if_pos hvalid, Char.ofNat_toNat]
  have hmod (n : Nat) : n % 16 < 16 := Nat.mod_lt n (by decide)
  rw [scanBody_emit hmark, scanBody_emit hu, upperHex4_eq]
  simp only [List.cons_append, List.nil_append]
  rw [scanBody_digit (hmod _) (by decide), scanBody_digit (hmod _) (by decide),
    scanBody_digit (hmod _) (by decide), scanBody_emit hlast]
  simp only [Option.map_map]
  rfl

theorem toNat_lt_of_not_isShown {c : Char} (h : isShown c = false) : c.toNat < 65536 := by
  simp only [isShown, Bool.or_eq_false_iff, Bool.and_eq_false_iff, decide_eq_false_iff_not] at h
  omega

theorem quotedStep_shown {c : Char} (hq : c ≠ '"') (hb : c ≠ '\\') (hc : isShown c = true)
    (cs : List Char) : quotedStep multi .plain c cs = .emit [c] .plain := by
  simp only [quotedStep, plainStep, if_neg hq, if_neg hb, hc, if_true]

/-- However a character is written, it is read as that character. -/
theorem scanBody_escapeChar {c : Char} (hq : c ≠ '"') (cs : List Char) :
    scanBody (quotedStep multi) .plain (escapeChar multi c ++ cs) =
      (scanBody (quotedStep multi) .plain cs).map fun p => (c :: p.1, p.2) := by
  unfold escapeChar
  split
  case isTrue h => subst h; exact scanBody_letter rfl
  split
  case isTrue h => subst h; exact scanBody_letter rfl
  split
  case isTrue h =>
    subst h
    cases multi with
    | true =>
        have hbreak : quotedStep true .plain '\n' cs = .emit ['\n'] .plain := rfl
        exact scanBody_emit hbreak
    | false => exact scanBody_letter rfl
  split
  case isTrue h => subst h; exact scanBody_letter rfl
  split
  case isTrue h => subst h; exact scanBody_letter rfl
  split
  case isTrue h => subst h; exact scanBody_letter rfl
  case isFalse hb =>
  split
  case isTrue h => exact scanBody_emit (quotedStep_shown hq hb h cs)
  case isFalse h =>
    exact scanBody_number (toNat_lt_of_not_isShown (by simpa using h)) cs

theorem head_escapeChar {c : Char} (hq : c ≠ '"') (cs : List Char) :
    (escapeChar multi c ++ cs).head? ≠ some '"' := by
  have hplain : ([c] ++ cs).head? ≠ some '"' := fun h => hq (Option.some.inj h)
  have hletter (d : Char) : (['\\', d] ++ cs).head? ≠ some '"' := by simp
  unfold escapeChar
  split
  · exact hletter _
  split
  · exact hletter _
  split
  · cases multi with
    | true => simp
    | false => exact hletter _
  split
  · exact hletter _
  split
  · exact hletter _
  split
  · exact hletter _
  split
  · exact hplain
  · simp

end

/-! ## Quotes in a text over several lines -/

theorem closeMulti_eq_none {q : Char} {cs : List Char} (h : ¬ [q, q] <+: cs) :
    closeMulti q cs = none := by
  unfold closeMulti
  split
  case h_1 a b rest =>
    refine if_neg ?_
    rintro ⟨ha, hb⟩
    rw [ha, hb] at h
    exact h (List.prefix_append [q, q] rest)
  case h_2 => rfl

/-- The closing quotes, behind up to two that are text. -/
theorem closeMulti_replicate {q : Char} {n : Nat} (hn : n < 3) {rest : List Char}
    (hrest : rest.head? ≠ some q) :
    closeMulti q (List.replicate n q ++ q :: q :: rest) =
      some (.close (List.replicate n q) rest) := by
  obtain rfl | rfl | rfl : n = 0 ∨ n = 1 ∨ n = 2 := by omega
  · rcases rest with - | ⟨c, - | ⟨d, rest⟩⟩
    · simp [closeMulti]
    · have hc : c ≠ q := fun h => hrest (congrArg some h)
      simp [closeMulti, hc]
    · have hc : c ≠ q := fun h => hrest (congrArg some h)
      simp [closeMulti, hc]
  · rcases rest with - | ⟨c, rest⟩
    · simp [closeMulti]
    · have hc : c ≠ q := fun h => hrest (congrArg some h)
      simp [closeMulti, hc, List.replicate]
  · simp [closeMulti, List.replicate]

section

variable {step : StringMode → Char → List Char → StringStep} {q : Char}
  (hstep : ∀ cs, step .plain q cs = (closeMulti q cs).getD (.emit [q] .plain))

include hstep

/-- A quote that is not the first of three is text. -/
theorem scanBody_quote {cs : List Char} (h : ¬ [q, q] <+: cs) :
    scanBody step .plain (q :: cs) =
      (scanBody step .plain cs).map fun p => (q :: p.1, p.2) := by
  have hemit : step .plain q cs = .emit [q] .plain := by
    rw [hstep, closeMulti_eq_none h]
    rfl
  exact scanBody_emit hemit

/-- Up to two quotes in front of the closing three are text. -/
theorem scanBody_quotes {n : Nat} (hn : n < 3) {rest : List Char} (hrest : rest.head? ≠ some q) :
    scanBody step .plain (List.replicate n q ++ q :: q :: q :: rest) =
      some (List.replicate n q, rest) := by
  have hfront : List.replicate n q ++ q :: q :: q :: rest =
      q :: (List.replicate n q ++ q :: q :: rest) := by
    obtain rfl | rfl | rfl : n = 0 ∨ n = 1 ∨ n = 2 := by omega
    all_goals rfl
  rw [hfront]
  refine scanBody_close ?_
  rw [hstep, closeMulti_replicate hn hrest]
  rfl

end

/-- A literal text over several lines. -/
theorem scanBody_literal_lines {cs rest : List Char} (hrun : ¬ ['\'', '\'', '\''] <:+: cs)
    (hshown : ∀ c ∈ cs, isShown c = true ∨ c = '\n') (hrest : rest.head? ≠ some '\'') :
    scanBody (literalStep true) .plain (cs ++ '\'' :: '\'' :: '\'' :: rest) =
      some (cs, rest) := by
  have hstep (cs : List Char) : literalStep true .plain '\'' cs =
      (closeMulti '\'' cs).getD (.emit ['\''] .plain) := rfl
  have hend {n : Nat} (hn : n < 3) := scanBody_quotes hstep hn hrest
  induction cs with
  | nil => exact hend (n := 0) (by decide)
  | cons c cs ih =>
      have hmore := ih (fun h => hrun (h.trans (List.suffix_cons c cs).isInfix))
        fun d hd => hshown d (List.mem_cons_of_mem _ hd)
      by_cases hc : c = '\''
      · subst hc
        have htext (h : ¬ ['\'', '\''] <+: cs ++ '\'' :: '\'' :: '\'' :: rest) :
            scanBody (literalStep true) .plain ('\'' :: cs ++ '\'' :: '\'' :: '\'' :: rest) =
              some ('\'' :: cs, rest) := by
          rw [List.cons_append, scanBody_quote hstep h, hmore]
          rfl
        -- the quote is at the end of the text, or another character comes in between
        match cs with
        | [] => exact hend (n := 1) (by decide)
        | [d] =>
            by_cases hd : d = '\''
            · subst hd
              exact hend (n := 2) (by decide)
            · exact htext (by simp [List.cons_prefix_cons, Ne.symm hd])
        | d :: e :: cs =>
            refine htext fun h => hrun ?_
            obtain ⟨rfl, rfl, -⟩ : '\'' = d ∧ '\'' = e ∧ True := by
              simpa [List.cons_prefix_cons] using h
            exact (List.prefix_append ['\'', '\'', '\''] cs).isInfix
      · have hemit : literalStep true .plain c (cs ++ '\'' :: '\'' :: '\'' :: rest) =
            .emit [c] .plain := by
          rcases hshown c (List.mem_cons_self ..) with h | rfl
          · simp only [literalStep, if_neg hc, h, if_true]
          · rfl
        rw [List.cons_append, scanBody_emit hemit, hmore]
        rfl

/-- Only over several lines is a quote written as it is, and only if fewer
than two stand before it. -/
theorem head_escapeBody {multi : Bool} {c : Char} {cs more : List Char} {quotes : Nat}
    (h : ¬ (c = '"' ∧ multi = true ∧ quotes < 2)) :
    (escapeBody multi quotes (c :: cs) ++ more).head? ≠ some '"' := by
  rw [escapeBody]
  split
  case isTrue hc =>
    rw [if_neg fun hfew => h ⟨hc, hfew⟩]
    simp
  case isFalse hc =>
    rw [List.append_assoc]
    exact head_escapeChar hc _

theorem escapeBody_quote {quotes : Nat} (h : quotes < 2) (cs : List Char) :
    escapeBody true quotes ('"' :: cs) = '"' :: escapeBody true (quotes + 1) cs := by
  rw [escapeBody, if_pos rfl, if_pos ⟨rfl, h⟩]

theorem not_doubled_of_head {cs : List Char} (h : cs.head? ≠ some '"') : ¬ ['"', '"'] <+: cs := by
  rintro ⟨more, rfl⟩
  exact h rfl

/-- Of the quotes behind a quote only the first is written as it is. -/
theorem not_doubled_escapeBody (c : Char) (cs more : List Char) :
    ¬ ['"', '"'] <+: escapeBody true 1 ('"' :: c :: cs) ++ more := by
  have hnone : (escapeBody true 2 (c :: cs) ++ more).head? ≠ some '"' := head_escapeBody (by omega)
  rw [escapeBody_quote (by decide), List.cons_append, List.cons_prefix_cons]
  rintro ⟨-, rest, hrest⟩
  rw [← hrest] at hnone
  exact hnone rfl

/-- A quoted text over several lines, however many quotes stand right
before it. -/
theorem scanBody_quoted_lines (cs : List Char) (quotes : Nat) {rest : List Char}
    (hrest : rest.head? ≠ some '"') :
    scanBody (quotedStep true) .plain (escapeBody true quotes cs ++ '"' :: '"' :: '"' :: rest) =
      some (cs, rest) := by
  have hstep (cs : List Char) : quotedStep true .plain '"' cs =
      (closeMulti '"' cs).getD (.emit ['"'] .plain) := rfl
  have hend {n : Nat} (hn : n < 3) := scanBody_quotes hstep hn hrest
  induction cs generalizing quotes with
  | nil => exact hend (n := 0) (by decide)
  | cons c cs ih =>
      by_cases hc : c = '"'
      · subst hc
        by_cases hfew : quotes < 2
        · rw [escapeBody_quote hfew]
          have htext (h : ¬ ['"', '"'] <+:
              escapeBody true (quotes + 1) cs ++ '"' :: '"' :: '"' :: rest) :
              scanBody (quotedStep true) .plain
                  ('"' :: escapeBody true (quotes + 1) cs ++ '"' :: '"' :: '"' :: rest) =
                some ('"' :: cs, rest) := by
            rw [List.cons_append, scanBody_quote hstep h, ih]
            rfl
          -- the quote is at the end of the text, or what follows is no second quote
          match cs with
          | [] => exact hend (n := 1) (by decide)
          | d :: cs =>
              by_cases hd : d = '"' ∧ quotes + 1 < 2
              · obtain ⟨rfl, hzero⟩ := hd
                obtain rfl : quotes = 0 := by omega
                match cs with
                | [] => exact hend (n := 2) (by decide)
                | e :: cs => exact htext (not_doubled_escapeBody e cs _)
              · exact htext (not_doubled_of_head (head_escapeBody fun h => hd ⟨h.1, h.2.2⟩))
        · rw [escapeBody, if_pos rfl, if_neg fun h => hfew h.2, List.cons_append,
            List.cons_append, scanBody_letter rfl, ih]
          rfl
      · rw [escapeBody, if_neg hc, List.append_assoc, scanBody_escapeChar hc, ih]
        rfl

/-! ## Texts on one line -/

theorem scanBody_quoted_line (cs : List Char) (quotes : Nat) (rest : List Char) :
    scanBody (quotedStep false) .plain (escapeBody false quotes cs ++ '"' :: rest) =
      some (cs, rest) := by
  induction cs generalizing quotes with
  | nil => exact scanBody_close rfl
  | cons c cs ih =>
      rw [escapeBody]
      split
      case isTrue hc =>
        subst hc
        rw [if_neg fun h => Bool.false_ne_true h.1, List.cons_append, List.cons_append,
          scanBody_letter rfl, ih]
        rfl
      case isFalse hc =>
        rw [List.append_assoc, scanBody_escapeChar hc, ih]
        rfl

theorem scanBody_literal_line {cs : List Char} (hquote : '\'' ∉ cs)
    (hshown : ∀ c ∈ cs, isShown c = true) (rest : List Char) :
    scanBody (literalStep false) .plain (cs ++ '\'' :: rest) = some (cs, rest) := by
  induction cs with
  | nil => exact scanBody_close rfl
  | cons c cs ih =>
      rw [List.mem_cons, not_or] at hquote
      obtain ⟨hc, hcs⟩ := List.forall_mem_cons.mp hshown
      have hemit : literalStep false .plain c (cs ++ '\'' :: rest) = .emit [c] .plain := by
        simp only [literalStep, if_neg (Ne.symm hquote.1), hc, if_true]
      rw [List.cons_append, scanBody_emit hemit, ih hquote.2 hcs]
      rfl

/-! ## The forms of a string -/

/-- What follows a string is no quote of either kind. -/
def EndsString (rest : List Char) : Prop :=
  rest.head? ≠ some '"' ∧ rest.head? ≠ some '\''

section

variable {cs rest : List Char}

theorem readString?_of_line (hq : ¬ ['"', '"', '"'] <+: cs) (ha : ¬ ['\'', '\'', '\''] <+: cs) :
    readString? cs = readLineString? cs := by
  unfold readString?
  split
  · exact absurd (List.prefix_append ['"', '"', '"'] _) hq
  · exact absurd (List.prefix_append ['\'', '\'', '\''] _) ha
  · rfl

theorem readString?_quoted (h : EndsString rest) :
    readString? ('"' :: (escapeBody false 0 cs ++ '"' :: rest)) = some (cs, rest) := by
  rw [readString?_of_line, readLineString?, scanBody_quoted_line]
  · rw [List.cons_prefix_cons]
    rintro ⟨-, more, hmore⟩
    cases cs with
    | nil =>
        obtain ⟨-, hrest⟩ := List.cons.inj hmore
        exact h.1 (by rw [← hrest]; rfl)
    | cons c cs =>
        have hnone : (escapeBody false 0 (c :: cs) ++ '"' :: rest).head? ≠ some '"' :=
          head_escapeBody fun h => Bool.false_ne_true h.2.1
        rw [← hmore] at hnone
        exact hnone rfl
  · simp [List.cons_prefix_cons]

theorem readString?_literal (h : EndsString rest) (hquote : '\'' ∉ cs)
    (hshown : ∀ c ∈ cs, isShown c = true) :
    readString? ('\'' :: (cs ++ '\'' :: rest)) = some (cs, rest) := by
  rw [readString?_of_line, readLineString?, scanBody_literal_line hquote hshown]
  · simp [List.cons_prefix_cons]
  · rw [List.cons_prefix_cons]
    rintro ⟨-, more, hmore⟩
    cases cs with
    | nil =>
        obtain ⟨-, hrest⟩ := List.cons.inj hmore
        exact h.2 (by rw [← hrest]; rfl)
    | cons c cs =>
        obtain ⟨rfl, -⟩ := List.cons.inj hmore
        exact hquote (List.mem_cons_self ..)

theorem isShown_upperDigit : ∀ d < 16, isShown (upperDigit d) = true := by
  decide

/-- What is written for a character is shown as it is, a line break
apart. -/
theorem isShown_of_mem_escapeChar {multi : Bool} {c d : Char} (h : d ∈ escapeChar multi c) :
    isShown d = true ∨ d = '\n' ∧ c = '\n' := by
  have hletter {l : Char} (hl : isShown l = true) (h : d ∈ ['\\', l]) : isShown d = true := by
    rcases List.mem_cons.mp h with rfl | h
    · rfl
    · rwa [List.mem_singleton.mp h]
  unfold escapeChar at h
  split at h
  · exact Or.inl (hletter rfl h)
  split at h
  · exact Or.inl (hletter rfl h)
  split at h
  case isTrue hc =>
    cases multi with
    | true => exact Or.inr ⟨List.mem_singleton.mp h, hc⟩
    | false => exact Or.inl (hletter rfl h)
  split at h
  · exact Or.inl (hletter rfl h)
  split at h
  · exact Or.inl (hletter rfl h)
  split at h
  · exact Or.inl (hletter rfl h)
  split at h
  case isTrue hc => rw [List.mem_singleton.mp h]; exact Or.inl hc
  case isFalse =>
    refine Or.inl ?_
    have hdigit (n : Nat) := isShown_upperDigit (n % 16) (Nat.mod_lt n (by decide))
    rw [upperHex4_eq] at h
    simp only [List.mem_cons, List.not_mem_nil, or_false] at h
    rcases h with rfl | rfl | rfl | rfl | rfl | rfl
    · rfl
    · rfl
    all_goals exact hdigit _

theorem isShown_of_mem_escapeBody {multi : Bool} {quotes : Nat} {d : Char}
    (h : d ∈ escapeBody multi quotes cs) : isShown d = true ∨ d = '\n' ∧ '\n' ∈ cs := by
  induction cs generalizing quotes with
  | nil => cases h
  | cons c cs ih =>
      have hmore {quotes : Nat} (h : d ∈ escapeBody multi quotes cs) :
          isShown d = true ∨ d = '\n' ∧ '\n' ∈ c :: cs :=
        (ih h).imp_right fun h => ⟨h.1, List.mem_cons_of_mem _ h.2⟩
      rw [escapeBody] at h
      split at h
      · split at h
        · rcases List.mem_cons.mp h with rfl | h
          · exact Or.inl rfl
          · exact hmore h
        · rcases List.mem_cons.mp h with rfl | h
          · exact Or.inl rfl
          rcases List.mem_cons.mp h with rfl | h
          · exact Or.inl rfl
          · exact hmore h
      · rcases List.mem_append.mp h with h | h
        · refine (isShown_of_mem_escapeChar h).imp_right fun h => ⟨h.1, ?_⟩
          rw [h.2]
          exact List.mem_cons_self ..
        · exact hmore h

/-- The line break that may open a text over several lines is skipped. -/
theorem skipBreak_opening {body : List Char} (hne : body ≠ [])
    (h : ∀ d ∈ body, isShown d = true ∨ d = '\n' ∧ '\n' ∈ cs) :
    skipBreak ((if cs.contains '\n' then ['\n'] else []) ++ (body ++ rest)) = body ++ rest := by
  split
  case isTrue => rfl
  case isFalse hbreaks =>
    obtain ⟨d, body, rfl⟩ := List.exists_cons_of_ne_nil hne
    have hd : isShown d = true :=
      (h d (List.mem_cons_self ..)).resolve_right fun hd => hbreaks (by simpa using hd.2)
    rw [List.nil_append, List.cons_append, skipBreak.eq_def]
    split
    case h_1 heq => rw [(List.cons.inj heq).1] at hd; cases hd
    case h_2 heq => rw [(List.cons.inj heq).1] at hd; cases hd
    case h_3 => rfl

theorem readString?_quoted_lines (h : EndsString rest) :
    readString? ('"' :: '"' :: '"' :: ((if cs.contains '\n' then ['\n'] else []) ++
      (escapeBody true 0 cs ++ ['"', '"', '"'] ++ rest))) = some (cs, rest) := by
  rw [readString?, skipBreak_opening (List.append_ne_nil_of_right_ne_nil _ (List.cons_ne_nil _ _)),
    List.append_assoc]
  · exact scanBody_quoted_lines cs 0 h.1
  · intro d hd
    rcases List.mem_append.mp hd with hd | hd
    · exact isShown_of_mem_escapeBody hd
    · rw [List.eq_of_mem_replicate (n := 3) hd]
      exact Or.inl rfl

theorem readString?_literal_lines (h : EndsString rest) (hrun : ¬ ['\'', '\'', '\''] <:+: cs)
    (hshown : ∀ c ∈ cs, isShown c = true ∨ c = '\n') :
    readString? ('\'' :: '\'' :: '\'' :: ((if cs.contains '\n' then ['\n'] else []) ++
      (cs ++ ['\'', '\'', '\''] ++ rest))) = some (cs, rest) := by
  rw [readString?, skipBreak_opening (List.append_ne_nil_of_right_ne_nil _ (List.cons_ne_nil _ _)),
    List.append_assoc]
  · exact scanBody_literal_lines hrun hshown h.2
  · intro d hd
    rcases List.mem_append.mp hd with hd | hd
    · refine (hshown d hd).imp_right fun hbreak => ⟨hbreak, ?_⟩
      rwa [← hbreak]
    · rw [List.eq_of_mem_replicate (n := 3) hd]
      exact Or.inl rfl

end

/-! ## Runs -/

section

variable (x : Char)

/-- The run so far and the longest one, with one character more. -/
def runStep : Nat × Nat → Char → Nat × Nat := fun (current, best) c =>
  if c = x then (current + 1, max best (current + 1)) else (0, best)

theorem longestRun_eq (cs : List Char) : longestRun x cs = (cs.foldl (runStep x) (0, 0)).2 := rfl

variable {x}

theorem le_foldl_runStep (cs : List Char) (state : Nat × Nat) :
    state.2 ≤ (cs.foldl (runStep x) state).2 := by
  induction cs generalizing state with
  | nil => exact le_rfl
  | cons c cs ih =>
      refine Nat.le_trans ?_ (ih _)
      show state.2 ≤ (if c = x then (state.1 + 1, max state.2 (state.1 + 1)) else (0, state.2)).2
      split
      · exact Nat.le_max_left ..
      · exact le_rfl

theorem add_le_foldl_runStep {n : Nat} (hn : 0 < n) (cs : List Char) (state : Nat × Nat) :
    state.1 + n ≤ ((List.replicate n x ++ cs).foldl (runStep x) state).2 := by
  induction n generalizing state with
  | zero => exact absurd hn (Nat.lt_irrefl 0)
  | succ n ih =>
      have hstep : runStep x state x = (state.1 + 1, max state.2 (state.1 + 1)) := if_pos rfl
      rw [List.replicate_succ, List.cons_append, List.foldl_cons, hstep]
      rcases Nat.eq_zero_or_pos n with rfl | hpos
      · rw [List.replicate_zero, List.nil_append]
        exact Nat.le_trans (Nat.le_max_right ..)
          (le_foldl_runStep cs (state.1 + 1, max state.2 (state.1 + 1)))
      · have := ih hpos (state.1 + 1, max state.2 (state.1 + 1))
        omega

theorem le_longestRun {n : Nat} (hn : 0 < n) {cs : List Char}
    (h : List.replicate n x <:+: cs) : n ≤ longestRun x cs := by
  obtain ⟨front, back, rfl⟩ := h
  rw [longestRun_eq, List.append_assoc, List.foldl_append]
  exact Nat.le_trans (Nat.le_add_left ..) (add_le_foldl_runStep hn back _)

theorem notMem_of_longestRun_eq_zero {cs : List Char} (h : longestRun x cs = 0) : x ∉ cs := by
  intro hmem
  obtain ⟨front, back, hcs⟩ := List.append_of_mem hmem
  have hrun : List.replicate 1 x <:+: cs := ⟨front, back, by simp [hcs]⟩
  have := le_longestRun Nat.one_pos hrun
  omega

end

theorem shown_of_no_controls {cs : List Char}
    (h : (cs.any fun c => c ≠ '\n' && !isShown c) = false) :
    ∀ c ∈ cs, isShown c = true ∨ c = '\n' := by
  intro c hc
  have := List.any_eq_false.mp h c hc
  by_cases hbreak : c = '\n'
  · exact Or.inr hbreak
  · exact Or.inl (by simpa [hbreak] using this)

theorem readString?_writeString (cs : List Char) {rest : List Char} (h : EndsString rest) :
    readString? (writeString cs ++ rest) = some (cs, rest) := by
  have hquoted :
      readString? ('"' :: (escapeBody false 0 cs ++ ['"']) ++ rest) = some (cs, rest) := by
    simpa using readString?_quoted h
  have hlines : readString? (['"', '"', '"'] ++ (if cs.contains '\n' then ['\n'] else []) ++
      escapeBody true 0 cs ++ ['"', '"', '"'] ++ rest) = some (cs, rest) := by
    simpa using readString?_quoted_lines h
  unfold writeString
  dsimp only
  split
  · exact hquoted
  split
  case isTrue hform =>
    obtain ⟨⟨hcontrols, hquote⟩, hbreaks⟩ : (_ ∧ _) ∧ _ := by
      simpa only [Bool.and_eq_true, decide_eq_true_eq, Bool.not_eq_true'] using hform
    have hshown : ∀ c ∈ cs, isShown c = true := by
      intro c hc
      refine (shown_of_no_controls hcontrols c hc).resolve_right ?_
      rintro rfl
      rw [List.contains_iff_mem.mpr hc] at hbreaks
      cases hbreaks
    simpa using readString?_literal h (notMem_of_longestRun_eq_zero hquote) hshown
  split
  · exact hlines
  split
  case isTrue hform =>
    obtain ⟨hcontrols, hfew⟩ : _ ∧ _ := by
      simpa only [Bool.and_eq_true, decide_eq_true_eq, Bool.not_eq_true'] using hform
    have hrun : ¬ ['\'', '\'', '\''] <:+: cs := by
      intro hinfix
      have := le_longestRun (n := 3) (by decide) hinfix
      omega
    simpa using readString?_literal_lines h hrun (shown_of_no_controls hcontrols)
  split
  case isTrue hbreaks =>
    rw [if_pos hbreaks] at hlines
    exact hlines
  case isFalse => exact hquoted

end LoxScan.Toml
