import LoxScan.Proofs.Binary64.Digits
import LoxScan.Proofs.Text.JsonReader
import LoxScan.Proofs.Text.Runs

/-!
# What is written reads back

Each form of JSON text that this library writes, met by the reader: a
quoted text is read as that text, whatever it holds (`string?_quote`),
digits as their number, and members between commas one by one
(`items?_intercalate`). Every statement has the text that follows in it,
since a reader must stop by itself.
-/

namespace LoxScan.Text.Json

/-! ## Strings -/

theorem hexDigit?_digitChar : ∀ d < 16, hexDigit? (Nat.digitChar d) = some d := by
  decide +kernel

theorem hex?_hex4 {n : Nat} (h : n < 65536) : hex? (hex4 n) = some n := by
  have hdigit (k : Nat) : hexDigit? (Nat.digitChar (k % 16)) = some (k % 16) :=
    hexDigit?_digitChar _ (Nat.mod_lt _ (by decide))
  simp only [hex?, hex4, List.foldlM_cons, List.foldlM_nil, hdigit, Option.map_some,
    Option.bind_eq_bind, Option.bind_some]
  exact congrArg some (by omega)

/-- A character that stands for itself. -/
theorem units?_plain {c : Char} (hq : c ≠ '"') (hb : c ≠ '\\') (hc : 0x20 ≤ c.toNat)
    (cs : List Char) :
    units? (c :: cs) = (units? cs).map fun p => (c.toNat :: p.1, p.2) := by
  rw [units?, if_neg (Nat.not_lt.mpr hc)]
  · cases units? cs <;> rfl
  · exact hq
  · exact fun _ _ _ _ _ h _ => hb h
  · exact fun _ _ h _ => hb h

/-- A character that is written as a letter behind a backslash. -/
theorem units?_letter {c d : Char} (h : unescape? c = some d) (cs : List Char) :
    units? ('\\' :: c :: cs) = (units? cs).map fun p => (d.toNat :: p.1, p.2) := by
  have hu : c ≠ 'u' := by
    rintro rfl
    cases h
  rw [units?, h]
  · cases units? cs <;> rfl
  · exact fun _ _ _ _ _ hc _ => hu hc

/-- A character that is written as its number. -/
theorem units?_hex4 {n : Nat} (h : n < 65536) (cs : List Char) :
    units? ('\\' :: 'u' :: (hex4 n ++ cs)) = (units? cs).map fun p => (n :: p.1, p.2) := by
  have hhex := hex?_hex4 h
  rw [hex4] at hhex
  simp only [hex4, List.cons_append, List.nil_append]
  rw [units?, hhex]
  cases units? cs <;> rfl

/-- However a character is written, it is read as that character. -/
theorem units?_escape (c : Char) (cs : List Char) :
    units? (escape c ++ cs) = (units? cs).map fun p => (c.toNat :: p.1, p.2) := by
  unfold escape
  split
  case isTrue h => subst h; exact units?_letter rfl cs
  case isFalse hq =>
    split
    case isTrue h => subst h; exact units?_letter rfl cs
    case isFalse hb =>
      split
      case isTrue h => exact units?_plain hq hb h cs
      case isFalse h =>
        split
        case isTrue h => subst h; exact units?_letter rfl cs
        split
        case isTrue h => subst h; exact units?_letter rfl cs
        split
        case isTrue h => subst h; exact units?_letter rfl cs
        split
        case isTrue h => subst h; exact units?_letter rfl cs
        split
        case isTrue h => subst h; exact units?_letter rfl cs
        case isFalse => exact units?_hex4 (by omega) cs

theorem units?_flatMap_escape (cs rest : List Char) :
    units? (cs.flatMap escape ++ '"' :: rest) = some (cs.map Char.toNat, rest) := by
  induction cs with
  | nil => rfl
  | cons c cs ih =>
      rw [List.flatMap_cons, List.append_assoc, units?_escape, ih]
      rfl

/-- A character is never half of one. -/
theorem characters?_map_toNat (cs : List Char) : characters? (cs.map Char.toNat) = some cs := by
  induction cs with
  | nil => rfl
  | cons c cs ih =>
      have hc : c.toNat < 0xD800 ∨ 0xE000 ≤ c.toNat := c.valid.imp id And.left
      rw [List.map_cons, characters?.eq_def]
      simp only [hc, ↓reduceIte, ih, Option.map_some, Char.ofNat_toNat]

theorem string?_quote (cs rest : List Char) :
    string? (cs.flatMap escape ++ '"' :: rest) = some (String.ofList cs, rest) := by
  rw [string?, units?_flatMap_escape]
  show (characters? (cs.map Char.toNat)).bind _ = _
  rw [characters?_map_toNat]
  rfl

/-! ## Numbers -/

theorem digits?_run {ds rest : List Char} (h : Digits ds)
    (hrest : ∀ c ∈ rest.head?, c.isDigit = false) : digits? (ds ++ rest) = some (ds, rest) := by
  rw [digits?, takeWhile_run h.isDigit hrest, dropWhile_run h.isDigit hrest, if_neg h.ne_nil]

/-- A number ends where none of its characters follows. -/
def EndsNumber (rest : List Char) : Prop :=
  ∀ c ∈ rest.head?, c.isDigit = false ∧ c ≠ '.' ∧ c ≠ 'e' ∧ c ≠ 'E'

theorem fraction?_none {rest : List Char} (h : ∀ c ∈ rest.head?, c ≠ '.') :
    fraction? rest = some ([], rest) := by
  cases rest with
  | nil => rfl
  | cons c rest =>
      rw [fraction?]
      exact fun _ hc => h c rfl (List.cons.inj hc).1

theorem exponent?_none {rest : List Char} (h : ∀ c ∈ rest.head?, c ≠ 'e' ∧ c ≠ 'E') :
    exponent? rest = some (0, rest) := by
  cases rest with
  | nil => rfl
  | cons c rest =>
      rw [exponent?]
      · exact fun _ hc => (h c rfl).1 (List.cons.inj hc).1
      · exact fun _ hc => (h c rfl).2 (List.cons.inj hc).1

/-- The exponent that a mark and digits stand for. -/
def powerOf (mark : Char) (ds : List Char) : Int :=
  if mark = '-' then -(Nat.ofDigitChars 10 ds 0 : Int) else Nat.ofDigitChars 10 ds 0

theorem exponent?_mark {mark : Char} {ds rest : List Char} (hmark : mark = '-' ∨ mark = '+')
    (h : Digits ds) (hrest : ∀ c ∈ rest.head?, c.isDigit = false) :
    exponent? ('e' :: mark :: (ds ++ rest)) = some (powerOf mark ds, rest) := by
  rcases hmark with rfl | rfl
  · rw [exponent?, power?, digits?_run h hrest]
    rfl
  · rw [exponent?, power?, digits?_run h hrest]
    rfl

/-- The three parts of a number, each read where the one before ends. -/
theorem unsigned?_of_parts (negative : Bool) {whole behind fraction behind' rest : List Char}
    {e : Int} (hw : Digits whole) (hlow : whole.head? = some '0' → whole = ['0'])
    (hstop : ∀ c ∈ behind.head?, c.isDigit = false)
    (hf : fraction? behind = some (fraction, behind'))
    (he : exponent? behind' = some (e, rest)) :
    unsigned? negative (whole ++ behind) =
      some (⟨negative, Nat.ofDigitChars 10 (whole ++ fraction) 0, e - fraction.length⟩, rest) := by
  have hzero : ¬ (whole.head? = some '0' ∧ whole ≠ ['0']) := fun h => h.2 (hlow h.1)
  rw [unsigned?, digits?_run hw hstop]
  simp only [Option.bind_eq_bind, Option.bind_some, hzero, ↓reduceIte, hf, he]
  rfl

theorem number?_of_unsigned {sign cs rest : List Char} {c : Char} {n : Bool → Number}
    (hc : c.isDigit = true) (hsign : sign = [] ∨ sign = ['-'])
    (h : ∀ negative, unsigned? negative (c :: cs) = some (n negative, rest)) :
    number? (sign ++ c :: cs) = some (n (sign != []), rest) := by
  rcases hsign with rfl | rfl
  · have hminus : c ≠ '-' := by
      rintro rfl
      cases hc
    rw [List.nil_append, number?, h]
    · rfl
    · exact fun _ hc => hminus (List.cons.inj hc).1
  · exact h true

/-- The number is the decimal, with zeros behind its digits perhaps. -/
def Number.Writes (n : Number) (d : Decimal) : Prop :=
  ∃ zeros : Nat, n.significand = 10 ^ zeros * Nat.ofDigitChars 10 d.digits 0
    ∧ n.exponent + zeros = d.point - d.digits.length

theorem writes_pointed (negative : Bool) (d : Decimal) :
    Number.Writes ⟨negative, Nat.ofDigitChars 10 (d.whole ++ d.fraction) 0, 0 - d.fraction.length⟩
      d := by
  obtain ⟨back, hdigits, hpoint⟩ := d.exists_ofDigitChars
  refine ⟨back, hdigits, ?_⟩
  dsimp only
  omega

theorem powerOf_power (d : Decimal) : powerOf d.power.1 d.power.2 = d.point - 1 := by
  unfold powerOf Decimal.power
  rw [Nat.ofDigitChars_ten_toDigits]
  by_cases h : d.point - 1 < 0
  · rw [if_pos h, if_pos rfl]
    omega
  · have hmark : '+' ≠ '-' := by decide
    rw [if_neg h, if_neg hmark]
    omega

theorem writes_exponential (negative : Bool) {d : Decimal} {digit : Char} {fraction : List Char}
    (hds : d.digits = digit :: fraction) :
    Number.Writes ⟨negative, Nat.ofDigitChars 10 ([digit] ++ fraction) 0,
      powerOf d.power.1 d.power.2 - fraction.length⟩ d := by
  refine ⟨0, ?_, ?_⟩
  · rw [hds, Nat.pow_zero, Nat.one_mul, List.singleton_append]
  · rw [hds, powerOf_power, List.length_cons]
    push_cast
    omega

theorem number?_json {x : Binary64} {text : List Char} (h : x.json? = some text) :
    ∃ n : Number, n.negative = x.isNegative ∧ n.Writes (x.shortest .toEven)
      ∧ ∀ rest, EndsNumber rest → number? (text ++ rest) = some (n, rest) := by
  obtain ⟨sign, body, rfl, hsign, hbody⟩ := Binary64.shape_of_json? h
  obtain ⟨hform, hnegative⟩ : (sign = [] ∨ sign = ['-']) ∧ (sign != []) = x.isNegative := by
    rw [hsign]
    cases x.isNegative
    · exact ⟨Or.inl rfl, rfl⟩
    · exact ⟨Or.inr rfl, rfl⟩
  generalize x.shortest .toEven = d at hbody ⊢
  -- with a point and digits on both sides of it, or with an exponent
  rcases hbody with hp | ⟨digit, fraction, hds, hp⟩
  · refine ⟨_, hnegative, writes_pointed _ d, fun rest hrest => ?_⟩
    obtain ⟨c, cs, hwhole⟩ := List.exists_cons_of_ne_nil hp.front.ne_nil
    have hf : fraction? ('.' :: (d.fraction ++ rest)) = some (d.fraction, rest) :=
      digits?_run hp.back fun c hc => (hrest c hc).1
    have he := exponent?_none fun c hc => (hrest c hc).2.2
    have hread (negative : Bool) :=
      unsigned?_of_parts negative hp.front hp.lowest (by simp) hf he
    rw [List.append_assoc, hp.eq, List.append_assoc]
    rw [hwhole] at hread ⊢
    have hc : c.isDigit = true :=
      hp.front.isDigit c (by rw [hwhole]; exact List.mem_cons_self ..)
    exact number?_of_unsigned hc hform hread
  · have hone : Digits [digit] := ⟨by simp, by simpa using hp.front⟩
    refine ⟨_, hnegative, writes_exponential _ hds, fun rest hrest => ?_⟩
    have he := exponent?_mark hp.mark hp.power fun c hc => (hrest c hc).1
    have hf : fraction? ((if fraction = [] then [] else '.' :: fraction) ++
        'e' :: d.power.1 :: (d.power.2 ++ rest)) =
          some (fraction, 'e' :: d.power.1 :: (d.power.2 ++ rest)) := by
      -- without a fraction the mark of the exponent is what stops the digit
      split
      case isTrue hnil => rw [hnil]; exact fraction?_none (by simp)
      case isFalse hne => exact digits?_run ⟨hne, hp.back⟩ (by simp)
    rw [List.append_assoc, hp.eq, List.append_assoc, List.cons_append]
    refine number?_of_unsigned hp.front hform fun negative =>
      unsigned?_of_parts negative hone (by simp) ?_ hf he
    split <;> simp

theorem number?_toDigits (n : Nat) {rest : List Char} (hrest : EndsNumber rest) :
    number? (Nat.toDigits 10 n ++ rest) = some (⟨false, n, 0⟩, rest) := by
  have hds := digits_toDigits n
  have hread := unsigned?_of_parts false hds (lowest_toDigits n)
    (fun c hc => (hrest c hc).1) (fraction?_none fun c hc => (hrest c hc).2.1)
    (exponent?_none fun c hc => (hrest c hc).2.2)
  rw [List.append_nil, Nat.ofDigitChars_ten_toDigits] at hread
  obtain ⟨c, cs, hcs⟩ := List.exists_cons_of_ne_nil hds.ne_nil
  have hminus : c ≠ '-' := by
    rintro rfl
    have := hds.isDigit '-' (by rw [hcs]; exact List.mem_cons_self ..)
    cases this
  rw [hcs, List.cons_append] at hread ⊢
  rw [number?]
  · exact hread
  · exact fun _ hc => hminus (List.cons.inj hc).1

/-! ## Values -/

theorem skip_cons {c : Char} (h : c ≠ ' ' ∧ c ≠ '\t' ∧ c ≠ '\n' ∧ c ≠ '\r') (cs : List Char) :
    skip (c :: cs) = c :: cs := by
  simp [skip, h]

theorem quote_append (cs rest : List Char) :
    quote cs ++ rest = '"' :: (cs.flatMap escape ++ '"' :: rest) := by
  simp [quote]

theorem value?_quote (depth : Nat) (cs rest : List Char) :
    value? (depth + 1) (quote cs ++ rest) = some (.string (String.ofList cs), rest) := by
  rw [quote_append, value?, skip_cons (by decide)]
  simp only [string?_quote, Option.map_some]

theorem value?_null (depth : Nat) (rest : List Char) :
    value? (depth + 1) ("null".toList ++ rest) = some (.null, rest) := rfl

theorem digits?_ne_none {cs : List Char} (h : digits? cs ≠ none) :
    ∃ c rest, cs = c :: rest ∧ c.isDigit = true := by
  cases cs with
  | nil => exact absurd rfl h
  | cons c rest =>
      refine ⟨c, rest, rfl, ?_⟩
      cases hc : c.isDigit with
      | true => rfl
      | false => simp [digits?, hc] at h

/-- A number starts with its sign or a digit. -/
theorem head_of_number? {cs : List Char} (h : number? cs ≠ none) :
    ∃ c rest, cs = c :: rest ∧ (c = '-' ∨ c.isDigit = true) := by
  unfold number? at h
  split at h
  · exact ⟨'-', _, rfl, Or.inl rfl⟩
  · have hdigits : digits? cs ≠ none := by
      intro hnone
      rw [unsigned?, hnone] at h
      exact h rfl
    obtain ⟨c, rest, hcs, hc⟩ := digits?_ne_none hdigits
    exact ⟨c, rest, hcs, Or.inr hc⟩

theorem value?_number {depth : Nat} {cs rest : List Char} {n : Number}
    (h : number? cs = some (n, rest)) : value? (depth + 1) cs = some (.number n, rest) := by
  obtain ⟨c, cs, rfl, hc⟩ := head_of_number? (by rw [h]; exact Option.some_ne_none _)
  have hne : ∀ d ∈ ['n', 't', 'f', '"', '[', '{', ' ', '\t', '\n', '\r'], c ≠ d := by
    have hother : ∀ d ∈ ['n', 't', 'f', '"', '[', '{', ' ', '\t', '\n', '\r'],
        ¬ (d = '-' ∨ d.isDigit = true) := by simp [Char.isDigit]
    rintro d hd rfl
    exact hother c hd hc
  rw [value?, skip_cons (by simp_all)]
  split
  case h_7 => rw [h]; rfl
  all_goals
    rename_i heq
    exact absurd (List.cons.inj heq).1 (hne _ (by decide))

theorem member?_quote {value? : List Char → Option (Value × List Char)} {text rest : List Char}
    {value : Value} (h : value? (text ++ rest) = some (value, rest)) (name : List Char) :
    member? value? (quote name ++ ':' :: (text ++ rest)) =
      some ((String.ofList name, value), rest) := by
  rw [quote_append, member?, skip_cons (by decide)]
  simp only [string?_quote, Option.bind_eq_bind, Option.bind_some]
  rw [skip_cons (by decide)]
  simp only [h, Option.bind_some]
  rfl

/-! ## Items between commas -/

/-- The text is read as the item, whichever of the two ends follows. -/
def Reads {α : Type} (item? : List Char → Option (α × List Char)) (close : Char)
    (text : List Char) (item : α) : Prop :=
  ∀ c rest, c = ',' ∨ c = close → item? (text ++ c :: rest) = some (item, c :: rest)

theorem length_le_intercalate (text : List Char) (texts : List (List Char)) :
    texts.length ≤ (List.intercalate [','] (text :: texts)).length := by
  induction texts generalizing text with
  | nil => exact Nat.zero_le _
  | cons next texts ih =>
      have := ih next
      rw [List.intercalate_cons_cons, List.length_append, List.length_append, List.length_cons,
        List.length_singleton]
      omega

section

variable {α β : Type} {item? : List Char → Option (α × List Char)} {close : Char}
  {text : β → List Char} {item : β → α}

theorem items?_intercalate (hclose : close ≠ ' ' ∧ close ≠ '\t' ∧ close ≠ '\n' ∧ close ≠ '\r')
    (hcomma : close ≠ ',') {x : β} {xs : List β}
    (h : ∀ y ∈ x :: xs, Reads item? close (text y) (item y)) {n : Nat} (hn : xs.length < n)
    (rest : List Char) :
    items? item? close n (List.intercalate [','] ((x :: xs).map text) ++ close :: rest) =
      some ((x :: xs).map item, rest) := by
  induction xs generalizing x n with
  | nil =>
      have hitem := h x (List.mem_cons_self ..) close rest (Or.inr rfl)
      cases n with
      | zero => exact absurd hn (Nat.not_lt_zero _)
      | succ n =>
          rw [List.map_singleton, List.intercalate_singleton, items?, hitem]
          simp only [Option.bind_eq_bind, Option.bind_some, skip_cons hclose, ↓reduceIte]
          rfl
  | cons y xs ih =>
      cases n with
      | zero => exact absurd hn (Nat.not_lt_zero _)
      | succ n =>
          have hrest := ih (fun z hz => h z (List.mem_cons_of_mem _ hz))
            (Nat.lt_of_succ_lt_succ hn)
          have hitem := h x (List.mem_cons_self ..) ','
            (List.intercalate [','] ((y :: xs).map text) ++ close :: rest) (Or.inl rfl)
          have hskip := skip_cons (c := ',') (by decide)
            (List.intercalate [','] ((y :: xs).map text) ++ close :: rest)
          rw [List.map_cons, List.map_cons, List.intercalate_cons_cons, ← List.map_cons,
            List.append_assoc, List.append_assoc, List.singleton_append, items?, hitem]
          simp only [Option.bind_eq_bind, Option.bind_some, hskip, if_neg hcomma.symm, hrest,
            ↓reduceIte]
          rfl

/-- Every item has a character to count it by. -/
theorem list?_intercalate (hclose : close ≠ ' ' ∧ close ≠ '\t' ∧ close ≠ '\n' ∧ close ≠ '\r')
    (hcomma : close ≠ ',') {x : β} {xs : List β}
    (h : ∀ y ∈ x :: xs, Reads item? close (text y) (item y)) {c : Char} {cs : List Char}
    (hx : text x = c :: cs) (hskip : ∀ cs, skip (c :: cs) = c :: cs) (hc : c ≠ close)
    (rest : List Char) :
    list? item? close (List.intercalate [','] ((x :: xs).map text) ++ close :: rest) =
      some ((x :: xs).map item, rest) := by
  have hlength := length_le_intercalate (text x) (xs.map text)
  rw [List.length_map, ← List.map_cons] at hlength
  obtain ⟨cs', hcs'⟩ : ∃ cs', List.intercalate [','] ((x :: xs).map text) = c :: cs' := by
    cases xs with
    | nil => exact ⟨cs, by rw [List.map_singleton, List.intercalate_singleton, hx]⟩
    | cons y xs =>
        exact ⟨_, by rw [List.map_cons, List.map_cons, List.intercalate_cons_cons, hx,
          List.append_assoc, List.cons_append]⟩
  have hitems := items?_intercalate hclose hcomma h
    (n := (List.intercalate [','] ((x :: xs).map text) ++ close :: rest).length)
    (by rw [List.length_append, List.length_cons]; omega) rest
  rw [hcs', List.cons_append] at hitems ⊢
  rw [list?, hskip]
  simp only [if_neg hc, hitems]

end

/-- A member of an object: its name, its text and the value of that. -/
structure Member where
  name : String
  text : List Char
  value : Value

namespace Member

def written (m : Member) : List Char := quote m.name.toList ++ ':' :: m.text

theorem reads_written {depth : Nat} {m : Member}
    (h : Reads (value? depth) '}' m.text m.value) :
    Reads (member? (value? depth)) '}' m.written (m.name, m.value) := by
  intro c rest hc
  have hmember := member?_quote (h c rest hc) m.name.toList
  rw [String.ofList_toList] at hmember
  rw [written, List.append_assoc, List.cons_append]
  exact hmember

end Member

theorem value?_object {depth : Nat} {m : Member} {ms : List Member}
    (h : ∀ q ∈ m :: ms, Reads (value? depth) '}' q.text q.value) (rest : List Char) :
    value? (depth + 1)
        ('{' :: (List.intercalate [','] ((m :: ms).map Member.written) ++ '}' :: rest)) =
      some (.object ((m :: ms).map fun q => (q.name, q.value)), rest) := by
  have hlist : list? (member? (value? depth)) '}'
      (List.intercalate [','] ((m :: ms).map Member.written) ++ '}' :: rest) =
        some ((m :: ms).map fun q => (q.name, q.value), rest) :=
    list?_intercalate (by decide) (by decide) (fun q hq => Member.reads_written (h q hq)) rfl
      (skip_cons (by decide)) (by decide) rest
  rw [value?, skip_cons (by decide)]
  simp only [hlist, Option.map_some]

/-! ## Control characters -/

/-- No control character below the space. -/
def Visible (cs : List Char) : Prop := ∀ c ∈ cs, 0x20 ≤ c.toNat

theorem visible_cons {c : Char} {cs : List Char} :
    Visible (c :: cs) ↔ 0x20 ≤ c.toNat ∧ Visible cs := List.forall_mem_cons

theorem visible_append {as bs : List Char} : Visible (as ++ bs) ↔ Visible as ∧ Visible bs :=
  List.forall_mem_append

theorem visible_of_isDigit {ds : List Char} (h : ∀ c ∈ ds, c.isDigit = true) : Visible ds := by
  intro c hc
  have := h c hc
  simp only [Char.isDigit, Bool.and_eq_true, decide_eq_true_eq, ge_iff_le,
    UInt32.le_iff_toNat_le] at this
  exact Nat.le_trans (by decide) this.1

theorem visible_escape (c : Char) : Visible (escape c) := by
  unfold escape Visible
  split
  · simp
  split
  · simp
  split
  case isTrue h => simpa using h
  iterate 5
    split
    · simp
  have hdigit (n : Nat) : 0x20 ≤ (Nat.digitChar (n % 16)).toNat := by
    have : ∀ d < 16, 0x20 ≤ (Nat.digitChar d).toNat := by decide
    exact this _ (Nat.mod_lt _ (by decide))
  simp [hex4, hdigit]

/-- Whatever is quoted, its control characters are escaped. -/
theorem visible_quote (cs : List Char) : Visible (quote cs) := by
  rw [quote, visible_cons, visible_append]
  refine ⟨by decide, fun d hd => ?_, by simp [Visible]⟩
  obtain ⟨c, -, hd⟩ := List.mem_flatMap.mp hd
  exact visible_escape c d hd

theorem visible_json? {x : Binary64} {text : List Char} (h : x.json? = some text) :
    Visible text := by
  obtain ⟨sign, body, rfl, hsign, hbody⟩ := Binary64.shape_of_json? h
  refine visible_append.mpr ⟨?_, ?_⟩
  · rw [hsign]
    split <;> simp [Visible]
  rcases hbody with hp | ⟨digit, fraction, -, hp⟩
  · rw [hp.eq, visible_append, visible_cons]
    exact ⟨visible_of_isDigit hp.front.isDigit, by decide, visible_of_isDigit hp.back.isDigit⟩
  · have hmark : 0x20 ≤ (x.shortest .toEven).power.1.toNat := by
      rcases hp.mark with hmark | hmark <;> rw [hmark] <;> decide
    have hdigit : 0x20 ≤ digit.toNat :=
      visible_of_isDigit (List.forall_mem_singleton.mpr hp.front) digit (List.mem_singleton_self _)
    rw [hp.eq, visible_append, visible_cons, visible_cons, visible_cons]
    refine ⟨⟨hdigit, ?_⟩, by decide, hmark, visible_of_isDigit hp.power.isDigit⟩
    split
    · simp [Visible]
    · exact visible_cons.mpr ⟨by decide, visible_of_isDigit hp.back⟩

theorem visible_intercalate {texts : List (List Char)} (h : ∀ text ∈ texts, Visible text) :
    Visible (List.intercalate [','] texts) := by
  induction texts with
  | nil => simp [Visible]
  | cons text texts ih =>
      obtain ⟨htext, htexts⟩ := List.forall_mem_cons.mp h
      cases texts with
      | nil => rwa [List.intercalate_singleton]
      | cons next texts =>
          rw [List.intercalate_cons_cons, visible_append, visible_append]
          exact ⟨⟨htext, by simp [Visible]⟩, ih htexts⟩

theorem visible_object {ms : List Member} (h : ∀ m ∈ ms, Visible m.text) :
    Visible ('{' :: (List.intercalate [','] (ms.map Member.written) ++ ['}'])) := by
  have hmembers : Visible (List.intercalate [','] (ms.map Member.written)) := by
    refine visible_intercalate fun text htext => ?_
    obtain ⟨m, hm, rfl⟩ := List.mem_map.mp htext
    rw [Member.written, visible_append, visible_cons]
    exact ⟨visible_quote _, by decide, h m hm⟩
  rw [visible_cons, visible_append]
  exact ⟨by decide, hmembers, by simp [Visible]⟩

end LoxScan.Text.Json
