import Mathlib.Data.List.Basic
import LoxScan.Proofs.Binary64.Digits
import LoxScan.Proofs.Text.Runs
import LoxScan.Proofs.Toml.Strings
import LoxScan.Toml.Document

/-!
# Documents read back

A document of lines, each a key without quotes and a value, is read as
the entries that the lines say. It is enough to know of a value that it
is read as itself in front of a line feed (`Item.Written`); where its
entry goes is settled by the header above it.
-/

namespace LoxScan.Toml

/-! ## Integers -/

section

variable {ds : List Char}

theorem isNumberPart_of_isDigit {c : Char} (h : c.isDigit = true) : isNumberPart c = true := by
  have h : isDecimalDigit c = true := h
  simp [isNumberPart, h]

theorem ne_of_isDigit {c d : Char} (h : c.isDigit = true) (hd : d.isDigit = false) : c ≠ d := by
  rintro rfl
  rw [h] at hd
  cases hd

theorem ungroup_digits (h : Digits ds) : ungroup isDecimalDigit ds = some ds := by
  obtain ⟨hne, hdigit⟩ := h
  induction ds with
  | nil => exact absurd rfl hne
  | cons c cs ih =>
      obtain ⟨hc, hcs⟩ := List.forall_mem_cons.mp hdigit
      have hc : isDecimalDigit c = true := hc
      match cs with
      | [] => rw [ungroup, if_pos hc]
      | d :: cs =>
          have hd : d ≠ '_' := ne_of_isDigit (hcs d (List.mem_cons_self ..)) rfl
          rw [ungroup, if_pos hc, ih (List.cons_ne_nil _ _) hcs]
          · rfl
          · simp
          · rintro _ h
            exact hd (List.cons.inj h).1

theorem baseValue_digits (h : Digits ds) : baseValue 10 ds = Nat.ofDigitChars 10 ds 0 := by
  rw [Nat.ofDigitChars_eq_foldl, baseValue]
  refine List.foldl_ext _ _ _ fun n c hc => ?_
  have hle : c ≤ '9' := by
    have := h.isDigit c hc
    simp only [Char.isDigit, Bool.and_eq_true, decide_eq_true_eq] at this
    exact this.2
  rw [digitValue, if_pos hle]

theorem cutSign_digits (h : Digits ds) : cutSign ds = (false, ds) := by
  unfold cutSign
  split
  · exact absurd (h.isDigit '-' (List.mem_cons_self ..)) (by decide)
  · exact absurd (h.isDigit '+' (List.mem_cons_self ..)) (by decide)
  · rfl

theorem decimalDigits?_digits (h : Digits ds) (hlow : ds.head? = some '0' → ds = ['0']) :
    decimalDigits? ds = some ds := by
  unfold decimalDigits?
  split
  · cases hlow rfl
  · exact ungroup_digits h

theorem readInteger?_digits (h : Digits ds) (hlow : ds.head? = some '0' → ds = ['0']) :
    readInteger? ds = integerOf? false (Nat.ofDigitChars 10 ds 0) := by
  unfold readInteger?
  split
  · cases hlow rfl
  · cases hlow rfl
  · cases hlow rfl
  · rw [cutSign_digits h]
    dsimp only
    rw [decimalDigits?_digits h hlow, Option.bind_some, baseValue_digits h]

/-- Digits alone are no float: there is no point and no exponent. -/
theorem readFloat?_digits (h : Digits ds) : readFloat? ds = none := by
  have hmark : ∀ c ∈ ds, (!(c == '.' || c == 'e' || c == 'E')) = true := by
    intro c hc
    have hdigit := h.isDigit c hc
    simp [ne_of_isDigit hdigit (d := '.') rfl, ne_of_isDigit hdigit (d := 'e') rfl,
      ne_of_isDigit hdigit (d := 'E') rfl]
  have hinf : ds ≠ ['i', 'n', 'f'] := by
    rintro rfl
    exact absurd (h.isDigit 'i' (List.mem_cons_self ..)) (by decide)
  have hnan : ds ≠ ['n', 'a', 'n'] := by
    rintro rfl
    exact absurd (h.isDigit 'n' (List.mem_cons_self ..)) (by decide)
  have hdrop : ds.dropWhile (fun c => !(c == '.' || c == 'e' || c == 'E')) = [] :=
    List.dropWhile_eq_nil_iff.mpr hmark
  unfold readFloat?
  rw [cutSign_digits h]
  simp only [hinf, hnan, if_false, hdrop]
  cases decimalDigits? (ds.takeWhile fun c => !(c == '.' || c == 'e' || c == 'E')) <;> rfl

theorem expect?_digits {c : Char} (hc : c.isDigit = false) (h : ∀ d ∈ ds, d.isDigit = true) :
    expect? c ds = none := by
  cases ds with
  | nil => rfl
  | cons d ds => exact if_neg (ne_of_isDigit (h d (List.mem_cons_self ..)) hc).symm

theorem forall_isDigit_of_twoDigits? {n : Nat} {rest : List Char}
    (h : ∀ d ∈ ds, d.isDigit = true) (hn : twoDigits? ds = some (n, rest)) :
    ∀ d ∈ rest, d.isDigit = true := by
  unfold twoDigits? at hn
  split at hn
  · split at hn
    · cases hn
      exact fun d hd => h d (List.mem_cons_of_mem _ (List.mem_cons_of_mem _ hd))
    · cases hn
  · cases hn

theorem readClock?_digits (h : ∀ d ∈ ds, d.isDigit = true) : readClock? ds = none := by
  rw [readClock?]
  cases hhour : twoDigits? ds with
  | none => rfl
  | some p =>
      obtain ⟨hour, rest⟩ := p
      have hrest := forall_isDigit_of_twoDigits? h hhour
      show (expect? ':' rest).bind _ = none
      rw [expect?_digits rfl hrest]
      rfl

theorem readDate?_digits (h : ∀ d ∈ ds, d.isDigit = true) : readDate? ds = none := by
  rw [readDate?]
  cases hcentury : twoDigits? ds with
  | none => rfl
  | some p =>
      obtain ⟨century, rest⟩ := p
      have hrest := forall_isDigit_of_twoDigits? h hcentury
      show (twoDigits? rest).bind _ = none
      cases hyears : twoDigits? rest with
      | none => rfl
      | some p =>
          obtain ⟨years, rest'⟩ := p
          show (expect? '-' rest').bind _ = none
          rw [expect?_digits rfl (forall_isDigit_of_twoDigits? hrest hyears)]
          rfl

/-- Nor are they a date or a time, which have marks in them. -/
theorem readMoment?_digits (h : ∀ d ∈ ds, d.isDigit = true) (rest : List Char) :
    readMoment? ds rest = none := by
  have htime : isTime false ds = false := by
    rw [isTime, readTime?, readClock?_digits h]
    rfl
  unfold readMoment?
  rw [readDate?_digits h]
  dsimp only
  rw [htime]
  rfl

theorem integerOf?_of_lt {n : Nat} (h : n < 2 ^ 63) : integerOf? false n = some (.integer n) := by
  have hrange : inRange n = true := by
    simp only [inRange, Bool.and_eq_true, decide_eq_true_eq]
    omega
  simp only [integerOf?, Bool.false_eq_true, if_false, hrange, if_true]

/-- A count is read as itself, whatever follows that is no part of a
number. -/
theorem readNumber?_toDigits {n : Nat} (hn : n < 2 ^ 63) {rest : List Char}
    (hrest : ∀ c ∈ rest.head?, isNumberPart c = false) :
    readNumber? (Nat.toDigits 10 n ++ rest) = some (.integer n, rest) := by
  have hds := digits_toDigits n
  have hpart : ∀ c ∈ Nat.toDigits 10 n, isNumberPart c = true := fun c hc =>
    isNumberPart_of_isDigit (hds.isDigit c hc)
  rw [readNumber?, takeWhile_run hpart hrest, dropWhile_run hpart hrest]
  simp only [readMoment?_digits hds.isDigit, readFloat?_digits hds]
  rw [readInteger?_digits hds (lowest_toDigits n), Nat.ofDigitChars_ten_toDigits,
    integerOf?_of_lt hn]
  rfl

end

/-! ## Values -/

theorem readValue?_of_head {c : Char} (harray : c ≠ '[') (htable : c ≠ '\x7b') (depth : Nat)
    (cs : List Char) : readValue? depth (c :: cs) = readScalar? (c :: cs) := by
  cases depth with
  | zero => rfl
  | succ depth =>
      rw [readValue?]
      · exact fun _ _ _ heq => harray (List.cons.inj heq).1
      · exact fun _ _ _ heq => htable (List.cons.inj heq).1

theorem readValue?_boolean (depth : Nat) (b : Bool) (rest : List Char) :
    readValue? depth ((toString b).toList ++ rest) = some (.boolean b, rest) := by
  cases b with
  | true => exact readValue?_of_head (by decide) (by decide) depth _
  | false => exact readValue?_of_head (by decide) (by decide) depth _

theorem exists_quote_writeString (cs : List Char) :
    ∃ q body, writeString cs = q :: body ∧ (q = '"' ∨ q = '\'') := by
  unfold writeString
  dsimp only
  split
  · exact ⟨_, _, rfl, Or.inl rfl⟩
  split
  · exact ⟨_, _, rfl, Or.inr rfl⟩
  split
  · exact ⟨_, _, rfl, Or.inl rfl⟩
  split
  · exact ⟨_, _, rfl, Or.inr rfl⟩
  split
  · exact ⟨_, _, rfl, Or.inl rfl⟩
  · exact ⟨_, _, rfl, Or.inl rfl⟩

theorem readValue?_writeString (depth : Nat) (text : String) {rest : List Char}
    (h : EndsString rest) :
    readValue? depth (writeString text.toList ++ rest) = some (.string text, rest) := by
  have hread := readString?_writeString text.toList h
  obtain ⟨q, body, hwritten, hq⟩ := exists_quote_writeString text.toList
  rw [hwritten, List.cons_append] at hread ⊢
  rcases hq with rfl | rfl
  · rw [readValue?_of_head (by decide) (by decide), readScalar?, hread]
    simp
  · rw [readValue?_of_head (by decide) (by decide), readScalar?, hread]
    simp

theorem readValue?_toDigits (depth : Nat) {n : Nat} (hn : n < 2 ^ 63) {rest : List Char}
    (hrest : ∀ c ∈ rest.head?, isNumberPart c = false) :
    readValue? depth (Nat.toDigits 10 n ++ rest) = some (.integer n, rest) := by
  have hread := readNumber?_toDigits hn hrest
  obtain ⟨c, cs, hds⟩ := List.exists_cons_of_ne_nil (digits_toDigits n).ne_nil
  have hc : c.isDigit = true :=
    (digits_toDigits n).isDigit c (by rw [hds]; exact List.mem_cons_self ..)
  rw [hds, List.cons_append] at hread ⊢
  rw [readValue?_of_head (ne_of_isDigit hc rfl) (ne_of_isDigit hc rfl)]
  rw [readScalar?]
  · exact hread
  all_goals
    rintro _ heq
    rw [(List.cons.inj heq).1] at hc
    cases hc

/-! ## Keys -/

/-- A key that needs no quotes. -/
structure Bare (key : String) : Prop where
  ne_nil : key.toList ≠ []
  parts : ∀ c ∈ key.toList, isBareKeyPart c = true

theorem isIndent_of_isBareKeyPart {c : Char} (h : isBareKeyPart c = true) :
    isIndent c = false := by
  have hne : c ≠ ' ' ∧ c ≠ '\t' := by
    constructor
    · rintro rfl
      cases h
    · rintro rfl
      cases h
  simp [isIndent, hne]

theorem skipIndent_of_head {cs : List Char} (h : ∀ c ∈ cs.head?, isIndent c = false) :
    skipIndent cs = cs := by
  cases cs with
  | nil => rfl
  | cons c cs => rw [skipIndent, List.dropWhile_cons_of_neg (by simp [h c rfl])]

namespace Bare

variable {key : String} (h : Bare key)

include h

theorem exists_cons : ∃ c cs, key.toList = c :: cs ∧ isBareKeyPart c = true := by
  obtain ⟨c, cs, hkey⟩ := List.exists_cons_of_ne_nil h.ne_nil
  exact ⟨c, cs, hkey, h.parts c (by rw [hkey]; exact List.mem_cons_self ..)⟩

theorem skipIndent_append (rest : List Char) :
    skipIndent (key.toList ++ rest) = key.toList ++ rest := by
  obtain ⟨c, cs, hkey, hc⟩ := h.exists_cons
  refine skipIndent_of_head fun d hd => ?_
  rw [hkey] at hd
  cases hd
  exact isIndent_of_isBareKeyPart hc

theorem readKey?_append {rest : List Char} (hrest : ∀ c ∈ rest.head?, isBareKeyPart c = false) :
    readKey? (key.toList ++ rest) = some (key, rest) := by
  obtain ⟨c, cs, hkey, hc⟩ := h.exists_cons
  have hquote : readLineString? (key.toList ++ rest) = none := by
    rw [hkey]
    unfold readLineString?
    split
    · rename_i heq
      rw [(List.cons.inj heq).1] at hc
      cases hc
    · rename_i heq
      rw [(List.cons.inj heq).1] at hc
      cases hc
    · rfl
  have hne : key.toList.isEmpty = false := by simpa using h.ne_nil
  rw [readKey?, hquote]
  dsimp only
  rw [takeWhile_run h.parts hrest, dropWhile_run h.parts hrest, hne, String.ofList_toList]
  rfl

theorem readPath?_append {rest : List Char} (hrest : ∀ c ∈ rest.head?, isBareKeyPart c = false)
    (hpoint : ∀ c ∈ (skipIndent rest).head?, c ≠ '.') :
    readPath? (key.toList ++ rest) = some ([], key, skipIndent rest) := by
  have hkeys (bound : Nat) :
      readKeysFrom? (bound + 1) (key.toList ++ rest) = some ([key], skipIndent rest) := by
    rw [readKeysFrom?, h.skipIndent_append, h.readKey?_append hrest]
    simp only [Option.bind_eq_bind, Option.bind_some]
    split
    case h_1 heq =>
      rw [heq] at hpoint
      exact absurd rfl (hpoint '.' rfl)
    case h_2 => rfl
  rw [readPath?, hkeys]
  rfl

end Bare

/-! ## Statements -/

/-- A key with the text of its value. -/
structure Item where
  key : String
  text : List Char
  value : Value

namespace Item

def line (i : Item) : List Char := i.key.toList ++ ' ' :: '=' :: ' ' :: (i.text ++ ['\n'])

def entry (i : Item) : String × Value := (i.key, i.value)

/-- The text is read as the value. -/
structure Written (i : Item) : Prop where
  bare : Bare i.key
  reads : ∀ rest, readValue? (nestingLimit - 1) (skipIndent (i.text ++ '\n' :: rest)) =
    some (i.value, '\n' :: rest)

end Item

namespace Reading

/-- A key at the start of a line is no comment, line break or header. -/
theorem statement_of_bare {key : String} (h : Bare key) (r : Reading) (rest : List Char) :
    r.statement (key.toList ++ rest) = (do
      let (path, key, rest) ← readPath? (key.toList ++ rest)
      let rest ← expect? '=' rest
      let (value, rest) ← readValue? (nestingLimit - 1) (skipIndent rest)
      let rest ← lineEnd? rest
      return (← r.assign path key value, rest)) := by
  obtain ⟨c, cs, hkey, hc⟩ := h.exists_cons
  have hne {d : Char} (hd : isBareKeyPart d = false) : c ≠ d := by
    rintro rfl
    rw [hc] at hd
    cases hd
  rw [hkey, List.cons_append, statement]
  · rintro _ heq
    exact hne (d := '#') rfl (List.cons.inj heq).1
  · rintro _ heq
    exact hne (d := '\n') rfl (List.cons.inj heq).1
  · rintro _ heq
    exact hne (d := '\r') rfl (List.cons.inj heq).1
  · rintro _ heq
    exact hne (d := '[') rfl (List.cons.inj heq).1
  · rintro _ heq
    exact hne (d := '[') rfl (List.cons.inj heq).1

theorem lineEnd?_newline (rest : List Char) : lineEnd? ('\n' :: rest) = some rest := rfl

theorem statement_line {i : Item} (h : i.Written) (r : Reading) (rest : List Char) :
    r.statement (i.line ++ rest) = (r.assign [] i.key i.value).map (·, rest) := by
  have hskip (cs : List Char) : skipIndent (' ' :: cs) = skipIndent cs := rfl
  have hline : i.line ++ rest = i.key.toList ++ ' ' :: '=' :: ' ' :: (i.text ++ '\n' :: rest) := by
    simp [Item.line]
  have hpath : readPath? (i.key.toList ++ ' ' :: '=' :: ' ' :: (i.text ++ '\n' :: rest)) =
      some ([], i.key, '=' :: ' ' :: (i.text ++ '\n' :: rest)) :=
    h.bare.readPath?_append (by simp [isBareKeyPart, isDecimalDigit])
      (by simp [skipIndent, isIndent])
  have hequal (cs : List Char) : expect? '=' ('=' :: cs) = some cs := rfl
  rw [hline, statement_of_bare h.bare, hpath]
  simp only [Option.bind_eq_bind, Option.bind_some, hequal, hskip, h.reads, lineEnd?_newline]
  cases r.assign [] i.key i.value <;> rfl

theorem statement_blank (r : Reading) (rest : List Char) :
    r.statement ('\n' :: rest) = some (r, rest) := rfl

theorem statement_header {key : String} (h : Bare key) (r : Reading) (rest : List Char) :
    r.statement ('[' :: (key.toList ++ ']' :: '\n' :: rest)) =
      (r.openTable [] key).map (·, rest) := by
  have hpath : readPath? (key.toList ++ ']' :: '\n' :: rest) =
      some ([], key, ']' :: '\n' :: rest) :=
    h.readPath?_append (by simp [isBareKeyPart, isDecimalDigit]) (by simp [skipIndent, isIndent])
  have hclose (cs : List Char) : expect? ']' (']' :: cs) = some cs := rfl
  obtain ⟨c, cs, hkey, hc⟩ := h.exists_cons
  have hopen : c ≠ '[' := by
    rintro rfl
    cases hc
  rw [hkey, List.cons_append] at hpath ⊢
  rw [statement, hpath]
  · simp only [Option.bind_eq_bind, Option.bind_some, hclose, lineEnd?_newline]
    cases r.openTable [] key <;> rfl
  · rintro _ heq
    exact hopen (List.cons.inj heq).1

theorem statements_succ {bound : Nat} {r r' : Reading} {cs rest : List Char} (hne : cs ≠ [])
    (hskip : skipIndent cs = cs) (h : r.statement cs = some (r', rest)) :
    statements (bound + 1) r cs = statements bound r' rest := by
  rw [statements, hskip]
  split
  case h_1 => exact absurd rfl hne
  case h_2 => rw [h]; rfl

theorem line_append_ne_nil (i : Item) (rest : List Char) : i.line ++ rest ≠ [] := by
  simp [Item.line]

theorem skipIndent_line {i : Item} (h : i.Written) (rest : List Char) :
    skipIndent (i.line ++ rest) = i.line ++ rest := by
  rw [Item.line, List.append_assoc]
  exact h.bare.skipIndent_append _

theorem get?_eq_none {es : Entries} {key : String} {keys : List String}
    (h : (es.map Prod.fst ++ key :: keys).Nodup) : es.get? key = none := by
  rw [Entries.get?, List.lookup_eq_none_iff]
  intro entry hentry
  have hne := (List.nodup_append.mp h).2.2 entry.1 (List.mem_map_of_mem hentry) key
    (List.mem_cons_self ..)
  simpa using Ne.symm hne

/-- Lines of items, put one by one into the table that is open. `plug` is
the reading around that table. -/
theorem statements_lines (plug : Entries → Reading)
    (hplug : ∀ (es : Entries) key v, es.get? key = none →
      (plug es).assign [] key v = some (plug (es.add key v)))
    {items : List Item} (hwritten : ∀ i ∈ items, i.Written) {es : Entries}
    (hkeys : (es.map Prod.fst ++ items.map Item.key).Nodup) (bound : Nat) (rest : List Char) :
    statements (items.length + bound) (plug es) (items.flatMap Item.line ++ rest) =
      statements bound (plug (es ++ items.map Item.entry)) rest := by
  induction items generalizing es with
  | nil => rw [List.length_nil, Nat.zero_add, List.map_nil, List.append_nil]; rfl
  | cons i items ih =>
      obtain ⟨hi, hitems⟩ := List.forall_mem_cons.mp hwritten
      have hnew : es.get? i.key = none := get?_eq_none hkeys
      have hstatement := statement_line hi (plug es) (items.flatMap Item.line ++ rest)
      rw [hplug es _ _ hnew] at hstatement
      have hkeys' : ((es.add i.key i.value).map Prod.fst ++ items.map Item.key).Nodup := by
        simpa [Entries.add] using hkeys
      rw [List.flatMap_cons, List.append_assoc, List.length_cons, Nat.succ_add,
        statements_succ (line_append_ne_nil i _) (skipIndent_line hi _) hstatement,
        ih hitems hkeys', List.map_cons]
      simp [Entries.add, Item.entry]

/-! ## The table that is open -/

theorem assign_top (es : Entries) (key : String) (v : Value) (h : es.get? key = none) :
    assign ⟨es, []⟩ [] key v = some ⟨es.add key v, []⟩ := by
  rw [assign, Entries.update, Entries.assign, Entries.update, h]
  rfl

theorem openTable_top {es : Entries} {key : String} (h : es.get? key = none) :
    openTable ⟨es, []⟩ [] key = some ⟨es.add key (.table .header []), [key]⟩ := by
  rw [openTable, Entries.openTable, Entries.update, h]
  rfl

theorem get?_add {es : Entries} {key : String} (h : es.get? key = none) (v : Value) :
    (es.add key v).get? key = some v := by
  rw [Entries.get?] at h
  rw [Entries.get?, Entries.add, List.lookup_append, h, List.lookup_cons_self]
  rfl

theorem replace_add {es : Entries} {key : String} (h : es.get? key = none) (v v' : Value) :
    (es.add key v).replace key v' = es.add key v' := by
  rw [Entries.get?, List.lookup_eq_none_iff] at h
  have hother : es.map (fun entry => if entry.1 = key then (key, v') else entry) = es := by
    refine (List.map_congr_left fun entry hentry => if_neg fun heq => ?_).trans (List.map_id es)
    simpa [heq] using h entry hentry
  rw [Entries.replace, Entries.add, List.map_append, hother, List.map_singleton, if_pos rfl]
  rfl

theorem assign_below {outer : Entries} {table : String} (htable : outer.get? table = none)
    (es : Entries) (key : String) (v : Value) (h : es.get? key = none) :
    assign ⟨outer.add table (.table .header es), [table]⟩ [] key v =
      some ⟨outer.add table (.table .header (es.add key v)), [table]⟩ := by
  have hassign : Entries.assign [] key v .header es = some (es.add key v) := by
    rw [Entries.assign, Entries.update, h]
    rfl
  have hupdate : Entries.update false (Entries.assign [] key v) [table] .header
      (outer.add table (.table .header es)) =
        some ((outer.add table (.table .header es)).replace table
          (.table .header (es.add key v))) := by
    rw [Entries.update, get?_add htable]
    simp [Entries.update, hassign]
  rw [assign, hupdate, replace_add htable]
  rfl

end Reading

/-! ## Whole documents -/

theorem length_le_flatMap_line (items : List Item) :
    items.length ≤ (items.flatMap Item.line).length := by
  induction items with
  | nil => exact le_rfl
  | cons i items ih =>
      rw [List.flatMap_cons, List.length_append, List.length_cons, Item.line, List.length_append,
        List.length_cons]
      omega

theorem read?_of_head {cs : List Char} (h : ∀ c ∈ cs.head?, c ≠ '\uFEFF') :
    read? (String.ofList cs) = Reading.statements (cs.length + 1) ⟨[], []⟩ cs := by
  rw [read?, String.toList_ofList]
  split
  case h_1 => exact absurd rfl (h '\uFEFF' rfl)
  case h_2 => rfl

section

variable {items : List Item} (hitems : ∀ i ∈ items, i.Written)
  (hkeys : (items.map Item.key).Nodup)

include hitems

theorem head_lines_ne {rest : List Char} (hrest : ∀ c ∈ rest.head?, c ≠ '\uFEFF') :
    ∀ c ∈ (items.flatMap Item.line ++ rest).head?, c ≠ '\uFEFF' := by
  cases items with
  | nil => exact hrest
  | cons i items =>
      obtain ⟨c, cs, hkey, hc⟩ := (hitems i (List.mem_cons_self ..)).bare.exists_cons
      intro d hd
      rw [List.flatMap_cons, Item.line, hkey] at hd
      cases hd
      rintro rfl
      cases hc

include hkeys

theorem read?_lines :
    read? (String.ofList (items.flatMap Item.line)) = some (items.map Item.entry) := by
  have hhead : ∀ c ∈ (items.flatMap Item.line ++ []).head?, c ≠ '\uFEFF' :=
    head_lines_ne hitems (by simp)
  have hnodup : (([] : Entries).map Prod.fst ++ items.map Item.key).Nodup := hkeys
  have hlength := length_le_flatMap_line items
  obtain ⟨n, hn⟩ : ∃ n, (items.flatMap Item.line).length + 1 = items.length + (n + 1) :=
    ⟨(items.flatMap Item.line).length - items.length, by omega⟩
  have hrun := Reading.statements_lines (⟨·, []⟩) Reading.assign_top hitems hnodup (n + 1) []
  rw [List.append_nil] at hhead hrun
  rw [read?_of_head hhead, hn, hrun]
  rfl

/-- Lines, and behind them a table with lines of its own. -/
theorem read?_table {table : String} (htable : Bare table) (hnew : table ∉ items.map Item.key)
    {below : List Item} (hbelow : ∀ i ∈ below, i.Written)
    (hbelowKeys : (below.map Item.key).Nodup) :
    read? (String.ofList (items.flatMap Item.line
        ++ '\n' :: '[' :: (table.toList ++ ']' :: '\n' :: below.flatMap Item.line))) =
      some (items.map Item.entry ++ [(table, .table .header (below.map Item.entry))]) := by
  have hempty : (([] : Entries).map Prod.fst ++ items.map Item.key).Nodup := hkeys
  have hbelowEmpty : (([] : Entries).map Prod.fst ++ below.map Item.key).Nodup := hbelowKeys
  have houter : Entries.get? (items.map Item.entry) table = none := by
    rw [Entries.get?, List.lookup_eq_none_iff]
    intro entry hentry
    obtain ⟨i, hi, rfl⟩ := List.mem_map.mp hentry
    have hne : table ≠ i.key := by
      rintro rfl
      exact hnew (List.mem_map_of_mem hi)
    simpa [Item.entry] using hne
  set header := '[' :: (table.toList ++ ']' :: '\n' :: below.flatMap Item.line) with hheader
  have hlength := length_le_flatMap_line items
  have hbelowLength := length_le_flatMap_line below
  obtain ⟨n, hn⟩ : ∃ n, (items.flatMap Item.line ++ '\n' :: header).length + 1 =
      items.length + (below.length + (n + 1) + 1 + 1) := by
    refine ⟨(items.flatMap Item.line).length + header.length - items.length - below.length - 1, ?_⟩
    have : (below.flatMap Item.line).length + 2 ≤ header.length := by simp [hheader]; omega
    rw [List.length_append, List.length_cons]
    omega
  have hlines := Reading.statements_lines (⟨·, []⟩) Reading.assign_top hitems hempty
    (below.length + (n + 1) + 1 + 1) ('\n' :: header)
  have hopen := Reading.statement_header htable ⟨items.map Item.entry, []⟩
    (below.flatMap Item.line)
  rw [Reading.openTable_top houter] at hopen
  have hrest := Reading.statements_lines
    (fun es => ⟨Entries.add (items.map Item.entry) table (.table .header es), [table]⟩)
    (Reading.assign_below houter) hbelow hbelowEmpty (n + 1) []
  rw [List.append_nil] at hrest
  rw [read?_of_head (head_lines_ne hitems (by simp)), hn, hlines, List.nil_append,
    Reading.statements_succ (List.cons_ne_nil _ _) rfl (Reading.statement_blank _ _),
    Reading.statements_succ (List.cons_ne_nil _ _) rfl hopen, hrest]
  rfl

end

end LoxScan.Toml
