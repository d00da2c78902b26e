import LoxScan.Proofs.Source.Reading
import LoxScan.Proofs.Text.Bytes

/-!
# Looking ahead

A cursor looks ahead in the bytes of its source as long as these are
ASCII, and in its characters otherwise. Up to the first byte that is not
small, a byte is a character, so both ways find the same one.

All this needs is that the cursor stands on a boundary (`OnBoundary`),
which is where cursors come to: to each boundary of the source and to
nothing else (`exists_reaches_iff`). There the bytes ahead can be decoded,
and looking ahead is an index into what they decode to:

> `peek_decoded`: the character found is the one with that index, NUL if
> there are not so many. No cut and no index on the way is out of bounds,
> and the bytes answer exactly if those up to the index are all ASCII.
-/

namespace LoxScan

namespace Text

theorem utf8EncodeChar_of_small {c : Char} (h : c.toNat < 128) :
    String.utf8EncodeChar c = [UInt8.ofNat c.toNat] := by
  have hv : c.val.toNat ≤ 127 := Nat.le_of_lt_succ h
  rw [String.utf8EncodeChar, if_pos hv]
  rfl

theorem utf8EncodeChar_ne_nil (c : Char) : String.utf8EncodeChar c ≠ [] := by
  intro h
  have hlength := String.length_utf8EncodeChar c
  rw [h] at hlength
  exact absurd hlength.symm (Nat.ne_of_gt c.utf8Size_pos)

/-- As long as the bytes are small there is one for each character. -/
theorem exists_getElem?_of_small {cs : List Char} {n : Nat} {b : UInt8}
    (hsmall : ∀ i ≤ n, ∀ b ∈ (cs.flatMap String.utf8EncodeChar)[i]?, b < 0x80)
    (hb : (cs.flatMap String.utf8EncodeChar)[n]? = some b) :
    ∃ c, cs[n]? = some c ∧ c.toNat = b.toNat := by
  induction cs generalizing n with
  | nil => cases hb
  | cons c cs ih =>
      rw [List.flatMap_cons] at hsmall hb
      -- the first byte is small, so it is all there is of the first character
      obtain ⟨first, more, hfirst⟩ := List.exists_cons_of_ne_nil (utf8EncodeChar_ne_nil c)
      have hlt : first.toNat < 128 := by
        refine UInt8.lt_iff_toNat_lt.mp (hsmall 0 (Nat.zero_le n) first ?_)
        rw [hfirst]
        rfl
      have hchar : c.toNat = first.toNat := by
        refine toNat_of_mem_utf8EncodeChar hlt ?_
        rw [hfirst]
        exact List.mem_cons_self ..
      have hone : String.utf8EncodeChar c = [first] := by
        rw [utf8EncodeChar_of_small (hchar ▸ hlt), hchar, UInt8.ofNat_toNat]
      rw [hone] at hsmall hb
      cases n with
      | zero =>
          obtain rfl := Option.some.inj hb
          exact ⟨c, rfl, hchar⟩
      | succ n => exact ih (fun i hi => hsmall (i + 1) (Nat.succ_le_succ hi)) hb

theorem getElem?_utf8Encode (cs : List Char) (i : Nat) :
    cs.utf8Encode[i]? = (cs.flatMap String.utf8EncodeChar)[i]? := by
  by_cases hi : i < cs.utf8Encode.size
  · rw [getElem?_pos cs.utf8Encode i hi]
    simp only [List.utf8Encode, List.getElem_toByteArray]
    exact (List.getElem?_eq_getElem _).symm
  · rw [getElem?_neg cs.utf8Encode i hi]
    rw [List.utf8Encode, List.size_toByteArray] at hi
    exact (List.getElem?_eq_none (Nat.le_of_not_lt hi)).symm

theorem utf8Encode_injective : Function.Injective List.utf8Encode := by
  intro cs cs' h
  have hdecoded := congrArg ByteArray.utf8Decode? h
  rw [List.utf8Decode?_utf8Encode, List.utf8Decode?_utf8Encode, Option.some.injEq] at hdecoded
  exact List.toArray_inj hdecoded

theorem isValid_of_eq_append {s : String} {before rest : List Char}
    (hs : s.toList = before ++ rest) : (⟨byteLength before⟩ : String.Pos.Raw).IsValid s := by
  refine String.Pos.Raw.isValid_iff_exists_append.mpr
    ⟨String.ofList before, String.ofList rest, ?_, ?_⟩
  · rw [← String.ofList_append, ← hs, String.ofList_toList]
  · rw [← String.toList_ofList (l := before), byteLength_toList, String.toList_ofList]
    rfl

theorem exists_append_of_isValid {s : String} {p : String.Pos.Raw} (h : p.IsValid s) :
    ∃ before rest, s.toList = before ++ rest ∧ p.byteIdx = byteLength before := by
  obtain ⟨front, back, rfl, rfl⟩ := String.Pos.Raw.isValid_iff_exists_append.mp h
  exact ⟨front.toList, back.toList, String.toList_append, (byteLength_toList front).symm⟩

end Text

namespace Cursor

/-- The bytes of the source from the offset of the cursor on. -/
def ahead (c : Cursor) : ByteArray :=
  c.source.toUTF8.extract c.position.offset c.source.toUTF8.size

theorem getElem?_ahead (c : Cursor) (i : Nat) :
    c.ahead[i]? = c.source.toUTF8[c.position.offset + i]? := by
  have hsize : c.ahead.size = c.source.toUTF8.size - c.position.offset := by
    rw [ahead, ByteArray.size_extract, Nat.min_self]
  by_cases hi : c.position.offset + i < c.source.toUTF8.size
  · rw [getElem?_pos c.source.toUTF8 _ hi, getElem?_pos c.ahead i (by omega)]
    exact congrArg some (ByteArray.getElem_extract _)
  · rw [getElem?_neg c.source.toUTF8 _ hi, getElem?_neg c.ahead i (by omega)]

theorem ahead_of_eq_append {c : Cursor} {before rest : List Char}
    (hsource : c.source.toList = before ++ rest)
    (hoffset : c.position.offset = Text.byteLength before) : c.ahead = rest.utf8Encode := by
  rw [ahead, Text.toUTF8_eq_append hsource, hoffset, ← Text.size_utf8Encode,
    ByteArray.size_append, ByteArray.extract_append_eq_right rfl rfl]

/-! ## The bytes alone -/

theorem all_small_iff {c : Cursor} {n : Nat}
    (hn : c.position.offset + n < c.source.toUTF8.size) :
    (List.range (n + 1)).all (fun i => c.source.toUTF8.get! (c.position.offset + i) < 0x80) = true
      ↔ ∀ i ≤ n, ∃ b ∈ c.ahead[i]?, b < 0x80 := by
  -- every byte that is asked for is there, so none is made up
  have hget : ∀ i ≤ n, c.ahead[i]? = some (c.source.toUTF8.get! (c.position.offset + i)) := by
    intro i hi
    have hlt : c.position.offset + i < c.source.toUTF8.size := by omega
    have hbyte : c.source.toUTF8.get! (c.position.offset + i)
        = c.source.toUTF8[c.position.offset + i] :=
      getElem!_pos c.source.toUTF8.data _ hlt
    rw [getElem?_ahead, getElem?_pos c.source.toUTF8 _ hlt, hbyte]
  rw [List.all_eq_true]
  constructor
  · intro h i hi
    exact ⟨_, hget i hi, of_decide_eq_true (h i (List.mem_range.mpr (Nat.lt_succ_of_le hi)))⟩
  · intro h i hi
    have hi' : i ≤ n := Nat.le_of_lt_succ (List.mem_range.mp hi)
    obtain ⟨b, hb, hsmall⟩ := h i hi'
    obtain rfl := Option.some.inj ((hget i hi').symm.trans hb)
    exact decide_eq_true hsmall

/-- The bytes answer if they are there and small up to the one asked for,
and with that one. -/
theorem peekAscii?_eq_some_iff {c : Cursor} {n : Nat} {ch : Char} :
    c.peekAscii? n = some ch ↔
      (∀ i ≤ n, ∃ b ∈ c.ahead[i]?, b < 0x80) ∧ ∃ b ∈ c.ahead[n]?, Char.ofNat b.toNat = ch := by
  unfold peekAscii?
  simp only
  split
  case isFalse hn =>
    refine iff_of_false (fun h => nomatch h) ?_
    rintro ⟨-, b, hb, -⟩
    rw [getElem?_ahead, getElem?_neg c.source.toUTF8 _ hn] at hb
    cases hb
  case isTrue hn =>
    have hlast : c.ahead[n]? = some c.source.toUTF8[c.position.offset + n] := by
      rw [getElem?_ahead, getElem?_pos c.source.toUTF8 _ hn]
    simp only [all_small_iff hn, hlast, Option.mem_some_iff, exists_eq_left']
    split
    case isTrue hsmall => rw [Option.some.injEq, and_iff_right hsmall]
    case isFalse hsmall => exact iff_of_false (fun h => nomatch h) fun h => hsmall h.1

/-! ## On a boundary -/

/-- The offset of the cursor is a boundary of the source, and what has not
been read yet are the characters behind it. -/
structure OnBoundary (c : Cursor) : Prop where
  boundary : (⟨c.position.offset⟩ : String.Pos.Raw).IsValid c.source
  rest : c.rest.utf8Encode = c.ahead

theorem At.onBoundary {c : Cursor} {before : List Char} (h : c.At before) : c.OnBoundary where
  boundary := by
    rw [h.position]
    exact Text.isValid_of_eq_append h.source
  rest := (ahead_of_eq_append h.source (congrArg Position.offset h.position)).symm

theorem Reaches.onBoundary {source : String} {c : Cursor} (h : (Cursor.ofSource source).Reaches c) :
    c.OnBoundary := by
  obtain ⟨before, -, hat⟩ := h.exists_at (at_ofSource source)
  exact hat.onBoundary

/-- Every boundary of a source can be reached, and nothing else can. -/
theorem exists_reaches_iff {source : String} {p : String.Pos.Raw} :
    (∃ c, (Cursor.ofSource source).Reaches c ∧ c.position.offset = p.byteIdx)
      ↔ p.IsValid source := by
  constructor
  · rintro ⟨c, hc, hoffset⟩
    obtain ⟨before, hsource, -⟩ := hc.exists_at (at_ofSource source)
    have hvalid := hc.onBoundary.boundary
    rwa [hoffset, hsource] at hvalid
  · intro h
    obtain ⟨before, rest, hsource, hoffset⟩ := Text.exists_append_of_isValid h
    refine ⟨_, reaches_advanceBy before.length _, ?_⟩
    rw [advanceBy_of_append hsource, hoffset]
    exact congrArg Position.offset (Position.passing_origin before)

namespace OnBoundary

variable {c : Cursor} (h : c.OnBoundary)

include h

theorem exists_before :
    ∃ before, c.source.toList = before ++ c.rest ∧ c.position.offset = Text.byteLength before := by
  obtain ⟨before, rest, hsource, hoffset⟩ := Text.exists_append_of_isValid h.boundary
  have hrest : c.rest = rest :=
    Text.utf8Encode_injective (h.rest.trans (ahead_of_eq_append hsource hoffset))
  exact ⟨before, hrest ▸ hsource, hoffset⟩

theorem exists_of_small {n : Nat} (hsmall : ∀ i ≤ n, ∃ b ∈ c.ahead[i]?, b < 0x80) {b : UInt8}
    (hb : c.ahead[n]? = some b) : ∃ ch, c.rest[n]? = some ch ∧ ch.toNat = b.toNat := by
  simp only [← h.rest, Text.getElem?_utf8Encode] at hsmall hb
  refine Text.exists_getElem?_of_small (fun i hi b hb => ?_) hb
  obtain ⟨b', hb', hlt⟩ := hsmall i hi
  obtain rfl := Option.some.inj (hb'.symm.trans hb)
  exact hlt

/-- The bytes answer with the character that is there. -/
theorem peekAscii?_iff {n : Nat} {ch : Char} :
    c.peekAscii? n = some ch ↔
      (∀ i ≤ n, ∃ b ∈ c.ahead[i]?, b < 0x80)
        ∧ c.rest[n]? = some ch ∧ ∃ b ∈ c.ahead[n]?, ch.toNat = b.toNat := by
  rw [peekAscii?_eq_some_iff]
  refine and_congr_right fun hsmall => ?_
  constructor
  · rintro ⟨b, hb, rfl⟩
    obtain ⟨ch, hfound, hbyte⟩ := h.exists_of_small hsmall hb
    rw [← hbyte, Char.ofNat_toNat]
    exact ⟨hfound, b, hb, hbyte⟩
  · rintro ⟨-, b, hb, hbyte⟩
    exact ⟨b, hb, by rw [← hbyte, Char.ofNat_toNat]⟩

/-- Looking ahead finds the characters that are not read yet. -/
theorem peek_eq (n : Nat) : c.peek n = c.rest[n]?.getD '\x00' := by
  unfold peek
  split
  case h_1 ch hch => rw [(h.peekAscii?_iff.mp hch).2.1]; rfl
  case h_2 => rfl

end OnBoundary

theorem peek_of_at {c : Cursor} {before : List Char} (h : c.At before) (n : Nat) :
    c.peek n = c.rest[n]?.getD '\x00' :=
  h.onBoundary.peek_eq n

/-! ## In bounds -/

/-- The bytes up to an index and with it, if there are so many. -/
def upTo? (bytes : ByteArray) (n : Nat) : Option (List UInt8) :=
  if n < bytes.size then some (bytes.data.toList.take (n + 1)) else none

/-- Looking ahead with nothing taken for granted: the source is cut at the
offset and the bytes behind the one asked for, and where there is no such
cut there is no answer. -/
def peekChecked? (c : Cursor) (n : Nat) : Option Char := do
  let text ← Text.dropBytes? c.position.offset c.source.toList
  let bytes := (String.ofList text).toUTF8
  let counted := text[n]?.getD '\x00'
  match bytes[n]? with
  | none => return counted
  | some last =>
    let front ← upTo? bytes n
    return if front.all (· < 0x80) then Char.ofNat last.toNat else counted

theorem exists_small_of_all {bytes : ByteArray} {n : Nat} (hn : n < bytes.size)
    (hall : (bytes.data.toList.take (n + 1)).all (· < 0x80) = true) :
    ∀ i ≤ n, ∃ b ∈ bytes[i]?, b < 0x80 := by
  intro i hi
  have hlt : i < bytes.size := Nat.lt_of_le_of_lt hi hn
  have hmem : bytes[i] ∈ bytes.data.toList.take (n + 1) := by
    refine List.mem_take_iff_getElem.mpr ⟨i, ?_, rfl⟩
    exact Nat.lt_min.mpr ⟨Nat.lt_succ_of_le hi, hlt⟩
  exact ⟨bytes[i], getElem?_pos bytes i hlt, of_decide_eq_true (List.all_eq_true.mp hall _ hmem)⟩

/-- On a boundary there is every cut, and the answer is the same. -/
theorem OnBoundary.peekChecked?_eq {c : Cursor} (h : c.OnBoundary) (n : Nat) :
    c.peekChecked? n = some (c.peek n) := by
  obtain ⟨before, hsource, hoffset⟩ := h.exists_before
  have hcut : Text.dropBytes? c.position.offset c.source.toList = some c.rest := by
    rw [hsource, hoffset]
    exact Text.dropBytes?_byteLength_append before c.rest
  have hbytes : (String.ofList c.rest).toUTF8 = c.ahead := h.rest
  simp only [peekChecked?, hcut, Option.bind_eq_bind, Option.bind_some, hbytes, h.peek_eq]
  by_cases hn : n < c.ahead.size
  · have hlast := getElem?_pos c.ahead n hn
    simp only [hlast, upTo?, if_pos hn, Option.bind_some]
    split
    case isFalse => rfl
    case isTrue hall =>
      -- the byte stands for the character that would have been counted
      obtain ⟨ch, hfound, hbyte⟩ := h.exists_of_small (exists_small_of_all hn hall) hlast
      rw [hfound, ← hbyte, Char.ofNat_toNat]
      rfl
  · rw [getElem?_neg c.ahead n hn]
    rfl

/-- Looking ahead by `n` is the index `n` into what the bytes ahead decode
to. Nothing is out of bounds on the way, and the bytes are enough exactly
if the first `n + 1` of them are ASCII. -/
theorem peek_decoded {c : Cursor} (h : c.OnBoundary) (n : Nat) :
    ∃ text, c.ahead.utf8Decode? = some text
      ∧ c.peek n = text[n]?.getD '\x00'
      ∧ c.peekChecked? n = some (c.peek n)
      ∧ ∀ ch, c.peekAscii? n = some ch ↔
          (∀ i ≤ n, ∃ b ∈ c.ahead[i]?, b < 0x80)
            ∧ text[n]? = some ch ∧ ∃ b ∈ c.ahead[n]?, ch.toNat = b.toNat := by
  refine ⟨c.rest.toArray, ?_, ?_, h.peekChecked?_eq n, fun ch => ?_⟩
  · rw [← h.rest]
    exact List.utf8Decode?_utf8Encode
  · rw [List.getElem?_toArray]
    exact h.peek_eq n
  · rw [List.getElem?_toArray]
    exact h.peekAscii?_iff

/-- Behind a character of two bytes, one of three is seen over one of
one byte, and not by its bytes. -/
theorem peek_decoded_euro :
    let c := (Cursor.ofSource "é1€").advanceBy 1
    c.OnBoundary ∧ c.peekAscii? 0 = some '1' ∧ c.peekAscii? 1 = none
      ∧ c.peek 1 = '€' ∧ c.peekChecked? 1 = some '€' := by
  intro c
  have hc : c.OnBoundary := (reaches_advanceBy 1 _).onBoundary
  have hdecoded : c.ahead.utf8Decode? = some #['1', '€'] := by decide
  obtain ⟨text, htext, hpeek, hchecked, hascii⟩ := peek_decoded hc 1
  obtain rfl := Option.some.inj (htext.symm.trans hdecoded)
  rw [hpeek] at hchecked
  refine ⟨hc, by decide, ?_, hpeek, hchecked⟩
  refine Option.eq_none_iff_forall_ne_some.mpr fun ch hch => ?_
  obtain ⟨b, hb, hsmall⟩ := ((hascii ch).mp hch).1 1 (Nat.le_refl 1)
  have hfirst : c.ahead[1]? = some 0xE2 := by decide
  obtain rfl := Option.some.inj (hfirst.symm.trans hb)
  exact absurd hsmall (by decide)

end Cursor

end LoxScan
