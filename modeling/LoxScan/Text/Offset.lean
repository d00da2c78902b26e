/-!
# Byte offsets into a text

A text is a list of characters, but places in it are counted in UTF-8
bytes. An offset names a place only if it falls between two characters,
so every cut here is partial:

> `dropBytes? n cs = some r` exactly when `cs` is some text of `n` bytes
> followed by `r` (`dropBytes?_eq_some_iff`).

A slice is two such cuts. Nothing is decoded and no offset is ever
rounded to a boundary.

No text is larger than `capacity`. Only what is made by repetition can come
near that, so only `replicate?` asks; the memory there is does not count.
-/

namespace LoxScan.Text

/-- The number of bytes a text takes in UTF-8. -/
def byteLength : List Char → Nat
  | [] => 0
  | c :: cs => c.utf8Size + byteLength cs

@[simp] theorem byteLength_nil : byteLength [] = 0 := rfl

@[simp] theorem byteLength_cons (c : Char) (cs : List Char) :
    byteLength (c :: cs) = c.utf8Size + byteLength cs := rfl

@[simp] theorem byteLength_append (as bs : List Char) :
    byteLength (as ++ bs) = byteLength as + byteLength bs := by
  induction as with
  | nil => simp
  | cons c as ih => simp [ih, Nat.add_assoc]

/-- What is left of a text after its first `n` bytes, if `n` falls
between two characters of it. -/
def dropBytes? : Nat → List Char → Option (List Char)
  | 0, cs => some cs
  | _ + 1, [] => none
  | n + 1, c :: cs =>
    if c.utf8Size ≤ n + 1 then dropBytes? (n + 1 - c.utf8Size) cs else none

@[simp] theorem dropBytes?_zero (cs : List Char) : dropBytes? 0 cs = some cs := by
  cases cs <;> rfl

/-- Dropping exactly a leading text leaves the rest. -/
theorem dropBytes?_byteLength_append (p r : List Char) :
    dropBytes? (byteLength p) (p ++ r) = some r := by
  induction p with
  | nil => simp
  | cons c p ih =>
    obtain ⟨k, hk⟩ : ∃ k, c.utf8Size + byteLength p = k + 1 :=
      ⟨c.utf8Size + byteLength p - 1, by have := c.utf8Size_pos; omega⟩
    have hle : c.utf8Size ≤ k + 1 := by omega
    have hrest : k + 1 - c.utf8Size = byteLength p := by omega
    simp [hk, dropBytes?, hle, hrest, ih]

/-- An offset can be cut at exactly when it is the length of a leading
text. -/
theorem dropBytes?_eq_some_iff {n : Nat} {cs r : List Char} :
    dropBytes? n cs = some r ↔ ∃ p, cs = p ++ r ∧ byteLength p = n := by
  constructor
  · intro h
    induction cs generalizing n with
    | nil =>
      cases n with
      | zero => exact ⟨[], by simpa using h, rfl⟩
      | succ n => simp [dropBytes?] at h
    | cons c cs ih =>
      cases n with
      | zero => exact ⟨[], by simpa using h, rfl⟩
      | succ n =>
        simp only [dropBytes?] at h
        split at h
        · obtain ⟨p, hp, hlen⟩ := ih h
          exact ⟨c :: p, by simp [hp], by simp; omega⟩
        · simp at h
  · rintro ⟨p, rfl, rfl⟩
    exact dropBytes?_byteLength_append p r

/-- The part of a text between two byte offsets. There is none if the
offsets are reversed, out of range, or inside a character. -/
def slice? (cs : List Char) (start stop : Nat) : Option (List Char) :=
  if start ≤ stop then do
    let rest ← dropBytes? start cs
    let after ← dropBytes? (stop - start) rest
    return rest.take (rest.length - after.length)
  else none

theorem slice?_append (a b c : List Char) :
    slice? (a ++ b ++ c) (byteLength a) (byteLength (a ++ b)) = some b := by
  simp [slice?, List.append_assoc, dropBytes?_byteLength_append]

/-- The most bytes a text can have: offsets are 64-bit words with a sign. -/
def capacity : Nat := 0x7FFFFFFFFFFFFFFF

/-- A character `n` times, if a text can hold that. -/
def replicate? (n : Nat) (c : Char) : Option (List Char) :=
  if n * c.utf8Size ≤ capacity then some (List.replicate n c) else none

end LoxScan.Text
