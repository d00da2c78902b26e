import LoxScan.Output.Report

/-!
# What streams take

A stream takes bytes up to its limit and keeps them, so of all that it is
offered it has taken what came first. `Sink.offered` is that state, and
`Sink.offered_append` says that two offers in a row are one: how a text
is cut into effects never shows in what a stream holds.

It shows in one place only, the failure. `Sink.writeAll` writes texts in
a row and names the one that failed, which is the one inside which the
limit falls (`Sink.exists_of_writeAll`); the effects of a run that go to
one stream are such a row.
-/

namespace LoxScan

namespace Sink

variable {s : Sink} {a b : ByteArray}

/-- The stream after some bytes were offered to it. -/
def offered (s : Sink) (bytes : ByteArray) : Sink :=
  { s with taken := s.taken ++ bytes.extract 0 (fitting s.limit s.taken.size bytes.size) }

/-- The stream has room for all of the bytes. -/
def Fits (s : Sink) (bytes : ByteArray) : Prop :=
  fitting s.limit s.taken.size bytes.size = bytes.size

instance (s : Sink) (bytes : ByteArray) : Decidable (s.Fits bytes) :=
  inferInstanceAs (Decidable (_ = _))

theorem write_of_fits {text : String} (h : s.Fits text.toUTF8) :
    s.write text = (none, s.offered text.toUTF8) := by
  obtain ⟨taken, limit, fault⟩ := s
  have h : fitting limit taken.size text.toUTF8.size = text.toUTF8.size := h
  simp only [write, offered, h, ↓reduceIte, ByteArray.extract_zero_size]

theorem write_of_not_fits {text : String} (h : ¬ s.Fits text.toUTF8) :
    s.write text = (some s.fault, s.offered text.toUTF8) := by
  obtain ⟨taken, limit, fault⟩ := s
  have h : ¬ fitting limit taken.size text.toUTF8.size = text.toUTF8.size := h
  simp only [write, offered, h, ↓reduceIte]

theorem write_snd (s : Sink) (text : String) : (s.write text).2 = s.offered text.toUTF8 := by
  by_cases h : s.Fits text.toUTF8
  · rw [write_of_fits h]
  · rw [write_of_not_fits h]

theorem fits_empty (s : Sink) : s.Fits ByteArray.empty := by
  unfold Fits fitting
  split
  · rfl
  · exact Nat.zero_min _

theorem taken_offered_of_fits (h : s.Fits a) : (s.offered a).taken = s.taken ++ a := by
  rw [offered, h, ByteArray.extract_zero_size]

theorem offered_empty (s : Sink) : s.offered ByteArray.empty = s := by
  have h := taken_offered_of_fits s.fits_empty
  rw [ByteArray.append_empty] at h
  exact congrArg (fun taken => { s with taken }) h

theorem fits_of_unlimited (h : s.limit = none) (a : ByteArray) : s.Fits a := by
  rw [Fits, h, fitting]

/-- With a limit, the room is what is left up to it. -/
theorem fits_iff {n : Nat} (h : s.limit = some n) :
    s.Fits a ↔ a.size ≤ n - s.taken.size := by
  rw [Fits, h, fitting, Nat.min_def]
  split <;> omega

/-- More than there is cannot be taken. -/
theorem extract_min_size (a : ByteArray) (n : Nat) :
    a.extract 0 (min a.size n) = a.extract 0 n := by
  rcases Nat.le_total a.size n with h | h
  · have := ByteArray.extract_zero_max_size (a := a) (i := n)
    rw [Nat.max_eq_left h] at this
    rw [Nat.min_eq_left h, ByteArray.extract_zero_size, this]
  · rw [Nat.min_eq_right h]

theorem taken_offered_of_limit {n : Nat} (h : s.limit = some n) :
    (s.offered a).taken = s.taken ++ a.extract 0 (n - s.taken.size) := by
  rw [offered, h, fitting, extract_min_size]

theorem offered_append (s : Sink) (a b : ByteArray) :
    s.offered (a ++ b) = (s.offered a).offered b := by
  refine congrArg (fun taken => { s with taken }) ?_
  show (s.offered (a ++ b)).taken = ((s.offered a).offered b).taken
  cases h : s.limit with
  | none =>
      rw [taken_offered_of_fits (fits_of_unlimited h _),
        taken_offered_of_fits (fits_of_unlimited (s := s.offered a) h _),
        taken_offered_of_fits (fits_of_unlimited h _), ByteArray.append_assoc]
  | some n =>
      have hroom : n - (s.taken ++ a.extract 0 (n - s.taken.size)).size
          = n - s.taken.size - a.size := by
        rw [ByteArray.size_append, ByteArray.size_extract]
        omega
      rw [taken_offered_of_limit h, taken_offered_of_limit (s := s.offered a) h,
        taken_offered_of_limit h, hroom, ByteArray.extract_append, Nat.zero_sub,
        ByteArray.append_assoc]

theorem fits_append : s.Fits (a ++ b) ↔ s.Fits a ∧ (s.offered a).Fits b := by
  cases h : s.limit with
  | none => simp only [fits_of_unlimited h, fits_of_unlimited (s := s.offered a) h, and_self]
  | some n =>
      rw [fits_iff h, fits_iff h, fits_iff (s := s.offered a) h, taken_offered_of_limit h,
        ByteArray.size_append, ByteArray.size_append, ByteArray.size_extract]
      omega

/-- A full stream takes nothing more. -/
theorem offered_offered_of_not_fits (h : ¬ s.Fits a) (b : ByteArray) :
    (s.offered a).offered b = s.offered a := by
  cases hl : s.limit with
  | none => exact absurd (fits_of_unlimited hl a) h
  | some n =>
      rw [fits_iff hl] at h
      have hfull : n - (s.offered a).taken.size = 0 := by
        rw [taken_offered_of_limit hl, ByteArray.size_append, ByteArray.size_extract]
        omega
      refine congrArg (fun taken => { s.offered a with taken }) ?_
      show ((s.offered a).offered b).taken = (s.offered a).taken
      rw [taken_offered_of_limit (s := s.offered a) hl, hfull, ByteArray.extract_same,
        ByteArray.append_empty]

/-! ## Texts in a row -/

section

variable {α : Type} {text : α → String}

/-- Writes the texts of some things in a row, up to the first that fails,
and tells which one that is. -/
def writeAll (text : α → String) : Sink → List α → Option α × Sink
  | s, [] => (none, s)
  | s, x :: xs =>
    match s.write (text x) with
    | (none, s) => writeAll text s xs
    | (some _, s) => (some x, s)

def bytesOf (text : α → String) (xs : List α) : ByteArray :=
  (String.join (xs.map text)).toUTF8

theorem bytesOf_append (xs ys : List α) :
    bytesOf text (xs ++ ys) = bytesOf text xs ++ bytesOf text ys := by
  rw [bytesOf, List.map_append, String.join_append]
  exact String.toByteArray_append

theorem bytesOf_singleton (x : α) : bytesOf text [x] = (text x).toUTF8 := by
  simp [bytesOf]

theorem bytesOf_cons (x : α) (xs : List α) :
    bytesOf text (x :: xs) = (text x).toUTF8 ++ bytesOf text xs := by
  rw [← List.singleton_append, bytesOf_append, bytesOf_singleton]

theorem bytesOf_eq_empty {xs : List α} (h : ∀ x ∈ xs, text x = "") :
    bytesOf text xs = ByteArray.empty := by
  induction xs with
  | nil => rfl
  | cons x xs ih =>
      rw [bytesOf_cons, h x (List.mem_cons_self ..), ih fun y hy => h y (List.mem_cons_of_mem _ hy)]
      rfl

theorem writeAll_of_fits {x : α} (h : s.Fits (text x).toUTF8) (xs : List α) :
    s.writeAll text (x :: xs) = (s.offered (text x).toUTF8).writeAll text xs := by
  rw [writeAll, write_of_fits h]

theorem writeAll_of_not_fits {x : α} (h : ¬ s.Fits (text x).toUTF8) (xs : List α) :
    s.writeAll text (x :: xs) = (some x, s.offered (text x).toUTF8) := by
  rw [writeAll, write_of_not_fits h]

/-- Whether or not a text fails, the stream has been offered them all. -/
theorem writeAll_snd (s : Sink) (xs : List α) :
    (s.writeAll text xs).2 = s.offered (bytesOf text xs) := by
  induction xs generalizing s with
  | nil => exact s.offered_empty.symm
  | cons x xs ih =>
      rw [bytesOf_cons, offered_append]
      by_cases h : s.Fits (text x).toUTF8
      · rw [writeAll_of_fits h, ih]
      · rw [writeAll_of_not_fits h, offered_offered_of_not_fits h]

theorem writeAll_fst_eq_none_iff (s : Sink) (xs : List α) :
    (s.writeAll text xs).1 = none ↔ s.Fits (bytesOf text xs) := by
  induction xs generalizing s with
  | nil => exact iff_of_true rfl s.fits_empty
  | cons x xs ih =>
      rw [bytesOf_cons, fits_append]
      by_cases h : s.Fits (text x).toUTF8
      · rw [writeAll_of_fits h, ih, and_iff_right h]
      · rw [writeAll_of_not_fits h]
        exact iff_of_false (by simp) fun h' => h h'.1

/-- The text that fails is the one in which the room ends. -/
theorem exists_of_writeAll {xs : List α} {x : α} (h : (s.writeAll text xs).1 = some x) :
    ∃ front back, xs = front ++ x :: back ∧ s.Fits (bytesOf text front)
      ∧ ¬ s.Fits (bytesOf text (front ++ [x])) := by
  induction xs generalizing s with
  | nil => cases h
  | cons y xs ih =>
      by_cases hy : s.Fits (text y).toUTF8
      · rw [writeAll_of_fits hy] at h
        obtain ⟨front, back, rfl, hfits, hends⟩ := ih h
        refine ⟨y :: front, back, rfl, ?_, fun hall => hends ?_⟩
        · rw [bytesOf_cons, fits_append]
          exact ⟨hy, hfits⟩
        · rw [List.cons_append, bytesOf_cons, fits_append] at hall
          exact hall.2
      · rw [writeAll_of_not_fits hy] at h
        obtain rfl : y = x := Option.some.inj h
        refine ⟨[], xs, rfl, s.fits_empty, ?_⟩
        rwa [List.nil_append, bytesOf_singleton]

end

/-! ## From the start -/

theorem fits_limited (n : Nat) (fault : DiskFault) :
    (limited n fault).Fits a ↔ a.size ≤ n :=
  fits_iff rfl

theorem taken_limited (n : Nat) (fault : DiskFault) (a : ByteArray) :
    ((limited n fault).offered a).taken = a.extract 0 n := by
  rw [taken_offered_of_limit rfl]
  exact ByteArray.empty_append

/-- The text that fails a limited stream holds the byte at the limit. -/
theorem exists_of_limit_lt {α : Type} {text : α → String} {n : Nat} (fault : DiskFault)
    {xs : List α} (h : n < (bytesOf text xs).size) :
    ∃ x ∈ xs, ((limited n fault).writeAll text xs).1 = some x
      ∧ ∃ (i : Nat) (hi : i < (text x).toUTF8.size),
        (bytesOf text xs)[n] = (text x).toUTF8[i] := by
  have hfails : ((limited n fault).writeAll text xs).1 ≠ none := by
    rw [Ne, writeAll_fst_eq_none_iff, fits_limited]
    omega
  obtain ⟨x, hx⟩ := Option.ne_none_iff_exists'.mp hfails
  obtain ⟨front, back, rfl, hfront, hends⟩ := exists_of_writeAll hx
  rw [fits_limited] at hfront hends
  rw [bytesOf_append, bytesOf_singleton, ByteArray.size_append] at hends
  refine ⟨x, List.mem_append_right _ (List.mem_cons_self ..), hx,
    n - (bytesOf text front).size, by omega, ?_⟩
  simp only [bytesOf_append, bytesOf_cons]
  rw [ByteArray.getElem_append_right hfront, ByteArray.getElem_append_left (by omega)]

theorem taken_of_fits (hs : s.taken = ByteArray.empty) (h : s.Fits a) :
    (s.offered a).taken = a := by
  rw [taken_offered_of_fits h, hs, ByteArray.empty_append]

end Sink

namespace Effect

def IsOut : Effect → Prop
  | .print _ | .printObject _ => True
  | .flush | .complain _ | .log _ => False

/-- The failure of an effect whose stream has a fault. -/
def failure (fault : DiskFault) : Effect → Failure
  | .printObject _ => .json fault
  | _ => .disk fault

end Effect

namespace Streams

theorem performAll_append (s : Streams) (es fs : List Effect) :
    s.performAll (es ++ fs) =
      match s.performAll es with
      | (none, s) => s.performAll fs
      | (some failure, s) => (some failure, s) := by
  induction es generalizing s with
  | nil => rfl
  | cons e es ih =>
      rw [List.cons_append, performAll, performAll]
      split
      · exact ih _
      · rfl

section

variable (get : Streams → Sink) (put : Streams → Sink → Streams) (text : Effect → String)

/-- Effects that write to one of the streams write their texts to it in a
row. `get` and `put` say which stream that is. -/
theorem performAll_eq_writeAll (hget : ∀ s k, get (put s k) = k)
    (hput : ∀ s k k', put (put s k) k' = put s k') (hself : ∀ s, put s (get s) = s)
    {es : List Effect}
    (h : ∀ e ∈ es, ∀ s : Streams,
      s.perform e =
        (((get s).write (text e)).1.map (e.failure ·), put s ((get s).write (text e)).2))
    (s : Streams) :
    s.performAll es =
      (((get s).writeAll text es).1.map (·.failure (get s).fault),
        put s ((get s).writeAll text es).2) := by
  -- `put` is all that an effect does to the streams, so the next one finds `get` of it
  induction es generalizing s with
  | nil => exact congrArg (none, ·) (hself s).symm
  | cons e es ih =>
      have he := h e (List.mem_cons_self ..) s
      by_cases hfits : (get s).Fits (text e).toUTF8
      · rw [performAll, he, Sink.write_of_fits hfits, Sink.writeAll_of_fits hfits]
        have ih := ih (fun e' he' => h e' (List.mem_cons_of_mem _ he'))
          (put s ((get s).offered (text e).toUTF8))
        rw [hget, hput] at ih
        exact ih
      · rw [performAll, he, Sink.write_of_not_fits hfits, Sink.writeAll_of_not_fits hfits]
        rfl

end

theorem performAll_out {es : List Effect} (h : ∀ e ∈ es, e.IsOut) (s : Streams) :
    s.performAll es =
      ((s.out.writeAll Effect.outText es).1.map (·.failure s.out.fault),
        { s with out := s.out.offered (Sink.bytesOf Effect.outText es) }) := by
  rw [← Sink.writeAll_snd]
  refine performAll_eq_writeAll Streams.out (fun s out => { s with out }) Effect.outText
    (fun _ _ => rfl) (fun _ _ _ => rfl) (fun _ => rfl) (fun e he s => ?_) s
  have he := h e he
  cases e with
  | print text => rfl
  | printObject text => rfl
  | _ => cases he

/-- All failures of complaints are alike. -/
theorem performAll_complaints {es : List Effect} (h : ∀ e ∈ es, ∃ text, e = .complain text)
    (s : Streams) :
    s.performAll es =
      (if s.err.Fits (Sink.bytesOf Effect.errText es) then none else some (.disk s.err.fault),
        { s with err := s.err.offered (Sink.bytesOf Effect.errText es) }) := by
  have hall : s.performAll es =
      ((s.err.writeAll Effect.errText es).1.map (·.failure s.err.fault),
        { s with err := (s.err.writeAll Effect.errText es).2 }) := by
    refine performAll_eq_writeAll Streams.err (fun s err => { s with err }) Effect.errText
      (fun _ _ => rfl) (fun _ _ _ => rfl) (fun _ => rfl) (fun e he s => ?_) s
    obtain ⟨text, rfl⟩ := h e he
    rfl
  rw [hall, Sink.writeAll_snd]
  cases hfailed : (s.err.writeAll Effect.errText es).1 with
  | none => rw [if_pos ((Sink.writeAll_fst_eq_none_iff ..).mp hfailed), Option.map_none]
  | some e =>
      have hfits : ¬ s.err.Fits (Sink.bytesOf Effect.errText es) := by
        rw [← Sink.writeAll_fst_eq_none_iff, hfailed]
        exact Option.some_ne_none e
      obtain ⟨front, back, hes, -⟩ := Sink.exists_of_writeAll hfailed
      obtain ⟨text, rfl⟩ := h e (hes ▸ List.mem_append_right _ (List.mem_cons_self ..))
      rw [if_neg hfits]
      rfl

/-! ## Streams that take everything -/

/-- No write fails and no flush does. -/
structure Open (s : Streams) : Prop where
  out : s.out.limit = none
  err : s.err.limit = none
  flush : s.flushFault = none

theorem open_unlimited : unlimited.Open := ⟨rfl, rfl, rfl⟩

/-- The streams after both were offered what some effects have for
them. -/
def offered (s : Streams) (es : List Effect) : Streams :=
  { s with
    out := s.out.offered (Sink.bytesOf Effect.outText es)
    err := s.err.offered (Sink.bytesOf Effect.errText es) }

theorem Open.offered {s : Streams} (h : s.Open) (es : List Effect) : (s.offered es).Open :=
  ⟨h.out, h.err, h.flush⟩

theorem offered_nil (s : Streams) : s.offered [] = s := by
  show { s with out := s.out.offered .empty, err := s.err.offered .empty } = s
  rw [Sink.offered_empty, Sink.offered_empty]

theorem offered_cons (s : Streams) (e : Effect) (es : List Effect) :
    s.offered (e :: es) = (s.offered [e]).offered es := by
  simp only [offered, Sink.bytesOf_cons _ es, Sink.bytesOf_singleton, Sink.offered_append]

theorem Open.perform {s : Streams} (h : s.Open) (e : Effect) :
    s.perform e = (none, s.offered [e]) := by
  have hout (text : String) : s.out.write text = (none, s.out.offered text.toUTF8) :=
    Sink.write_of_fits (Sink.fits_of_unlimited h.out _)
  have herr (text : String) : s.err.write text = (none, s.err.offered text.toUTF8) :=
    Sink.write_of_fits (Sink.fits_of_unlimited h.err _)
  have hempty (k : Sink) : k.offered "".toUTF8 = k := k.offered_empty
  rw [Streams.offered, Sink.bytesOf_singleton, Sink.bytesOf_singleton]
  cases e with
  | print text | printObject text =>
      simp only [Streams.perform, toOut, hout, Effect.outText, Effect.errText, hempty,
        Option.map_none]
  | complain text | log entry =>
      simp only [Streams.perform, toErr, herr, Effect.outText, Effect.errText, hempty,
        Option.map_none]
  | flush =>
      simp only [Streams.perform, Effect.outText, Effect.errText, hempty]
      show (s.flushFault.map Failure.disk, s) = (none, s)
      rw [h.flush, Option.map_none]

/-- Nothing fails, and all that the effects have is taken. -/
theorem Open.performAll {s : Streams} (h : s.Open) (es : List Effect) :
    s.performAll es = (none, s.offered es) := by
  induction es generalizing s with
  | nil => rw [Streams.performAll, offered_nil]
  | cons e es ih =>
      rw [Streams.performAll, h.perform, offered_cons s e es]
      exact ih (h.offered [e])

theorem performAll_unlimited (es : List Effect) :
    unlimited.performAll es = (none, unlimited.offered es) :=
  open_unlimited.performAll es

theorem taken_out_offered (es : List Effect) :
    (unlimited.offered es).out.taken = Sink.bytesOf Effect.outText es :=
  Sink.taken_of_fits rfl (Sink.fits_of_unlimited rfl _)

theorem taken_err_offered (es : List Effect) :
    (unlimited.offered es).err.taken = Sink.bytesOf Effect.errText es :=
  Sink.taken_of_fits rfl (Sink.fits_of_unlimited rfl _)

/-! ## Ways to fail -/

/-- How streams can fail that are offered these bytes: one of them has no
room for its own, or the output cannot be flushed. -/
inductive Refuses (s : Streams) (out err : ByteArray) : Failure → Prop
  | print : ¬ s.out.Fits out → Refuses s out err (.disk s.out.fault)
  | object : ¬ s.out.Fits out → Refuses s out err (.json s.out.fault)
  | flush {fault : DiskFault} : s.flushFault = some fault → Refuses s out err (.disk fault)
  | complain : ¬ s.err.Fits err → Refuses s out err (.disk s.err.fault)

theorem perform_snd (s : Streams) (e : Effect) : (s.perform e).2 = s.offered [e] := by
  have hempty (k : Sink) : k.offered "".toUTF8 = k := k.offered_empty
  rw [offered, Sink.bytesOf_singleton, Sink.bytesOf_singleton]
  cases e <;>
    simp only [perform, toOut, toErr, Sink.write_snd, Effect.outText, Effect.errText, hempty]

theorem refuses_of_perform {s : Streams} {e : Effect} {f : Failure}
    (h : (s.perform e).1 = some f) :
    s.Refuses (Sink.bytesOf Effect.outText [e]) (Sink.bytesOf Effect.errText [e]) f := by
  -- a stream that has room says nothing
  have hwrite {k : Sink} {text : String} {fault : DiskFault} (h : (k.write text).1 = some fault) :
      fault = k.fault ∧ ¬ k.Fits text.toUTF8 := by
    by_cases hfits : k.Fits text.toUTF8
    · rw [Sink.write_of_fits hfits] at h
      cases h
    · rw [Sink.write_of_not_fits hfits] at h
      exact ⟨(Option.some.inj h).symm, hfits⟩
  rw [Sink.bytesOf_singleton, Sink.bytesOf_singleton]
  cases e with
  | print text =>
      obtain ⟨fault, hfault, rfl⟩ := Option.map_eq_some_iff.mp h
      obtain ⟨rfl, hfits⟩ := hwrite hfault
      exact .print hfits
  | printObject text =>
      obtain ⟨fault, hfault, rfl⟩ := Option.map_eq_some_iff.mp h
      obtain ⟨rfl, hfits⟩ := hwrite hfault
      exact .object hfits
  | flush =>
      obtain ⟨fault, hfault, rfl⟩ := Option.map_eq_some_iff.mp h
      exact .flush hfault
  | complain text =>
      obtain ⟨fault, hfault, rfl⟩ := Option.map_eq_some_iff.mp h
      obtain ⟨rfl, hfits⟩ := hwrite hfault
      exact .complain hfits
  | log entry => cases h

theorem Refuses.append {s : Streams} {a a' b b' : ByteArray} {f : Failure}
    (h : s.Refuses a b f) : s.Refuses (a ++ a') (b ++ b') f := by
  cases h with
  | print hno => exact .print fun hfits => hno (Sink.fits_append.mp hfits).1
  | object hno => exact .object fun hfits => hno (Sink.fits_append.mp hfits).1
  | flush hfault => exact .flush hfault
  | complain hno => exact .complain fun hfits => hno (Sink.fits_append.mp hfits).1

/-- What is refused behind some effects is refused together with them. -/
theorem Refuses.of_offered {s : Streams} {es : List Effect} {a b : ByteArray} {f : Failure}
    (h : (s.offered es).Refuses a b f) :
    s.Refuses (Sink.bytesOf Effect.outText es ++ a) (Sink.bytesOf Effect.errText es ++ b) f := by
  cases h with
  | print hno => exact .print fun hfits => hno (Sink.fits_append.mp hfits).2
  | object hno => exact .object fun hfits => hno (Sink.fits_append.mp hfits).2
  | flush hfault => exact .flush hfault
  | complain hno => exact .complain fun hfits => hno (Sink.fits_append.mp hfits).2

/-- Whatever the effects are, only streams make them fail. -/
theorem refuses_of_performAll {s : Streams} {es : List Effect} {f : Failure}
    (h : (s.performAll es).1 = some f) :
    s.Refuses (Sink.bytesOf Effect.outText es) (Sink.bytesOf Effect.errText es) f := by
  induction es generalizing s with
  | nil => cases h
  | cons e es ih =>
      have hsnd := s.perform_snd e
      have hfst := @refuses_of_perform s e f
      rw [performAll] at h
      rw [← List.singleton_append, Sink.bytesOf_append, Sink.bytesOf_append]
      rcases hperform : s.perform e with ⟨_ | failure, after⟩
      · rw [hperform] at h hsnd
        obtain rfl : after = s.offered [e] := hsnd
        exact (ih h).of_offered
      · rw [hperform] at h hfst
        exact (hfst h).append

end Streams

end LoxScan
