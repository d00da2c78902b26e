import LoxScan.Proofs.Scan.Calls

/-!
# Lazy and eager reading agree

The invariant `Reads` says where a run stands in the segmentation of the
source: the segments passed have given the tokens and the diagnostics so
far, and only end marks came after them. It is kept by one pull
(`Reads.pull`), hence by every run (`kept_stands`), and all that is said
about the agreement of lazy and eager reading is read off it
(`run_agrees_scan`).
-/

namespace LoxScan

open Segment (textOf)

/-! ## Where a run stands -/

/-- The token at the end of a source with these segments. -/
def endMark (gs : List Segment) : Token :=
  Token.eof (UInt32.ofNat (Text.lineAfter (textOf gs)))

/-- After the events `es` the segments `passed` are behind the scanner
and `left` ahead of it. The tokens obtained are those of `passed` and
then `k` end marks. -/
structure Reads (gs : List Segment) (es : List Event) (s : Scanner)
    (passed left : List Segment) (k : Nat) : Prop where
  split : gs = passed ++ left
  place : s.cursor.At (textOf passed)
  ahead : Segmented s.cursor.rest left []
  obtained : obtained es = Segment.tokens [] passed ++ List.replicate k (endMark gs)
  ended : 0 < k → left = []
  reports : reports es = Segment.diagnostics [] passed
  finished : s.finished = (items es).any Token.isEof
  /-- Once the end mark is obtained there is no report any more. -/
  quiet : es.Pairwise fun e f => e.isEnd = true → f.report? = none

theorem reads_ofSource {source : String} {gs : List Segment}
    (hseg : Segmented source.toList gs []) :
    Reads gs [] (.ofSource source) [] gs 0 where
  split := rfl
  place := Cursor.at_ofSource source
  ahead := hseg
  obtained := rfl
  ended := fun h => absurd h (Nat.lt_irrefl 0)
  reports := rfl
  finished := rfl
  quiet := List.Pairwise.nil

theorem isEof_of_mem_tokens {before : List Char} {gs : List Segment}
    (h : ∀ g ∈ gs, g.WellFormed) {t : Token} (ht : t ∈ Segment.tokens before gs) :
    t.isEof = false := by
  have hl := Segment.isLexeme_of_mem_tokens h ht
  rw [Token.isEof, beq_eq_false_iff_ne]
  intro hk
  rw [hk] at hl
  cases hl

namespace Reads

variable {source : String} {gs passed left : List Segment} {es : List Event} {s : Scanner}
  {k : Nat}

theorem wellFormed_passed (hseg : Segmented source.toList gs [])
    (h : Reads gs es s passed left k) : ∀ g ∈ passed, g.WellFormed := by
  intro g hg
  refine hseg.wellFormed g ?_
  rw [h.split]
  exact List.mem_append_left _ hg

/-- An end mark has been obtained only at the end. -/
theorem pos_of_isEof (hseg : Segmented source.toList gs [])
    (h : Reads gs es s passed left k) {t : Token} (ht : t ∈ LoxScan.obtained es)
    (heof : t.isEof = true) : 0 < k := by
  rw [h.obtained] at ht
  rcases List.mem_append.mp ht with ht | ht
  · rw [isEof_of_mem_tokens (h.wellFormed_passed hseg) ht] at heof
    cases heof
  · exact Nat.pos_of_ne_zero (List.mem_replicate.mp ht).1

theorem pos_of_isEnd (hseg : Segmented source.toList gs [])
    (h : Reads gs es s passed left k) {e : Event} (he : e ∈ es) (hend : e.isEnd = true) :
    0 < k := by
  cases ht : e.token? with
  | none =>
      rw [Event.isEnd, ht] at hend
      cases hend
  | some t =>
      rw [Event.isEnd, ht] at hend
      exact h.pos_of_isEof hseg (List.mem_filterMap.mpr ⟨e, he, ht⟩) hend

/-- At the end of the source a pull reports nothing, so nothing is
reported behind an end mark. -/
theorem quiet_pull (hseg : Segmented source.toList gs []) (h : Reads gs es s passed left k)
    {p : Pull} (hreported : 0 < k → p.reported = []) {answer : Token → Event}
    (hans : answer = .pulled ∨ answer = .yielded) :
    (es ++ (p.run answer).events).Pairwise
      fun e f => e.isEnd = true → f.report? = none := by
  have hreport := p.report?_answer hans
  refine List.pairwise_append.mpr ⟨h.quiet, List.pairwise_append.mpr
    ⟨?_, List.pairwise_singleton .., ?_⟩, ?_⟩
  · refine List.pairwise_of_forall_mem_list fun e he f _ hend => ?_
    obtain ⟨d, -, rfl⟩ := List.mem_map.mp he
    cases hend
  · intro e _ f hf _
    rw [List.mem_singleton.mp hf, hreport]
  · intro e he f hf hend
    have hk := h.pos_of_isEnd hseg he hend
    rw [Pull.run, hreported hk, List.map_nil, List.nil_append] at hf
    rw [List.mem_singleton.mp hf, hreport]

/-- The step: a pull keeps the invariant. Its scanner is given with the
iterator's mark, which is the only thing the two ways of pulling do
differently. -/
theorem pull (hseg : Segmented source.toList gs []) (h : Reads gs es s passed left k)
    {answer : Token → Event} (hans : answer = .pulled ∨ answer = .yielded) {b : Bool}
    (hb : b = (items (es ++ [answer s.nextToken.token])).any Token.isEof) :
    ∃ passed' left' k',
      Reads gs (es ++ (s.nextToken.run answer).events) (s.nextToken.scanner.marked b)
        passed' left' k' := by
  obtain ⟨front, back, hp⟩ := Scanner.exists_passes h.place h.ahead
  generalize s.nextToken = p at hp hb ⊢
  have hfront : 0 < k → front = [] := by
    intro hk
    have hleft := h.ended hk
    rw [hp.split, List.append_eq_nil_iff] at hleft
    exact hleft.1
  have hobtained : LoxScan.obtained (es ++ (p.run answer).events)
      = Segment.tokens [] passed ++ List.replicate k (endMark gs) ++ [p.token] := by
    rw [obtained_append, Pull.obtained_run hans, h.obtained]
  have hreports : LoxScan.reports (es ++ (p.run answer).events)
      = Segment.diagnostics [] (passed ++ front) := by
    rw [reports_append, Pull.reports_run hans, h.reports, hp.reported,
      Segment.diagnostics_append, List.nil_append]
  have hfinished : b = (items (es ++ (p.run answer).events)).any Token.isEof := by
    rw [hb, items_append, items_append, Pull.items_run]
  have hquiet := h.quiet_pull hseg (fun hk => by rw [hp.reported, hfront hk]; rfl) hans
  have hsplit : gs = passed ++ front ++ back := by
    rw [h.split, hp.split, List.append_assoc]
  have hplace : (p.scanner.marked b).cursor.At (textOf (passed ++ front)) := by
    rw [Segment.textOf_append]
    exact hp.place
  rcases hp.token with ⟨heof, htokens⟩ | ⟨ht, htokens, hback⟩
  · -- a token: no end mark can have been obtained before
    have hk : k = 0 := by
      by_contra hk
      rw [hfront (Nat.pos_of_ne_zero hk)] at htokens
      cases htokens
    refine ⟨passed ++ front, back, 0, hsplit, hplace, hp.ahead, ?_,
      fun h => absurd h (Nat.lt_irrefl 0), hreports, hfinished, hquiet⟩
    rw [hobtained, hk, Segment.tokens_append, List.nil_append, htokens]
    simp
  · -- the end mark, once more
    refine ⟨passed ++ front, back, k + 1, hsplit, hplace, hp.ahead, ?_,
      fun _ => hback, hreports, hfinished, hquiet⟩
    have hend : p.token = endMark gs := by
      rw [ht, endMark, hsplit, hback, List.append_nil, Segment.textOf_append]
    rw [hobtained, hend, Segment.tokens_append, List.nil_append, htokens, List.append_nil,
      List.append_assoc, List.replicate_succ']

/-- An event that obtains nothing and reports nothing changes nothing. -/
theorem silent (h : Reads gs es s passed left k) {e : Event} (ht : e.token? = none)
    (hi : e.item? = none) (hr : e.report? = none) :
    Reads gs (es ++ [e]) s passed left k where
  split := h.split
  place := h.place
  ahead := h.ahead
  obtained := (obtained_concat ht es).trans h.obtained
  ended := h.ended
  reports := (reports_concat hr es).trans h.reports
  finished := by
    rw [items_concat hi, h.finished]
  quiet := by
    refine List.pairwise_append.mpr ⟨h.quiet, List.pairwise_singleton .., ?_⟩
    intro f _ e' he' _
    rw [List.mem_singleton.mp he', hr]

end Reads

/-! ## Every run stands somewhere -/

/-- The run stands somewhere in the segmentation. -/
def Stands (gs : List Segment) (es : List Event) (s : Scanner) : Prop :=
  ∃ passed left k, Reads gs es s passed left k

theorem kept_stands {source : String} {gs : List Segment}
    (hseg : Segmented source.toList gs []) : Kept (Stands gs) where
  pulled := by
    rintro es s ⟨passed, left, k, h⟩
    have hb :
        s.finished = (items (es ++ [.pulled s.nextToken.token])).any Token.isEof := by
      rw [h.finished, items_append]
      exact congrArg (List.any · _) (List.append_nil _).symm
    have hsame : s.nextToken.scanner.marked s.finished = s.nextToken.scanner := by
      rw [← Scanner.finished_nextToken h.place]
      rfl
    rw [← hsame]
    exact h.pull hseg (Or.inl rfl) hb
  yielded := by
    rintro es s hf ⟨passed, left, k, h⟩
    have hb : s.nextToken.token.isEof
        = (items (es ++ [.yielded s.nextToken.token])).any Token.isEof := by
      rw [items_append, List.any_append, ← h.finished, hf]
      exact (Bool.or_false _).symm
    exact h.pull hseg (Or.inr rfl) hb
  exhausted := by
    rintro es s ⟨passed, left, k, h⟩
    exact ⟨passed, left, k, h.silent rfl rfl rfl⟩
  remarked := by
    rintro es s code message ⟨passed, left, k, h⟩
    exact ⟨passed, left, k, h.silent rfl rfl rfl⟩

theorem stands_ofSource {source : String} {gs : List Segment}
    (hseg : Segmented source.toList gs []) : Stands gs [] (.ofSource source) :=
  ⟨[], gs, 0, reads_ofSource hseg⟩

/-! ## What a run has read -/

theorem scan_eq_endMark {source : String} {gs : List Segment}
    (hseg : Segmented source.toList gs []) :
    (scan source).tokens = Segment.tokens [] gs ++ [endMark gs] := by
  rw [(scan_of_segmented hseg).1, endMark, hseg.textOf_eq]

namespace Reads

variable {source : String} {gs passed left : List Segment} {es : List Event} {s : Scanner}
  {k : Nat}

theorem eq_passed (h : Reads gs es s passed left k) (hk : 0 < k) : gs = passed := by
  rw [h.split, h.ended hk, List.append_nil]

theorem tokens_eq (h : Reads gs es s passed left k) :
    Segment.tokens [] gs
      = Segment.tokens [] passed ++ Segment.tokens (textOf passed) left := by
  rw [h.split, Segment.tokens_append, List.nil_append]

theorem diagnostics_eq (h : Reads gs es s passed left k) :
    Segment.diagnostics [] gs
      = LoxScan.reports es ++ Segment.diagnostics (textOf passed) left := by
  rw [h.reports, h.split, Segment.diagnostics_append, List.nil_append]

/-- The tokens obtained are those of the source, the end mark over and
over. -/
theorem getElem?_obtained (h : Reads gs es s passed left k) {j : Nat} {t : Token}
    (ht : (LoxScan.obtained es)[j]? = some t) :
    (Segment.tokens [] gs ++ [endMark gs])[min j (Segment.tokens [] gs).length]?
      = some t := by
  have hlen :
      (Segment.tokens [] passed).length ≤ (Segment.tokens [] gs).length := by
    rw [h.tokens_eq, List.length_append]
    exact Nat.le_add_right ..
  rw [h.obtained] at ht
  rcases Nat.lt_or_ge j (Segment.tokens [] passed).length with hj | hj
  · have hmin : min j (Segment.tokens [] gs).length = j := Nat.min_eq_left (by omega)
    rw [List.getElem?_append_left hj] at ht
    rw [hmin, List.getElem?_append_left (by omega), h.tokens_eq,
      List.getElem?_append_left hj, ht]
  · rw [List.getElem?_append_right hj, List.getElem?_replicate] at ht
    split at ht
    · rename_i hk
      have hgs := h.eq_passed (Nat.zero_lt_of_lt hk)
      rw [← hgs] at hj
      rw [Nat.min_eq_right hj, List.getElem?_append_right (Nat.le_refl _), Nat.sub_self]
      exact ht
    · cases ht

theorem next_eq_none_iff (h : Reads gs es s passed left k) :
    s.next = none ↔ ∃ t ∈ items es, t.isEof = true := by
  rw [← List.any_eq_true, ← h.finished]
  cases hf : s.finished with
  | true => simp [Scanner.next_of_finished hf]
  | false => simp [Scanner.next_of_unfinished hf]

theorem mem_obtained_of_mem_items {t : Token} (ht : t ∈ items es) :
    t ∈ LoxScan.obtained es := by
  obtain ⟨e, he, hi⟩ := List.mem_filterMap.mp ht
  refine List.mem_filterMap.mpr ⟨e, he, ?_⟩
  cases e with
  | yielded t => exact hi
  | _ => cases hi

/-- An iterator that is done has seen all. -/
theorem pos_of_finished (hseg : Segmented source.toList gs [])
    (h : Reads gs es s passed left k) (hf : s.finished = true) : 0 < k := by
  rw [h.finished, List.any_eq_true] at hf
  obtain ⟨t, ht, heof⟩ := hf
  exact h.pos_of_isEof hseg (mem_obtained_of_mem_items ht) heof

/-- What is left, if the iterator is not done, comes all at once. -/
theorem scanTokens_of_unfinished (h : Reads gs es s passed left k)
    (hf : s.finished = false) :
    s.scanTokens.tokens = Segment.tokens (textOf passed) left ++ [endMark gs]
      ∧ s.scanTokens.reported = Segment.diagnostics (textOf passed) left := by
  obtain ⟨htokens, hreported, -⟩ :=
    Scanner.take_of_segmented h.place hf h.ahead (Nat.lt_succ_self _)
  have htext : textOf passed ++ textOf left = textOf gs := by
    rw [h.split, Segment.textOf_append]
  rw [htext] at htokens
  exact ⟨htokens, hreported⟩

theorem scanTokens_of_finished (hf : s.finished = true) :
    s.scanTokens.tokens = [] ∧ s.scanTokens.reported = [] := by
  rw [Scanner.scanTokens, Scanner.take_of_finished hf]
  exact ⟨rfl, rfl⟩

theorem length_obtained (h : Reads gs es s passed left k) :
    (LoxScan.obtained es).length = (Segment.tokens [] passed).length + k := by
  rw [h.obtained, List.length_append, List.length_replicate]

/-- An end mark has been obtained exactly if more tokens have been than
there are lexemes. -/
theorem pos_iff (h : Reads gs es s passed left k) :
    0 < k ↔ (Segment.tokens [] gs).length < (LoxScan.obtained es).length := by
  rw [h.length_obtained]
  constructor
  · intro hk
    rw [h.eq_passed hk]
    omega
  · intro hlt
    rw [h.tokens_eq, List.length_append] at hlt
    omega

theorem unfinished_of_length_le (hseg : Segmented source.toList gs [])
    (h : Reads gs es s passed left k)
    (hle : (LoxScan.obtained es).length ≤ (Segment.tokens [] gs).length) :
    s.finished = false := by
  rw [← Bool.not_eq_true]
  intro hf
  have hlt := h.pos_iff.mp (h.pos_of_finished hseg hf)
  omega

/-- What has not been obtained yet comes, and nothing else. -/
theorem scanTokens_of_length_le (hseg : Segmented source.toList gs [])
    (h : Reads gs es s passed left k)
    (hle : (LoxScan.obtained es).length ≤ (Segment.tokens [] gs).length) :
    s.scanTokens.tokens
      = (Segment.tokens [] gs ++ [endMark gs]).drop (LoxScan.obtained es).length := by
  have hk : k = 0 := by
    by_contra hk
    have hlt := h.pos_iff.mp (Nat.pos_of_ne_zero hk)
    omega
  rw [(h.scanTokens_of_unfinished (h.unfinished_of_length_le hseg hle)).1, h.tokens_eq,
    List.append_assoc, h.length_obtained, hk, Nat.add_zero, List.drop_left]

/-- Behind the end, an iterator that has not seen the end mark gives
it. -/
theorem scanTokens_of_lt_length (h : Reads gs es s passed left k)
    (hlt : (Segment.tokens [] gs).length < (LoxScan.obtained es).length)
    (hno : ∀ t ∈ items es, t.isEof = false) : s.scanTokens.tokens = [endMark gs] := by
  have hf : s.finished = false := by
    rw [h.finished, ← Bool.not_eq_true, List.any_eq_true]
    rintro ⟨t, ht, heof⟩
    rw [hno t ht] at heof
    cases heof
  rw [(h.scanTokens_of_unfinished hf).1, h.ended (h.pos_iff.mpr hlt)]
  rfl

theorem scanTokens_reported (hseg : Segmented source.toList gs [])
    (h : Reads gs es s passed left k) :
    LoxScan.reports es ++ s.scanTokens.reported = Segment.diagnostics [] gs := by
  rw [h.diagnostics_eq]
  cases hf : s.finished with
  | true =>
      rw [(scanTokens_of_finished hf).2, h.ended (h.pos_of_finished hseg hf)]
      rfl
  | false => rw [(h.scanTokens_of_unfinished hf).2]

/-- Once the end mark is obtained all has been reported. -/
theorem reports_of_isEof (hseg : Segmented source.toList gs [])
    (h : Reads gs es s passed left k) {fs : List Event} (hfs : fs <+: es)
    (heof : ∃ t ∈ LoxScan.obtained fs, t.isEof = true) :
    LoxScan.reports fs = Segment.diagnostics [] gs := by
  obtain ⟨later, rfl⟩ := hfs
  obtain ⟨t, ht, heof⟩ := heof
  obtain ⟨e, he, het⟩ := List.mem_filterMap.mp ht
  have hend : e.isEnd = true := by rwa [Event.isEnd, het]
  have hlater : LoxScan.reports later = [] := by
    refine List.filterMap_eq_nil_iff.mpr fun f hf => ?_
    exact (List.pairwise_append.mp h.quiet).2.2 e he f hf hend
  have hk := h.pos_of_isEnd hseg (List.mem_append_left _ he) hend
  rw [h.diagnostics_eq, reports_append, hlater, h.ended hk]
  simp [Segment.diagnostics, Segment.yields]

theorem nodup_reports (hseg : Segmented source.toList gs [])
    (h : Reads gs es s passed left k) : (LoxScan.reports es).Nodup := by
  rw [h.reports]
  refine (Segment.pairwise_start (h.wellFormed_passed hseg) []).imp fun hlt => ?_
  rintro rfl
  exact absurd hlt (Nat.lt_irrefl _)

end Reads

/-! ## Agreement -/

/-- What a run from the start of a source has to do with a scan of the
whole of it. -/
structure Run.Agrees (r : Run) (whole : Scan) : Prop where
  /-- The tokens obtained are those of the scan in order, its last one
  over and over. -/
  tokens : ∀ j t, (obtained r.events)[j]? = some t →
    whole.tokens[min j (whole.tokens.length - 1)]? = some t
  /-- The iterator is exhausted exactly if the end mark was among its own
  items. -/
  exhausted : r.scanner.next = none ↔ ∃ t ∈ items r.events, t.isEof = true
  /-- Then it stays so, whatever is asked. -/
  forever : r.scanner.next = none →
    ∀ calls, (Scanner.run calls r.scanner).scanner.next = none
  /-- Taking `n` items is asking the iterator up to `n` times. -/
  taken : ∀ n, let asked := r.scanner.perform (.take n)
    obtained asked.events = (r.scanner.take n).tokens
      ∧ items asked.events = (r.scanner.take n).tokens
      ∧ reports asked.events = (r.scanner.take n).reported
      ∧ asked.scanner = (r.scanner.take n).scanner
  /-- The rest at once is what has not been obtained. -/
  rest : (obtained r.events).length < whole.tokens.length →
    r.scanner.scanTokens.tokens = whole.tokens.drop (obtained r.events).length
  /-- If all has been obtained but the iterator does not know, the end
  mark is given once more. -/
  restEnd : whole.tokens.length ≤ (obtained r.events).length →
    (∀ t ∈ items r.events, t.isEof = false) →
    r.scanner.scanTokens.tokens = whole.tokens.getLast?.toList
  restNone : (∃ t ∈ items r.events, t.isEof = true) → r.scanner.scanTokens.tokens = []
  /-- At every moment the diagnostics are the first ones of the scan. -/
  moments : ∀ es, es <+: r.events → reports es <+: whole.diagnostics
  complete : ∀ es, es <+: r.events → (∃ t ∈ obtained es, t.isEof = true) →
    reports es = whole.diagnostics
  restReports : reports r.events ++ r.scanner.scanTokens.reported = whole.diagnostics
  distinct : (reports r.events).Nodup
  /-- A handler keeps what it holds, and without the caller's reports
  gets the scanner's. -/
  heard : ∀ (h : Handler) es, es <+: r.events →
    (h.hear es).diagnostics = h.diagnostics ++ es.filterMap Event.diagnostic?
      ∧ (h.hear (es.filter (!·.isRemark))).diagnostics = h.diagnostics ++ reports es

theorem Reads.agrees {source : String} {gs passed left : List Segment} {r : Run} {k : Nat}
    (hseg : Segmented source.toList gs [])
    (h : Reads gs r.events r.scanner passed left k) : r.Agrees (scan source) := by
  have htokens := scan_eq_endMark hseg
  have hdiagnostics := (scan_of_segmented hseg).2
  have hlength :
      (scan source).tokens.length = (Segment.tokens [] gs).length + 1 := by
    rw [htokens, List.length_append, List.length_singleton]
  refine
    { tokens := fun j t ht => ?_
      exhausted := h.next_eq_none_iff
      forever := fun hnone calls => ?_
      taken := fun n => Scanner.iterateTimes_eq_take n r.scanner
      rest := fun hlt => ?_
      restEnd := fun hle hno => ?_
      restNone := fun hitem => ?_
      moments := fun es hes => ?_
      complete := fun es hes heof => ?_
      restReports := ?_
      distinct := h.nodup_reports hseg
      heard := fun handler es _ => ⟨handler.diagnostics_hear es, ?_⟩ }
  · rw [hlength, Nat.add_sub_cancel, htokens]
    exact h.getElem?_obtained ht
  · obtain ⟨passed', left', k', h'⟩ := (kept_stands hseg).run calls ⟨passed, left, k, h⟩
    obtain ⟨t, ht, heof⟩ := h.next_eq_none_iff.mp hnone
    refine h'.next_eq_none_iff.mpr ⟨t, ?_, heof⟩
    rw [items_append]
    exact List.mem_append_left _ ht
  · rw [htokens]
    exact h.scanTokens_of_length_le hseg (by omega)
  · rw [htokens, List.getLast?_concat]
    exact h.scanTokens_of_lt_length (by omega) hno
  · have hf : r.scanner.finished = true := by
      rw [h.finished, List.any_eq_true]
      exact hitem
    exact (Reads.scanTokens_of_finished hf).1
  · obtain ⟨later, hlater⟩ := hes
    rw [hdiagnostics, h.diagnostics_eq, ← hlater, reports_append, List.append_assoc]
    exact List.prefix_append ..
  · rw [hdiagnostics]
    exact h.reports_of_isEof hseg hes heof
  · rw [hdiagnostics]
    exact h.scanTokens_reported hseg
  · rw [Handler.diagnostics_hear, filterMap_diagnostic?_filter]

/-- In whatever order a scanner is asked, it reads what a scan reads. The
end mark of the scan is its last token and only that; the run agrees with
the scan; and without the caller's reports the same run has the same
other events and the same scanner. -/
theorem run_agrees_scan (source : String) (calls : List Call) :
    (∃ tokens line, (scan source).tokens = tokens ++ [Token.eof line]
        ∧ ∀ t ∈ tokens, t.isEof = false)
      ∧ (Scanner.run calls (.ofSource source)).Agrees (scan source)
      ∧ Scanner.run (calls.filter (!·.isReport)) (.ofSource source) =
          { events := (Scanner.run calls (.ofSource source)).events.filter (!·.isRemark)
            scanner := (Scanner.run calls (.ofSource source)).scanner } := by
  obtain ⟨gs, hseg⟩ := exists_segmented source.toList
  obtain ⟨passed, left, k, h⟩ := (kept_stands hseg).run calls (stands_ofSource hseg)
  refine ⟨⟨_, _, scan_eq_endMark hseg, fun t ht => ?_⟩, h.agrees hseg,
    Scanner.run_filter_isReport calls _⟩
  exact isEof_of_mem_tokens hseg.wellFormed ht

end LoxScan
