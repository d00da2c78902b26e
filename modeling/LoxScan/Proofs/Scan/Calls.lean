import LoxScan.Diagnostic.Handler
import LoxScan.Proofs.Scan.Whole

/-!
# Any order of calls

One scanner can be asked in several ways in turn: for the next token,
through its iterator once or a number of times, and to report an error of
the caller's own. `Scanner.run` performs a list of such calls and records
what happens in the order of time, reports included, so that a moment of
a run is a prefix of its events.

What the caller reports is an event and nothing else: without these
calls a run has the same events but those, and ends in the same scanner
(`run_filter_isReport`).
-/

namespace LoxScan

/-- What can be asked of a scanner. -/
inductive Call where
  | nextToken
  | next
  /-- The iterator, up to `n` times. -/
  | take (n : Nat)
  /-- An error of the caller's about the current lexeme. -/
  | reportError (code : Code) (message : String)
  deriving DecidableEq, Repr

def Call.isReport : Call → Bool
  | .reportError _ _ => true
  | _ => false

/-- What happens while a scanner is asked. -/
inductive Event where
  /-- The scanner reports an error of the source. -/
  | reported (d : Diagnostic)
  /-- The caller reports an error. -/
  | remarked (d : Diagnostic)
  | pulled (t : Token)
  | yielded (t : Token)
  | exhausted
  deriving DecidableEq, Repr

namespace Event

def token? : Event → Option Token
  | pulled t | yielded t => some t
  | _ => none

def item? : Event → Option Token
  | yielded t => some t
  | _ => none

def report? : Event → Option Diagnostic
  | reported d => some d
  | _ => none

/-- The diagnostic the reporter receives, if any. -/
def diagnostic? : Event → Option Diagnostic
  | reported d | remarked d => some d
  | _ => none

def isRemark : Event → Bool
  | remarked _ => true
  | _ => false

/-- Whether the event is that a token is obtained and it is the end
mark. -/
def isEnd (e : Event) : Bool := e.token?.any Token.isEof

end Event

/-- What happened, in the order of time, and the scanner after it. -/
structure Run where
  events : List Event
  scanner : Scanner

/-- A pull as it happens: its diagnostics, then the answer. -/
def Pull.run (p : Pull) (answer : Token → Event) : Run :=
  { events := p.reported.map .reported ++ [answer p.token], scanner := p.scanner }

def Run.andThen (r : Run) (f : Scanner → Run) : Run :=
  { events := r.events ++ (f r.scanner).events, scanner := (f r.scanner).scanner }

namespace Scanner

def iterate (s : Scanner) : Run :=
  match s.next with
  | none => { events := [.exhausted], scanner := s }
  | some p => p.run .yielded

/-- The iterator `n` times, or until it yields nothing. -/
def iterateTimes : Nat → Scanner → Run
  | 0, s => { events := [], scanner := s }
  | n + 1, s =>
    match s.next with
    | none => s.iterate
    | some _ => s.iterate.andThen (iterateTimes n)

/-- One call. A report of the caller's leaves the scanner as it is. -/
def perform (s : Scanner) : Call → Run
  | .nextToken => s.nextToken.run .pulled
  | .next => s.iterate
  | .take n => s.iterateTimes n
  | .reportError code message =>
      { events := [.remarked (s.diagnostic code message)], scanner := s }

def run : List Call → Scanner → Run
  | [], s => { events := [], scanner := s }
  | c :: cs, s => (s.perform c).andThen (run cs)

end Scanner

/-- The handler after it has heard what was reported, in the order of
time. -/
def Handler.hear (h : Handler) (es : List Event) : Handler :=
  es.foldl (fun h e => (e.diagnostic?.map h.report).getD h) h

theorem Handler.diagnostics_hear (h : Handler) (es : List Event) :
    (h.hear es).diagnostics = h.diagnostics ++ es.filterMap Event.diagnostic? := by
  induction es generalizing h with
  | nil => simp [hear]
  | cons e es ih =>
      have hcons : h.hear (e :: es) = ((e.diagnostic?.map h.report).getD h).hear es := rfl
      rw [hcons, ih]
      cases he : e.diagnostic? with
      | none => simp [he]
      | some d => simp [he]

def obtained (es : List Event) : List Token := es.filterMap Event.token?

def items (es : List Event) : List Token := es.filterMap Event.item?

def reports (es : List Event) : List Diagnostic := es.filterMap Event.report?

@[simp] theorem obtained_append (es fs : List Event) :
    obtained (es ++ fs) = obtained es ++ obtained fs := List.filterMap_append

@[simp] theorem items_append (es fs : List Event) :
    items (es ++ fs) = items es ++ items fs := List.filterMap_append

@[simp] theorem reports_append (es fs : List Event) :
    reports (es ++ fs) = reports es ++ reports fs := List.filterMap_append

theorem obtained_concat {e : Event} (h : e.token? = none) (es : List Event) :
    obtained (es ++ [e]) = obtained es := by
  rw [obtained_append, obtained, obtained, List.filterMap_cons_none h, List.filterMap_nil,
    List.append_nil]

theorem items_concat {e : Event} (h : e.item? = none) (es : List Event) :
    items (es ++ [e]) = items es := by
  rw [items_append, items, items, List.filterMap_cons_none h, List.filterMap_nil,
    List.append_nil]

theorem reports_concat {e : Event} (h : e.report? = none) (es : List Event) :
    reports (es ++ [e]) = reports es := by
  rw [reports_append, reports, reports, List.filterMap_cons_none h, List.filterMap_nil,
    List.append_nil]

@[simp] theorem obtained_reported (ds : List Diagnostic) :
    obtained (ds.map .reported) = [] := by
  simp [obtained, List.filterMap_map, Event.token?]

@[simp] theorem items_reported (ds : List Diagnostic) :
    items (ds.map .reported) = [] := by
  simp [items, List.filterMap_map, Event.item?]

@[simp] theorem reports_reported (ds : List Diagnostic) :
    reports (ds.map .reported) = ds := by
  simp [reports, List.filterMap_map, Function.comp_def, Event.report?]

namespace Pull

variable {p : Pull} {answer : Token → Event}

theorem obtained_run (hans : answer = .pulled ∨ answer = .yielded) :
    obtained (p.run answer).events = [p.token] := by
  rw [run, obtained_append, obtained_reported]
  rcases hans with rfl | rfl <;> rfl

theorem items_run : items (p.run answer).events = items [answer p.token] := by
  rw [run, items_append, items_reported, List.nil_append]

theorem report?_answer (hans : answer = .pulled ∨ answer = .yielded) :
    (answer p.token).report? = none := by
  rcases hans with rfl | rfl <;> rfl

theorem reports_run (hans : answer = .pulled ∨ answer = .yielded) :
    reports (p.run answer).events = p.reported := by
  rw [run, reports_concat (report?_answer hans), reports_reported]

end Pull

/-- A handler that hears a run without the caller's reports gets those of
the scanner. -/
theorem filterMap_diagnostic?_filter (es : List Event) :
    (es.filter (!·.isRemark)).filterMap Event.diagnostic? = reports es := by
  induction es with
  | nil => rfl
  | cons e es ih =>
      cases e with
      | reported d =>
          rw [List.filter_cons_of_pos rfl]
          exact congrArg (d :: ·) ih
      | remarked d => exact ih
      | _ =>
          rw [List.filter_cons_of_pos rfl]
          exact ih

namespace Scanner

variable {s : Scanner}

/-! ## The iterator -/

theorem iterate_of_unfinished (hf : s.finished = false) :
    s.iterate =
      { events := (s.nextToken.run .yielded).events
        scanner := s.nextToken.scanner.marked s.nextToken.token.isEof } := by
  rw [iterate, next_of_unfinished hf]
  rfl

theorem iterate_of_finished (hf : s.finished = true) :
    s.iterate = { events := [.exhausted], scanner := s } := by
  rw [iterate, next_of_finished hf]

theorem iterateTimes_of_unfinished (hf : s.finished = false) (n : Nat) :
    s.iterateTimes (n + 1) = s.iterate.andThen (iterateTimes n) := by
  rw [iterateTimes, next_of_unfinished hf]

theorem iterateTimes_of_finished (hf : s.finished = true) (n : Nat) :
    s.iterateTimes (n + 1) = s.iterate := by
  rw [iterateTimes, next_of_finished hf]

theorem iterateTimes_eq_take (n : Nat) (s : Scanner) :
    obtained (s.iterateTimes n).events = (s.take n).tokens
      ∧ items (s.iterateTimes n).events = (s.take n).tokens
      ∧ reports (s.iterateTimes n).events = (s.take n).reported
      ∧ (s.iterateTimes n).scanner = (s.take n).scanner := by
  induction n generalizing s with
  | zero => exact ⟨rfl, rfl, rfl, rfl⟩
  | succ n ih =>
      cases hf : s.finished with
      | true =>
          rw [iterateTimes_of_finished hf, iterate_of_finished hf, take_of_finished hf]
          exact ⟨rfl, rfl, rfl, rfl⟩
      | false =>
          obtain ⟨ih1, ih2, ih3, ih4⟩ :=
            ih (s.nextToken.scanner.marked s.nextToken.token.isEof)
          rw [iterateTimes_of_unfinished hf, iterate_of_unfinished hf,
            take_succ_of_unfinished hf]
          simp only [Run.andThen, Pull.run, obtained_append, items_append, reports_append,
            obtained_reported, items_reported, reports_reported, ih1, ih2, ih3, ih4]
          exact ⟨rfl, rfl, by simp [reports, Event.report?], trivial⟩

/-! ## Runs -/

theorem run_append (cs ds : List Call) (s : Scanner) :
    run (cs ++ ds) s = (run cs s).andThen (run ds) := by
  induction cs generalizing s with
  | nil => rfl
  | cons c cs ih =>
      have hcons : run (c :: (cs ++ ds)) s = (s.perform c).andThen (run (cs ++ ds)) := rfl
      rw [List.cons_append, hcons]
      simp only [run, Run.andThen, ih, List.append_assoc]

theorem isRemark_of_mem_pull {p : Pull} {answer : Token → Event}
    (hans : (answer p.token).isRemark = false) {e : Event}
    (he : e ∈ (p.run answer).events) :
    e.isRemark = false := by
  rcases List.mem_append.mp he with he | he
  · obtain ⟨d, -, rfl⟩ := List.mem_map.mp he
    rfl
  · rw [List.mem_singleton.mp he, hans]

theorem isRemark_of_mem_iterate {e : Event} (he : e ∈ s.iterate.events) :
    e.isRemark = false := by
  cases hf : s.finished with
  | true =>
      rw [iterate_of_finished hf] at he
      rw [List.mem_singleton.mp he]
      rfl
  | false =>
      rw [iterate_of_unfinished hf] at he
      exact isRemark_of_mem_pull rfl he

theorem isRemark_of_mem_iterateTimes {n : Nat} {e : Event}
    (he : e ∈ (s.iterateTimes n).events) : e.isRemark = false := by
  induction n generalizing s with
  | zero => cases he
  | succ n ih =>
      cases hf : s.finished with
      | true =>
          rw [iterateTimes_of_finished hf] at he
          exact isRemark_of_mem_iterate he
      | false =>
          rw [iterateTimes_of_unfinished hf] at he
          rcases List.mem_append.mp he with he | he
          · exact isRemark_of_mem_iterate he
          · exact ih he

/-- Only the caller remarks. -/
theorem isRemark_of_mem_perform {c : Call} (hc : c.isReport = false) {e : Event}
    (he : e ∈ (s.perform c).events) : e.isRemark = false := by
  cases c with
  | nextToken => exact isRemark_of_mem_pull rfl he
  | next => exact isRemark_of_mem_iterate he
  | take n => exact isRemark_of_mem_iterateTimes he
  | reportError code message => cases hc

/-- Leaving out what the caller reports changes no other event, and not
the scanner. -/
theorem run_filter_isReport (cs : List Call) (s : Scanner) :
    run (cs.filter (!·.isReport)) s =
      { events := (run cs s).events.filter (!·.isRemark)
        scanner := (run cs s).scanner } := by
  induction cs generalizing s with
  | nil => rfl
  | cons c cs ih =>
      have hcons : run (c :: cs) s = (s.perform c).andThen (run cs) := rfl
      cases hc : c.isReport with
      | true =>
          rw [List.filter_cons_of_neg (by rw [hc]; decide), ih, hcons]
          cases c with
          | reportError code message => rfl
          | _ => cases hc
      | false =>
          have hkeep :
              (s.perform c).events.filter (!·.isRemark) = (s.perform c).events := by
            rw [List.filter_eq_self]
            intro e he
            rw [isRemark_of_mem_perform hc he]
            rfl
          rw [List.filter_cons_of_pos (by rw [hc]; rfl), run, hcons]
          simp only [Run.andThen, ih, List.filter_append, hkeep]

end Scanner

/-! ## What every run keeps -/

/-- A relation between what has happened and the scanner, kept by each
thing that can happen next. -/
structure Kept (I : List Event → Scanner → Prop) : Prop where
  pulled : ∀ {es s}, I es s →
    I (es ++ (s.nextToken.run .pulled).events) s.nextToken.scanner
  yielded : ∀ {es s}, s.finished = false → I es s →
    I (es ++ (s.nextToken.run .yielded).events)
      (s.nextToken.scanner.marked s.nextToken.token.isEof)
  exhausted : ∀ {es s}, I es s → I (es ++ [.exhausted]) s
  remarked : ∀ {es s} (code : Code) (message : String), I es s →
    I (es ++ [.remarked (s.diagnostic code message)]) s

namespace Kept

variable {I : List Event → Scanner → Prop} {es : List Event} {s : Scanner}

theorem iterate (hI : Kept I) (h : I es s) :
    I (es ++ s.iterate.events) s.iterate.scanner := by
  cases hf : s.finished with
  | true =>
      rw [Scanner.iterate_of_finished hf]
      exact hI.exhausted h
  | false =>
      rw [Scanner.iterate_of_unfinished hf]
      exact hI.yielded hf h

theorem iterateTimes (hI : Kept I) (n : Nat) (h : I es s) :
    I (es ++ (s.iterateTimes n).events) (s.iterateTimes n).scanner := by
  induction n generalizing es s with
  | zero => rwa [Scanner.iterateTimes, List.append_nil]
  | succ n ih =>
      cases hf : s.finished with
      | true =>
          rw [Scanner.iterateTimes_of_finished hf]
          exact hI.iterate h
      | false =>
          rw [Scanner.iterateTimes_of_unfinished hf, Run.andThen, ← List.append_assoc]
          exact ih (hI.iterate h)

theorem perform (hI : Kept I) (c : Call) (h : I es s) :
    I (es ++ (s.perform c).events) (s.perform c).scanner := by
  cases c with
  | nextToken => exact hI.pulled h
  | next => exact hI.iterate h
  | take n => exact hI.iterateTimes n h
  | reportError code message => exact hI.remarked code message h

/-- What each event keeps, every run keeps. -/
theorem run (hI : Kept I) (cs : List Call) (h : I es s) :
    I (es ++ (Scanner.run cs s).events) (Scanner.run cs s).scanner := by
  induction cs generalizing es s with
  | nil => rwa [Scanner.run, List.append_nil]
  | cons c cs ih =>
      rw [Scanner.run, Run.andThen, ← List.append_assoc]
      exact ih (hI.perform c h)

end Kept

end LoxScan
