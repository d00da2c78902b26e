import LoxScan.Proofs.Text.Json
import LoxScan.Token.Basic

/-!
# The object of a token

The JSON object of a token is one line, and a reader of JSON gets four
fields from it, in their order: what the token is, its text, its value
and its line (`Token.Recorded`). Only a number that is not finite is not
told, as it has no form in JSON.
-/

namespace LoxScan

open Text.Json (Value Member Reads Visible read? value? EndsNumber)

namespace Binary64

theorem isFinite_eq_false_iff {x : Binary64} :
    x.isFinite = false ↔ x.isInfinite = true ∨ x.isNaN = true := by
  simp only [isFinite, isInfinite, isNaN, decide_eq_false_iff_not, beq_iff_eq, decide_eq_true_eq]
  omega

end Binary64

/-- What a JSON value says of a literal. -/
structure Literal.Told (l : Option Literal) (value : Value) : Prop where
  null : value = .null ↔
    l = none ∨ ∃ x, l = some (.number x) ∧ (x.isInfinite = true ∨ x.isNaN = true)
  string : ∀ s, value = .string s ↔ l = some (.text s)
  number : (∃ n, value = .number n) ↔ ∃ x, l = some (.number x) ∧ x.isFinite = true

namespace Token

/-- The text of the third field. -/
def literalText (t : Token) : List Char :=
  match t.literal with
  | some l => l.json
  | none => "null".toList

/-- The fields of a token's object, its literal read as `value`. -/
def members (t : Token) (value : Value) : List Member :=
  [⟨"kind", Text.Json.quote t.kind.name.toList, .string t.kind.name⟩,
    ⟨"lexeme", Text.Json.quote t.lexeme.toList, .string t.lexeme⟩,
    ⟨"literal", t.literalText, value⟩,
    ⟨"line", (toString t.line.toNat).toList, .number ⟨false, t.line.toNat, 0⟩⟩]

theorem toList_json (t : Token) (value : Value) :
    t.json.toList =
      '{' :: (List.intercalate [','] ((t.members value).map Member.written) ++ ['}']) := by
  rw [json, String.toList_ofList]
  rfl

theorem reads_quote (depth : Nat) (s : String) :
    Reads (value? (depth + 1)) '}' (Text.Json.quote s.toList) (.string s) := by
  intro c rest _
  have h := Text.Json.value?_quote depth s.toList (c :: rest)
  rwa [String.ofList_toList] at h

theorem endsNumber_of_close {c : Char} (h : c = ',' ∨ c = '}') (rest : List Char) :
    EndsNumber (c :: rest) := by
  intro d hd
  cases hd
  rcases h with rfl | rfl <;> decide

/-- The third field is read as the value. -/
def TellsLiteral (t : Token) (value : Value) : Prop :=
  ∀ depth, Reads (value? (depth + 1)) '}' t.literalText value

/-- A finite number is told as its shortest decimal. -/
theorem tells_number {t : Token} {x : Binary64} (ht : t.literal = some (.number x))
    (hx : x.isFinite = true) :
    ∃ n : Text.Json.Number, n.negative = x.isNegative ∧ n.Writes (x.shortest .toEven)
      ∧ t.TellsLiteral (.number n) := by
  obtain ⟨text, htext⟩ : ∃ text, x.json? = some text := by
    rw [← Option.ne_none_iff_exists', Ne, Binary64.json?_eq_none_iff, hx]
    decide
  obtain ⟨n, hsign, hwrites, hn⟩ := Text.Json.number?_json htext
  refine ⟨n, hsign, hwrites, fun depth c rest hc => ?_⟩
  have hfield : t.literalText = text := by
    rw [literalText, ht]
    show x.json?.getD "null".toList = text
    rw [htext]
    rfl
  rw [hfield]
  exact Text.Json.value?_number (hn _ (endsNumber_of_close hc rest))

/-- The third field tells of the literal what JSON can say of it. -/
theorem exists_told (t : Token) : ∃ value, t.TellsLiteral value ∧ Literal.Told t.literal value := by
  cases ht : t.literal with
  | none =>
      refine ⟨.null, fun depth c rest _ => ?_, ⟨by simp, by simp, by simp⟩⟩
      rw [literalText, ht]
      exact Text.Json.value?_null ..
  | some l =>
      cases l with
      | text s =>
          refine ⟨.string s, fun depth => ?_, ⟨by simp, by simp, by simp⟩⟩
          rw [literalText, ht]
          exact reads_quote depth s
      | number x =>
          cases hx : x.isFinite with
          | true =>
              obtain ⟨n, -, -, htells⟩ := tells_number ht hx
              have hspecial : ¬ (x.isInfinite = true ∨ x.isNaN = true) := by
                rw [← Binary64.isFinite_eq_false_iff, hx]
                decide
              exact ⟨.number n, htells, by simpa using hspecial, by simp, by simp [hx]⟩
          | false =>
              have hspecial := Binary64.isFinite_eq_false_iff.mp hx
              refine ⟨.null, fun depth c rest _ => ?_, by simpa using hspecial, by simp,
                by simp [hx]⟩
              rw [literalText, ht]
              show value? (depth + 1) (x.json?.getD "null".toList ++ c :: rest) = _
              rw [Binary64.json?_eq_none_iff.mpr hx]
              exact Text.Json.value?_null ..

/-- The fields of a token as a reader gets them, its literal as `value`. -/
def object (t : Token) (value : Value) : Value :=
  .object [
    ("kind", .string t.kind.name),
    ("lexeme", .string t.lexeme),
    ("literal", value),
    ("line", .number ⟨false, t.line.toNat, 0⟩)]

/-- A JSON text records the token: it is an object that gives its kind,
its text, its literal as far as that can be told, and its line. -/
def Recorded (t : Token) (cs : List Char) : Prop :=
  ∃ value, Literal.Told t.literal value
    ∧ read? cs = some (.object [
        ("kind", .string t.kind.name),
        ("lexeme", .string t.lexeme),
        ("literal", value),
        ("line", .number ⟨false, t.line.toNat, 0⟩)])

theorem reads_members {t : Token} {depth : Nat} {value : Value}
    (h : Reads (value? (depth + 1)) '}' t.literalText value) :
    ∀ m ∈ t.members value, Reads (value? (depth + 1)) '}' m.text m.value := by
  simp only [members, List.forall_mem_cons]
  refine ⟨reads_quote depth _, reads_quote depth _, h, fun c rest hc => ?_, by simp⟩
  rw [toList_toString]
  exact Text.Json.value?_number
    (Text.Json.number?_toDigits _ (endsNumber_of_close hc rest))

/-- What the third field tells settles what is read. -/
theorem read?_json {t : Token} {value : Value} (h : t.TellsLiteral value) :
    read? t.json.toList = some (t.object value) := by
  obtain ⟨depth, hdepth⟩ : ∃ depth, t.json.toList.length = depth + 1 := by
    refine ⟨t.json.toList.length - 1, ?_⟩
    rw [toList_json t .null, List.length_cons, Nat.add_sub_cancel]
  have hobject : value? (depth + 1 + 1) t.json.toList =
      some (.object ((t.members value).map fun m => (m.name, m.value)), []) := by
    rw [toList_json t value]
    exact Text.Json.value?_object (reads_members (h depth)) []
  rw [read?, hdepth, hobject]
  rfl

theorem recorded_json (t : Token) : t.Recorded t.json.toList := by
  obtain ⟨value, htells, htold⟩ := t.exists_told
  exact ⟨value, htold, read?_json htells⟩

theorem visible_null : Visible "null".toList := by
  simp [Visible]

theorem visible_literalText (t : Token) : Visible t.literalText := by
  unfold literalText
  match t.literal with
  | none => exact visible_null
  | some (.text s) => exact Text.Json.visible_quote _
  | some (.number x) =>
      show Visible (x.json?.getD "null".toList)
      cases hx : x.json? with
      | none => exact visible_null
      | some text => exact Text.Json.visible_json? hx

theorem visible_json (t : Token) : Visible t.json.toList := by
  rw [toList_json t .null]
  refine Text.Json.visible_object ?_
  simp only [members, List.forall_mem_cons]
  refine ⟨Text.Json.visible_quote _, Text.Json.visible_quote _, t.visible_literalText, ?_, by simp⟩
  rw [toList_toString]
  exact Text.Json.visible_of_isDigit (digits_toDigits _).isDigit

end Token

end LoxScan
