import Mathlib.Data.List.Forall2
import Provisioning.Proofs.Template.Splice

/-!
# Nothing of a text is lost in a round

A round goes through a text by byte offsets: it searches braces, takes out what lies between them,
and puts a piece out for each part.  Whatever the text, every part that it asks for is there, and
the parts for which it has put out pieces are the text from its beginning to where it ended.

* `Expr.parse_eq_ok_iff`, `Expr.parse_eq_error_iff` : what can stand in a placeholder;
* `two_le_of_find?_closing` : a placeholder is never closed by braces that open it;
* `Stands`, `Halts` : what a piece is put out for, and where a round ends;
* `substituteOnto_accounts` : what a round comes to that goes on in the midst of a text;
* `substituteOnto_lossless` : what a whole round comes to.
-/

namespace Provisioning

namespace Template

/-! ### What can stand in a placeholder -/

/-- How an expression is written. -/
inductive Expr.Spells : List Char → Expr → Prop where
  /-- A text in double quotes that holds none. -/
  | literal {t : List Char} (h : '"' ∉ t) :
    Expr.Spells ('"' :: (t ++ ['"'])) (.literal (String.ofList t))
  /-- A dot and the name of a field. -/
  | field {name : String} (h : IsFieldName name) : Expr.Spells ('.' :: name.toList) (.field name)

section

variable {cs t name : List Char} {e : Expr}

theorem literal?_eq_some_iff : literal? cs = some t ↔ cs = '"' :: (t ++ ['"']) ∧ '"' ∉ t := by
  constructor
  · intro h
    unfold literal? at h
    split at h
    · next ds =>
      split at h
      · next r hr =>
        obtain ⟨hnot, rfl⟩ : '"' ∉ r ∧ r.reverse = t := by simpa using h
        rw [List.reverse_eq_cons_iff] at hr
        exact ⟨by rw [hr], by simpa using hnot⟩
      · simp at h
    · simp at h
  · rintro ⟨rfl, hnot⟩
    simp [literal?, hnot]

theorem fieldName?_eq_some_iff :
    fieldName? cs = some name ↔ cs = '.' :: name ∧ IsFieldName (String.ofList name) := by
  constructor
  · intro h
    have hname := isName_of_fieldName? h
    unfold fieldName? at h
    split at h
    · obtain rfl := Option.some.inj (Option.ite_none_right_eq_some.1 h).2
      exact ⟨rfl, by rwa [IsFieldName, String.toList_ofList]⟩
    · simp at h
  · rintro ⟨rfl, hname⟩
    rw [IsFieldName, String.toList_ofList] at hname
    have hall : name.all isNameChar = true := List.all_eq_true.2 hname.2
    simp [fieldName?, hname.1, hall]

theorem Expr.parse_eq_ok_iff : Expr.parse cs = .ok e ↔ Expr.Spells cs e := by
  constructor
  · intro h
    unfold Expr.parse at h
    split at h
    · next t ht =>
      obtain ⟨rfl, hnot⟩ := literal?_eq_some_iff.1 ht
      exact Except.ok.inj h ▸ .literal hnot
    · split at h
      · next name hn =>
        obtain ⟨rfl, hname⟩ := fieldName?_eq_some_iff.1 hn
        have hspells := Spells.field hname
        rw [String.toList_ofList] at hspells
        exact Except.ok.inj h ▸ hspells
      · simp at h
  · rintro (hnot | hname)
    · rw [parse, literal?_eq_some_iff.2 ⟨rfl, hnot⟩]
    · have hfield := fieldName?_eq_some_iff.2 ⟨rfl, by rwa [String.ofList_toList]⟩
      simp [parse, hfield, literal?]

/-- What is written in no such way is shown as it stands. -/
theorem Expr.parse_eq_error_iff {err : Error} : Expr.parse cs = .error err ↔
    err = .expression (String.ofList cs) ∧ ∀ e, ¬ Expr.Spells cs e := by
  simp only [← Expr.parse_eq_ok_iff]
  unfold Expr.parse
  split
  · simp
  · split
    · simp
    · simp [eq_comm]

end

/-! ### Offsets -/

/-- Where a text is taken from an opening on, the braces that close it come after those that open
it: the offsets between which the placeholder is taken out are in order. -/
theorem two_le_of_find?_closing {rest opened : List Char} {openAt length : Nat}
    (hopen : Utf8.find? opening rest = some openAt)
    (hslice : Utf8.slice? rest openAt (Utf8.size rest) = some opened)
    (hclose : Utf8.find? closing opened = some length) : 2 ≤ length := by
  obtain ⟨before, inner, hcut, rfl⟩ := Utf8.find?_eq_some_iff.1 hopen
  obtain rfl := Option.some.inj ((slice?_of_cut hcut).symm.trans hslice)
  rw [find?_closing, Option.map_eq_some_iff] at hclose
  obtain ⟨n, -, rfl⟩ := hclose
  exact Nat.le_add_right 2 n

/-! ### Parts of a text -/

section

variable (reference : Reference) (template : String)

/-- What a piece is put out for. -/
inductive Stands : Piece → List Char → Prop where
  /-- Text in which no placeholder opens is put out as it is. -/
  | verbatim {cs : List Char} (hne : cs ≠ []) (hplain : ¬ opening <:+: cs) : Stands (.text cs) cs
  /-- A text in quotes is put out for its placeholder, and is final. -/
  | literal {inside : List Char} {t : String} (hinside : ¬ closing <:+: inside)
    (hspells : Expr.Spells (Text.trimChars inside) (.literal t)) :
    Stands (.final t.toList) (opening ++ inside ++ closing)
  /-- The value of a field is put out for its placeholder. -/
  | field {inside : List Char} {f : String} {v : Field.Value} (hinside : ¬ closing <:+: inside)
    (hspells : Expr.Spells (Text.trimChars inside) (.field f)) (hvalue : reference f = some v) :
    Stands (.text v.render.toList) (opening ++ inside ++ closing)

/-- Whether a round can end so: with nothing left, or at the first placeholder of what is left, for
which nothing can be put out.  The text that has been passed is `passed`. -/
def Halts (passed left : List Char) : Except Error Unit → Prop
  | .ok () => left = []
  | .error (.unclosed t position) => t = template ∧ ∃ before inner,
      left = before ++ opening ++ inner ∧ ¬ opening <:+: before ∧ ¬ closing <:+: inner ∧
        position = Utf8.size (passed ++ before)
  | .error (.expression shown) => ∃ inside rest, left = opening ++ inside ++ closing ++ rest ∧
      ¬ closing <:+: inside ∧ shown = String.ofList (Text.trimChars inside) ∧
        ∀ e, ¬ Expr.Spells (Text.trimChars inside) e
  | .error (.unknownField f) => ∃ inside rest, left = opening ++ inside ++ closing ++ rest ∧
      ¬ closing <:+: inside ∧ Expr.Spells (Text.trimChars inside) (.field f) ∧ reference f = none
  | .error (.loop _ _) => False

/-- The text before a placeholder is put out as one piece, if there is any. -/
theorem Stands.textPieces {cs : List Char} (h : ¬ opening <:+: cs) :
    ∃ spans, List.Forall₂ (Stands reference) (textPieces cs) spans ∧ spans.flatten = cs := by
  cases cs with
  | nil => exact ⟨[], .nil, rfl⟩
  | cons c cs => exact ⟨[c :: cs], .cons (.verbatim (by simp) h) .nil, by simp⟩

/-- A placeholder has a piece that is put out for it, or the round ends there. -/
theorem stands_or_halts {inside : List Char} (hinside : ¬ closing <:+: inside) :
    match (Expr.parse (Text.trimChars inside)).bind (Expr.expand reference) with
    | .ok piece => Stands reference piece (opening ++ inside ++ closing)
    | .error e => ∀ passed rest,
      Halts reference template passed (opening ++ inside ++ closing ++ rest) (.error e) := by
  cases hparse : Expr.parse (Text.trimChars inside) with
  | error e =>
    obtain ⟨rfl, hnone⟩ := Expr.parse_eq_error_iff.1 hparse
    exact fun passed rest => ⟨inside, rest, rfl, hinside, rfl, hnone⟩
  | ok e =>
    have hspells := Expr.parse_eq_ok_iff.1 hparse
    cases e with
    | literal t => exact .literal hinside hspells
    | field f =>
      simp only [Except.bind, Expr.expand]
      cases hvalue : reference f with
      | none => exact fun passed rest => ⟨inside, rest, rfl, hinside, hspells, hvalue⟩
      | some v => exact .field hinside hspells hvalue

variable {reference template}

/-- What a round comes to over the rest of a text, behind what has been passed.  The induction is on
the placeholders of the rest; what has been passed grows by what each step takes from the rest, so
the offset stays its size. -/
theorem substituteOnto_accounts (passed cs : List Char) (out : List Piece) :
    ∃ spans made left ended,
      substituteOnto reference template (Utf8.size passed) cs out = some ⟨out ++ made, ended⟩ ∧
      cs = spans.flatten ++ left ∧ List.Forall₂ (Stands reference) made spans ∧
      Halts reference template (passed ++ spans.flatten) left ended := by
  induction cs using segment_induction generalizing passed out with
  | plain cs hopen =>
    obtain ⟨spans, hstands, hspans⟩ := Stands.textPieces reference (Text.cut_eq_none_iff.1 hopen)
    exact ⟨spans, _, [], _, substituteOnto_plain hopen, by simp [hspans], hstands, rfl⟩
  | unclosed cs before inner hopen hclose =>
    have hbefore := Text.cut_eq_none_iff.1 (Text.cut_before (by simp [opening]) hopen)
    have hinner := Text.cut_eq_none_iff.1 hclose
    refine ⟨[], [], cs, .error (.unclosed template (Utf8.size (passed ++ before))), ?_, rfl, .nil,
      rfl, before, inner, Text.eq_of_cut hopen, hbefore, hinner, by simp⟩
    rw [substituteOnto_unclosed hopen hclose, List.append_nil, Utf8.size_append]
  | placeholder cs before inner inside rest hopen hclose ih =>
    have hbefore := Text.cut_eq_none_iff.1 (Text.cut_before (by simp [opening]) hopen)
    have hinside := Text.cut_eq_none_iff.1 (Text.cut_before (by simp [closing]) hclose)
    obtain ⟨spans, hstands, rfl⟩ := Stands.textPieces reference hbefore
    have hcs : cs = spans.flatten ++ (opening ++ inside ++ closing ++ rest) := by
      rw [Text.eq_of_cut hopen, Text.eq_of_cut hclose]
      simp
    have hpiece := stands_or_halts reference template hinside
    rw [substituteOnto_placeholder hopen hclose]
    revert hpiece
    cases (Expr.parse (Text.trimChars inside)).bind (Expr.expand reference) with
    | error e => exact fun hhalts => ⟨spans, _, _, _, rfl, hcs, hstands, hhalts _ rest⟩
    | ok piece =>
      intro hpiece
      have hbraces : Utf8.size opening = 2 ∧ Utf8.size closing = 2 := by decide
      have hoffset : Utf8.size passed + Utf8.size spans.flatten + 2 + Utf8.size inside + 2 =
          Utf8.size (passed ++ spans.flatten ++ (opening ++ inside ++ closing)) := by
        simp only [Utf8.size_append, hbraces]
        omega
      -- the placeholder counts as passed from here on
      obtain ⟨spans', made, left, ended, hround, rfl, hstands', hhalts⟩ :=
        ih (passed ++ spans.flatten ++ (opening ++ inside ++ closing))
          (out ++ textPieces spans.flatten ++ [piece])
      refine ⟨spans ++ (opening ++ inside ++ closing) :: spans',
        textPieces spans.flatten ++ piece :: made, left, ended, ?_, ?_, ?_, ?_⟩
      · simp only [hoffset, hround]
        simp
      · simp [hcs]
      · exact List.rel_append hstands (.cons hpiece hstands')
      · simpa using hhalts

end

/-- Nothing of a text is lost in a round, whatever the text, the reference and the pieces that are
there.  The round comes to a result: all parts that it takes out of the text lie within it, begin
and end at characters, and no placeholder ends before it has begun.  It leaves the pieces that are
there and puts others behind them.  These stand, in order, for parts that together are the text up
to where the round ended: all of it if there is no error; the opening of a placeholder that is not
closed, with its offset in bytes, if that is the error; and otherwise the placeholder for which
nothing could be put out. -/
theorem substituteOnto_lossless (reference : Reference) (template : String) (text : List Char)
    (out : List Piece) :
    (∀ (rest opened : List Char) (openAt length : Nat), Utf8.find? opening rest = some openAt →
      Utf8.slice? rest openAt (Utf8.size rest) = some opened →
      Utf8.find? closing opened = some length → openAt + 2 ≤ openAt + length + 2 - 2) ∧
    ∃ spans made left ended,
      substituteOnto reference template 0 text out = some ⟨out ++ made, ended⟩ ∧
      text = spans.flatten ++ left ∧ List.Forall₂ (Stands reference) made spans ∧
      Halts reference template spans.flatten left ended := by
  refine ⟨fun rest opened openAt length hopen hslice hclose => ?_, ?_⟩
  · have := two_le_of_find?_closing hopen hslice hclose
    omega
  · exact substituteOnto_accounts [] text out

-- the offset counts bytes, and what was put out before the error stays
example : substituteOnto (fun _ => none) "t" 0
      "ä\x7b\x7b\"\x7b\x7b\"\x7d\x7dß\x7b\x7b\x7d".toList [] =
    some ⟨[.text ['ä'], .final ['\x7b', '\x7b']], .error (.unclosed "t" 12)⟩ := by
  cbv

end Template

end Provisioning
