import Provisioning.Proofs.Template.Inline
import Provisioning.Proofs.Text.Lines

/-!
# A placeholder between two texts

Where the text before a placeholder neither leaves another one open nor lends it a brace
(`Closed`), the placeholder stands for the same text whatever is around it.

* `segments_splice` : the segments of such a text are those of its parts;
* `render_splice` : so rendering puts the text of the field between the texts of both sides, with
  one round less for the field's value;
* `render_placeholder` : so it does where there is nothing else;
* `isFieldName_iff` : the fields to which this applies are all those that a placeholder can name.
-/

namespace Provisioning

namespace Template

/-- A text after which a placeholder can be opened: all of its own are closed, and not even one
more brace opens another one. -/
inductive Closed : List Char → Prop where
  /-- There is no placeholder. -/
  | plain {cs : List Char} (h : Text.cut opening (cs ++ ['\x7b']) = none) : Closed cs
  /-- The first placeholder is closed, and so is what follows it. -/
  | placeholder {cs before inner expr rest : List Char}
    (hopen : Text.cut opening cs = some (before, inner))
    (hclose : Text.cut closing inner = some (expr, rest)) (hrest : Closed rest) : Closed cs

/-- The placeholder of a field. -/
def placeholder (field : String) : String :=
  String.ofList (opening ++ (" ." ++ field ++ " ").toList ++ closing)

/-- A name that can stand in a placeholder. -/
def IsFieldName (name : String) : Prop :=
  name.toList ≠ [] ∧ ∀ c ∈ name.toList, isNameChar c = true

instance (name : String) : Decidable (IsFieldName name) :=
  decidable_of_iff (name.toList ≠ [] ∧ name.toList.all isNameChar = true) <| by
    rw [IsFieldName, List.all_eq_true]

variable {reference : Reference} {n : Nat}

/-! ### Segments of the parts -/

theorem cut_closing {expr : List Char} (h : '\x7d' ∉ expr) (after : List Char) :
    Text.cut closing (expr ++ closing ++ after) = some (expr, after) := by
  rw [Text.cut_eq_some_iff (by simp [closing])]
  refine ⟨rfl, ?_⟩
  rw [Option.eq_none_iff_forall_ne_some]
  rintro ⟨b, a⟩ hcut
  have hcount := congrArg (List.count '\x7d') (Text.eq_of_cut hcut)
  have hnone : expr.count '\x7d' = 0 := List.count_eq_zero.2 h
  simp [closing, List.count_append, hnone] at hcount
  omega

theorem segments_splice {before expr : List Char} (hbefore : Closed before)
    (hexpr : '\x7d' ∉ expr) (after : List Char) (offset : Nat) :
    ∃ offset', segments offset (before ++ (opening ++ expr ++ closing) ++ after) =
      segments offset before ++ .placeholder expr :: segments offset' after := by
  induction hbefore generalizing offset with
  | @plain cs hplain =>
    have hopen : Text.cut opening (cs ++ opening ++ (expr ++ closing ++ after)) =
        some (cs, expr ++ closing ++ after) :=
      (Text.cut_eq_some_iff (by simp [opening])).2 ⟨rfl, hplain⟩
    rw [segments_plain offset (Text.cut_left (by simp [opening]) hplain),
      show cs ++ (opening ++ expr ++ closing) ++ after =
        cs ++ opening ++ (expr ++ closing ++ after) by simp]
    exact ⟨_, segments_placeholder offset hopen (cut_closing hexpr after)⟩
  | @placeholder cs b inner e rest hopen hclose _ ih =>
    obtain ⟨offset', ih⟩ := ih (offset + Utf8.size b + 2 + Utf8.size e + 2)
    refine ⟨offset', ?_⟩
    rw [segments_placeholder offset hopen hclose, List.append_assoc,
      segments_placeholder offset (Text.cut_append (by simp [opening]) hopen _)
        (Text.cut_append (by simp [closing]) hclose _), ← List.append_assoc rest, ih]
    simp

/-- With a level left, the text of a template is that of its segments, wherever it begins. -/
theorem inline_succ (cs : List Char) (offset : Nat) : inline reference (n + 1) cs =
    concat? (Segment.text? reference (inline reference n)) (segments offset cs) := by
  -- The place where a text begins is in nothing but the error of an open placeholder.
  have hoffset : ∀ offset', concat? (Segment.text? reference (inline reference n))
      (segments offset' cs) = concat? (Segment.text? reference (inline reference n))
      (segments offset cs) := by
    intro offset'
    induction cs using segment_induction generalizing offset offset' with
    | plain cs hopen => rw [segments_plain offset' hopen, segments_plain offset hopen]
    | unclosed cs b inner hopen hclose =>
      rw [segments_unclosed offset' hopen hclose, segments_unclosed offset hopen hclose,
        concat?_append, concat?_append]
      simp [concat?_cons, Segment.text?]
    | placeholder cs b inner expr rest hopen hclose ih =>
      rw [segments_placeholder offset' hopen hclose, segments_placeholder offset hopen hclose,
        concat?_append, concat?_append, concat?_cons, concat?_cons, ih]
  rw [← hoffset 0, inline]
  cases hp : isPending cs with
  | true => rfl
  | false =>
    rw [segments_plain 0 (isPending_eq_false_iff.1 hp), concat?_verbatims]
    rfl

theorem inline_splice {before expr : List Char} (hbefore : Closed before)
    (hexpr : '\x7d' ∉ expr) (after : List Char) :
    inline reference (n + 1) (before ++ (opening ++ expr ++ closing) ++ after) =
      (inline reference (n + 1) before).bind fun x =>
        ((Segment.placeholder expr).text? reference (inline reference n)).bind fun z =>
          (inline reference (n + 1) after).map fun y => x ++ (z ++ y) := by
  obtain ⟨offset, hsegments⟩ := segments_splice hbefore hexpr after 0
  rw [inline_succ _ 0, hsegments, concat?_append, concat?_cons, ← inline_succ before,
    ← inline_succ after]
  cases inline reference (n + 1) before with
  | none => rfl
  | some x =>
    cases (Segment.placeholder expr).text? reference (inline reference n) with
    | none => rfl
    | some z => cases inline reference (n + 1) after <;> rfl

/-! ### Fields -/

/-- The characters of names lie between the hyphen and the small letters. -/
theorem toNat_of_isNameChar {c : Char} (h : isNameChar c = true) :
    45 ≤ c.toNat ∧ c.toNat ≤ 122 := by
  have hupper : c.isUpper = true → 65 ≤ c.toNat ∧ c.toNat ≤ 90 := of_decide_eq_true
  have hlower : c.isLower = true → 97 ≤ c.toNat ∧ c.toNat ≤ 122 := fun h =>
    (Bool.and_eq_true_iff.1 h).imp of_decide_eq_true of_decide_eq_true
  have hdigit : c.isDigit = true → 48 ≤ c.toNat ∧ c.toNat ≤ 57 := fun h =>
    (Bool.and_eq_true_iff.1 h).imp of_decide_eq_true of_decide_eq_true
  have hname : isNameChar c = (c.isUpper || c.isLower || c.isDigit || c == '_' || c == '-') := rfl
  simp only [hname, Bool.or_eq_true, beq_iff_eq] at h
  rcases h with (((h | h) | h) | rfl) | rfl
  · have := hupper h
    omega
  · have := hlower h
    omega
  · have := hdigit h
    omega
  · decide
  · decide

theorem isBlank_of_isNameChar {c : Char} (h : isNameChar c = true) : Text.isBlank c = false := by
  have hrange := toNat_of_isNameChar h
  rw [Bool.eq_false_iff]
  intro hblank
  simp only [Text.isBlank, Bool.or_eq_true, Bool.and_eq_true, decide_eq_true_eq,
    beq_iff_eq] at hblank
  omega

theorem IsFieldName.trimChars {name : String} (h : IsFieldName name) :
    Text.trimChars (" ." ++ name ++ " ").toList = '.' :: name.toList := by
  have hstart : (" ." ++ name ++ " ").toList.dropWhile Text.isBlank =
      '.' :: (name.toList ++ [' ']) := by
    have hblank : Text.isBlank ' ' = true := by decide
    have hdot : Text.isBlank '.' = false := by decide
    simp [hblank, hdot]
  have hend : (' ' :: ('.' :: name.toList).reverse).dropWhile Text.isBlank =
      ('.' :: name.toList).reverse := by
    obtain ⟨init, last, hname⟩ := (List.eq_nil_or_concat name.toList).resolve_left h.1
    have hlast : Text.isBlank last = false := isBlank_of_isNameChar (h.2 last (by simp [hname]))
    have hblank : Text.isBlank ' ' = true := by decide
    simp [hname, hblank, hlast]
  rw [Text.trimChars, hstart, Text.dropWhileEnd, ← List.cons_append, List.reverse_append,
    List.reverse_singleton, List.singleton_append, hend, List.reverse_reverse]

theorem parse_field {name : String} (h : IsFieldName name) :
    Expr.parse (Text.trimChars (" ." ++ name ++ " ").toList) = .ok (.field name) := by
  have hfield : fieldName? ('.' :: name.toList) = some name.toList := by
    have hall : name.toList.all isNameChar = true := List.all_eq_true.2 h.2
    simp [fieldName?, h.1, hall]
  rw [h.trimChars, Expr.parse, hfield]
  simp [literal?]

theorem isName_of_fieldName? {cs name : List Char} (h : fieldName? cs = some name) :
    name ≠ [] ∧ ∀ c ∈ name, isNameChar c = true := by
  unfold fieldName? at h
  split at h
  · rw [Option.ite_none_right_eq_some, Bool.and_eq_true, List.all_eq_true] at h
    obtain ⟨⟨hne, hall⟩, he⟩ := h
    obtain rfl := Option.some.inj he
    exact ⟨by simpa using hne, hall⟩
  · simp at h

/-- No other names can stand in a placeholder. -/
theorem isFieldName_iff {name : String} :
    IsFieldName name ↔ ∃ cs, Expr.parse cs = .ok (.field name) := by
  constructor
  · intro h
    exact ⟨_, parse_field h⟩
  · rintro ⟨cs, h⟩
    unfold Expr.parse at h
    split at h
    · simp at h
    · split at h
      · next n hn =>
        obtain rfl := Expr.field.inj (Except.ok.inj h)
        rw [IsFieldName, String.toList_ofList]
        exact isName_of_fieldName? hn
      · simp at h

/-- A placeholder of a field stands for what the field's value stands for, with one round less. -/
theorem render_splice {before after field : String} (hbefore : Closed before.toList)
    (hfield : IsFieldName field) {s : String} :
    render reference (n + 1) (before ++ placeholder field ++ after) = .ok s ↔
      ∃ x v z y, render reference (n + 1) before = .ok x ∧ reference field = some v ∧
        render reference n v.render = .ok z ∧ render reference (n + 1) after = .ok y ∧
        s = x ++ z ++ y := by
  have hexpr : '}' ∉ (" ." ++ field ++ " ").toList := by
    have hname : '}' ∉ field.toList := by
      intro h
      have := toNat_of_isNameChar (hfield.2 _ h)
      revert this
      decide
    simp [hname]
  simp only [render_eq_ok_iff]
  rw [placeholder, String.toList_append, String.toList_append, String.toList_ofList,
    inline_splice hbefore hexpr, Segment.text?, parse_field hfield]
  simp only [Option.bind_eq_some_iff, Option.map_eq_some_iff]
  constructor
  · rintro ⟨x, hx, z, ⟨v, hv, hz⟩, y, hy, hs⟩
    refine ⟨String.ofList x, v, String.ofList z, String.ofList y, ?_⟩
    simp only [String.toList_ofList]
    refine ⟨hx, hv, hz, hy, ?_⟩
    rw [← String.toList_inj, ← hs]
    simp
  · rintro ⟨x, v, z, y, hx, hv, hz, hy, rfl⟩
    exact ⟨x.toList, hx, z.toList, ⟨v, hv, hz⟩, y.toList, hy, by simp⟩

/-- So does one that stands alone. -/
theorem render_placeholder {field s : String} (hfield : IsFieldName field) :
    render reference (n + 1) (placeholder field) = .ok s ↔
      ∃ v, reference field = some v ∧ render reference n v.render = .ok s := by
  have hempty : render reference (n + 1) "" = .ok "" := render_of_not_pending (by decide)
  have hclosed : Closed "".toList := .plain (by decide)
  have halone : placeholder field = "" ++ placeholder field ++ "" := by simp
  rw [halone, render_splice hclosed hfield]
  constructor
  · rintro ⟨x, v, z, y, hx, hv, hz, hy, rfl⟩
    obtain rfl := Except.ok.inj (hempty.symm.trans hx)
    obtain rfl := Except.ok.inj (hempty.symm.trans hy)
    exact ⟨v, hv, by simpa using hz⟩
  · rintro ⟨v, hv, hz⟩
    exact ⟨"", v, s, "", hempty, hv, hz, hempty, by simp⟩

end Template

end Provisioning
