import Mathlib.Data.ENat.Lattice
import Mathlib.Order.CompletePartialOrder
import Mathlib.Order.WellFounded
import Provisioning.Proofs.Template.Reading

/-!
# How deep placeholders are nested

The depth of a text (`depth`) is the number of values that lie inside one another below it: none if
it has no placeholder, and otherwise one more than the deepest of the values that it names
(`depth_eq`).  It is infinite where a field leads back to itself, and with finitely many fields
nowhere else (`depth_eq_top_iff`).

* `inline_isSome_iff` : where nothing else is wrong, a text can be inlined to a depth exactly if it
  is no deeper;
* `error_of_mem_faults` : and nothing but a loop can come of it;
* `converges_at_depth` : so rendering gives a text from the depth on, always the same, and loops
  with fewer rounds.
-/

namespace Provisioning

namespace Template

/-- The texts that stand for the fields which a text names, as far as there are such fields. -/
def named (reference : Reference) (cs : List Char) : List (List Char) :=
  (fields cs).filterMap fun f => (reference f).map fun v => v.render.toList

/-- How deep placeholders are nested in a text, as far as `n` levels show. -/
def nesting (reference : Reference) : Nat → List Char → Nat
  | 0, _ => 0
  | n + 1, cs =>
    if isPending cs then ((named reference cs).map (nesting reference n)).foldr max 0 + 1 else 0

/-- How deep placeholders are nested in a text. -/
noncomputable def depth (reference : Reference) (cs : List Char) : ℕ∞ :=
  ⨆ n, (nesting reference n cs : ℕ∞)

/-- Whether nothing is wrong with a segment by itself: a placeholder is closed, can be read, and is
a literal or names a field that there is. -/
def Segment.isSound (reference : Reference) : Segment → Bool
  | verbatim _ => true
  | placeholder cs =>
    match Expr.parse (Text.trimChars cs) with
    | .ok (.field f) => (reference f).isSome
    | .ok (.literal _) => true
    | .error _ => false
  | unclosed _ => false

/-- Nothing is wrong with any placeholder of a text, nor with any that can be reached from it
through the values of fields. -/
structure Sound (reference : Reference) (cs : List Char) : Prop where
  /-- The placeholders of the text. -/
  here : ∀ s ∈ segments 0 cs, s.isSound reference
  /-- The placeholders of values that it reads. -/
  there : ∀ f v, Reads reference cs f → reference f = some v →
    ∀ s ∈ segments 0 v.render.toList, s.isSound reference

/-- The field `g` has a part in the field `f`: the value of `f` reads it. -/
def Feeds (reference : Reference) (g f : String) : Prop :=
  ∃ v, reference f = some v ∧ Reads reference v.render.toList g

section

variable {reference : Reference} {cs t : List Char} {f g : String} {v : Field.Value}
  {template : String} {rounds n : Nat}

/-! ### Depth -/

theorem mem_named : t ∈ named reference cs ↔
    ∃ f ∈ fields cs, ∃ v, reference f = some v ∧ v.render.toList = t := by
  simp [named]

theorem cast_foldr_max {α : Type} (size : α → Nat) (ts : List α) :
    (((ts.map size).foldr max 0 : Nat) : ℕ∞) = ⨆ t ∈ ts, (size t : ℕ∞) := by
  induction ts with
  | nil => simp
  | cons t ts ih => simp [ih, iSup_or, iSup_sup_eq, Nat.mono_cast.map_max]

theorem isPending_of_mem_named (h : t ∈ named reference cs) : isPending cs = true := by
  obtain ⟨f, hf, -⟩ := mem_named.1 h
  rw [← Bool.not_eq_false]
  intro hp
  rw [fields, segments_plain 0 (isPending_eq_false_iff.1 hp)] at hf
  obtain ⟨s, hs, hfield⟩ := List.mem_filterMap.1 hf
  obtain ⟨-, rfl⟩ := mem_verbatims.1 hs
  simp [Segment.field?] at hfield

/-- A text without placeholders has no depth; any other is one deeper than the deepest of the values
that it names. -/
theorem depth_eq (reference : Reference) (cs : List Char) : depth reference cs =
    if isPending cs then (⨆ t ∈ named reference cs, depth reference t) + 1 else 0 := by
  -- no level shows nothing, so it may be left out
  have hshift : depth reference cs = ⨆ n, (nesting reference (n + 1) cs : ℕ∞) := by
    rw [depth, ← sup_iSup_nat_succ]
    simp [nesting]
  rw [hshift]
  cases hp : isPending cs with
  | false => simp [nesting, hp]
  | true =>
    have hlevel : ∀ n, (nesting reference (n + 1) cs : ℕ∞) =
        (⨆ t ∈ named reference cs, (nesting reference n t : ℕ∞)) + 1 := by
      intro n
      rw [nesting, if_pos hp, Nat.cast_add, cast_foldr_max]
      rfl
    simp only [hlevel, if_true, ← ENat.iSup_add]
    congr 1
    rw [iSup_comm]
    refine iSup_congr fun t => ?_
    rw [iSup_comm]
    rfl

theorem depth_le_of_mem_named (h : t ∈ named reference cs) :
    depth reference t + 1 ≤ depth reference cs := by
  have hp : isPending cs = true := isPending_of_mem_named h
  rw [depth_eq reference cs, if_pos hp]
  gcongr
  exact le_iSup₂ (f := fun t _ => depth reference t) t h

/-! ### Cycles -/

theorem Reads.of_feeds (h : Reads reference cs f) (hg : Feeds reference g f) :
    Reads reference cs g := by
  induction h with
  | named hmem =>
    obtain ⟨v, hv, hread⟩ := hg
    exact .through hmem hv hread
  | through hmem hv _ ih => exact .through hmem hv (ih hg)

/-- What a text reads is not as deep as the text. -/
theorem depth_le_of_reads (h : Reads reference cs f) (hf : reference f = some v) :
    depth reference v.render.toList + 1 ≤ depth reference cs := by
  induction h with
  | named hmem => exact depth_le_of_mem_named (mem_named.2 ⟨_, hmem, v, hf, rfl⟩)
  | @through cs g f w hmem hw _ ih =>
    calc depth reference v.render.toList + 1 ≤ depth reference w.render.toList := ih hf
      _ ≤ depth reference w.render.toList + 1 := le_self_add
      _ ≤ depth reference cs := depth_le_of_mem_named (mem_named.2 ⟨_, hmem, w, hw, rfl⟩)

/-- A text that reads a field which leads back to itself is infinitely deep. -/
theorem depth_eq_top_of_circular (h : Reads reference cs f) (hf : Feeds reference f f) :
    depth reference cs = ⊤ := by
  obtain ⟨v, hv, hself⟩ := hf
  have hvalue : depth reference v.render.toList = ⊤ := by
    have hle := depth_le_of_reads hself hv
    by_contra hne
    exact absurd hle (not_le.2 (ENat.lt_add_one_iff hne |>.2 le_rfl))
  have hle := depth_le_of_reads h hv
  rw [hvalue, top_add, top_le_iff] at hle
  exact hle

/-- One of finitely many texts is infinitely deep if they are so together. -/
theorem exists_depth_eq_top {ts : List (List Char)}
    (h : ⨆ t ∈ ts, depth reference t = ⊤) : ∃ t ∈ ts, depth reference t = ⊤ := by
  induction ts with
  | nil => simp at h
  | cons t ts ih =>
    simp only [List.mem_cons, iSup_or, iSup_sup_eq, iSup_iSup_eq_left, max_eq_top] at h
    rcases h with h | h
    · exact ⟨t, List.mem_cons_self, h⟩
    · obtain ⟨t', hmem, ht'⟩ := ih h
      exact ⟨t', List.mem_cons_of_mem _ hmem, ht'⟩

theorem exists_value_eq_top (h : depth reference cs = ⊤) :
    ∃ f ∈ fields cs, ∃ v, reference f = some v ∧ depth reference v.render.toList = ⊤ := by
  rw [depth_eq] at h
  split at h
  · obtain ⟨t, ht, htop⟩ := exists_depth_eq_top (by simpa using h)
    obtain ⟨f, hf, v, hv, rfl⟩ := mem_named.1 ht
    exact ⟨f, hf, v, hv, htop⟩
  · simp at h

/-- With finitely many fields, nothing but a field that leads back to itself makes a text infinitely
deep. -/
theorem depth_eq_top_iff (hfinite : {f | (reference f).isSome}.Finite) :
    depth reference cs = ⊤ ↔ ∃ f, Reads reference cs f ∧ Feeds reference f f := by
  refine ⟨fun htop => ?_, fun ⟨f, hf, hcircular⟩ => depth_eq_top_of_circular hf hcircular⟩
  by_contra hnone
  -- The fields that the text reads: without a way back, one below the other is well-founded.
  let Field := {f // Reads reference cs f ∧ (reference f).isSome}
  have hfield : Finite Field := (hfinite.subset fun f hf => hf.2).to_subtype
  have htrans : IsTrans Field fun g f => Feeds reference g.1 f.1 := by
    refine ⟨fun g f e ⟨v, hv, hread⟩ hf => ?_⟩
    obtain ⟨w, hw, hread'⟩ := hf
    exact ⟨w, hw, hread'.of_feeds ⟨v, hv, hread⟩⟩
  have hirrefl : Std.Irrefl fun g f : Field => Feeds reference g.1 f.1 :=
    ⟨fun f hself => hnone ⟨f.1, f.2.1, hself⟩⟩
  have hwf := Finite.wellFounded_of_trans_of_irrefl fun g f : Field => Feeds reference g.1 f.1
  have hvalue : ∀ f : Field, ∀ v, reference f.1 = some v →
      depth reference v.render.toList ≠ ⊤ := by
    intro f
    induction f using hwf.induction with
    | _ f ih =>
      intro v hv hvtop
      obtain ⟨g, hg, w, hw, hwtop⟩ := exists_value_eq_top hvtop
      have hfeeds : Feeds reference g f.1 := ⟨v, hv, .named hg⟩
      exact ih ⟨g, f.2.1.of_feeds hfeeds, by simp [hw]⟩ hfeeds w hw hwtop
  obtain ⟨f, hf, v, hv, hvtop⟩ := exists_value_eq_top htop
  exact hvalue ⟨f, .named hf, by simp [hv]⟩ v hv hvtop

/-! ### Rendering -/

theorem Sound.value (h : Sound reference cs) (hf : f ∈ fields cs) (hv : reference f = some v) :
    Sound reference v.render.toList where
  here := h.there f v (.named hf) hv
  there g w hg hw := h.there g w (.through hf hv hg) hw

theorem concat?_isSome_iff {α : Type} {text : α → Option (List Char)} {parts : List α} :
    (concat? text parts).isSome ↔ ∀ part ∈ parts, (text part).isSome := by
  induction parts with
  | nil => simp
  | cons part parts ih =>
    rw [concat?_cons, List.forall_mem_cons, ← ih]
    cases text part <;> cases concat? text parts <;> simp

/-- A placeholder with which nothing is wrong can be read, and a field that it names has a value. -/
theorem Segment.exists_expr (h : (placeholder cs).isSound reference) :
    ∃ e, Expr.parse (Text.trimChars cs) = .ok e ∧
      ∀ f, e = .field f → ∃ v, reference f = some v := by
  rw [isSound] at h
  split at h
  · next f hf =>
    refine ⟨.field f, hf, fun g hg => ?_⟩
    rw [← Expr.field.inj hg]
    exact Option.isSome_iff_exists.1 h
  · next t ht => exact ⟨.literal t, ht, by simp⟩
  · exact absurd h Bool.false_ne_true

/-- A segment with which nothing is wrong stands for a text if the field that it names does. -/
theorem Segment.text?_isSome_iff {s : Segment} (h : s.isSound reference)
    {value : List Char → Option (List Char)} : (s.text? reference value).isSome ↔
      ∀ f, s.field? = some f → ∀ v, reference f = some v → (value v.render.toList).isSome := by
  cases s with
  | verbatim cs => simp [text?, field?]
  | unclosed position => exact absurd h Bool.false_ne_true
  | placeholder cs =>
    obtain ⟨e, he, hfield⟩ := exists_expr h
    rw [text?, field?, he]
    cases e with
    | literal t => simp
    | field f =>
      obtain ⟨v, hv⟩ := hfield f rfl
      simp [hv]

/-- Where nothing else is wrong, a text can be inlined to a depth exactly if it is no deeper. -/
theorem inline_isSome_iff (h : Sound reference cs) :
    (inline reference n cs).isSome ↔ depth reference cs ≤ n := by
  induction n generalizing cs with
  | zero =>
    rw [inline, depth_eq]
    cases isPending cs <;> simp
  | succ n ih =>
    rw [inline, depth_eq]
    cases hp : isPending cs with
    | false => simp
    | true =>
      have hvalue : ∀ f ∈ fields cs, ∀ v, reference f = some v →
          ((inline reference n v.render.toList).isSome ↔ depth reference v.render.toList ≤ n) :=
        fun f hf v hv => ih (h.value hf hv)
      have hsegments : (concat? (Segment.text? reference (inline reference n))
          (segments 0 cs)).isSome ↔ ∀ f ∈ fields cs, ∀ v, reference f = some v →
            depth reference v.render.toList ≤ n := by
        rw [concat?_isSome_iff]
        constructor
        · intro hall f hf v hv
          obtain ⟨s, hs, hfield⟩ := List.mem_filterMap.1 hf
          have hvalues := (Segment.text?_isSome_iff (h.here s hs)).1 (hall s hs)
          exact (hvalue f hf v hv).1 (hvalues f hfield v hv)
        · intro hall s hs
          refine (Segment.text?_isSome_iff (h.here s hs)).2 fun f hfield v hv => ?_
          have hf : f ∈ fields cs := List.mem_filterMap.2 ⟨s, hs, hfield⟩
          exact (hvalue f hf v hv).2 (hall f hf v hv)
      have hdepth : (⨆ t ∈ named reference cs, depth reference t) + 1 ≤ ((n + 1 : Nat) : ℕ∞) ↔
          ∀ t ∈ named reference cs, depth reference t ≤ n := by
        rw [Nat.cast_add, Nat.cast_one, ENat.add_le_add_iff_right ENat.one_ne_top, iSup₂_le_iff]
      simp only [if_true]
      rw [hsegments, hdepth]
      constructor
      · intro hall t ht
        obtain ⟨f, hf, v, hv, rfl⟩ := mem_named.1 ht
        exact hall f hf v hv
      · intro hall f hf v hv
        exact hall _ (mem_named.2 ⟨f, hf, v, hv, rfl⟩)

/-- Where nothing else is wrong, nothing but a loop can come of a text. -/
theorem error_of_mem_faults (h : Sound reference cs) {fault : Fault}
    (hfault : fault ∈ faults reference template rounds n cs) :
    fault.error = .loop template rounds := by
  induction n generalizing cs fault with
  | zero =>
    simp only [faults, List.mem_ite_nil_right, List.mem_singleton] at hfault
    rw [hfault.2]
  | succ n ih =>
    simp only [faults, List.mem_ite_nil_right, List.mem_flatMap] at hfault
    obtain ⟨-, s, hs, hfault⟩ := hfault
    have hsound := h.here s hs
    cases s with
    | verbatim cs => simp [Segment.faults] at hfault
    | unclosed position => exact absurd hsound Bool.false_ne_true
    | placeholder cs' =>
      obtain ⟨e, he, hfield⟩ := Segment.exists_expr hsound
      rw [Segment.faults, he] at hfault
      cases e with
      | literal t => simp at hfault
      | field f =>
        obtain ⟨v, hv⟩ := hfield f rfl
        have hf : f ∈ fields cs :=
          List.mem_filterMap.2 ⟨_, hs, by simp [Segment.field?, he]⟩
        simp only [hv, List.mem_map] at hfault
        obtain ⟨inner, hinner, rfl⟩ := hfault
        have herror := ih (h.value hf hv) hinner
        exact herror

theorem concat?_mono {α : Type} {text text' : α → Option (List Char)} {parts : List α}
    (hparts : ∀ part t, text part = some t → text' part = some t)
    (h : concat? text parts = some t) : concat? text' parts = some t := by
  rw [← h]
  have hall := concat?_isSome_iff.1 (Option.isSome_of_eq_some h)
  refine concat?_congr fun part hpart => ?_
  obtain ⟨t', ht'⟩ := Option.isSome_iff_exists.1 (hall part hpart)
  rw [ht', hparts part t' ht']

theorem Segment.text?_mono {s : Segment} {value value' : List Char → Option (List Char)}
    (hvalue : ∀ cs t, value cs = some t → value' cs = some t)
    (h : s.text? reference value = some t) : s.text? reference value' = some t := by
  cases s with
  | verbatim cs => exact h
  | unclosed position => exact h
  | placeholder cs =>
    rw [text?] at h ⊢
    split at h
    · exact h
    · exact h
    · next f hf =>
      obtain ⟨v, hv, ht⟩ := Option.bind_eq_some_iff.1 h
      exact Option.bind_eq_some_iff.2 ⟨v, hv, hvalue _ t ht⟩

/-- A text inlined to a depth is the same one level deeper, -/
theorem inline_deeper (h : inline reference n cs = some t) :
    inline reference (n + 1) cs = some t := by
  induction n generalizing cs t with
  | zero =>
    cases hp : isPending cs with
    | true => simp [inline, hp] at h
    | false => rwa [inline_of_not_pending hp] at h ⊢
  | succ n ih =>
    rw [inline] at h ⊢
    split at h
    · next hp =>
      rw [if_pos hp]
      exact concat?_mono (fun s t hs => s.text?_mono (fun _ _ => ih) hs) h
    · next hp => rwa [if_neg hp]

/-- and so at all greater depths. -/
theorem inline_mono {m : Nat} (hmn : m ≤ n) (h : inline reference m cs = some t) :
    inline reference n cs = some t := by
  induction n, hmn using Nat.le_induction with
  | base => exact h
  | succ n _ ih => exact inline_deeper ih

/-- More rounds do not change a text that was found with fewer. -/
theorem render_mono {m : Nat} {s : String} (hmn : m ≤ n)
    (h : render reference m template = .ok s) : render reference n template = .ok s :=
  render_eq_ok_iff.2 (inline_mono hmn (render_eq_ok_iff.1 h))

/-- Where nothing else is wrong, a template loops in fewer rounds than it is deep. -/
theorem render_of_lt_depth (h : Sound reference template.toList)
    (hn : (n : ℕ∞) < depth reference template.toList) :
    render reference n template = .error (.loop template n) := by
  have hnone : inline reference n template.toList = none := by
    rw [← Option.not_isSome_iff_eq_none, inline_isSome_iff h]
    exact not_le.2 hn
  have hcases := render_cases reference n template
  cases hr : render reference n template with
  | ok s =>
    rw [hr] at hcases
    simp [hnone] at hcases
  | error e =>
    rw [hr] at hcases
    obtain ⟨⟨f, hf, rfl⟩, -⟩ := hcases
    rw [error_of_mem_faults h hf.mem]

/-- Let nothing be wrong with any placeholder that can be reached from a template.  A text without
placeholders has no depth, and any other is one deeper than the deepest value that it names; the
depth is infinite where a field is read that leads back to itself, and with finitely many fields
only there.  From as many rounds as the template is deep on, rendering gives a text, and always the
same; with fewer rounds it loops.  So a field that leads back to itself makes a loop of any number
of rounds, and more rounds never change a text. -/
theorem converges_at_depth (h : Sound reference template.toList) :
    (∀ cs, depth reference cs =
      if isPending cs then (⨆ t ∈ named reference cs, depth reference t) + 1 else 0) ∧
    (∃ s, ∀ n : Nat,
      (depth reference template.toList ≤ n → render reference n template = .ok s) ∧
      (n < depth reference template.toList →
        render reference n template = .error (.loop template n))) ∧
    ((∃ f, Reads reference template.toList f ∧ Feeds reference f f) →
      depth reference template.toList = ⊤ ∧
        ∀ n, render reference n template = .error (.loop template n)) ∧
    ({f | (reference f).isSome}.Finite → depth reference template.toList = ⊤ →
      ∃ f, Reads reference template.toList f ∧ Feeds reference f f) ∧
    ∀ m n s, m ≤ n → render reference m template = .ok s → render reference n template = .ok s := by
  refine ⟨depth_eq reference, ?_, ?_, fun hfinite => (depth_eq_top_iff hfinite).1,
    fun m n s => render_mono⟩
  · by_cases htop : depth reference template.toList = ⊤
    · refine ⟨"", fun n => ⟨fun hle => ?_, render_of_lt_depth h⟩⟩
      rw [htop, top_le_iff] at hle
      exact absurd hle (ENat.natCast_ne_top n)
    · obtain ⟨d, hd⟩ := ENat.ne_top_iff_exists.1 htop
      obtain ⟨t, ht⟩ := Option.isSome_iff_exists.1 ((inline_isSome_iff h).2 hd.ge)
      refine ⟨String.ofList t, fun n => ⟨fun hle => ?_, render_of_lt_depth h⟩⟩
      rw [← hd, Nat.cast_le] at hle
      refine render_mono hle (render_eq_ok_iff.2 ?_)
      rw [ht, String.toList_ofList]
  · rintro ⟨f, hf, hcircular⟩
    have htop := depth_eq_top_of_circular hf hcircular
    refine ⟨htop, fun n => render_of_lt_depth h ?_⟩
    rw [htop]
    exact ENat.natCast_lt_top n

end

/-- A field whose value is another one, with a quoted brace in its value. -/
def Reference.chain : Reference :=
  fun name => if name = "a" then some (.string "\x7b\x7b .b \x7d\x7d") else
    if name = "b" then some (.string "\x7b\x7b\"\x7b\x7b\"\x7d\x7d .c") else none

/-- The fields that it has. -/
theorem Reference.chain_cases {f : String} {v : Field.Value} (h : chain f = some v) :
    f = "a" ∧ v = .string "\x7b\x7b .b \x7d\x7d" ∨
      f = "b" ∧ v = .string "\x7b\x7b\"\x7b\x7b\"\x7d\x7d .c" := by
  rw [chain] at h
  split at h
  · next hf => exact .inl ⟨hf, (Option.some.inj h).symm⟩
  · split at h
    · next hf => exact .inr ⟨hf, (Option.some.inj h).symm⟩
    · simp at h

theorem chain_converges : Sound .chain "x-\x7b\x7b .a \x7d\x7d".toList ∧
    depth .chain "x-\x7b\x7b .a \x7d\x7d".toList = 3 ∧
    (∀ n : Nat, 3 ≤ n → render .chain n "x-\x7b\x7b .a \x7d\x7d" = .ok "x-\x7b\x7b .c") ∧
    ∀ n : Nat, n < 3 → render .chain n "x-\x7b\x7b .a \x7d\x7d" =
      .error (.loop "x-\x7b\x7b .a \x7d\x7d" n) := by
  have hsound : Sound .chain "x-\x7b\x7b .a \x7d\x7d".toList := by
    refine ⟨by decide +kernel, fun f v _ hv => ?_⟩
    rcases Reference.chain_cases hv with ⟨-, rfl⟩ | ⟨-, rfl⟩ <;> decide +kernel
  obtain ⟨-, ⟨s, hs⟩, -, -, hmono⟩ := converges_at_depth hsound
  have hthree : render .chain 3 "x-\x7b\x7b .a \x7d\x7d" = .ok "x-\x7b\x7b .c" := by
    decide +kernel
  have htwo : render .chain 2 "x-\x7b\x7b .a \x7d\x7d" =
      .error (.loop "x-\x7b\x7b .a \x7d\x7d" 2) := by decide +kernel
  have hle : depth .chain "x-\x7b\x7b .a \x7d\x7d".toList ≤ 3 := by
    by_contra hlt
    have hloop := (hs 3).2 (not_le.1 hlt)
    rw [hthree] at hloop
    simp at hloop
  have hlt : (2 : Nat) < depth .chain "x-\x7b\x7b .a \x7d\x7d".toList := by
    by_contra hle
    have hok := (hs 2).1 (not_lt.1 hle)
    rw [htwo] at hok
    simp at hok
  have hdepth : depth .chain "x-\x7b\x7b .a \x7d\x7d".toList = 3 :=
    le_antisymm hle (Order.add_one_le_of_lt hlt)
  refine ⟨hsound, hdepth, fun n hn => hmono 3 n _ hn hthree, fun n hn => (hs n).2 ?_⟩
  rw [hdepth]
  exact_mod_cast hn

end Template

end Provisioning
