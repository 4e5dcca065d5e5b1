import Provisioning.Proofs.Text.Search
import Provisioning.Template

/-!
# Templates by inlining

A template is rendered in rounds, each of which goes over all pieces that are there.  Its text can
also be found by going into every value as soon as its placeholder is met (`inline`), and what can
go wrong on all ways in can be listed in order, each fault with its depth (`faults`).

* `substitute_eq` : a round over a text looks at each of its segments alone;
* `Advances.expandOnce` : a round leads one level into the values, and ends at the first fault of
  the outermost level;
* `render_cases` : rendering gives the inlined text, or the error of the fault that leads;
* `depth_of_mem_faults` : looping is the fault of the innermost level, and of no other one;
* `render_eq_inline` : both, for all references, templates and numbers of rounds.
-/

namespace Provisioning

namespace Template

/-! ### Segments -/

/-- A part of a text, as the text is read from left to right. -/
inductive Segment where
  /-- Text outside of placeholders. -/
  | verbatim (cs : List Char)
  /-- What stands between the braces of a placeholder. -/
  | placeholder (cs : List Char)
  /-- A placeholder that opens at this byte and is not closed. -/
  | unclosed (position : Nat)
deriving DecidableEq

/-- A segment of text, or nothing for the empty text. -/
def verbatims (cs : List Char) : List Segment :=
  if cs.isEmpty then [] else [.verbatim cs]

/-- The segments of a text that begins `offset` bytes into the text of the round. -/
def segments (offset : Nat) (cs : List Char) : List Segment :=
  match _h : Text.cut opening cs with
  | none => verbatims cs
  | some (before, inner) =>
    match _h' : Text.cut closing inner with
    | none => verbatims before ++ [.unclosed (offset + Utf8.size before)]
    | some (expr, rest) =>
      let after := offset + Utf8.size before + 2 + Utf8.size expr + 2
      verbatims before ++ .placeholder expr :: segments after rest
termination_by cs.length
decreasing_by
  have := Text.length_lt_of_cut (by simp [opening]) _h
  have := Text.length_lt_of_cut (by simp [closing]) _h'
  omega

section

variable {cs before inner expr rest : List Char}

/-- What holds of texts without placeholders, of texts that open one and do not close it, and of
texts if it holds of what follows their first placeholder, holds of all texts. -/
theorem segment_induction {motive : List Char → Prop}
    (plain : ∀ cs, Text.cut opening cs = none → motive cs)
    (unclosed : ∀ cs before inner, Text.cut opening cs = some (before, inner) →
      Text.cut closing inner = none → motive cs)
    (placeholder : ∀ cs before inner expr rest, Text.cut opening cs = some (before, inner) →
      Text.cut closing inner = some (expr, rest) → motive rest → motive cs)
    (cs : List Char) : motive cs :=
  match hopen : Text.cut opening cs with
  | none => plain cs hopen
  | some (before, inner) =>
    match hclose : Text.cut closing inner with
    | none => unclosed cs before inner hopen hclose
    | some (expr, rest) =>
      placeholder cs before inner expr rest hopen hclose
        (segment_induction plain unclosed placeholder rest)
termination_by cs.length
decreasing_by
  have := Text.length_lt_of_cut (by simp [opening]) hopen
  have := Text.length_lt_of_cut (by simp [closing]) hclose
  omega

theorem segments_plain (offset : Nat) (h : Text.cut opening cs = none) :
    segments offset cs = verbatims cs := by
  rw [segments]
  split
  · rfl
  · next hopen => simp [h] at hopen

theorem segments_unclosed (offset : Nat) (hopen : Text.cut opening cs = some (before, inner))
    (hclose : Text.cut closing inner = none) :
    segments offset cs = verbatims before ++ [.unclosed (offset + Utf8.size before)] := by
  rw [segments]
  split
  · next h => simp [hopen] at h
  · next b i h =>
    obtain ⟨rfl, rfl⟩ := Prod.mk.inj (Option.some.inj (hopen.symm.trans h))
    split
    · rfl
    · next h => simp [hclose] at h

theorem segments_placeholder (offset : Nat) (hopen : Text.cut opening cs = some (before, inner))
    (hclose : Text.cut closing inner = some (expr, rest)) :
    segments offset cs = verbatims before ++ .placeholder expr ::
      segments (offset + Utf8.size before + 2 + Utf8.size expr + 2) rest := by
  rw [segments]
  split
  · next h => simp [hopen] at h
  · next b i h =>
    obtain ⟨rfl, rfl⟩ := Prod.mk.inj (Option.some.inj (hopen.symm.trans h))
    split
    · next h => simp [hclose] at h
    · next e r h =>
      obtain ⟨rfl, rfl⟩ := Prod.mk.inj (Option.some.inj (hclose.symm.trans h))
      rfl

theorem mem_verbatims {segment : Segment} : segment ∈ verbatims cs ↔
    cs ≠ [] ∧ segment = .verbatim cs := by
  rw [verbatims]
  cases cs <;> simp

theorem isPending_eq_false_iff : isPending cs = false ↔ Text.cut opening cs = none := by
  rw [isPending, Text.contains, Option.isSome_eq_false_iff, Option.isNone_iff_eq_none]

/-- Without braces no placeholder opens. -/
theorem isPending_of_not_mem (h : '\x7b' ∉ cs) : isPending cs = false := by
  rw [isPending_eq_false_iff, Option.eq_none_iff_forall_ne_some]
  rintro ⟨before, after⟩ hcut
  refine h ?_
  rw [Text.eq_of_cut hcut]
  simp [opening]

/-- No placeholder opens outside of placeholders. -/
theorem isPending_of_mem_segments {offset : Nat} (h : .verbatim before ∈ segments offset cs) :
    isPending before = false := by
  induction cs using segment_induction generalizing offset with
  | plain cs hopen =>
    rw [segments_plain offset hopen, mem_verbatims] at h
    obtain ⟨-, h⟩ := h
    rwa [Segment.verbatim.inj h, isPending_eq_false_iff]
  | unclosed cs b inner hopen hclose =>
    rw [segments_unclosed offset hopen hclose, List.mem_append, mem_verbatims] at h
    rcases h with ⟨-, h⟩ | h
    · rw [Segment.verbatim.inj h, isPending_eq_false_iff]
      exact Text.cut_before (by simp [opening]) hopen
    · simp at h
  | placeholder cs b inner expr rest hopen hclose ih =>
    rw [segments_placeholder offset hopen hclose, List.mem_append, mem_verbatims,
      List.mem_cons] at h
    rcases h with ⟨-, h⟩ | h | h
    · rw [Segment.verbatim.inj h, isPending_eq_false_iff]
      exact Text.cut_before (by simp [opening]) hopen
    · simp at h
    · exact ih h

end

/-! ### Inlining -/

/-- The texts of all parts one after another; none if a part has none. -/
def concat? {α : Type} (text : α → Option (List Char)) (parts : List α) : Option (List Char) :=
  (parts.mapM text).map List.flatten

section

variable {α : Type} (text : α → Option (List Char))

@[simp] theorem concat?_nil : concat? text [] = some [] := by
  simp [concat?]

theorem concat?_cons (part : α) (parts : List α) : concat? text (part :: parts) =
    (text part).bind fun cs => (concat? text parts).map (cs ++ ·) := by
  rw [concat?, concat?, List.mapM_cons]
  cases text part with
  | none => rfl
  | some cs => cases parts.mapM text <;> rfl

theorem concat?_append (parts parts' : List α) : concat? text (parts ++ parts') =
    (concat? text parts).bind fun cs => (concat? text parts').map (cs ++ ·) := by
  induction parts with
  | nil => cases h : concat? text parts' <;> simp [h]
  | cons part parts ih =>
    rw [List.cons_append, concat?_cons, concat?_cons, ih]
    cases text part with
    | none => rfl
    | some cs =>
      cases concat? text parts with
      | none => rfl
      | some cs' => cases concat? text parts' <;> simp

variable {text} in
theorem concat?_of_mem {part : α} {parts : List α} (hmem : part ∈ parts)
    (h : text part = none) : concat? text parts = none := by
  induction parts with
  | nil => simp at hmem
  | cons first parts ih =>
    rw [concat?_cons]
    rcases List.mem_cons.1 hmem with rfl | hmem
    · rw [h, Option.bind_none]
    · simp [ih hmem]

end

/-- The text of a segment, if `value` gives the texts of values. -/
def Segment.text? (reference : Reference) (value : List Char → Option (List Char)) :
    Segment → Option (List Char)
  | verbatim cs => some cs
  | placeholder cs =>
    match Expr.parse (Text.trimChars cs) with
    | .error _ => none
    | .ok (.literal t) => some t.toList
    | .ok (.field f) => (reference f).bind fun v => value v.render.toList
  | unclosed _ => none

/-- Text outside of placeholders stands for itself. -/
theorem concat?_verbatims (reference : Reference) (value : List Char → Option (List Char))
    (cs : List Char) : concat? (Segment.text? reference value) (verbatims cs) = some cs := by
  rw [verbatims]
  cases cs <;> simp [concat?_cons, Segment.text?]

/-- The text of a template, going at most `n` levels into values; none if there is a fault. -/
def inline (reference : Reference) : Nat → List Char → Option (List Char)
  | 0, cs => if isPending cs then none else some cs
  | n + 1, cs =>
    if isPending cs then concat? (Segment.text? reference (inline reference n)) (segments 0 cs)
    else some cs

/-- Something that goes wrong so many levels inside of values. -/
structure Fault where
  /-- The number of values around it. -/
  depth : Nat
  /-- What goes wrong. -/
  error : Error
deriving DecidableEq

/-- A fault inside of one more value. -/
def Fault.inside (f : Fault) : Fault := { f with depth := f.depth + 1 }

/-- The faults of a segment, if `value` gives the faults of values. -/
def Segment.faults (reference : Reference) (template : String) (value : List Char → List Fault) :
    Segment → List Fault
  | verbatim _ => []
  | placeholder cs =>
    match Expr.parse (Text.trimChars cs) with
    | .error e => [⟨0, e⟩]
    | .ok (.literal _) => []
    | .ok (.field f) =>
      match reference f with
      | none => [⟨0, .unknownField f⟩]
      | some v => (value v.render.toList).map Fault.inside
  | unclosed position => [⟨0, .unclosed template position⟩]

/-- All faults of a text on the way `n` levels into values, from left to right. -/
def faults (reference : Reference) (template : String) (rounds : Nat) :
    Nat → List Char → List Fault
  | 0, cs => if isPending cs then [⟨0, .loop template rounds⟩] else []
  | n + 1, cs =>
    if isPending cs then
      (segments 0 cs).flatMap
        (Segment.faults reference template (faults reference template rounds n))
    else []

/-- A fault of a list leads if none is less deep, and none that is as deep stands before it. -/
def Fault.Leads (f : Fault) (fs : List Fault) : Prop :=
  ∃ before after, fs = before ++ f :: after ∧ (∀ g ∈ before, f.depth < g.depth) ∧
    ∀ g ∈ after, f.depth ≤ g.depth

namespace Fault

variable {f g : Fault} {fs : List Fault}

theorem Leads.mem (h : f.Leads fs) : f ∈ fs := by
  obtain ⟨before, after, rfl, -, -⟩ := h
  simp

theorem Leads.depth_le (h : f.Leads fs) (hg : g ∈ fs) : f.depth ≤ g.depth := by
  obtain ⟨before, after, rfl, hbefore, hafter⟩ := h
  rcases List.mem_append.1 hg with hg | hg
  · exact Nat.le_of_lt (hbefore g hg)
  · rcases List.mem_cons.1 hg with rfl | hg
    · exact Nat.le_refl _
    · exact hafter g hg

/-- No two faults of a list lead. -/
theorem Leads.eq (hf : f.Leads fs) (hg : g.Leads fs) : f = g := by
  have hfg : f.depth = g.depth := Nat.le_antisymm (hf.depth_le hg.mem) (hg.depth_le hf.mem)
  obtain ⟨before, after, rfl, hbefore, -⟩ := hf
  obtain ⟨before', after', he, hbefore', -⟩ := hg
  rcases List.append_eq_append_iff.1 he with ⟨mid, hmid, htail⟩ | ⟨mid, hmid, htail⟩
  · cases mid with
    | nil => exact (List.cons.inj htail).1
    | cons m mid =>
      obtain ⟨rfl, -⟩ := List.cons.inj htail
      have := hbefore' f (by simp [hmid])
      omega
  · cases mid with
    | nil => exact (List.cons.inj htail).1.symm
    | cons m mid =>
      obtain ⟨rfl, -⟩ := List.cons.inj htail
      have := hbefore g (by simp [hmid])
      omega

/-- A fault that leads does so inside of one more value. -/
theorem Leads.inside (h : f.Leads fs) : f.inside.Leads (fs.map Fault.inside) := by
  obtain ⟨before, after, rfl, hbefore, hafter⟩ := h
  refine ⟨before.map Fault.inside, after.map Fault.inside, by simp, ?_, ?_⟩
  · simpa [Fault.inside] using hbefore
  · simpa [Fault.inside] using hafter

end Fault

/-! ### Rounds -/

section

variable (reference : Reference) (template : String)

/-- What a round makes of a segment. -/
def Segment.expand : Segment → Except Error Piece
  | verbatim cs => .ok (.text cs)
  | placeholder cs => (Expr.parse (Text.trimChars cs)).bind (Expr.expand reference)
  | unclosed position => .error (.unclosed template position)

theorem mapM_expand_verbatims (cs : List Char) :
    (verbatims cs).mapM (Segment.expand reference template) = .ok (textPieces cs) := by
  rw [verbatims, textPieces]
  cases cs <;> rfl

variable {reference template} in
/-- The pieces that are there have no part in what a round puts behind them. -/
theorem substituteOnto_append (offset : Nat) (cs : List Char) (out : List Piece) :
    substituteOnto reference template offset cs out =
      (substituteOnto reference template offset cs []).map fun round =>
        ⟨out ++ round.pieces, round.ended⟩ := by
  induction cs using segment_induction generalizing offset out with
  | plain cs hopen => simp [substituteOnto_plain hopen]
  | unclosed cs before inner hopen hclose => simp [substituteOnto_unclosed hopen hclose]
  | placeholder cs before inner expr rest hopen hclose ih =>
    rw [substituteOnto_placeholder hopen hclose, substituteOnto_placeholder hopen hclose]
    cases (Expr.parse (Text.trimChars expr)).bind (Expr.expand reference) with
    | error e => simp
    | ok piece =>
      simp only
      rw [ih, ih _ ([] ++ textPieces before ++ [piece]), Option.map_map]
      simp [Function.comp_def]

variable {reference template} in
theorem substitute_of_onto {offset : Nat} {cs : List Char} {round : Round}
    (h : substituteOnto reference template offset cs [] = some round) :
    substitute reference template offset cs = round.ended.map fun _ => round.pieces := by
  simp only [substitute, h, Option.get_some]

/-- A round over a text looks at each of its segments alone, from left to right. -/
theorem substitute_eq (offset : Nat) (cs : List Char) :
    substitute reference template offset cs =
      (segments offset cs).mapM (Segment.expand reference template) := by
  induction cs using segment_induction generalizing offset with
  | plain cs hopen =>
    rw [segments_plain offset hopen, mapM_expand_verbatims,
      substitute_of_onto (substituteOnto_plain hopen)]
    rfl
  | unclosed cs before inner hopen hclose =>
    rw [segments_unclosed offset hopen hclose, List.mapM_append, mapM_expand_verbatims,
      substitute_of_onto (substituteOnto_unclosed hopen hclose)]
    rfl
  | placeholder cs before inner expr rest hopen hclose ih =>
    have hround : substituteOnto reference template offset cs [] = _ :=
      substituteOnto_placeholder hopen hclose
    rw [segments_placeholder offset hopen hclose, List.mapM_append, mapM_expand_verbatims,
      List.mapM_cons, ← ih, Segment.expand]
    cases hpiece : (Expr.parse (Text.trimChars expr)).bind (Expr.expand reference) with
    | error e =>
      rw [hpiece] at hround
      rw [substitute_of_onto hround]
      rfl
    | ok piece =>
      simp only [hpiece] at hround
      obtain ⟨round, hrest⟩ := Option.isSome_iff_exists.1 (isSome_substituteOnto reference template
        (offset + Utf8.size before + 2 + Utf8.size expr + 2) rest [])
      rw [substituteOnto_append _ rest, hrest] at hround
      rw [substitute_of_onto hround, substitute_of_onto hrest]
      cases round.ended with
      | error e => rfl
      | ok _ => simp [bind, Except.bind, pure, Except.pure, Except.map]

/-- What a round makes of a piece. -/
def Piece.expand : Piece → Except Error (List Piece)
  | text cs =>
    if Template.isPending cs then substitute reference template 0 cs else .ok [text cs]
  | final cs => .ok [final cs]

theorem expandOnce_cons (p : Piece) (ps : List Piece) :
    expandOnce reference template (p :: ps) =
      (do return (← p.expand reference template) ++ (← expandOnce reference template ps)) := by
  cases p with
  | final cs => rw [expandOnce]; rfl
  | text cs =>
    rw [expandOnce, Piece.expand]
    split <;> rfl

variable (rounds n : Nat)

/-- The text of a piece, going at most `n` levels into values. -/
def Piece.inline : Piece → Option (List Char)
  | text cs => Template.inline reference n cs
  | final cs => some cs

/-- All faults of a piece on the way `n` levels into values. -/
def Piece.faults : Piece → List Fault
  | text cs => Template.faults reference template rounds n cs
  | final _ => []

/-- All faults of pieces on the way `n` levels into values, from left to right. -/
def faultsOf (ps : List Piece) : List Fault :=
  ps.flatMap (Piece.faults reference template rounds n)

/-- What a round makes of something, beside its faults and its text: either the round ends at the
first fault of the outermost level, or it leads one level into the values and `n` levels are
left. -/
def Advances (made : Except Error (List Piece)) (fs : List Fault) (text : Option (List Char)) :
    Prop :=
  match made with
  | .error e =>
    (∃ before after, fs = before ++ ⟨0, e⟩ :: after ∧ ∀ f ∈ before, 0 < f.depth) ∧ text = none
  | .ok ps =>
    fs = (faultsOf reference template rounds n ps).map Fault.inside ∧
      text = concat? (Piece.inline reference n) ps

variable {reference template rounds n}

theorem isPending_of_not_any {ps : List Piece} (h : ps.any Piece.isPending = false) :
    ∀ p ∈ ps, p.isPending = false := by
  simpa using h

theorem inline_of_not_pending {cs : List Char} (h : isPending cs = false) :
    inline reference n cs = some cs := by
  cases n <;> simp [inline, h]

theorem faults_of_not_pending {cs : List Char} (h : isPending cs = false) :
    faults reference template rounds n cs = [] := by
  cases n <;> simp [faults, h]

/-- Nothing is wrong with pieces without placeholders. -/
theorem faultsOf_of_not_pending {ps : List Piece} (h : ∀ p ∈ ps, p.isPending = false) :
    faultsOf reference template rounds n ps = [] := by
  rw [faultsOf, List.flatMap_eq_nil_iff]
  intro p hp
  cases p with
  | text cs => exact faults_of_not_pending (h _ hp)
  | final cs => rfl

/-- Pieces without placeholders are the text. -/
theorem concat?_of_not_pending {ps : List Piece} (h : ∀ p ∈ ps, p.isPending = false) :
    concat? (Piece.inline reference n) ps = some (ps.flatMap Piece.chars) := by
  induction ps with
  | nil => exact concat?_nil _
  | cons p ps ih =>
    obtain ⟨hp, hps⟩ := List.forall_mem_cons.1 h
    have hchars : p.inline reference n = some p.chars := by
      cases p with
      | text cs => exact inline_of_not_pending hp
      | final cs => rfl
    rw [concat?_cons, hchars, ih hps]
    rfl

namespace Advances

variable {made made' : Except Error (List Piece)} {fs fs' : List Fault}
  {text text' : Option (List Char)}

/-- What is already text stays. -/
theorem of_text {p : Piece} (h : p.isPending = false) :
    Advances reference template rounds n (.ok [p]) [] (some p.chars) := by
  have hp : ∀ q ∈ [p], q.isPending = false := by simpa using h
  exact ⟨by rw [faultsOf_of_not_pending hp]; rfl, by rw [concat?_of_not_pending hp]; simp⟩

theorem of_error (e : Error) :
    Advances reference template rounds n (.error e) [⟨0, e⟩] none :=
  ⟨⟨[], [], rfl, by simp⟩, rfl⟩

/-- Two parts advance one after the other. -/
theorem append (h : Advances reference template rounds n made fs text)
    (h' : Advances reference template rounds n made' fs' text') :
    Advances reference template rounds n (do return (← made) ++ (← made')) (fs ++ fs')
      (text.bind fun cs => text'.map (cs ++ ·)) := by
  cases made with
  | error e =>
    obtain ⟨⟨before, after, rfl, hbefore⟩, rfl⟩ := h
    exact ⟨⟨before, after ++ fs', by simp, hbefore⟩, rfl⟩
  | ok ps =>
    obtain ⟨rfl, rfl⟩ := h
    cases made' with
    | error e =>
      obtain ⟨⟨before, after, rfl, hbefore⟩, rfl⟩ := h'
      refine ⟨⟨_ ++ before, after, (List.append_assoc ..).symm, ?_⟩, ?_⟩
      · refine List.forall_mem_append.2 ⟨fun f hf => ?_, hbefore⟩
        obtain ⟨g, -, rfl⟩ := List.mem_map.1 hf
        exact Nat.succ_pos _
      · cases concat? (Piece.inline reference n) ps <;> rfl
    | ok ps' =>
      obtain ⟨rfl, rfl⟩ := h'
      exact ⟨by simp [faultsOf], (concat?_append _ ps ps').symm⟩

/-- A segment leads one level into its value, or has a fault of its own. -/
theorem segment {segment : Segment} (h : ∀ cs, segment = .verbatim cs → isPending cs = false) :
    Advances reference template rounds n ((segment.expand reference template).map fun p => [p])
      (segment.faults reference template (Template.faults reference template rounds n))
      (segment.text? reference (inline reference n)) := by
  cases segment with
  | verbatim cs => exact of_text (p := .text cs) (h cs rfl)
  | unclosed position => exact of_error _
  | placeholder cs =>
    simp only [Segment.expand, Segment.faults, Segment.text?]
    cases Expr.parse (Text.trimChars cs) with
    | error e => exact of_error e
    | ok e =>
      cases e with
      | literal t => exact of_text (p := .final t.toList) rfl
      | field f =>
        simp only [Except.bind, Expr.expand]
        cases reference f with
        | none => exact of_error _
        | some v => exact ⟨by simp [faultsOf, Piece.faults], by simp [concat?_cons, Piece.inline]⟩

/-- So does a list of segments. -/
theorem segments {segments : List Segment}
    (h : ∀ cs, .verbatim cs ∈ segments → isPending cs = false) :
    Advances reference template rounds n (segments.mapM (Segment.expand reference template))
      (segments.flatMap (Segment.faults reference template
        (Template.faults reference template rounds n)))
      (concat? (Segment.text? reference (inline reference n)) segments) := by
  induction segments with
  | nil => exact ⟨rfl, rfl⟩
  | cons s segments ih =>
    have hs : Advances reference template rounds n _ _ _ :=
      segment fun cs he => h cs (he ▸ List.mem_cons_self)
    have happend := hs.append (ih fun cs hcs => h cs (List.mem_cons_of_mem _ hcs))
    rw [List.mapM_cons, List.flatMap_cons, concat?_cons]
    cases hexpand : s.expand reference template with
    | error e => rwa [hexpand] at happend
    | ok p => rwa [hexpand] at happend

/-- So does a piece. -/
theorem piece (p : Piece) :
    Advances reference template rounds n (p.expand reference template)
      (p.faults reference template rounds (n + 1)) (p.inline reference (n + 1)) := by
  cases p with
  | final cs => exact of_text rfl
  | text cs =>
    simp only [Piece.expand, Piece.faults, Piece.inline, Template.faults, inline]
    cases hp : isPending cs with
    | false => exact of_text hp
    | true =>
      simp only [if_true]
      rw [substitute_eq]
      exact segments fun _ => isPending_of_mem_segments

/-- A round leads one level into the values, or ends at the first fault of the outermost level. -/
theorem expandOnce (ps : List Piece) :
    Advances reference template rounds n (Template.expandOnce reference template ps)
      (faultsOf reference template rounds (n + 1) ps)
      (concat? (Piece.inline reference (n + 1)) ps) := by
  induction ps with
  | nil => exact ⟨rfl, rfl⟩
  | cons p ps ih =>
    rw [expandOnce_cons, concat?_cons]
    exact (piece p).append ih

end Advances

/-! ### Rendering -/

/-- What the rounds come to: a text, or why there is none. -/
def settled (template : String) (rounds : Nat) :
    Except Error (Option (List Piece)) → Except Error (List Char)
  | .error e => .error e
  | .ok none => .error (.loop template rounds)
  | .ok (some ps) => .ok (ps.flatMap Piece.chars)

theorem render_eq (reference : Reference) (rounds : Nat) (template : String) :
    render reference rounds template = (settled template rounds
      (expand reference template rounds [.text template.toList])).map String.ofList := by
  rw [render]
  cases expand reference template rounds [.text template.toList] with
  | error e => rfl
  | ok made => cases made <;> rfl

theorem exists_pending {ps : List Piece} (h : ps.any Piece.isPending = true) :
    ∃ cs, .text cs ∈ ps ∧ isPending cs = true := by
  obtain ⟨p, hp, hpending⟩ := List.any_eq_true.1 h
  cases p with
  | text cs => exact ⟨cs, hp, hpending⟩
  | final cs => simp [Piece.isPending] at hpending

/-- At the innermost level the fault of all pieces with placeholders is the same. -/
theorem loop_leads {ps : List Piece} (h : ps.any Piece.isPending = true) :
    Fault.Leads ⟨0, .loop template rounds⟩ (faultsOf reference template rounds 0 ps) := by
  obtain ⟨cs, hcs, hpending⟩ := exists_pending h
  have hmem : ⟨0, .loop template rounds⟩ ∈ faultsOf reference template rounds 0 ps :=
    List.mem_flatMap.2 ⟨_, hcs, by simp [Piece.faults, faults, hpending]⟩
  have hall : ∀ f ∈ faultsOf reference template rounds 0 ps, f = ⟨0, .loop template rounds⟩ := by
    intro f hf
    obtain ⟨q, -, hq⟩ := List.mem_flatMap.1 hf
    cases q with
    | final cs => simp [Piece.faults] at hq
    | text cs =>
      simp only [Piece.faults, faults, List.mem_ite_nil_right, List.mem_singleton] at hq
      exact hq.2
  cases hfs : faultsOf reference template rounds 0 ps with
  | nil => simp [hfs] at hmem
  | cons f fs =>
    rw [hfs] at hall
    exact ⟨[], fs, by rw [hall f List.mem_cons_self]; rfl, by simp, fun _ _ => Nat.zero_le _⟩

/-- At the innermost level pieces with placeholders have no text. -/
theorem concat?_of_pending {ps : List Piece} (h : ps.any Piece.isPending = true) :
    concat? (Piece.inline reference 0) ps = none := by
  obtain ⟨cs, hcs, hpending⟩ := exists_pending h
  exact concat?_of_mem hcs (by simp [Piece.inline, inline, hpending])

/-- The rounds come to the error of the fault that leads, or to the inlined text if there is no
fault. -/
theorem expand_cases (reference : Reference) (template : String) (rounds n : Nat)
    (ps : List Piece) :
    match settled template rounds (expand reference template n ps) with
    | .error e =>
      (∃ f : Fault, f.Leads (faultsOf reference template rounds n ps) ∧ f.error = e) ∧
        concat? (Piece.inline reference n) ps = none
    | .ok text =>
      faultsOf reference template rounds n ps = [] ∧
        concat? (Piece.inline reference n) ps = some text := by
  induction n generalizing ps with
  | zero =>
    rw [expand]
    cases hany : ps.any Piece.isPending with
    | false =>
      have hnot := isPending_of_not_any hany
      exact ⟨faultsOf_of_not_pending hnot, concat?_of_not_pending hnot⟩
    | true =>
      exact ⟨⟨_, loop_leads hany, rfl⟩, concat?_of_pending hany⟩
  | succ n ih =>
    rw [expand]
    cases hany : ps.any Piece.isPending with
    | false =>
      have hnot := isPending_of_not_any hany
      exact ⟨faultsOf_of_not_pending hnot, concat?_of_not_pending hnot⟩
    | true =>
      have hround : Advances reference template rounds n _ _ _ := .expandOnce ps
      simp only [if_true]
      cases hnext : expandOnce reference template ps with
      | error e =>
        rw [hnext] at hround
        obtain ⟨⟨before, after, hfaults, hbefore⟩, htext⟩ := hround
        exact ⟨⟨⟨0, e⟩, ⟨before, after, hfaults, hbefore, fun g _ => Nat.zero_le _⟩, rfl⟩, htext⟩
      | ok next =>
        rw [hnext] at hround
        obtain ⟨hfaults, htext⟩ := hround
        have hrest := ih next
        rw [hfaults, htext]
        simp only [bind, Except.bind]
        revert hrest
        cases settled template rounds (expand reference template n next) with
        | error e =>
          rintro ⟨⟨f, hf, rfl⟩, hnone⟩
          exact ⟨⟨f.inside, hf.inside, rfl⟩, hnone⟩
        | ok text =>
          rintro ⟨hnil, hsome⟩
          exact ⟨by rw [hnil]; rfl, hsome⟩

/-- Rendering gives the error of the fault that leads, or the inlined text if there is no fault. -/
theorem render_cases (reference : Reference) (rounds : Nat) (template : String) :
    match render reference rounds template with
    | .error e =>
      (∃ f : Fault, f.Leads (faults reference template rounds rounds template.toList) ∧
        f.error = e) ∧ inline reference rounds template.toList = none
    | .ok s =>
      faults reference template rounds rounds template.toList = [] ∧
        inline reference rounds template.toList = some s.toList := by
  have hcases := expand_cases reference template rounds rounds [.text template.toList]
  have hfaults : faultsOf reference template rounds rounds [.text template.toList] =
      faults reference template rounds rounds template.toList := by
    simp [faultsOf, Piece.faults]
  have htext : concat? (Piece.inline reference rounds) [.text template.toList] =
      inline reference rounds template.toList := by
    simp [concat?_cons, Piece.inline]
  rw [hfaults, htext] at hcases
  rw [render_eq]
  revert hcases
  cases settled template rounds (expand reference template rounds [.text template.toList]) with
  | error e => exact id
  | ok text => simp [Except.map]

theorem render_eq_ok_iff {s : String} : render reference rounds template = .ok s ↔
    inline reference rounds template.toList = some s.toList := by
  have hcases := render_cases reference rounds template
  constructor
  · intro h
    rw [h] at hcases
    exact hcases.2
  · intro h
    cases hr : render reference rounds template with
    | error e =>
      rw [hr] at hcases
      simp [h] at hcases
    | ok s' =>
      rw [hr] at hcases
      obtain ⟨-, hs⟩ := hcases
      rw [h] at hs
      rw [String.toList_inj.1 (Option.some.inj hs)]

/-- A text without placeholders stands for itself. -/
theorem render_of_not_pending {s : String} (h : isPending s.toList = false) :
    render reference n s = .ok s :=
  render_eq_ok_iff.2 (inline_of_not_pending h)

theorem render_eq_error_iff {e : Error} : render reference rounds template = .error e ↔
    ∃ f : Fault, f.Leads (faults reference template rounds rounds template.toList) ∧
      f.error = e := by
  have hcases := render_cases reference rounds template
  constructor
  · intro h
    rw [h] at hcases
    exact hcases.1
  · rintro ⟨f, hf, rfl⟩
    cases hr : render reference rounds template with
    | error e =>
      rw [hr] at hcases
      obtain ⟨⟨g, hg, rfl⟩, -⟩ := hcases
      rw [hf.eq hg]
    | ok s =>
      rw [hr] at hcases
      have hmem := hf.mem
      simp [hcases.1] at hmem

/-! ### Loops -/

theorem Expr.parse_ne_loop (cs : List Char) (t : String) (r : Nat) :
    Expr.parse cs ≠ .error (.loop t r) := by
  rw [parse]
  split
  · simp
  · split <;> simp

/-- At the innermost level a text with placeholders loops, and everywhere else something else goes
wrong. -/
theorem depth_of_mem_faults {f : Fault} {cs : List Char}
    (h : f ∈ faults reference template rounds n cs) :
    f = ⟨n, .loop template rounds⟩ ∨ f.depth < n ∧ ∀ t r, f.error ≠ .loop t r := by
  induction n generalizing f cs with
  | zero =>
    simp only [faults, List.mem_ite_nil_right, List.mem_singleton] at h
    exact .inl h.2
  | succ n ih =>
    simp only [faults, List.mem_ite_nil_right, List.mem_flatMap] at h
    obtain ⟨-, segment, -, h⟩ := h
    cases segment with
    | verbatim cs => simp [Segment.faults] at h
    | unclosed position =>
      rw [Segment.faults, List.mem_singleton] at h
      exact .inr (by simp [h])
    | placeholder cs =>
      rw [Segment.faults] at h
      split at h
      · next e he =>
        obtain rfl := List.mem_singleton.1 h
        refine .inr ⟨Nat.succ_pos n, fun t r hloop => ?_⟩
        exact Expr.parse_ne_loop _ t r (he.trans (congrArg Except.error hloop))
      · simp at h
      · split at h
        · exact .inr (by simp [List.mem_singleton.1 h])
        · obtain ⟨g, hg, rfl⟩ := List.mem_map.1 h
          rcases ih hg with rfl | ⟨hdepth, hloop⟩
          · exact .inl rfl
          · exact .inr ⟨Nat.succ_lt_succ hdepth, hloop⟩

/-- For all references, templates and numbers of rounds, rendering in rounds is inlining: it gives
a text exactly if inlining does, and the same one; otherwise its error is that of the fault that is
leftmost among the least deep, and it loops exactly if there is a fault and no fault is another
one. -/
theorem render_eq_inline (reference : Reference) (rounds : Nat) (template : String) :
    (∀ s, render reference rounds template = .ok s ↔
      inline reference rounds template.toList = some s.toList) ∧
    (∀ e, render reference rounds template = .error e ↔
      ∃ f : Fault, f.Leads (faults reference template rounds rounds template.toList) ∧
        f.error = e) ∧
    ((∃ t r, render reference rounds template = .error (.loop t r)) ↔
      inline reference rounds template.toList = none ∧
        ∀ f ∈ faults reference template rounds rounds template.toList,
          f = ⟨rounds, .loop template rounds⟩) := by
  refine ⟨fun s => render_eq_ok_iff, fun e => render_eq_error_iff, ?_, ?_⟩
  · rintro ⟨t, r, h⟩
    have hcases := render_cases reference rounds template
    rw [h] at hcases
    obtain ⟨⟨f, hf, herror⟩, hnone⟩ := hcases
    refine ⟨hnone, fun g hg => ?_⟩
    -- The leading fault is a loop, so it is at the innermost level and nothing is less deep.
    have hdepth : f.depth = rounds := by
      rcases depth_of_mem_faults hf.mem with rfl | ⟨-, hother⟩
      · rfl
      · exact absurd herror (hother t r)
    rcases depth_of_mem_faults hg with he | ⟨hlt, -⟩
    · exact he
    · have := hf.depth_le hg
      omega
  · rintro ⟨hnone, hall⟩
    have hcases := render_cases reference rounds template
    cases hr : render reference rounds template with
    | ok s =>
      rw [hr] at hcases
      simp [hnone] at hcases
    | error e =>
      rw [hr] at hcases
      obtain ⟨⟨f, hf, rfl⟩, -⟩ := hcases
      exact ⟨template, rounds, by rw [hall f hf.mem]⟩

end

end Template

end Provisioning
