import Mathlib.Data.Set.Insert
import Provisioning.Proofs.Template.Inline

/-!
# What a template reads

A template reads the fields that its placeholders name, and those that are named by the values of
fields that it reads (`Reads`).  Nothing else of a reference has any part in what becomes of it:

* `Reads.mem_of_closed` : how to show that a field is not read;
* `inline_faults_congr` : references that agree on those fields give the same text and the same
  faults, to whatever depth;
* `render_congr` : so they give the same text or the same error.
-/

namespace Provisioning

namespace Template

/-- The field that a placeholder names. -/
def Segment.field? : Segment → Option String
  | placeholder cs =>
    match Expr.parse (Text.trimChars cs) with
    | .ok (.field f) => some f
    | _ => none
  | _ => none

/-- The fields that a text names, in order. -/
def fields (cs : List Char) : List String := (segments 0 cs).filterMap Segment.field?

/-- The fields on which a text depends: those that it names, and those on which their values
depend. -/
inductive Reads (reference : Reference) : List Char → String → Prop
  /-- A field that the text names. -/
  | named {cs : List Char} {f : String} : f ∈ fields cs → Reads reference cs f
  /-- A field on which the value of a named field depends. -/
  | through {cs : List Char} {f g : String} {v : Field.Value} : f ∈ fields cs →
      reference f = some v → Reads reference v.render.toList g → Reads reference cs g

section

variable {reference reference' : Reference}

/-- A text reads nothing but fields of a set that has those that the text names, and with each
field those that its value names. -/
theorem Reads.mem_of_closed {s : Set String} {cs : List Char} {f : String}
    (h : Reads reference cs f)
    (hclosed : ∀ g ∈ s, ∀ v, reference g = some v → ∀ f ∈ fields v.render.toList, f ∈ s)
    (hcs : ∀ f ∈ fields cs, f ∈ s) : f ∈ s := by
  induction h with
  | named hf => exact hcs _ hf
  | through hf hv _ ih => exact ih (hclosed _ (hcs _ hf) _ hv)

theorem concat?_congr {α : Type} {text text' : α → Option (List Char)} {parts : List α}
    (h : ∀ part ∈ parts, text part = text' part) : concat? text parts = concat? text' parts := by
  induction parts with
  | nil => rfl
  | cons part parts ih =>
    obtain ⟨hpart, hparts⟩ := List.forall_mem_cons.1 h
    rw [concat?_cons, concat?_cons, hpart, ih hparts]

/-- What holds of the value of the field that a segment names, if it names one, decides what
becomes of the segment. -/
theorem Segment.congr_of_field {segment : Segment}
    {value value' : List Char → Option (List Char)} {faults faults' : List Char → List Fault}
    (h : ∀ f, segment.field? = some f → reference f = reference' f ∧ ∀ v, reference f = some v →
      value v.render.toList = value' v.render.toList ∧
        faults v.render.toList = faults' v.render.toList) (template : String) :
    segment.text? reference value = segment.text? reference' value' ∧
      segment.faults reference template faults = segment.faults reference' template faults' := by
  cases segment with
  | verbatim cs => exact ⟨rfl, rfl⟩
  | unclosed position => exact ⟨rfl, rfl⟩
  | placeholder cs =>
    rw [field?] at h
    rw [text?, text?, Segment.faults, Segment.faults]
    cases hparse : Expr.parse (Text.trimChars cs) with
    | error e => exact ⟨rfl, rfl⟩
    | ok e =>
      cases e with
      | literal t => exact ⟨rfl, rfl⟩
      | field f =>
        simp only [hparse] at h
        obtain ⟨hreference, hvalue⟩ := h f rfl
        simp only [← hreference]
        cases hf : reference f with
        | none => exact ⟨rfl, rfl⟩
        | some v =>
          obtain ⟨htext, hfaults⟩ := hvalue v hf
          exact ⟨htext, congrArg (List.map Fault.inside) hfaults⟩

/-- References that agree on what a text reads give it the same text and the same faults, to
whatever depth. -/
theorem inline_faults_congr {cs : List Char}
    (h : ∀ f, Reads reference cs f → reference f = reference' f) (template : String)
    (rounds n : Nat) : inline reference n cs = inline reference' n cs ∧
      faults reference template rounds n cs = faults reference' template rounds n cs := by
  induction n generalizing cs with
  | zero => exact ⟨rfl, rfl⟩
  | succ n ih =>
    -- each segment stands for itself or for the value of a field that the text reads
    have hsegment : ∀ s ∈ segments 0 cs,
        s.text? reference (inline reference n) = s.text? reference' (inline reference' n) ∧
          s.faults reference template (faults reference template rounds n) =
            s.faults reference' template (faults reference' template rounds n) := by
      intro s hs
      refine Segment.congr_of_field (fun f hf => ?_) template
      have hmem : f ∈ fields cs := List.mem_filterMap.2 ⟨s, hs, hf⟩
      exact ⟨h f (.named hmem), fun v hv => ih fun g hg => h g (.through hmem hv hg)⟩
    rw [inline, inline, faults, faults]
    by_cases hpending : isPending cs = true
    · rw [if_pos hpending, if_pos hpending, if_pos hpending, if_pos hpending]
      rw [List.flatMap_def, List.flatMap_def]
      exact ⟨concat?_congr fun s hs => (hsegment s hs).1,
        congrArg List.flatten (List.map_congr_left fun s hs => (hsegment s hs).2)⟩
    · rw [if_neg hpending, if_neg hpending, if_neg hpending, if_neg hpending]
      exact ⟨rfl, rfl⟩

/-- A template stands for the same under references that agree on what it reads, and is refused
for the same reason. -/
theorem render_congr {template : String}
    (h : ∀ f, Reads reference template.toList f → reference f = reference' f) (rounds : Nat) :
    render reference rounds template = render reference' rounds template := by
  obtain ⟨hinline, hfaults⟩ := inline_faults_congr h template rounds rounds
  symm
  cases hr : render reference rounds template with
  | ok s =>
    rw [render_eq_ok_iff, hinline] at hr
    exact render_eq_ok_iff.2 hr
  | error e =>
    rw [render_eq_error_iff, hfaults] at hr
    exact render_eq_error_iff.2 hr

end

end Template

end Provisioning
