import Provisioning.Proofs.Template.Reading
import Provisioning.Proofs.Template.Splice

/-!
# Escaped texts

Any text can be written as a template that stands for it: each of its openings, from left to right
and none overlapping another, is put into a placeholder that quotes it (`escape`).  What stands
around an opening cannot spoil it.  No brace before it joins it, since an opening is the first one
from its left; and a brace after it is not part of the placeholder, since a placeholder ends at the
first closing.

* `segments_escape` : the segments of an escaped text are the quoted openings and what lies between
  them;
* `inline_escape` : one level is enough for it, and what the quoted openings are put together to is
  not looked at again;
* `escape_reads_nothing` : it names no field;
* `escaped_renders` : so it stands for the text by itself, and as the value of a field.
-/

namespace Provisioning

namespace Template

/-- What stands in a placeholder that quotes an opening. -/
def quotedOpening : List Char := '"' :: (opening ++ ['"'])

/-- The text with each opening in a placeholder that quotes it. -/
def escape (cs : List Char) : List Char :=
  match _h : Text.cut opening cs with
  | none => cs
  | some (before, after) => before ++ (opening ++ quotedOpening ++ closing) ++ escape after
termination_by cs.length
decreasing_by exact Text.length_lt_of_cut (by simp [opening]) _h

/-- The template that stands for a text. -/
def escaped (s : String) : String := String.ofList (escape s.toList)

example : escaped "\x7b\x7b\x7b\x7d\x7d" = "\x7b\x7b\"\x7b\x7b\"\x7d\x7d\x7b\x7d\x7d" := by
  decide +kernel

section

variable {reference : Reference} {n : Nat} {cs before after : List Char}

theorem escape_plain (h : Text.cut opening cs = none) : escape cs = cs := by
  unfold escape
  split
  · rfl
  · next hcut => simp [h] at hcut

theorem escape_opening (h : Text.cut opening cs = some (before, after)) :
    escape cs = before ++ (opening ++ quotedOpening ++ closing) ++ escape after := by
  rw [escape]
  split
  · next hcut => simp [h] at hcut
  · next b a hcut =>
    obtain ⟨rfl, rfl⟩ := Prod.mk.inj (Option.some.inj (h.symm.trans hcut))
    rfl

theorem parse_quotedOpening :
    Expr.parse (Text.trimChars quotedOpening) = .ok (.literal (String.ofList opening)) := by
  decide +kernel

/-- The first placeholder of an escaped text quotes the first opening of the text. -/
theorem segments_escape (h : Text.cut opening cs = some (before, after)) (offset : Nat) :
    ∃ offset', segments offset (escape cs) =
      verbatims before ++ .placeholder quotedOpening :: segments offset' (escape after) := by
  -- the opening of the placeholder is where that of the text was
  have hopen : Text.cut opening (escape cs) =
      some (before, quotedOpening ++ closing ++ escape after) := by
    rw [Text.cut_eq_some_iff (by simp [opening])] at h ⊢
    refine ⟨?_, h.2⟩
    rw [escape_opening ((Text.cut_eq_some_iff (by simp [opening])).2 h)]
    simp only [List.append_assoc]
  have hclose : Text.cut closing (quotedOpening ++ closing ++ escape after) =
      some (quotedOpening, escape after) := cut_closing (by decide) _
  exact ⟨_, segments_placeholder offset hopen hclose⟩

theorem concat?_segments_escape (value : List Char → Option (List Char)) (cs : List Char)
    (offset : Nat) :
    concat? (Segment.text? reference value) (segments offset (escape cs)) = some cs := by
  induction cs using escape.induct generalizing offset with
  | case1 cs hcut =>
    rw [escape_plain hcut, segments_plain offset hcut, concat?_verbatims]
  | case2 cs before after hcut ih =>
    obtain ⟨offset', hsegments⟩ := segments_escape hcut offset
    have hquoted : (Segment.placeholder quotedOpening).text? reference value = some opening := by
      rw [Segment.text?, parse_quotedOpening]
      simp
    rw [hsegments, concat?_append, concat?_verbatims, concat?_cons, hquoted, ih offset']
    simp [Text.eq_of_cut hcut]

/-- With a level left, an escaped text stands for the text. -/
theorem inline_escape (cs : List Char) : inline reference (n + 1) (escape cs) = some cs := by
  rw [inline_succ _ 0, concat?_segments_escape]

theorem field?_of_mem_segments_escape {offset : Nat} {s : Segment}
    (h : s ∈ segments offset (escape cs)) : s.field? = none := by
  induction cs using escape.induct generalizing offset with
  | case1 cs hcut =>
    rw [escape_plain hcut, segments_plain offset hcut, mem_verbatims] at h
    obtain ⟨-, rfl⟩ := h
    rfl
  | case2 cs before after hcut ih =>
    obtain ⟨offset', hsegments⟩ := segments_escape hcut offset
    rw [hsegments, List.mem_append, List.mem_cons, mem_verbatims] at h
    rcases h with ⟨-, rfl⟩ | rfl | h
    · rfl
    · rw [Segment.field?, parse_quotedOpening]
    · exact ih h

theorem fields_escape (cs : List Char) : fields (escape cs) = [] := by
  rw [fields, List.filterMap_eq_nil_iff]
  intro s hs
  exact field?_of_mem_segments_escape hs

/-- An escaped text reads no field. -/
theorem escape_reads_nothing (cs : List Char) (f : String) : ¬ Reads reference (escape cs) f := by
  intro h
  -- what a text reads begins with a field that it names
  cases h with
  | named hf => simp [fields_escape] at hf
  | through hf _ _ => simp [fields_escape] at hf

/-- With a round, an escaped text renders to the text. -/
theorem render_escaped (s : String) : render reference (n + 1) (escaped s) = .ok s := by
  rw [render_eq_ok_iff, escaped, String.toList_ofList, inline_escape]

/-- Every text can be escaped.  Whatever the fields are, with at least one round its escaped form
renders to the text and reads no field; and with at least two, the placeholder of any field that can
be named and has the escaped form as its value renders to the text as well. -/
theorem escaped_renders (reference : Reference) (n : Nat) (s : String) :
    render reference (n + 1) (escaped s) = .ok s ∧
    (∀ f, ¬ Reads reference (escaped s).toList f) ∧
    ∀ field, IsFieldName field → reference field = some (.string (escaped s)) →
      render reference (n + 2) (placeholder field) = .ok s := by
  refine ⟨render_escaped s, ?_, ?_⟩
  · intro f
    rw [escaped, String.toList_ofList]
    exact escape_reads_nothing s.toList f
  · intro field hname hvalue
    rw [render_placeholder hname]
    exact ⟨_, hvalue, render_escaped s⟩

end

/-- Three opening braces in a row, a brace after a placeholder, quotes and a wide character next to
braces. -/
theorem braces_escaped :
    let s := "\x7b\x7b\x7b .x \x7d\x7d\x7d\"é\x7b\x7b\"\x7d"
    let reference : Reference := fun f => if f = "x" then some (.string (escaped s)) else none
    IsFieldName "x" ∧ reference "x" = some (.string (escaped s)) ∧
      render reference 2 (placeholder "x") = .ok s := by
  intro s reference
  obtain ⟨-, -, hfield⟩ := escaped_renders reference 0 s
  have hname : IsFieldName "x" := by decide
  exact ⟨hname, rfl, hfield "x" hname rfl⟩

end Template

end Provisioning
