import Provisioning.Field.Value
import Provisioning.Text.Blank
import Provisioning.Text.Quoted
import Provisioning.Text.Slice

/-!
# Templates

A template is a text with placeholders between double braces: a dot and a field name stand for the
field's value, a text in double quotes stands for itself.  A value may hold placeholders again, so
a template is expanded in rounds; each round replaces the placeholders of the pieces that still
have some, and what it puts in is not looked at before the next round.  A quoted text is final.
A template that is not done after the last round is a loop.

A round goes through a text by byte offsets (`substituteOnto`); that it never asks for a part that
the text does not have is `isSome_substituteOnto`.
-/

namespace Provisioning

namespace Template

/-- Why a template has no text. -/
inductive Error where
  | unclosed (template : String) (position : Nat)
  | unknownField (field : String)
  | expression (expr : String)
  | loop (template : String) (rounds : Nat)
deriving DecidableEq

/-- What is said of an error. -/
def Error.message : Error → String
  | unclosed t p => "unclosed template at position " ++ toString p ++ " in " ++ Text.quoted t
  | unknownField f => "unknown template field '" ++ f ++ "'"
  | expression e =>
    "invalid template expression '\x7b\x7b" ++ e
      ++ "\x7d\x7d' (expected '\x7b\x7b .field \x7d\x7d')"
  | loop t r =>
    "rendering loop: " ++ Text.quoted t ++ " did not converge within " ++ toString r ++ " rounds"

/-- The values that field names stand for. -/
abbrev Reference := String → Option Field.Value

/-- What opens a placeholder. -/
def opening : List Char := ['\x7b', '\x7b']

/-- What closes a placeholder. -/
def closing : List Char := ['\x7d', '\x7d']

/-- What stands in a placeholder. -/
inductive Expr where
  /-- The value of a field. -/
  | field (name : String)
  /-- A text that is final. -/
  | literal (text : String)
deriving DecidableEq

/-- The characters of field names. -/
def isNameChar (c : Char) : Bool :=
  c.isAlphanum || c == '_' || c == '-'

/-- The text between a first and a last double quote, if it holds no other one. -/
def literal? : List Char → Option (List Char)
  | '"' :: cs =>
    match cs.reverse with
    | '"' :: r => if r.contains '"' then none else some r.reverse
    | _ => none
  | _ => none

/-- The field name after a dot. -/
def fieldName? : List Char → Option (List Char)
  | '.' :: name => if !name.isEmpty && name.all isNameChar then some name else none
  | _ => none

/-- Reads what stands in a placeholder, blanks around it removed. -/
def Expr.parse (cs : List Char) : Except Error Expr :=
  match literal? cs with
  | some t => .ok (.literal (String.ofList t))
  | none =>
    match fieldName? cs with
    | some n => .ok (.field (String.ofList n))
    | none => .error (.expression (String.ofList cs))

/-- A part of a template under way. -/
inductive Piece where
  /-- Text that may hold placeholders. -/
  | text (cs : List Char)
  /-- Text that is final. -/
  | final (cs : List Char)
deriving DecidableEq

/-- The characters of a piece. -/
def Piece.chars : Piece → List Char
  | text cs => cs
  | final cs => cs

/-- Whether a text still opens a placeholder. -/
def isPending (cs : List Char) : Bool :=
  Text.contains opening cs

/-- Whether a piece still opens a placeholder. -/
def Piece.isPending : Piece → Bool
  | text cs => Template.isPending cs
  | final _ => false

/-- A piece of text, or nothing for the empty text. -/
def textPieces (cs : List Char) : List Piece :=
  if cs.isEmpty then [] else [.text cs]

/-- The piece that an expression stands for. -/
def Expr.expand (reference : Reference) : Expr → Except Error Piece
  | literal t => .ok (.final t.toList)
  | field name =>
    match reference name with
    | some v => .ok (.text v.render.toList)
    | none => .error (.unknownField name)

/-- What a round over one text comes to. -/
structure Round where
  /-- All pieces that are there then. -/
  pieces : List Piece
  /-- Why the round ended before the end of the text, if it did. -/
  ended : Except Error Unit

/-- One round over the rest of a text, onto the pieces that are there: its placeholders replaced,
from left to right.  The rest begins `offset` bytes into the text.  There is no result if a part is
taken from the rest where it has none. -/
def substituteOnto (reference : Reference) (template : String) (offset : Nat) (rest : List Char)
    (out : List Piece) : Option Round :=
  match Utf8.find? opening rest with
  | none => some ⟨out ++ textPieces rest, .ok ()⟩
  | some openAt =>
    match Utf8.slice? rest openAt (Utf8.size rest) with
    | none => none
    | some opened =>
      match Utf8.find? closing opened with
      | none => some ⟨out, .error (.unclosed template (offset + openAt))⟩
      | some length =>
        let closeAt := openAt + length + 2
        match Utf8.slice? rest 0 openAt, Utf8.slice? rest (openAt + 2) (closeAt - 2),
            _h : Utf8.slice? rest closeAt (Utf8.size rest) with
        | some before, some expr, some after =>
          let out := out ++ textPieces before
          match (Expr.parse (Text.trimChars expr)).bind (Expr.expand reference) with
          | .error e => some ⟨out, .error e⟩
          | .ok piece => substituteOnto reference template (offset + closeAt) after (out ++ [piece])
        | _, _, _ => none
termination_by rest.length
decreasing_by exact Utf8.length_lt_of_slice? _h (by omega)

section

variable {reference : Reference} {template : String} {offset : Nat} {out : List Piece}
  {cs before inner expr rest : List Char}

theorem substituteOnto_plain (h : Text.cut opening cs = none) :
    substituteOnto reference template offset cs out = some ⟨out ++ textPieces cs, .ok ()⟩ := by
  rw [substituteOnto, Utf8.find?_eq_none_iff.2 h]

/-- From a pattern on, a text can be taken as a part. -/
theorem slice?_of_cut {pattern : List Char} (h : Text.cut pattern cs = some (before, inner)) :
    Utf8.slice? cs (Utf8.size before) (Utf8.size cs) = some (pattern ++ inner) := by
  obtain rfl := Text.eq_of_cut h
  exact Utf8.slice?_eq_some_iff.2 ⟨before, [], by simp, rfl, by simp⟩

/-- No braces close before those that open have ended. -/
theorem find?_closing :
    Utf8.find? closing (opening ++ inner) = (Utf8.find? closing inner).map (2 + ·) := by
  have hcut : Text.cut closing (opening ++ inner) =
      (Text.cut closing inner).map fun parts => (opening ++ parts.1, parts.2) := by
    simp [opening, closing, Text.cut, List.isPrefixOf, Function.comp_def]
  have hsize : Utf8.size opening = 2 := by decide
  rw [Utf8.find?, Utf8.find?, hcut, Option.map_map, Option.map_map]
  simp only [Function.comp_def, Utf8.size_append, hsize]

theorem substituteOnto_unclosed (hopen : Text.cut opening cs = some (before, inner))
    (hclose : Text.cut closing inner = none) :
    substituteOnto reference template offset cs out =
      some ⟨out, .error (.unclosed template (offset + Utf8.size before))⟩ := by
  rw [substituteOnto, Utf8.find?_eq_some_iff.2 ⟨before, inner, hopen, rfl⟩]
  simp only [slice?_of_cut hopen, find?_closing, Utf8.find?_eq_none_iff.2 hclose, Option.map_none]

/-- All parts that are taken out are there: the text before the placeholder, what stands in it,
and the text after it. -/
theorem substituteOnto_placeholder (hopen : Text.cut opening cs = some (before, inner))
    (hclose : Text.cut closing inner = some (expr, rest)) :
    substituteOnto reference template offset cs out =
      match (Expr.parse (Text.trimChars expr)).bind (Expr.expand reference) with
      | .error e => some ⟨out ++ textPieces before, .error e⟩
      | .ok piece => substituteOnto reference template
          (offset + Utf8.size before + 2 + Utf8.size expr + 2) rest
          (out ++ textPieces before ++ [piece]) := by
  rw [substituteOnto, Utf8.find?_eq_some_iff.2 ⟨before, inner, hopen, rfl⟩]
  simp only [slice?_of_cut hopen, find?_closing,
    Utf8.find?_eq_some_iff.2 ⟨expr, rest, hclose, rfl⟩, Option.map_some]
  have hcs : cs = before ++ (opening ++ (expr ++ (closing ++ rest))) := by
    rw [Text.eq_of_cut hopen, Text.eq_of_cut hclose]
    simp
  have hbraces : Utf8.size opening = 2 ∧ Utf8.size closing = 2 := by decide
  have hbefore : Utf8.slice? cs 0 (Utf8.size before) = some before :=
    Utf8.slice?_eq_some_iff.2 ⟨[], _, hcs, rfl, by simp⟩
  have hexpr : Utf8.slice? cs (Utf8.size before + 2)
      (Utf8.size before + (2 + Utf8.size expr) + 2 - 2) = some expr := by
    refine Utf8.slice?_eq_some_iff.2 ⟨before ++ opening, closing ++ rest, by simp [hcs], ?_, ?_⟩
    · rw [Utf8.size_append, hbraces.1]
    · omega
  have hrest : Utf8.slice? cs (Utf8.size before + (2 + Utf8.size expr) + 2) (Utf8.size cs) =
      some rest := by
    refine Utf8.slice?_eq_some_iff.2 ⟨before ++ opening ++ expr ++ closing, [], by simp [hcs], ?_, ?_⟩
    · simp only [Utf8.size_append, hbraces]
      omega
    · simp only [hcs, Utf8.size_append, hbraces]
      omega
  split
  · next b e r hb he hr =>
    obtain rfl := Option.some.inj (hbefore.symm.trans hb)
    obtain rfl := Option.some.inj (hexpr.symm.trans he)
    obtain rfl := Option.some.inj (hrest.symm.trans hr)
    have hoffset : offset + (Utf8.size before + (2 + Utf8.size expr) + 2) =
        offset + Utf8.size before + 2 + Utf8.size expr + 2 := by omega
    rw [hoffset]
  · next hnone => exact absurd hrest (hnone _ _ _ hbefore hexpr)

end

theorem isSome_substituteOnto (reference : Reference) (template : String) (offset : Nat)
    (cs : List Char) (out : List Piece) :
    (substituteOnto reference template offset cs out).isSome :=
  match hopen : Text.cut opening cs with
  | none => by rw [substituteOnto_plain hopen]; rfl
  | some (before, inner) =>
    match hclose : Text.cut closing inner with
    | none => by rw [substituteOnto_unclosed hopen hclose]; rfl
    | some (expr, rest) => by
      rw [substituteOnto_placeholder hopen hclose]
      split
      · rfl
      · exact isSome_substituteOnto ..
termination_by cs.length
decreasing_by
  have := Text.length_lt_of_cut (by simp [opening]) hopen
  have := Text.length_lt_of_cut (by simp [closing]) hclose
  omega

/-- One round over one text that begins `offset` bytes into the text of the round. -/
def substitute (reference : Reference) (template : String) (offset : Nat) (cs : List Char) :
    Except Error (List Piece) :=
  let round := (substituteOnto reference template offset cs []).get
    (isSome_substituteOnto reference template offset cs [])
  round.ended.map fun _ => round.pieces

/-- One round over all pieces. -/
def expandOnce (reference : Reference) (template : String) : List Piece → Except Error (List Piece)
  | [] => .ok []
  | p :: ps => do
    let here ←
      match p with
      | .text cs =>
        if isPending cs then substitute reference template 0 cs else .ok [p]
      | .final _ => .ok [p]
    let more ← expandOnce reference template ps
    return here ++ more

/-- Up to `n` rounds over all pieces, ended when none is pending; none if some still are. -/
def expand (reference : Reference) (template : String) :
    Nat → List Piece → Except Error (Option (List Piece))
  | 0, ps => .ok (if ps.any Piece.isPending then none else some ps)
  | n + 1, ps =>
    if ps.any Piece.isPending then do
      let next ← expandOnce reference template ps
      expand reference template n next
    else .ok (some ps)

/-- The text of a template after at most `rounds` rounds. -/
def render (reference : Reference) (rounds : Nat) (template : String) : Except Error String :=
  match expand reference template rounds [.text template.toList] with
  | .error e => .error e
  | .ok none => .error (.loop template rounds)
  | .ok (some ps) => .ok (String.ofList (ps.flatMap Piece.chars))

end Template

end Provisioning
