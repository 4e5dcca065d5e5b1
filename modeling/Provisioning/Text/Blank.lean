/-!
# Blanks, trimming and lines

Blank characters are those of the Unicode property `White_Space`.  Lines end at a line feed, which
takes a carriage return right before it along; a text that ends in a line feed has no empty line
after it.
-/

namespace Provisioning

namespace Text

/-- The 25 characters of the Unicode property `White_Space`. -/
def isBlank (c : Char) : Bool :=
  let n := c.toNat
  (0x9 ≤ n && n ≤ 0xD) || n == 0x20 || n == 0x85 || n == 0xA0 || n == 0x1680
    || (0x2000 ≤ n && n ≤ 0x200A) || n == 0x2028 || n == 0x2029 || n == 0x202F
    || n == 0x205F || n == 0x3000

/-- Drops what satisfies `p` at the end of a list. -/
def dropWhileEnd {α : Type} (p : α → Bool) (cs : List α) : List α :=
  (cs.reverse.dropWhile p).reverse

/-- The characters without the blanks around them. -/
def trimChars (cs : List Char) : List Char :=
  dropWhileEnd isBlank (cs.dropWhile isBlank)

/-- The text without the blanks around it. -/
def trim (s : String) : String :=
  String.ofList (trimChars s.toList)

/-- Whether a text holds nothing but blanks. -/
def isBlankText (s : String) : Bool :=
  s.toList.all isBlank

/-- The pieces of a text, each up to and with the next line feed; the last one may lack it. -/
def pieces {α : Type} [BEq α] (feed : α) : List α → List (List α)
  | [] => []
  | c :: cs =>
    if c == feed then [c] :: pieces feed cs
    else
      match pieces feed cs with
      | [] => [[c]]
      | p :: ps => (c :: p) :: ps

/-- A piece without its line feed and the carriage return before it. -/
def chomp (piece : List Char) : List Char :=
  match piece.reverse with
  | '\n' :: '\r' :: r => r.reverse
  | '\n' :: r => r.reverse
  | _ => piece

/-- The lines of a text. -/
def lines (s : String) : List String :=
  (pieces '\n' s.toList).map fun p => String.ofList (chomp p)

/-- The words of a text: what stands between blanks. -/
def words : List Char → List (List Char)
  | [] => []
  | c :: cs =>
    if isBlank c then words cs
    else
      match cs with
      | [] => [[c]]
      | d :: _ =>
        if isBlank d then [c] :: words cs
        else
          match words cs with
          | [] => [[c]]
          | w :: ws => (c :: w) :: ws

/-- The texts in order with `sep` between each two. -/
def join (sep : String) (ts : List String) : String :=
  sep.intercalate ts

/-- Nothing is lost when a text is cut into pieces. -/
theorem flatten_pieces {α : Type} [BEq α] (feed : α) (cs : List α) :
    (pieces feed cs).flatten = cs := by
  induction cs with
  | nil => rfl
  | cons c cs ih =>
    unfold pieces
    split
    · simp [ih]
    · cases h : pieces feed cs with
      | nil => simp [h] at ih; simp [← ih]
      | cons p ps => simp [h] at ih; simp [← ih]

end Text

end Provisioning
