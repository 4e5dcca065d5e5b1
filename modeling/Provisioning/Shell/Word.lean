/-!
# Words for a shell

`Shell.quote` writes a text as one word of a POSIX shell.
-/

namespace Provisioning

namespace Shell

/-- The characters that a bare word may hold. -/
def isBare (c : Char) : Bool :=
  c.isAlphanum || c == '-' || c == '_' || c == '=' || c == '/' || c == ',' || c == '.' || c == '+'

/-- A character inside single quotes.  A single quote and an exclamation mark leave the quotes,
take a backslash and enter them again. -/
def singleQuotedChar (c : Char) : List Char :=
  if c == '\'' || c == '!' then ['\'', '\\', c, '\''] else [c]

/-- A text as the characters of one word: bare where that is safe, else in single quotes. -/
def quoteChars (cs : List Char) : List Char :=
  if !cs.isEmpty && cs.all isBare then cs
  else '\'' :: (cs.flatMap singleQuotedChar ++ ['\''])

/-- A text as one word. -/
def quote (word : String) : String :=
  String.ofList (quoteChars word.toList)

end Shell

end Provisioning
