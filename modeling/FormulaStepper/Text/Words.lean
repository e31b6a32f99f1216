/-!
# Words of a command line

A command line is split into words at blanks, tabs and line feeds. Quotes and
backslashes keep characters from separating: everything between single quotes
stands for itself, between double quotes a backslash escapes what would be
special there, and elsewhere a backslash escapes any character. An escaped
line feed vanishes. A number sign at the beginning of a word starts a comment.
A quote that stays open, or a backslash at the end, makes the line unreadable.
-/

set_option autoImplicit false

namespace FormulaStepper.Text.Words

/-- Where the reader is: between words, in a comment, or in a word. -/
inductive Mode where
  | between
  | comment
  | plain
  | escape
  | single
  | double
  | doubleEscape
deriving Repr, DecidableEq

/-- Whether a character separates words. -/
def isSeparator (c : Char) : Bool :=
  c == ' ' || c == '\t' || c == '\n'

/-- What one character does to the reader: the mode after it, and the
characters that it adds to the word. -/
def plainChar (c : Char) : Mode × List Char :=
  if c = '\x22' then (.double, [])
  else if c = '\x27' then (.single, [])
  else if c = '\\' then (.escape, [])
  else (.plain, [c])

/-- The characters that a backslash escapes between double quotes. -/
def isSpecialInDouble (c : Char) : Bool :=
  c == '$' || c == '\x60' || c == '\x22' || c == '\\'

/-- The words from here on; `word` is the part of the current one read so
far. -/
def splitFrom (mode : Mode) (word : List Char) : List Char → Option (List (List Char))
  | [] =>
    match mode with
    | .between | .comment => some []
    | .plain => some [word]
    | .escape | .single | .double | .doubleEscape => none
  | c :: rest =>
    match mode with
    | .between =>
      if isSeparator c then splitFrom .between [] rest
      else if c = '#' then splitFrom .comment [] rest
      else
        let (mode, added) := plainChar c
        splitFrom mode added rest
    | .comment => splitFrom (if c = '\n' then .between else .comment) [] rest
    | .plain =>
      if isSeparator c then (splitFrom .between [] rest).map (word :: ·)
      else
        let (mode, added) := plainChar c
        splitFrom mode (word ++ added) rest
    | .escape => splitFrom .plain (if c = '\n' then word else word ++ [c]) rest
    | .single =>
      if c = '\x27' then splitFrom .plain word rest else splitFrom .single (word ++ [c]) rest
    | .double =>
      if c = '\x22' then splitFrom .plain word rest
      else if c = '\\' then splitFrom .doubleEscape word rest
      else splitFrom .double (word ++ [c]) rest
    | .doubleEscape =>
      let added := if c = '\n' then [] else if isSpecialInDouble c then [c] else ['\\', c]
      splitFrom .double (word ++ added) rest

/-- The words of a line, if it can be read. -/
def split? (line : List Char) : Option (List (List Char)) :=
  splitFrom .between [] line

end FormulaStepper.Text.Words
