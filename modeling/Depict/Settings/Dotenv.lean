import Depict.Settings.Pairs
import Depict.Text.Lines
import Depict.Text.Trim

/-!
# Declarations in a text

A text declares values line by line. A declaration is a key and a value around the
first equals sign, with blanks taken off both and quotation marks off the value;
the word export may stand before it. Blank lines, comments, lines without an
equals sign and lines without a key declare nothing. A key declared again takes
the later value and keeps its place.
-/
namespace Depict.Dotenv
open Text

/-- The word that may stand before a declaration, with the space after it. -/
def exportWord : List Char :=
  ['e', 'x', 'p', 'o', 'r', 't', ' ']

/-- A trimmed line without the word export. -/
def dropExport (line : List Char) : List Char :=
  if exportWord.isPrefixOf line then (line.drop exportWord.length).dropWhile isBlank else line

/-- A value without blanks at its ends, then without single marks there, then without double
ones. -/
def unquote (value : List Char) : List Char :=
  trimBy (· == '\x22') (trimBy (· == '\x27') (trim value))

/-- Whether a line without export declares nothing from the start. -/
def isSkipped (line : List Char) : Bool :=
  line.isEmpty || line.head? == some '#' || !line.contains '='

/-- What a line declares. -/
def declaration? (line : List Char) : Option (List Char × List Char) :=
  let body := dropExport (trim line)
  if isSkipped body then none
  else
    let key := trim (body.takeWhile (· != '='))
    if key.isEmpty then none
    else some (key, unquote ((body.dropWhile (· != '=')).drop 1))

/-- The declarations so far with that of one more line. -/
def declare (ps : Pairs) (line : List Char) : Pairs :=
  match declaration? line with
  | none => ps
  | some (key, value) => ps.put (String.ofList key) (String.ofList value)

/-- What a text declares. -/
def parse (text : List Char) : Pairs :=
  (lines text).foldl declare []

end Depict.Dotenv
