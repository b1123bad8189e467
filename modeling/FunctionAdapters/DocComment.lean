import FunctionAdapters.Text.Segments

/-!
Documentation text as the comment of a generated member: each line after an asterisk, without its
trailing carriage returns, between an opening and a closing line.
-/

namespace FunctionAdapters.DocComment

open Text

def opening : List Char := "    /**\n".toList

def margin : List Char := "     *".toList

def closing : List Char := "     */".toList

/-- A line of documentation as a line of the comment. -/
def line (content : List Char) : List Char := margin ++ trimEnd '\r' content ++ ['\n']

/-- The comment for some documentation text. -/
def render (raw : String) : String :=
  String.ofList (opening ++ (segments '\n' raw.toList).flatMap line ++ closing)

/-- Both kinds of line ends give the same comment. -/
example :
    render " Adds.\r\n @return sum" = "    /**\n     * Adds.\n     * @return sum\n     */" := by
  decide

end FunctionAdapters.DocComment
