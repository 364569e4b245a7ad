import Vouch.Decimal.Fixed
import Vouch.Decimal.Shortest
import Vouch.Fields

namespace Vouch

/-- A text in one line of a table: tabs and line ends are written as escapes. -/
def oneLine (text : String) : String :=
  String.join (text.toList.map fun c =>
    if c = '\t' then "\\t" else if c = '\n' then "\\n" else if c = '\r' then "\\r" else c.toString)

/-- Decimals without the zeros at the end that all of them have. One place stays. -/
def trimZeros (decimals : List String) : List String :=
  let spare := fun zeros : List Char => decimals.all fun d => zeros.isPrefixOf d.toList.reverse
  let cut := if spare ['0', '0'] then 2 else if spare ['0'] then 1 else 0
  decimals.map fun d => String.ofList (d.toList.take (d.length - cut))

/-- A column, its head first, set to the right. -/
def alignRight (cells : List String) : List String :=
  let width := (cells.map String.length).foldl max 0
  cells.map fun cell => String.ofList (List.replicate (width - cell.length) ' ') ++ cell

namespace Score

def truth (value : Bool) : String := if value then "True" else "False"

/-- The distance from the root, one below zero for what cannot be reached. -/
def depthText (s : Score Float) : String :=
  match s.standing.depth with
  | none => "-1"
  | some depth => toString depth

/-- The cells of a table, column by column. Values are rounded to three places. -/
def tableColumns (scores : List (Score Float)) : List (List String) :=
  [scores.map (oneLine ·.id), scores.map fun s => oneLine (s.label.getD "None"),
    scores.map (oneLine ·.role), scores.map (toString ·.standing.incoming),
    scores.map (toString ·.standing.outgoing), scores.map (toString ·.standing.issuers),
    scores.map (toString ·.standing.reciprocal), scores.map depthText,
    trimZeros (scores.map (Decimal.writeFixed 3 ·.value)),
    scores.map (truth ·.standing.rootIssued)]

/-- The heads of a table. Those of numbers and truth values are set off by a space. -/
def tableHeads : List String :=
  columns.take 3 ++ (columns.drop 3).map (" " ++ ·)

/-- A table of scores for readers. -/
def table (scores : List (Score Float)) : String :=
  if scores.isEmpty then
    "Empty DataFrame\nColumns: [" ++ ", ".intercalate columns ++ "]\nIndex: []"
  else
    let cells := (tableHeads.zipWith (· :: ·) (tableColumns scores)).map alignRight
    let row := fun i => " ".intercalate (cells.map fun column => column.getD i "")
    "\n".intercalate ((List.range (scores.length + 1)).map row)

/-- A cell between commas. It is quoted if it holds a comma, a quote or a line feed, and quotes
inside of it are doubled. -/
def commaCell (text : String) : String :=
  let cs := text.toList
  if cs.any fun c => c = ',' || c = '"' || c = '\n' then
    "\"" ++ String.ofList (cs.flatMap fun c => if c = '"' then ['"', '"'] else [c]) ++ "\""
  else text

/-- The cells of a score between commas. Values are written in full. -/
def commaCells (s : Score Float) : List String :=
  [s.id, s.label.getD "", s.role, toString s.standing.incoming, toString s.standing.outgoing,
    toString s.standing.issuers, toString s.standing.reciprocal, s.depthText,
    Decimal.writeDouble s.value, truth s.standing.rootIssued]

/-- A table of scores for other programs, a line for each. -/
def commaTable (scores : List (Score Float)) : String :=
  String.join ((columns :: scores.map commaCells).map fun cells =>
    ",".intercalate (cells.map commaCell) ++ "\n")

end Score

end Vouch
