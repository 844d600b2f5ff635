import SchemaForge.Text.Chars
import SchemaForge.Text.Width

/- Tables with light rules between header, body and footer, and none around them. -/
namespace SchemaForge

structure Table where
  header : List String
  rows : List (List String)
  footer : List String
  deriving Repr

namespace Table

inductive Align where
  | left
  | right
  deriving DecidableEq, Repr

/-- The wider of two cells, column by column. -/
def widen : List Nat → List Nat → List Nat
  | a :: as, b :: bs => max a b :: widen as bs
  | [], bs => bs
  | as, [] => as

def widths (t : Table) : List Nat :=
  (t.header :: t.footer :: t.rows).foldl (fun ws row => widen ws (row.map Text.width)) []

def blanks (n : Nat) : String := String.ofList (List.replicate n ' ')

def cell (align : Align) (width : Nat) (text : String) : String :=
  let gap := blanks (width - Text.width text)
  match align with
  | .left => " " ++ text ++ gap ++ " "
  | .right => " " ++ gap ++ text ++ " "

def line (align : Align) (widths : List Nat) (row : List String) : String :=
  Text.joinWith "│" ((widths.zip row).map fun (w, text) => cell align w text)

def rule (widths : List Nat) : String :=
  Text.joinWith "┼" (widths.map fun w => String.ofList (List.replicate (w + 2) '─'))

/-- Columns of text stand left; one without rows is not known to hold text, and stands right. -/
def align (t : Table) : Align := if t.rows.isEmpty then .right else .left

def lines (t : Table) : List String :=
  let ws := t.widths
  [line t.align ws t.header, rule ws]
    ++ (if t.rows.isEmpty then [] else t.rows.map (line t.align ws) ++ [rule ws])
    ++ [line t.align ws t.footer]

def text (t : Table) : String := String.join (t.lines.map (· ++ "\n"))

end Table

end SchemaForge
