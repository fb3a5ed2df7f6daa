import ScriptedRobot.Display

/-!
# Drawings

A display as lines of text. Panels get a frame, the cells of a column are as wide as the widest of them,
and things beside each other are brought to one height. Styles are not drawn.
-/

namespace ScriptedRobot

abbrev Drawing := List String

namespace Drawing

def width (d : Drawing) : Nat := d.foldl (fun widest line => max widest line.length) 0

def fill (n : Nat) (text : String) : String := text.pushn ' ' (n - text.length)

def fit (width height : Nat) (d : Drawing) : Drawing :=
  d.map (fill width) ++ List.replicate (height - d.length) (fill width "")

def stroke (n : Nat) : String := "".pushn '─' n

/-- Draws a frame with a title around a drawing. -/
def framed (title : String) (d : Drawing) : Drawing :=
  let inner := max d.width title.length
  let body := d.map fun line => "│ " ++ fill inner line ++ " │"
  ("╭ " ++ title ++ " " ++ stroke (inner - title.length) ++ "╮") :: body
    ++ ["╰" ++ stroke (inner + 2) ++ "╯"]

def beside : List Drawing → Drawing
  | [] => []
  | [d] => d
  | d :: rest =>
    let others := beside rest
    let height := max d.length others.length
    ((d.fit d.width height).zip (others.fit others.width height)).map fun (l, r) => l ++ "  " ++ r

def ofText (text : String) : Drawing := text.splitOn "\n"

/-- The widths that the columns of some rows need. -/
def columnWidths (rows : List (List Drawing)) : List Nat :=
  rows.foldl (fun widths row =>
    (List.range (max widths.length row.length)).map fun i =>
      max (widths.getD i 0) (width (row.getD i []))) []

def ofRow (widths : List Nat) (row : List Drawing) : Drawing :=
  let height := row.foldl (fun most cell => max most cell.length) 0
  beside ((row.zip widths).map fun (cell, n) => fit n height cell)

/-- Draws a table: its title, its header with a stroke below, and its rows. -/
def ofTable (t : Table) : Drawing :=
  let header := if t.hasHeader then [t.header.map ofText] else []
  let rows := t.rows.map fun row => row.map ofText
  let widths := columnWidths (header ++ rows)
  let under := if t.hasHeader then [beside (widths.map fun n => [stroke n])] else []
  t.title.toList ++ (header.map (ofRow widths) ++ under ++ rows.map (ofRow widths)).flatten

end Drawing

namespace Display

mutual

def drawing : Display → Drawing
  | line text | label text _ => Drawing.ofText text
  | symbols row => [String.ofList (row.map (·.symbol))]
  | panel title body => body.drawing.framed title
  | group parts => (drawings parts).flatten
  | columns parts => Drawing.beside (drawings parts)
  | table content => Drawing.ofTable content

def drawings : List Display → List Drawing
  | [] => []
  | d :: rest => d.drawing :: drawings rest

end

end Display

end ScriptedRobot
