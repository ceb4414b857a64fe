import Reckon.Toml.Reader

/-!
# TOML documents

The lines of a document, taken in order, build its table: a header opens a table, and the pairs
after it belong there.
-/

namespace Reckon.Toml

/-- The table of a document so far, and the path of the table that is open. -/
structure Draft where
  table : Children
  current : Path

/-- Takes in one more line. -/
def Draft.add (d : Draft) : Line → Option Draft
  | .table path => (openTable path d.table).map fun table => ⟨table, path⟩
  | .tables path => (openNext path d.table).map fun table => ⟨table, path⟩
  | .pair path value =>
    (updateAt .implied (addValue path value) d.current .header d.table).map fun (_, table) =>
      { d with table }

/-- The named values of a document, if the text is one. A byte order mark may stand in front. -/
def parse (text : String) : Option (Entries Value) := do
  let cs := match text.toList with
    | '\uFEFF' :: rest => rest
    | cs => cs
  let lines ← readDocument cs
  let draft ← lines.foldlM Draft.add ⟨[], []⟩
  return entryValues draft.table

end Reckon.Toml
