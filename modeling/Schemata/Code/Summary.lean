import Schemata.Code.Artifact

/-!
# Summaries

A page that goes with a set of generated files: how many there are, their names in the order in
which they are applied, and how to apply them.
-/

namespace Schemata.Code

def instructions (isLaravel : Bool) : String :=
  "\n## Installation Instructions\n\n" ++
    if isLaravel then
      "1. Copy all migration files to your Laravel project's \x60database/migrations/\x60 " ++
        "directory\n2. Run \x60php artisan migrate\x60\n"
    else
      "Apply the files in filename order. Rollback files (\x60*.down.sql\x60) are applied\n" ++
        "in reverse filename order.\n"

/-- The names of files with their tables, one on a line. -/
def fileList (files : List Artifact) : String :=
  if files.isEmpty then "- none"
  else "\n".intercalate (files.map fun a => "- " ++ a.name ++ " (" ++ a.table ++ ")")

/-- The page for files that were generated at a moment. Files that undo others are left out. -/
def summary (files : List Artifact) (target : Option Dialect) (moment : Instant) : String :=
  let forward := files.filter (!·.isRollback)
  let creates := forward.filter (·.phase = .createTable)
  let attachments := forward.filter (·.phase = .attachForeignKeys)
  let isLaravel : Bool := target = some .laravel
  "# " ++ (if isLaravel then "Laravel Migrations" else "SQL Migrations") ++ "\n\nGenerated on " ++
    moment.civil.iso ++ "\n\n## Summary\n- **Total Migrations**: " ++ Text.natText forward.length ++
    "\n- **Table Migrations**: " ++ Text.natText creates.length ++
    "\n- **Relationship Migrations**: " ++ Text.natText attachments.length ++
    "\n\n## Migration Files\n\n### Table Creation Migrations\n" ++ fileList creates ++
    "\n\n### Foreign Key Migrations\n" ++ fileList attachments ++
    "\n\n## Migration Order\n\nFiles are prefixed with sortable sequence ids:\n" ++
    "1. All table creation migrations run first\n" ++
    "2. Foreign key constraint migrations run after tables are created\n" ++
    instructions isLaravel

end Schemata.Code
